import RemoteTable.StateTransfer

/-!
# A server that joins while clients write

The joining server lists the keys of the primary, copies them one by one and then sends
OC_UP. The primary serves other clients between these calls and does not forward their
writes before OC_UP.
-/

namespace RemoteTable

variable {σ δ : Type}

/-- How far the joining server is, with the keys it has yet to fetch. -/
inductive JoinPhase
  | started
  | copying (keys : List CString)
  | joined

/-- The primary and its world, and the table of the server that joins. -/
structure Rejoin (σ δ : Type) where
  primary : Server δ
  world : σ
  backup : TableT
  phase : JoinPhase

inductive RejoinAction
  | client (request : Request)
  | list
  | copy
  | up (ipPort : CString)

/-- One call is handled by the primary. A client's keys came behind a KEYSIZE of two bytes. -/
inductive Rejoin.Step (net : Net σ δ) (pointerLow : Content → Int32) :
    Rejoin σ δ → RejoinAction → Rejoin σ δ → Prop
  | client {s : Rejoin σ δ} {request : Request} {reply : MessageT} {primary : Server δ}
      {world : σ} (hphase : s.phase ≠ .joined) (hwrite : isWrite request.msg.opcode)
      (hkeys : ∀ key ∈ request.keys, strlen key ≤ 65535)
      (h : handleRequest net s.primary s.world request.msg =
        .ok (.message reply, primary, world)) :
      Step net pointerLow s (.client request) ⟨primary, world, s.backup, s.phase⟩
  | list {s : Rejoin σ δ} {keys : List CString} {primary : Server δ} {world : σ}
      (hphase : s.phase = .started)
      (h : requestKeys (peerNet net) pointerLow () (s.primary, s.world) =
        .ok (keys, (primary, world))) :
      Step net pointerLow s .list ⟨primary, world, s.backup, .copying keys⟩
  | copy {s : Rejoin σ δ} {key : CString} {keys : List CString} {backup : TableT}
      {primary : Server δ} {world : σ} (hphase : s.phase = .copying (key :: keys))
      (h : copyKey (peerNet net) () key s.backup (s.primary, s.world) =
        .ok (backup, (primary, world))) :
      Step net pointerLow s .copy ⟨primary, world, backup, .copying keys⟩
  | up {s : Rejoin σ δ} {ipPort : CString} {reply : MessageT} {primary : Server δ} {world : σ}
      (hphase : s.phase = .copying [])
      (h : handleRequest net s.primary s.world (buildIpMsg ipPort) =
        .ok (.message reply, primary, world)) :
      Step net pointerLow s (.up ipPort) ⟨primary, world, s.backup, .joined⟩

/-- A client's write between the listing and OC_UP has no effect, or it concerns a key that
the joining server has yet to fetch. -/
def Rejoin.Quiet (s : Rejoin σ δ) : RejoinAction → Prop
  | .client request => ∀ keys, s.phase = .copying keys →
      request.apply s.primary.tabela.contents = s.primary.tabela.contents ∨
        ∀ key ∈ request.keys, key ∈ keys
  | _ => True

/-- The primary is down for its backup, and the joining server has an empty table. -/
structure Rejoin.Start (s : Rejoin σ δ) (n n' : ℤ) : Prop where
  phase : s.phase = .started
  primary : s.primary.tabela.Reachable n
  keys : ∀ key ∈ s.primary.tabela.contents, strlen key ≤ 65535
  status : s.primary.status = statusPrimary
  down : s.primary.state = stateDown
  backup : s.backup.Reachable n'
  empty : s.backup.contents = ∅

def Rejoin.Reaches (net : Net σ δ) (pointerLow : Content → Int32)
    (allowed : Rejoin σ δ → RejoinAction → Prop) : Rejoin σ δ → Rejoin σ δ → Prop :=
  Relation.ReflTransGen fun s s' => ∃ action, s.Step net pointerLow action s' ∧ allowed s action

/-! ### What a step that succeeds says -/

variable {net : Net σ δ} {world : σ} {n : ℤ} {m : KeyMap}

/-- A client's write at a primary whose backup is not up. -/
lemma client_step {primary primary' : Server δ} {world' : σ} {reply : Reply}
    (hr : primary.tabela.Represents n m) (hdown : primary.state ≠ stateUp) {request : Request}
    (hwrite : isWrite request.msg.opcode)
    (h : handleRequest net primary world request.msg = .ok (reply, primary', world')) :
    primary'.tabela.Represents n (request.apply m) ∧ primary'.state = primary.state := by
  obtain ⟨tabela, -, rfl, hr'⟩ :=
    handleRequest_write hr hwrite (not_forwards_of_not_up hdown) h
  exact ⟨hr', rfl⟩

lemma up_step {primary primary' : Server δ} {world' : σ} {reply : Reply} {ipPort : CString}
    (h : handleRequest net primary world (buildIpMsg ipPort) = .ok (reply, primary', world')) :
    primary'.tabela = primary.tabela := by
  have hstatus : ocUp ≠ ocStatus := by decide
  have hwrite : isWrite ocUp = false := by decide
  have hinvoke : invoke primary.tabela (buildIpMsg ipPort) = .ok (.unset, primary.tabela) :=
    invoke_default (by decide) (by decide)
  rw [handleRequest, hinvoke, ok_bind] at h
  have hlocal : ∀ server : Server δ, ¬server.Forwards ocUp := fun _ => not_forwards_of_read hwrite
  simp only [answerStatus, answerUp, forwardWrite, buildIpMsg, hstatus, if_false, if_true,
    Content.keyMember, ok_bind, pure_eq_ok] at h
  cases hconnect : net.networkConnect world ipPort with
  | mk backup world'' =>
    rw [hconnect] at h
    cases backup with
    | none =>
      simp only [ok_bind, hlocal, if_false, Except.ok.injEq, Prod.mk.injEq] at h
      rw [← h.2.1]
    | some backup =>
      simp only [ok_bind, hlocal, if_false, Except.ok.injEq, Prod.mk.injEq] at h
      rw [← h.2.1]

variable {remote : Server δ} {remote' : Server δ × σ}

/-- A listing that arrives names the keys of the table as it is. -/
lemma list_step (hr : remote.tabela.Represents n remote.tabela.contents)
    (hkeys : ∀ key ∈ remote.tabela.contents, strlen key ≤ 65535) {pointerLow : Content → Int32}
    (hptr : ∀ content, pointerLow content ≠ 0) {keys : List CString}
    (h : requestKeys (peerNet net) pointerLow () (remote, world) = .ok (keys, remote')) :
    keys = collectKeys remote.tabela.buckets ∧ remote' = (remote, world) := by
  by_cases hsize :
      (wireFormat ⟨ocGet + 1, .keys (collectKeys remote.tabela.buckets)⟩).length < 2 ^ 31
  · rw [requestKeys_peer net world hr hkeys hsize hptr] at h
    simp only [Except.ok.injEq, Prod.mk.injEq] at h
    exact ⟨h.1.symm, h.2.symm⟩
  · have hne : remote.tabela.contents ≠ ∅ := by
      intro hempty
      rw [collectKeys_of_empty (hempty ▸ hr)] at hsize
      exact hsize (by decide)
    have hcall := remoteCall_of_ge (encodable_get strlen_bang) (not_lt.mp hsize)
      (handleRequest_get net world (invokeGet_listing hr hne))
    simp [requestKeys, peerNet, hcall, error_bind] at h

lemma copyKey_of_get {key : CString} (hkey : strlen key ≤ 65535) {reply : MessageT}
    (hreply : ∀ key ∈ reply.content.strings, strlen key ≤ 65535)
    (hget : invokeGet remote.tabela (.key key) = .ok (.message reply, remote.tabela))
    {backup : TableT} {r : TableT × Server δ × σ}
    (h : copyKey (peerNet net) () key backup (remote, world) = .ok r) :
    ∃ data tabela reply', reply.content = .data data ∧
      invoke backup ⟨ocPut, .entry ⟨key, data⟩⟩ = .ok (reply', tabela) ∧
      r = (tabela, (remote, world)) := by
  have hhandle := handleRequest_get net world hget
  by_cases hsize : (wireFormat reply).length < 2 ^ 31
  · have hcall := remoteCall_ok (encodable_get hkey) ⟨hreply, hsize⟩ hhandle
    simp only [copyKey, peerNet, hcall, ok_bind, pure_eq_ok] at h
    obtain ⟨data, hdata, hrest⟩ := bind_eq_ok h
    obtain ⟨⟨reply', tabela⟩, hput, hr⟩ := bind_eq_ok hrest
    refine ⟨data, tabela, reply', ?_, hput, (Except.ok.inj hr).symm⟩
    cases hcontent : reply.content with
    | data d =>
      rw [hcontent, Content.dataMember, Except.ok.injEq] at hdata
      rw [hdata]
    | _ =>
      rw [hcontent] at hdata
      cases hdata
  · have hcall := remoteCall_of_ge (encodable_get hkey) (not_lt.mp hsize) hhandle
    simp [copyKey, peerNet, hcall, error_bind] at h

lemma invokeGet_of_neg {tabela : TableT} (hr : tabela.Represents n m) {key : CString}
    (hbang : key ≠ bang) (hk : keyHash key n < 0) :
    invokeGet tabela (.key key) = .error .outOfBounds := by
  have hcmp : ¬strcmp bang key = 0 := by
    rw [strcmp_eq_zero_iff]
    exact Ne.symm hbang
  simp only [invokeGet, Content.keyMember, ok_bind, if_neg hcmp, tableGet, bucketAt, hr.size,
    if_pos hk, error_bind]

lemma handleRequest_get_error (net : Net σ δ) (world : σ) {key : CString} {e : Fault}
    (h : invokeGet remote.tabela (.key key) = .error e) :
    handleRequest net remote world ⟨ocGet, .key key⟩ = .error e := by
  have hstatus : ocGet ≠ ocStatus := by decide
  have hup : ocGet ≠ ocUp := by decide
  have hread : isWrite ocGet = false := by decide
  rw [handleRequest_of_local hstatus hup (not_forwards_of_read hread), invoke_get, h, error_bind]

/-- A pair that was copied is the one that the other table holds. -/
lemma copy_step (hr : remote.tabela.Represents n remote.tabela.contents)
    (hkeys : ∀ key ∈ remote.tabela.contents, strlen key ≤ 65535)
    {key : CString} (hkey : strlen key ≤ 65535) {backup backup' : TableT} {n' : ℤ}
    (hb : backup.Represents n' m) (hnew : key ∉ m)
    (h : copyKey (peerNet net) () key backup (remote, world) = .ok (backup', remote')) :
    remote' = (remote, world) ∧ ∃ data, remote.tabela.contents.lookup key = some data ∧
      backup'.Represents n' (m.insert key data) := by
  by_cases hbang : key = bang
  · subst hbang
    by_cases hne : remote.tabela.contents = ∅
    · obtain ⟨data, _, _, hdata, -⟩ := copyKey_of_get hkey (by decide)
        (invokeGet_empty (hne ▸ hr)) h
      cases hdata
    · have hlisted : ∀ k ∈ (Content.keys (collectKeys remote.tabela.buckets)).strings,
          strlen k ≤ 65535 := fun k hmem => hkeys k ((mem_collectKeys hr k).mp hmem)
      obtain ⟨data, _, _, hdata, -⟩ := copyKey_of_get hkey hlisted (invokeGet_listing hr hne) h
      cases hdata
  · by_cases hk : 0 ≤ keyHash key n
    · have hget := invokeGet_refines hr hk hbang
      rw [Request.reply] at hget
      cases hlook : remote.tabela.contents.lookup key with
      | none =>
        rw [hlook] at hget
        obtain ⟨data, _, _, hdata, -⟩ := copyKey_of_get hkey (by decide) hget h
        cases hdata
      | some data =>
        rw [hlook] at hget
        obtain ⟨data', tabela, reply', hdata, hput, hpair⟩ :=
          copyKey_of_get hkey (by simp [Content.strings]) hget h
        cases hdata
        rw [invoke_put] at hput
        obtain ⟨backup'', hput', hb'⟩ := invokePut_refines hb (keyHash_nonneg_of_invokePut hb hput)
        rw [hput'] at hput
        simp only [Except.ok.injEq, Prod.mk.injEq] at hput hpair
        rw [mapPut, if_neg hnew] at hb'
        rw [hpair.1, ← hput.2]
        exact ⟨hpair.2, data, rfl, hb'⟩
    · have hcall := remoteCall_error (encodable_get hkey)
        (handleRequest_get_error net world (invokeGet_of_neg hr hbang (not_le.mp hk)))
      simp [copyKey, peerNet, hcall, error_bind] at h

/-! ### The invariant of the copy -/

/-- The copy `m'` of `m` with `keys` still to be fetched. -/
structure Copied (keys : List CString) (m m' : KeyMap) : Prop where
  nodup : keys.Nodup
  lengths : ∀ key ∈ keys, strlen key ≤ 65535
  absent : ∀ key ∈ keys, key ∉ m'
  agree : ∀ key, key ∉ keys → m'.lookup key = m.lookup key

def JoinPhase.Holds (phase : JoinPhase) (state : ℤ) (m m' : KeyMap) : Prop :=
  match phase with
  | .started => state ≠ stateUp ∧ m' = ∅
  | .copying keys => state ≠ stateUp ∧ Copied keys m m'
  | .joined => m' = m

structure Rejoin.Inv (n n' : ℤ) (s : Rejoin σ δ) : Prop where
  primary : s.primary.tabela.Represents n s.primary.tabela.contents
  keys : ∀ key ∈ s.primary.tabela.contents, strlen key ≤ 65535
  backup : s.backup.Represents n' s.backup.contents
  phase : s.phase.Holds s.primary.state s.primary.tabela.contents s.backup.contents

variable {n' : ℤ} {s : Rejoin σ δ}

lemma Rejoin.Inv.not_up (h : s.Inv n n') (hphase : s.phase ≠ .joined) :
    s.primary.state ≠ stateUp := by
  have hholds := h.phase
  unfold JoinPhase.Holds at hholds
  cases hp : s.phase with
  | started =>
    rw [hp] at hholds
    exact hholds.1
  | copying keys =>
    rw [hp] at hholds
    exact hholds.1
  | joined => exact absurd hp hphase

lemma Rejoin.Inv.copied (h : s.Inv n n') {keys : List CString} (hphase : s.phase = .copying keys) :
    s.primary.state ≠ stateUp ∧ Copied keys s.primary.tabela.contents s.backup.contents := by
  have hholds := h.phase
  rw [hphase] at hholds
  exact hholds

lemma Rejoin.Inv.client (h : s.Inv n n') (hphase : s.phase ≠ .joined) {request : Request}
    (hwrite : isWrite request.msg.opcode) (hkeys : ∀ key ∈ request.keys, strlen key ≤ 65535)
    {reply : Reply} {primary : Server δ} {world : σ}
    (hstep : handleRequest net s.primary s.world request.msg = .ok (reply, primary, world))
    (hquiet : s.Quiet (.client request)) :
    Rejoin.Inv n n' ⟨primary, world, s.backup, s.phase⟩ := by
  obtain ⟨hr, hstate⟩ := client_step h.primary (h.not_up hphase) hwrite hstep
  have hcontents := hr.contents
  refine ⟨hr.self, ?_, h.backup, ?_⟩
  · intro key hmem
    rw [hcontents] at hmem
    rcases mem_apply hmem with hold | hnew
    · exact h.keys key hold
    · exact hkeys key hnew
  · have hholds := h.phase
    simp only [hcontents, hstate]
    unfold JoinPhase.Holds at hholds ⊢
    cases hp : s.phase with
    | started =>
      rw [hp] at hholds
      exact hholds
    | joined => exact absurd hp hphase
    | copying keys =>
      rw [hp] at hholds
      obtain ⟨hdown, hcopied⟩ := hholds
      refine ⟨hdown, hcopied.nodup, hcopied.lengths, hcopied.absent, ?_⟩
      intro key hnot
      rw [hcopied.agree key hnot]
      rcases hquiet keys hp with hsame | hmine
      · rw [hsame]
      · rw [lookup_apply_of_not_mem (fun hin => hnot (hmine key hin))]

lemma Rejoin.Inv.list (h : s.Inv n n') (hphase : s.phase = .started)
    {pointerLow : Content → Int32} (hptr : ∀ content, pointerLow content ≠ 0)
    {keys : List CString} {primary : Server δ} {world : σ}
    (hstep : requestKeys (peerNet net) pointerLow () (s.primary, s.world) =
      .ok (keys, (primary, world))) :
    Rejoin.Inv n n' ⟨primary, world, s.backup, .copying keys⟩ := by
  obtain ⟨rfl, hsame⟩ := list_step h.primary h.keys hptr hstep
  obtain ⟨rfl, rfl⟩ := Prod.mk.injEq .. ▸ hsame
  have hholds := h.phase
  rw [hphase] at hholds
  obtain ⟨hdown, hempty⟩ := hholds
  refine ⟨h.primary, h.keys, h.backup, hdown, nodup_collectKeys h.primary, ?_, ?_, ?_⟩
  · exact fun key hmem => h.keys key ((mem_collectKeys h.primary key).mp hmem)
  · intro key _
    simp only [hempty]
    exact Finmap.notMem_empty
  · intro key hnot
    simp only [hempty]
    rw [mem_collectKeys h.primary] at hnot
    rw [Finmap.lookup_empty, Finmap.lookup_eq_none.mpr hnot]

lemma Rejoin.Inv.copy (h : s.Inv n n') {key : CString} {keys : List CString}
    (hphase : s.phase = .copying (key :: keys)) {backup : TableT} {primary : Server δ} {world : σ}
    (hstep : copyKey (peerNet net) () key s.backup (s.primary, s.world) =
      .ok (backup, (primary, world))) :
    Rejoin.Inv n n' ⟨primary, world, backup, .copying keys⟩ := by
  obtain ⟨hdown, hcopied⟩ := h.copied hphase
  obtain ⟨hsame, data, hlook, hb⟩ := copy_step h.primary h.keys
    (hcopied.lengths key List.mem_cons_self) h.backup (hcopied.absent key List.mem_cons_self) hstep
  obtain ⟨rfl, rfl⟩ := Prod.mk.injEq .. ▸ hsame
  obtain ⟨hfresh, hnodup⟩ := List.nodup_cons.mp hcopied.nodup
  refine ⟨h.primary, h.keys, hb.self, hdown, hnodup,
    fun k hk => hcopied.lengths k (List.mem_cons_of_mem key hk), ?_, ?_⟩
  · intro k hk hin
    simp only [hb.contents] at hin
    rcases Finmap.mem_insert.mp hin with rfl | hin
    · exact hfresh hk
    · exact hcopied.absent k (List.mem_cons_of_mem key hk) hin
  · intro k hk
    simp only [hb.contents]
    by_cases hkey : k = key
    · rw [hkey, Finmap.lookup_insert, hlook]
    · rw [Finmap.lookup_insert_of_ne _ hkey]
      exact hcopied.agree k (by simp [hkey, hk])

lemma Rejoin.Inv.up (h : s.Inv n n') (hphase : s.phase = .copying []) {ipPort : CString}
    {reply : Reply} {primary : Server δ} {world : σ}
    (hstep : handleRequest net s.primary s.world (buildIpMsg ipPort) =
      .ok (reply, primary, world)) :
    Rejoin.Inv n n' ⟨primary, world, s.backup, .joined⟩ := by
  obtain ⟨-, hcopied⟩ := h.copied hphase
  have htabela := up_step hstep
  refine ⟨by simpa only [htabela] using h.primary, by simpa only [htabela] using h.keys, h.backup,
    ?_⟩
  simp only [JoinPhase.Holds, htabela]
  apply Finmap.ext_lookup
  exact fun key => hcopied.agree key List.not_mem_nil

/-- One step of a quiet run keeps the copy in agreement. -/
theorem Rejoin.Inv.step (h : s.Inv n n') {pointerLow : Content → Int32}
    (hptr : ∀ content, pointerLow content ≠ 0) {action : RejoinAction} {s' : Rejoin σ δ}
    (hstep : s.Step net pointerLow action s') (hquiet : s.Quiet action) : s'.Inv n n' := by
  cases hstep with
  | client hphase hwrite hkeys hhandle => exact h.client hphase hwrite hkeys hhandle hquiet
  | list hphase hlist => exact h.list hphase hptr hlist
  | copy hphase hcopy => exact h.copy hphase hcopy
  | up hphase hup => exact h.up hphase hup

lemma Rejoin.Start.inv (h : s.Start n n') : s.Inv n n' := by
  refine ⟨h.primary.represents, h.keys, h.backup.represents, ?_⟩
  rw [h.phase, h.down]
  exact ⟨by decide, h.empty⟩

/-- After a run whose writes are quiet, the joining server holds what the primary holds. -/
theorem rejoin_agrees (net : Net σ δ) {pointerLow : Content → Int32}
    (hptr : ∀ content, pointerLow content ≠ 0) {s s' : Rejoin σ δ} (hstart : s.Start n n')
    (hrun : Rejoin.Reaches net pointerLow Rejoin.Quiet s s') (hjoined : s'.phase = .joined) :
    s'.backup.contents = s'.primary.tabela.contents := by
  have hinv := Machine.reachable_invariant (Rejoin.Inv n n')
    (fun t t' ht ⟨action, hstep, hquiet⟩ => ht.step hptr hstep hquiet) hstart.inv hrun
  have hholds := hinv.phase
  rw [hjoined] at hholds
  exact hholds

/-- `1.2.3.5:9` -/
def primaryAddress : CString := .ofBytes [49, 46, 50, 46, 51, 46, 53, 58, 57]

/-- `1.2.3.4:9` -/
def backupAddress : CString := .ofBytes [49, 46, 50, 46, 51, 46, 52, 58, 57]

/-- A net in which the joining server accepts at its address. -/
def backupNet : Net Unit Unit where
  networkConnect _ addressPort := (if addressPort = backupAddress then some () else none, ())
  networkSendReceive _ _ _ := .ok (none, ())

/-- A primary with one entry in its only bucket. -/
def entryServer (entry : EntryT) (state : ℤ) (currentBackup : Option Unit) : Server Unit :=
  ⟨⟨[⟨1, [entry]⟩], 1, 1⟩, statusPrimary, state, currentBackup⟩

def letterServer : ℤ → Option Unit → Server Unit := entryServer letterA

/-- `letterA` after an update. -/
def laterA : EntryT := ⟨letterA.key, (letterEntry 97).value⟩

def emptyBackup : TableT := ⟨[listCreate, listCreate], 2, 0⟩

/-- One entry under the key of `letterA` in a table of two buckets. -/
def entryBackup (entry : EntryT) : TableT := ⟨[listCreate, ⟨1, [entry]⟩], 2, 1⟩

def letterBackup : TableT := entryBackup letterA

lemma start_empty :
    Rejoin.Start (σ := Unit) ⟨emptyServer, (), emptyBackup, .started⟩ 1 2 where
  phase := rfl
  primary := ⟨_, [], [], rfl, by simp, rfl⟩
  keys _ h := absurd h Finmap.notMem_empty
  status := rfl
  down := rfl
  backup := ⟨_, [], [], rfl, by simp, rfl⟩
  empty := rfl

lemma put_letter (backup : TableT) {phase : JoinPhase} (h : phase ≠ .joined) :
    Rejoin.Step backupNet (fun _ => 16) ⟨emptyServer, (), backup, phase⟩ (.client (.put letterA))
      ⟨letterServer stateDown none, (), backup, phase⟩ := by
  have hput : handleRequest backupNet emptyServer () (Request.put letterA).msg =
      .ok (.message (resultMsg (ocPut + 1) 0), letterServer stateDown none, ()) := by decide
  exact .client h (by decide) (by decide) hput

lemma up_entry (entry : EntryT) (backup : TableT) :
    Rejoin.Step backupNet (fun _ => 16) ⟨entryServer entry stateDown none, (), backup, .copying []⟩
      (.up backupAddress) ⟨entryServer entry stateUp (some ()), (), backup, .joined⟩ := by
  have hup : handleRequest backupNet (entryServer entry stateDown none) ()
      (buildIpMsg backupAddress) =
        .ok (.message ⟨ocUp, .result 1⟩, entryServer entry stateUp (some ()), ()) := rfl
  exact .up rfl hup

/-- A put before the listing and an update before the fetch both reach the joining server. -/
theorem rejoin_agrees_letter :
    (entryBackup laterA).contents = (entryServer laterA stateUp (some ())).tabela.contents := by
  have hptr : ∀ content, (fun _ : Content => (16 : Int32)) content ≠ 0 := by simp
  have hlist : requestKeys (peerNet backupNet) (fun _ => 16) () (letterServer stateDown none, ()) =
      .ok ([letterA.key], (letterServer stateDown none, ())) := by decide
  have hupdate : handleRequest backupNet (letterServer stateDown none) ()
      (Request.update laterA).msg =
        .ok (.message (resultMsg (ocUpdate + 1) 0), entryServer laterA stateDown none, ()) := by
    decide
  have hquiet : Rejoin.Quiet
      ⟨letterServer stateDown none, (), emptyBackup, .copying [letterA.key]⟩
      (.client (.update laterA)) := by
    intro keys hkeys
    obtain rfl := JoinPhase.copying.inj hkeys
    exact .inr (by decide)
  have hcopy : copyKey (peerNet backupNet) () letterA.key emptyBackup
      (entryServer laterA stateDown none, ()) =
        .ok (entryBackup laterA, (entryServer laterA stateDown none, ())) := by decide
  have hrun : Rejoin.Reaches backupNet (fun _ => 16) Rejoin.Quiet
      ⟨emptyServer, (), emptyBackup, .started⟩
      ⟨entryServer laterA stateUp (some ()), (), entryBackup laterA, .joined⟩ :=
    ((((Relation.ReflTransGen.single
      ⟨_, put_letter emptyBackup (by simp), by simp [Rejoin.Quiet]⟩).tail
      ⟨_, .list rfl hlist, trivial⟩).tail
      ⟨_, .client (by simp) (by decide) (by decide) hupdate, hquiet⟩).tail
      ⟨_, .copy rfl hcopy, trivial⟩).tail ⟨_, up_entry laterA _, trivial⟩
  exact rejoin_agrees backupNet hptr start_empty hrun rfl

/-- A write between the listing and OC_UP is lost for the joining server. -/
theorem not_rejoin_agrees_late :
    ¬∀ (σ δ : Type) (net : Net σ δ) (pointerLow : Content → Int32) (n n' : ℤ)
      (s s' : Rejoin σ δ), (∀ content, pointerLow content ≠ 0) → s.Start n n' →
      Rejoin.Reaches net pointerLow (fun _ _ => True) s s' → s'.phase = .joined →
      s'.backup.contents = s'.primary.tabela.contents := by
  intro h
  have hlist : requestKeys (peerNet backupNet) (fun _ => 16) () (emptyServer, ()) =
      .ok ([], (emptyServer, ())) := by decide
  have hrun : Rejoin.Reaches backupNet (fun _ => 16) (fun _ _ => True)
      ⟨emptyServer, (), emptyBackup, .started⟩
      ⟨letterServer stateUp (some ()), (), emptyBackup, .joined⟩ :=
    ((Relation.ReflTransGen.single ⟨_, .list rfl hlist, trivial⟩).tail
      ⟨_, put_letter emptyBackup (by simp), trivial⟩).tail
      ⟨_, up_entry letterA emptyBackup, trivial⟩
  have hsame := h Unit Unit backupNet (fun _ => 16) 1 2 _ _ (by simp) start_empty hrun rfl
  have hlook := congrArg (Finmap.lookup letterA.key) hsame
  rw [lookup_contents, lookup_contents] at hlook
  exact absurd hlook (by decide)

end RemoteTable
