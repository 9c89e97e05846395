import RemoteTable.RequestHistories
import RemoteTable.Roles

/-!
# The start of a server

`primary` and `secundary` from `table-server.c` with the calls of `primary_backup.c` that they
make at the other server, up to the poll loop. What the file "secundary" and the arguments
hold, and the text of the own address, are parameters.
-/

namespace RemoteTable.Startup

variable {σ δ : Type}

def askStatus (net : Net σ δ) (pointerLow : Content → Int32) (server : Option δ) (world : σ) :
    Except Fault (ℤ × σ) :=
  match server with
  | none => .ok (-1, world)
  | some server => do
    let (tt, world) ← net.networkSendReceive world server buildStatusMsg
    return (RemoteTable.askStatus pointerLow tt, world)

/-- The result and the connection that is closed. -/
def sendConnectIp (net : Net σ δ) (server : Option δ) (ipPort : CString) (world : σ) :
    Except Fault (ℤ × Option δ × σ) :=
  match server with
  | none => .ok (-1, none, world)
  | some server => do
    match ← net.networkSendReceive world server (buildIpMsg ipPort) with
    | (none, world) => return (-1, none, world)
    | (some _, world) => return (0, some server, world)

/-- `main_secundary` up to its wait. -/
def mainSecundary (net : Net σ δ) (address : CString) (server : Server δ) (world : σ) :
    Server δ × σ :=
  let (currentBackup, world) := net.networkConnect world address
  ({ server with currentBackup := currentBackup }, world)

/-- A server behind `primary` or `secundary`. -/
structure Started (δ : Type) where
  server : Server δ
  /-- Whether `create_thread` was called. -/
  thread : Bool
  /-- The connection that `network_close` was called with. The other server reads its end. -/
  closed : Option δ

/-- A start with the address of the other server. -/
def primary (net : Net σ δ) (pointerLow : Content → Int32) (address ipPort : CString)
    (tabela : TableT) (world : σ) : Except Fault (Started δ × σ) := do
  let (tempClientS, world) := net.networkConnect world address
  let (statusValue, world) ← askStatus net pointerLow tempClientS world
  if statusValue = statusPrimary then
    let (_, tabela, world) ← updateState net pointerLow tempClientS tabela world
    let (_, closed, world) ← sendConnectIp net tempClientS ipPort world
    return (⟨⟨tabela, statusSecundary, stateUp, none⟩, false, closed⟩, world)
  else return (⟨⟨tabela, statusPrimary, stateUp, none⟩, true, tempClientS⟩, world)

/-- A start without it. `file` is the line of the file "secundary", if there is one. -/
def secundary (net : Net σ δ) (pointerLow : Content → Int32) (file : Option CString)
    (ipPort : CString) (tabela : TableT) (world : σ) : Except Fault (Started δ × σ) :=
  match file with
  | none => .ok (⟨⟨tabela, statusSecundary, stateUp, none⟩, false, none⟩, world)
  | some address => do
    match net.networkConnect world address with
    | (none, world) =>
      return (⟨⟨tabela, statusSecundary, stateUp, none⟩, false, none⟩, world)
    | (some tempClientS, world) =>
      let (_, tabela, world) ← updateState net pointerLow (some tempClientS) tabela world
      let (_, closed, world) ← sendConnectIp net (some tempClientS) ipPort world
      return (⟨⟨tabela, statusSecundary, stateUp, none⟩, false, closed⟩, world)

/-- What a live server reaches: its peer listens before it is in its poll loop. -/
def listeningNet : Net Unit Unit where
  networkConnect _ _ := (some (), ())
  networkSendReceive _ _ _ := .ok (none, ())

/-- The net of a server of two, with the other one as its world unless that has stopped. -/
def otherNet : Net (Option (Server Unit)) Unit where
  networkConnect other _ := (other.map fun _ => (), other)
  networkSendReceive
    | none, _, _ => .ok (none, none)
    | some other, _, msg => do
      let (reply, other, _) ← remoteCall listeningNet other () msg
      return (reply, some other)

/-! ### Calls at a server that is the primary -/

variable {other other' : Server Unit} {pointerLow : Content → Int32} {n n' : ℤ} {m : KeyMap}

lemma askStatus_other
    (hrole : other.status = statusPrimary ∨ other.status = statusSecundary) :
    askStatus otherNet pointerLow (some ()) (some other) = .ok (other.status, some other) := by
  have hcall : remoteCall listeningNet other () buildStatusMsg =
      .ok (some (statusReply other), other, ()) :=
    remoteCall_ok encodable_buildStatusMsg (encodable_statusReply other)
      (handleRequest_question listeningNet other ())
  have hresult : RemoteTable.askStatus pointerLow (some (statusReply other)) = other.status := by
    simp only [RemoteTable.askStatus, statusReply, Content.resultMember]
    rcases hrole with hrole | hrole
    · rw [hrole]
      decide
    · rw [hrole]
      decide
  simp only [askStatus, otherNet, hcall, ok_bind, pure_eq_ok, hresult]

/-- The answer to OC_UP where the address can be reached. -/
lemma handleRequest_up_reached (net : Net σ δ) (server : Server δ) {world world' : σ} {backup : δ}
    {ipPort : CString} (hconnect : net.networkConnect world ipPort = (some backup, world')) :
    handleRequest net server world (buildIpMsg ipPort) =
      .ok (.message ⟨ocUp, .result (Int32.ofInt stateUp)⟩,
        { server with currentBackup := some backup, state := stateUp }, world') := by
  have hstatus : ocUp ≠ ocStatus := by decide
  have hwrite : isWrite ocUp = false := by decide
  have hinvoke : invoke server.tabela (buildIpMsg ipPort) = .ok (.unset, server.tabela) :=
    invoke_default (by decide) (by decide)
  have hlocal : ∀ server : Server δ, ¬server.Forwards ocUp := fun _ => not_forwards_of_read hwrite
  rw [handleRequest, hinvoke, ok_bind]
  simp only [answerStatus, answerUp, forwardWrite, buildIpMsg, hstatus, if_false, if_true,
    Content.keyMember, ok_bind, pure_eq_ok, hconnect, hlocal]

lemma encodable_buildIpMsg {ipPort : CString} (hlen : strlen ipPort ≤ 65535) :
    (buildIpMsg ipPort).Encodable := by
  constructor
  · intro key hkey
    obtain rfl : key = ipPort := by simpa [buildIpMsg, Content.strings] using hkey
    exact hlen
  · simp only [wireFormat, buildIpMsg, contentFormat, List.length_append, Bytes.length_beBytes,
      length_keyField]
    omega

lemma sendConnectIp_other {ipPort : CString} (hlen : strlen ipPort ≤ 65535) :
    sendConnectIp otherNet (some ()) ipPort (some other) =
      .ok (0, some (), some { other with currentBackup := some (), state := stateUp }) := by
  have hconnect : listeningNet.networkConnect () ipPort = (some (), ()) := rfl
  have hcall := remoteCall_ok (encodable_buildIpMsg hlen) (encodable_result _ _)
    (handleRequest_up_reached listeningNet other hconnect)
  simp only [sendConnectIp, otherNet, hcall, ok_bind, pure_eq_ok]

/-! ### A copy that succeeds -/

lemma requestKeys_other (other : Server Unit) :
    requestKeys otherNet pointerLow () (some other) =
      requestKeys (peerNet listeningNet) pointerLow () (other, ()) >>= fun r =>
        .ok (r.1, some r.2.1) := by
  simp only [requestKeys, otherNet, peerNet]
  cases remoteCall listeningNet other () ⟨ocGet, .key bang⟩ with
  | error e => rfl
  | ok r =>
    obtain ⟨reply, other', world⟩ := r
    cases reply with
    | none => rfl
    | some t =>
      simp only [ok_bind, pure_eq_ok]
      split
      · rfl
      · cases t.content.keysMember with
        | error e => rfl
        | ok keys => rfl

lemma copyKey_other (key : CString) (tabela : TableT) (other : Server Unit) :
    copyKey otherNet () key tabela (some other) =
      copyKey (peerNet listeningNet) () key tabela (other, ()) >>= fun r =>
        .ok (r.1, some r.2.1) := by
  simp only [copyKey, otherNet, peerNet]
  cases remoteCall listeningNet other () ⟨ocGet, .key key⟩ with
  | error e => rfl
  | ok r =>
    obtain ⟨reply, other', world⟩ := r
    cases reply with
    | none => rfl
    | some tt =>
      simp only [ok_bind, pure_eq_ok]
      cases tt.content.dataMember with
      | error e => rfl
      | ok data =>
        simp only [ok_bind]
        cases invoke tabela ⟨ocPut, .entry ⟨key, data⟩⟩ with
        | error e => rfl
        | ok invoked => rfl

/-- After the loop the copy agrees with the other table on the listed keys, and is as before
elsewhere. -/
lemma copyKeys_of_ok (hr : other.tabela.Represents n other.tabela.contents)
    (hkeys : ∀ key ∈ other.tabela.contents, strlen key ≤ 65535) {keys : List CString}
    (hnodup : keys.Nodup) (hlen : ∀ key ∈ keys, strlen key ≤ 65535) {tabela copied : TableT}
    (hb : tabela.Represents n' m) (hnew : ∀ key ∈ keys, key ∉ m) {world : Option (Server Unit)}
    (h : copyKeys otherNet () keys tabela (some other) = .ok (copied, world)) :
    world = some other ∧ ∃ m', copied.Represents n' m' ∧
      ∀ key, m'.lookup key =
        if key ∈ keys then other.tabela.contents.lookup key else m.lookup key := by
  induction keys generalizing tabela m with
  | nil =>
    cases h
    exact ⟨rfl, m, hb, fun key => by simp⟩
  | cons key keys ih =>
    obtain ⟨hfresh, hnodup'⟩ := List.nodup_cons.mp hnodup
    rw [copyKeys, copyKey_other] at h
    obtain ⟨⟨tabela', world'⟩, hcopy, hrest⟩ := bind_eq_ok h
    obtain ⟨⟨tabela'', other', world₀⟩, hcopy', hsame⟩ := bind_eq_ok hcopy
    cases hsame
    obtain ⟨hother, data, hlook, hb'⟩ := copy_step hr hkeys (hlen key List.mem_cons_self) hb
      (hnew key List.mem_cons_self) hcopy'
    cases hother
    have hnew' : ∀ k ∈ keys, k ∉ m.insert key data := by
      intro k hk hin
      rcases Finmap.mem_insert.mp hin with rfl | hin
      · exact hfresh hk
      · exact hnew k (List.mem_cons_of_mem key hk) hin
    obtain ⟨hworld, m', hc, hlookup⟩ :=
      ih hnodup' (fun k hk => hlen k (List.mem_cons_of_mem key hk)) hb' hnew' hrest
    refine ⟨hworld, m', hc, ?_⟩
    intro k
    rw [hlookup k]
    by_cases hk : k = key
    · subst hk
      rw [if_neg hfresh, Finmap.lookup_insert, if_pos List.mem_cons_self, hlook]
    · simp [List.mem_cons, hk, Finmap.lookup_insert_of_ne _ hk]

/-- A copy that succeeds copies everything, whatever the other table holds. -/
theorem updateState_of_ok (hr : other.tabela.Represents n m)
    (hkeys : ∀ key ∈ m, strlen key ≤ 65535) (hptr : ∀ content, pointerLow content ≠ 0)
    {tabela copied : TableT} (hb : tabela.Represents n' ∅) {result : ℤ}
    {world : Option (Server Unit)}
    (h : updateState otherNet pointerLow (some ()) tabela (some other) =
      .ok (result, copied, world)) :
    world = some other ∧ copied.Represents n' m := by
  obtain rfl := hr.contents
  rw [updateState, requestKeys_other] at h
  obtain ⟨⟨keys, world₁⟩, hlist, hrest⟩ := bind_eq_ok h
  obtain ⟨⟨keys', other', world₀⟩, hlist', hsame⟩ := bind_eq_ok hlist
  cases hsame
  obtain ⟨rfl, hother⟩ := list_step hr hkeys hptr hlist'
  cases hother
  obtain ⟨⟨copied', world₂⟩, hcopy, hend⟩ := bind_eq_ok hrest
  cases hend
  have hmem := mem_collectKeys hr
  obtain ⟨hworld, m', hc, hlookup⟩ := copyKeys_of_ok hr hkeys (nodup_collectKeys hr)
    (fun key hin => hkeys key ((hmem key).mp hin)) hb (fun _ _ => Finmap.notMem_empty) hcopy
  have hsame : m' = other.tabela.contents := by
    apply Finmap.ext_lookup
    intro key
    rw [hlookup key]
    by_cases hkey : key ∈ collectKeys other.tabela.buckets
    · rw [if_pos hkey]
    · rw [if_neg hkey, Finmap.lookup_empty,
        Finmap.lookup_eq_none.mpr (fun hin => hkey ((hmem key).mpr hin))]
  exact ⟨hworld, hsame ▸ hc⟩

/-! ### A server that joins -/

/-- The state that a joining server ends in, and that it leaves the other one in. -/
structure Joined (other : Server Unit) (started : Started Unit) (world : Option (Server Unit))
    (n' : ℤ) (m : KeyMap) : Prop where
  tabela : started.server.tabela.Represents n' m
  status : started.server.status = statusSecundary
  unlinked : started.server.currentBackup = none
  thread : started.thread = false
  closed : started.closed = some ()
  other : world = some { other with currentBackup := some (), state := stateUp }

variable {tabela : TableT} {address ipPort : CString} {started : Started Unit}
  {world : Option (Server Unit)}

/-- Through `primary` a server joins one that is the primary. -/
theorem primary_joins (hstatus : other.status = statusPrimary) (hr : other.tabela.Represents n m)
    (hkeys : ∀ key ∈ m, strlen key ≤ 65535) (hptr : ∀ content, pointerLow content ≠ 0)
    (hb : tabela.Represents n' ∅) (hlen : strlen ipPort ≤ 65535)
    (h : primary otherNet pointerLow address ipPort tabela (some other) =
      .ok (started, world)) :
    Joined other started world n' m := by
  have hconnect : otherNet.networkConnect (some other) address = (some (), some other) := rfl
  simp only [primary, hconnect, askStatus_other (.inl hstatus), ok_bind, if_pos hstatus] at h
  obtain ⟨⟨result, copied, world₁⟩, hcopy, h⟩ := bind_eq_ok h
  obtain ⟨rfl, hc⟩ := updateState_of_ok hr hkeys hptr hb hcopy
  simp only [sendConnectIp_other hlen, ok_bind, pure_eq_ok, Except.ok.injEq, Prod.mk.injEq] at h
  obtain ⟨rfl, rfl⟩ := h
  exact ⟨hc, rfl, rfl, rfl, rfl, rfl⟩

/-- Beside a secondary it becomes the primary, closes the connection on which it asked, and its
thread is to connect to the other one. -/
lemma primary_beside (hstatus : other.status = statusSecundary) (address ipPort : CString)
    (tabela : TableT) :
    primary otherNet pointerLow address ipPort tabela (some other) =
      .ok (⟨⟨tabela, statusPrimary, stateUp, none⟩, true, some ()⟩, some other) := by
  have hconnect : otherNet.networkConnect (some other) address = (some (), some other) := rfl
  have hne : other.status ≠ statusPrimary := by
    rw [hstatus]
    decide
  simp only [primary, hconnect, askStatus_other (.inr hstatus), ok_bind, if_neg hne, pure_eq_ok]

/-- Through `secundary` it joins the server at the address in the file. -/
theorem secundary_joins (hr : other.tabela.Represents n m)
    (hkeys : ∀ key ∈ m, strlen key ≤ 65535) (hptr : ∀ content, pointerLow content ≠ 0)
    (hb : tabela.Represents n' ∅) (hlen : strlen ipPort ≤ 65535)
    (h : secundary otherNet pointerLow (some address) ipPort tabela (some other) =
      .ok (started, world)) :
    Joined other started world n' m := by
  have hconnect : otherNet.networkConnect (some other) address = (some (), some other) := rfl
  simp only [secundary, hconnect] at h
  obtain ⟨⟨result, copied, world₁⟩, hcopy, h⟩ := bind_eq_ok h
  obtain ⟨rfl, hc⟩ := updateState_of_ok hr hkeys hptr hb hcopy
  simp only [sendConnectIp_other hlen, ok_bind, pure_eq_ok, Except.ok.injEq, Prod.mk.injEq] at h
  obtain ⟨rfl, rfl⟩ := h
  exact ⟨hc, rfl, rfl, rfl, rfl, rfl⟩

end RemoteTable.Startup
