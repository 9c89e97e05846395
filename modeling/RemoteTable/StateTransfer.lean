import RemoteTable.RemoteCall

/-!
# The copy of the state in `primary_backup.c`

A server that joins asks for all keys of the other one and then for the value of each, and
puts every pair into its own table.
-/

namespace RemoteTable

variable {σ δ : Type}

/-- `content.result`, whatever member is live: of a pointer it reads the low four bytes. -/
def Content.resultMember (pointerLow : Content → Int32) : Content → Int32
  | .result r => r
  | content => pointerLow content

/-- `content.keys` -/
def Content.keysMember : Content → Except Fault (List CString)
  | .keys ks => .ok ks
  | _ => .error .deadMember

/-- `content.data` -/
def Content.dataMember : Content → Except Fault DataT
  | .data d => .ok d
  | _ => .error .deadMember

/-- The first half of `update_state`: the keys of the other table. -/
def requestKeys (net : Net σ δ) (pointerLow : Content → Int32) (server : δ) (world : σ) :
    Except Fault (List CString × σ) := do
  match ← net.networkSendReceive world server ⟨ocGet, .key bang⟩ with
  | (none, _) => throw .nullDeref
  | (some t, world) =>
    if t.content.resultMember pointerLow = 0 then return ([], world)
    else
      let keys ← t.content.keysMember
      return (keys, world)

/-- One turn of its loop: fetch a value and put the pair. -/
def copyKey (net : Net σ δ) (server : δ) (key : CString) (tabela : TableT) (world : σ) :
    Except Fault (TableT × σ) := do
  match ← net.networkSendReceive world server ⟨ocGet, .key key⟩ with
  | (none, _) => throw .nullDeref
  | (some tt, world) =>
    let data ← tt.content.dataMember
    let (_, tabela) ← invoke tabela ⟨ocPut, .entry ⟨key, data⟩⟩
    return (tabela, world)

def copyKeys (net : Net σ δ) (server : δ) :
    List CString → TableT → σ → Except Fault (TableT × σ)
  | [], tabela, world => .ok (tabela, world)
  | key :: keys, tabela, world => do
    let (tabela, world) ← copyKey net server key tabela world
    copyKeys net server keys tabela world

def updateState (net : Net σ δ) (pointerLow : Content → Int32) (server : Option δ)
    (tabela : TableT) (world : σ) : Except Fault (ℤ × TableT × σ) :=
  match server with
  | none => .ok (-1, tabela, world)
  | some server => do
    let (keys, world) ← requestKeys net pointerLow server world
    let (tabela, world) ← copyKeys net server keys tabela world
    return (0, tabela, world)

/-- The net of a process whose only peer is another server with a world of its own. -/
def peerNet (net : Net σ δ) : Net (Server δ × σ) Unit where
  networkConnect world _ := (none, world)
  networkSendReceive world _ msg := do
    let (reply, server, world) ← remoteCall net world.1 world.2 msg
    return (reply, server, world)

/-! ### What the other server answers -/

variable (net : Net σ δ) {remote : Server δ} (world : σ) {n : ℤ} {m : KeyMap}

lemma encodable_get {key : CString} (hk : strlen key ≤ 65535) :
    MessageT.Encodable ⟨ocGet, .key key⟩ := by
  refine ⟨?_, ?_⟩
  · intro k hmem
    rwa [List.mem_singleton.mp hmem]
  · simp only [wireFormat, contentFormat, List.length_append, Bytes.length_beBytes,
      length_keyField]
    omega

lemma strlen_bang : strlen bang ≤ 65535 := by decide

lemma handleRequest_get {key : CString} {reply : Reply}
    (h : invokeGet remote.tabela (.key key) = .ok (reply, remote.tabela)) :
    handleRequest net remote world ⟨ocGet, .key key⟩ = .ok (reply, remote, world) := by
  have hstatus : ocGet ≠ ocStatus := by decide
  have hup : ocGet ≠ ocUp := by decide
  have hread : isWrite ocGet = false := by decide
  rw [handleRequest_of_local hstatus hup (not_forwards_of_read hread), invoke_get, h]
  rfl

/-- What the copy asks of the other table: no key is mistaken for a listing, KEYSIZE holds
every length, and every reply fits an `int`. -/
structure TableT.Transferable (tabela : TableT) : Prop where
  bang : bang ∉ tabela.contents
  keys : ∀ key ∈ tabela.contents, strlen key ≤ 65535
  listing : (wireFormat ⟨ocGet + 1, .keys (collectKeys tabela.buckets)⟩).length < 2 ^ 31
  values : ∀ key data, tabela.contents.lookup key = some data →
    (wireFormat ⟨ocGet + 1, .data data⟩).length < 2 ^ 31

lemma collectKeys_of_empty {tabela : TableT} (hr : tabela.Represents n ∅) :
    collectKeys tabela.buckets = [] := by
  apply List.eq_nil_iff_forall_not_mem.mpr
  intro key hmem
  exact Finmap.notMem_empty ((mem_collectKeys hr key).mp hmem)

lemma requestKeys_peer (hr : remote.tabela.Represents n remote.tabela.contents)
    (hkeys : ∀ key ∈ remote.tabela.contents, strlen key ≤ 65535)
    (hsize : (wireFormat ⟨ocGet + 1, .keys (collectKeys remote.tabela.buckets)⟩).length < 2 ^ 31)
    {pointerLow : Content → Int32} (hptr : ∀ content, pointerLow content ≠ 0) :
    requestKeys (peerNet net) pointerLow () (remote, world) =
      .ok (collectKeys remote.tabela.buckets, (remote, world)) := by
  have hget := encodable_get strlen_bang
  by_cases hne : remote.tabela.contents = ∅
  · have hr' : remote.tabela.Represents n ∅ := hne ▸ hr
    have hnil := collectKeys_of_empty hr'
    have hreply : (resultMsg (ocGet + 1) 0).Encodable := ⟨by decide, by decide⟩
    have hcall := remoteCall_ok hget hreply (handleRequest_get net world (invokeGet_empty hr'))
    have hzero : (resultMsg (ocGet + 1) 0).content.resultMember pointerLow = 0 := by
      simp [resultMsg, Content.resultMember]
    simp only [requestKeys, peerNet, hcall, ok_bind, pure_eq_ok, hnil, if_pos hzero]
  · have hreply : MessageT.Encodable ⟨ocGet + 1, .keys (collectKeys remote.tabela.buckets)⟩ :=
      ⟨fun key hmem => hkeys key ((mem_collectKeys hr key).mp hmem), hsize⟩
    have hcall := remoteCall_ok hget hreply
      (handleRequest_get net world (invokeGet_listing hr hne))
    simp only [requestKeys, peerNet, hcall, ok_bind, pure_eq_ok, Content.resultMember,
      if_neg (hptr _), Content.keysMember]

lemma copyKey_peer (hr : remote.tabela.Represents n remote.tabela.contents)
    (ht : remote.tabela.Transferable) {key : CString} {data : DataT}
    (hlook : remote.tabela.contents.lookup key = some data) (hk : 0 ≤ keyHash key n)
    {backup : TableT} {n' : ℤ} (hb : backup.Represents n' m) (hk' : 0 ≤ keyHash key n')
    (hnew : key ∉ m) :
    ∃ backup', copyKey (peerNet net) () key backup (remote, world) =
        .ok (backup', (remote, world)) ∧ backup'.Represents n' (m.insert key data) := by
  have hmem : key ∈ remote.tabela.contents := Finmap.mem_of_lookup_eq_some hlook
  have hbang : key ≠ bang := fun h => ht.bang (h ▸ hmem)
  have hreply : MessageT.Encodable ⟨ocGet + 1, .data data⟩ :=
    ⟨by simp [Content.strings], ht.values key data hlook⟩
  have hget := invokeGet_refines hr hk hbang
  rw [Request.reply, hlook] at hget
  have hcall := remoteCall_ok (encodable_get (ht.keys key hmem)) hreply
    (handleRequest_get net world hget)
  have hhash : 0 ≤ keyHash (EntryT.mk key data).key n' := hk'
  obtain ⟨backup', hput, hb'⟩ := invokePut_refines hb hhash
  rw [mapPut, if_neg hnew] at hb'
  refine ⟨backup', ?_, hb'⟩
  simp only [copyKey, peerNet, hcall, ok_bind, pure_eq_ok, Content.dataMember, invoke_put, hput]

/-- The loop copies the listed keys: after it the copy agrees with the other table on them
and is as before elsewhere. -/
lemma copyKeys_peer (hr : remote.tabela.Represents n remote.tabela.contents)
    (ht : remote.tabela.Transferable) {n' : ℤ}
    (hhash : ∀ key ∈ remote.tabela.contents, 0 ≤ keyHash key n ∧ 0 ≤ keyHash key n')
    {keys : List CString} (hnodup : keys.Nodup)
    (hmem : ∀ key ∈ keys, key ∈ remote.tabela.contents) {backup : TableT}
    (hb : backup.Represents n' m) (hnew : ∀ key ∈ keys, key ∉ m) :
    ∃ copied m', copyKeys (peerNet net) () keys backup (remote, world) =
        .ok (copied, (remote, world)) ∧ copied.Represents n' m' ∧
      ∀ key, m'.lookup key =
        if key ∈ keys then remote.tabela.contents.lookup key else m.lookup key := by
  induction keys generalizing backup m with
  | nil => exact ⟨backup, m, rfl, hb, fun key => by simp⟩
  | cons key keys ih =>
    obtain ⟨hfresh, hnodup'⟩ := List.nodup_cons.mp hnodup
    have hkey := hmem key List.mem_cons_self
    obtain ⟨data, hlook⟩ := Finmap.mem_iff.mp hkey
    obtain ⟨backup', hcopy, hb'⟩ := copyKey_peer net world hr ht hlook
      (hhash key hkey).1 hb (hhash key hkey).2 (hnew key List.mem_cons_self)
    have hnew' : ∀ k ∈ keys, k ∉ m.insert key data := by
      intro k hk hin
      rcases Finmap.mem_insert.mp hin with rfl | hin
      · exact hfresh hk
      · exact hnew k (List.mem_cons_of_mem key hk) hin
    obtain ⟨copied, m', hrun, hc, hlookup⟩ :=
      ih hnodup' (fun k hk => hmem k (List.mem_cons_of_mem key hk)) hb' hnew'
    refine ⟨copied, m', by rw [copyKeys, hcopy, ok_bind]; exact hrun, hc, ?_⟩
    intro k
    rw [hlookup k]
    by_cases hk : k = key
    · subst hk
      rw [if_neg hfresh, Finmap.lookup_insert, if_pos List.mem_cons_self, hlook]
    · simp [List.mem_cons, hk, Finmap.lookup_insert_of_ne _ hk]

lemma updateState_represents {n n' : ℤ} {backup : TableT}
    {pointerLow : Content → Int32} (hremote : remote.tabela.Reachable n)
    (hbackup : backup.Reachable n') (hempty : backup.contents = ∅)
    (ht : remote.tabela.Transferable)
    (hhash : ∀ key ∈ remote.tabela.contents, 0 ≤ keyHash key n ∧ 0 ≤ keyHash key n')
    (hptr : ∀ content, pointerLow content ≠ 0) :
    ∃ copied, updateState (peerNet net) pointerLow (some ()) backup (remote, world) =
        .ok (0, copied, (remote, world)) ∧ copied.Represents n' remote.tabela.contents := by
  have hr := hremote.represents
  have hb : backup.Represents n' ∅ := hempty ▸ hbackup.represents
  have hmem : ∀ key ∈ collectKeys remote.tabela.buckets, key ∈ remote.tabela.contents :=
    fun key => (mem_collectKeys hr key).mp
  obtain ⟨copied, m', hrun, hc, hlookup⟩ := copyKeys_peer net world hr ht hhash
    (nodup_collectKeys hr) hmem hb (fun _ _ => Finmap.notMem_empty)
  have hsame : m' = remote.tabela.contents := by
    apply Finmap.ext_lookup
    intro key
    rw [hlookup key]
    by_cases hkey : key ∈ collectKeys remote.tabela.buckets
    · rw [if_pos hkey]
    · rw [if_neg hkey, Finmap.lookup_empty,
        Finmap.lookup_eq_none.mpr (fun h => hkey ((mem_collectKeys hr key).mpr h))]
  refine ⟨copied, ?_, hsame ▸ hc⟩
  simp only [updateState, requestKeys_peer net world hr ht.keys ht.listing hptr, ok_bind,
    hrun, pure_eq_ok]

/-- The joining server ends with the pairs of the other one, which is left as it was. -/
theorem updateState_copies {n n' : ℤ} {backup : TableT}
    {pointerLow : Content → Int32} (hremote : remote.tabela.Reachable n)
    (hbackup : backup.Reachable n') (hempty : backup.contents = ∅)
    (ht : remote.tabela.Transferable)
    (hhash : ∀ key ∈ remote.tabela.contents, 0 ≤ keyHash key n ∧ 0 ≤ keyHash key n')
    (hptr : ∀ content, pointerLow content ≠ 0) :
    ∃ copied, updateState (peerNet net) pointerLow (some ()) backup (remote, world) =
        .ok (0, copied, (remote, world)) ∧
      copied.contents = remote.tabela.contents ∧
      tableSize copied = tableSize remote.tabela := by
  obtain ⟨copied, hrun, hc⟩ :=
    updateState_represents net world hremote hbackup hempty ht hhash hptr
  refine ⟨copied, hrun, hc.contents, ?_⟩
  rw [tableSize_refines hc, tableSize_refines hremote.represents]

def letterA : EntryT := ⟨.ofBytes [97], ⟨[1, 0, 2], by decide, by decide⟩⟩

lemma lettersTable_transferable : lettersTable.Transferable where
  bang h := by
    obtain ⟨e, he, hkey⟩ := mem_lettersTable h
    have hne : ∀ e ∈ lettersTable.entries, bang ≠ e.key := by decide
    exact hne e he hkey
  keys key h := by
    obtain ⟨e, he, rfl⟩ := mem_lettersTable h
    have hlen : ∀ e ∈ lettersTable.entries, strlen e.key ≤ 65535 := by decide
    exact hlen e he
  listing := by decide
  values key data h := by
    obtain ⟨e, he, -, rfl⟩ := lookup_lettersTable h
    have hsize : ∀ e ∈ lettersTable.entries,
        (wireFormat ⟨ocGet + 1, .data e.value⟩).length < 2 ^ 31 := by decide
    exact hsize e he

theorem updateState_copies_letters :
    let remote : Server Unit := ⟨lettersTable, statusPrimary, stateDown, none⟩
    ∃ copied, updateState (peerNet noNet) (fun _ => 16) (some ())
        ⟨[listCreate, listCreate, listCreate], 3, 0⟩ (remote, ()) = .ok (0, copied, (remote, ())) ∧
      copied.contents = remote.tabela.contents ∧
      tableSize copied = tableSize remote.tabela := by
  intro remote
  have hbackup : TableT.Reachable ⟨[listCreate, listCreate, listCreate], 3, 0⟩ 3 :=
    ⟨_, [], [], rfl, by simp, rfl⟩
  have hhash : ∀ key ∈ lettersTable.contents, 0 ≤ keyHash key 2 ∧ 0 ≤ keyHash key 3 := by
    intro key h
    obtain ⟨e, he, rfl⟩ := mem_lettersTable h
    have hindex : ∀ e ∈ lettersTable.entries, 0 ≤ keyHash e.key 2 ∧ 0 ≤ keyHash e.key 3 := by
      decide
    exact hindex e he
  exact updateState_copies noNet () lettersTable_reachable hbackup rfl lettersTable_transferable
    hhash (fun _ => by decide)

end RemoteTable
