import RemoteTable.TableRefinement
import RemoteTable.Message

/-!
# The dispatcher of `table_skel.c`

`invoke` chooses the operation by `opcode` alone and reads the member of `content_u` that
this operation needs. What it prints is left out.
-/

namespace RemoteTable

/-- The message that `invoke` allocates: its fields may never have been assigned. -/
inductive Reply
  | unset
  | message (msg : MessageT)
  deriving DecidableEq

/-- `content.entry` -/
def Content.entryMember : Content → Except Fault EntryT
  | .entry e => .ok e
  | _ => .error .deadMember

/-- `content.key` -/
def Content.keyMember : Content → Except Fault CString
  | .key k => .ok k
  | _ => .error .deadMember

lemma eq_key_of_keyMember {content : Content} {key : CString}
    (h : content.keyMember = .ok key) : content = .key key := by
  cases content with
  | key key' =>
    simp only [Content.keyMember, Except.ok.injEq] at h
    rw [h]
  | _ => cases h

def errorReply : Reply := .message buildErrorMsg

def resultMsg (opcode : Int16) (result : ℤ) : MessageT := ⟨opcode, .result (Int32.ofInt result)⟩

def resultReply (opcode : Int16) (result : ℤ) : Reply := .message (resultMsg opcode result)

/-- The key that asks for the list of all keys. -/
def bang : CString := .ofBytes [33]

def invokeSize (tabela : TableT) : Except Fault (Reply × TableT) :=
  let result := tableSize tabela
  if result < 0 then .ok (errorReply, tabela) else .ok (resultReply (ocSize + 1) result, tabela)

def invokePut (tabela : TableT) (content : Content) : Except Fault (Reply × TableT) := do
  let entry ← content.entryMember
  let (result, tabela) ← tablePut tabela entry.key entry.value
  if result = -1 then return (errorReply, tabela)
  else if result = -10 then return (resultReply (ocPut + 1) (-10), tabela)
  else return (resultReply (ocPut + 1) result, tabela)

def invokeGet (tabela : TableT) (content : Content) : Except Fault (Reply × TableT) := do
  let tempKey ← content.keyMember
  if strcmp bang tempKey = 0 then
    if tabela.quantityEntry = 0 then return (resultReply (ocGet + 1) 0, tabela)
    else match tableGetKeys tabela with
      | none => throw .nullDeref
      | some keys => return (.message ⟨ocGet + 1, .keys keys⟩, tabela)
  else match ← tableGet tabela tempKey with
    | some tempData => return (.message ⟨ocGet + 1, .data tempData⟩, tabela)
    | none => return (errorReply, tabela)

def invokeUpdate (tabela : TableT) (content : Content) : Except Fault (Reply × TableT) := do
  let entry ← content.entryMember
  let (result, tabela) ← tableUpdate tabela entry.key entry.value
  if result = -1 then return (errorReply, tabela)
  else return (resultReply (ocUpdate + 1) result, tabela)

def invokeDel (tabela : TableT) (content : Content) : Except Fault (Reply × TableT) := do
  let key ← content.keyMember
  let (result, tabela) ← tableDel tabela key
  if result = -1 then return (errorReply, tabela)
  else return (resultReply (ocDel + 1) result, tabela)

def invoke (tabela : TableT) (msgIn : MessageT) : Except Fault (Reply × TableT) :=
  -- `free_message` switches on the `c_type` of the reply, which was never assigned
  if msgIn.opcode < 0 ∨ msgIn.cType < 0 then .error .uninitialised
  else if msgIn.opcode = ocSize then invokeSize tabela
  else if msgIn.opcode = ocPut then invokePut tabela msgIn.content
  else if msgIn.opcode = ocGet then invokeGet tabela msgIn.content
  else if msgIn.opcode = ocUpdate then invokeUpdate tabela msgIn.content
  else if msgIn.opcode = ocDel then invokeDel tabela msgIn.content
  else .ok (.unset, tabela)

/-! ### One equation for each `case` -/

lemma cType_not_neg (content : Content) : ¬content.cType < 0 := by
  cases content <;> simp only [Content.cType] <;> decide

lemma invoke_of_opcode (tabela : TableT) {opcode : Int16} (content : Content)
    (h : ¬opcode < 0) :
    invoke tabela ⟨opcode, content⟩ =
      if opcode = ocSize then invokeSize tabela
      else if opcode = ocPut then invokePut tabela content
      else if opcode = ocGet then invokeGet tabela content
      else if opcode = ocUpdate then invokeUpdate tabela content
      else if opcode = ocDel then invokeDel tabela content
      else .ok (.unset, tabela) := by
  rw [invoke, if_neg]
  exact not_or.mpr ⟨h, cType_not_neg content⟩

variable {tabela : TableT} {content : Content}

lemma invoke_size : invoke tabela ⟨ocSize, content⟩ = invokeSize tabela := by
  rw [invoke_of_opcode _ _ (by decide), if_pos rfl]

lemma invoke_put : invoke tabela ⟨ocPut, content⟩ = invokePut tabela content := by
  rw [invoke_of_opcode _ _ (by decide), if_neg (by decide), if_pos rfl]

lemma invoke_get : invoke tabela ⟨ocGet, content⟩ = invokeGet tabela content := by
  rw [invoke_of_opcode _ _ (by decide), if_neg (by decide), if_neg (by decide), if_pos rfl]

lemma invoke_update : invoke tabela ⟨ocUpdate, content⟩ = invokeUpdate tabela content := by
  rw [invoke_of_opcode _ _ (by decide), if_neg (by decide), if_neg (by decide),
    if_neg (by decide), if_pos rfl]

lemma invoke_del : invoke tabela ⟨ocDel, content⟩ = invokeDel tabela content := by
  rw [invoke_of_opcode _ _ (by decide), if_neg (by decide), if_neg (by decide),
    if_neg (by decide), if_neg (by decide), if_pos rfl]

/-- An opcode that is no table operation leaves the reply as `malloc` returned it. -/
lemma invoke_default {opcode : Int16} (hneg : ¬opcode < 0)
    (h : opcode ∉ [ocSize, ocPut, ocGet, ocUpdate, ocDel]) :
    invoke tabela ⟨opcode, content⟩ = .ok (.unset, tabela) := by
  simp only [List.mem_cons, List.not_mem_nil, or_false, not_or] at h
  rw [invoke_of_opcode _ _ hneg, if_neg h.1, if_neg h.2.1, if_neg h.2.2.1, if_neg h.2.2.2.1,
    if_neg h.2.2.2.2]

/-! ### Table requests -/

/-- A request for the table, with the `c_type` that the client stub gives it. -/
inductive Request
  | size (result : Int32)
  | put (entry : EntryT)
  | get (key : CString)
  | update (entry : EntryT)
  | del (key : CString)
  deriving DecidableEq

def Request.msg : Request → MessageT
  | .size result => ⟨ocSize, .result result⟩
  | .put entry => ⟨ocPut, .entry entry⟩
  | .get key => ⟨ocGet, .key key⟩
  | .update entry => ⟨ocUpdate, .entry entry⟩
  | .del key => ⟨ocDel, .key key⟩

def Request.keys : Request → List CString
  | .size _ => []
  | .put entry | .update entry => [entry.key]
  | .get key | .del key => [key]

/-- The hash of every key of the request is an index for `n` buckets. -/
def Request.Indexable (request : Request) (n : ℤ) : Prop :=
  ∀ key ∈ request.keys, 0 ≤ keyHash key n

instance (request : Request) (n : ℤ) : Decidable (request.Indexable n) :=
  inferInstanceAs (Decidable (∀ key ∈ request.keys, _))

/-- The contents after a request. -/
def Request.apply (m : KeyMap) : Request → KeyMap
  | .size _ | .get _ => m
  | .put entry => (mapPut m entry.key entry.value).2
  | .update entry => (mapUpdate m entry.key entry.value).2
  | .del key => (mapDel m key).2

lemma lookup_apply_of_not_mem {m : KeyMap} {request : Request} {key : CString}
    (h : key ∉ request.keys) : (request.apply m).lookup key = m.lookup key := by
  cases request with
  | size result => rfl
  | get key' => rfl
  | put entry =>
    have hne : key ≠ entry.key := fun heq => h (List.mem_singleton.mpr heq)
    simp only [Request.apply, mapPut]
    split
    · rfl
    · exact Finmap.lookup_insert_of_ne _ hne
  | update entry =>
    have hne : key ≠ entry.key := fun heq => h (List.mem_singleton.mpr heq)
    simp only [Request.apply, mapUpdate]
    split
    · exact Finmap.lookup_insert_of_ne _ hne
    · rfl
  | del key' =>
    have hne : key ≠ key' := fun heq => h (List.mem_singleton.mpr heq)
    simp only [Request.apply, mapDel]
    split
    · exact Finmap.lookup_erase_ne hne
    · rfl

lemma mem_apply {m : KeyMap} {request : Request} {key : CString} (h : key ∈ request.apply m) :
    key ∈ m ∨ key ∈ request.keys := by
  by_cases hkey : key ∈ request.keys
  · exact Or.inr hkey
  · obtain ⟨data, hlook⟩ := Finmap.mem_iff.mp h
    rw [lookup_apply_of_not_mem hkey] at hlook
    exact Or.inl (Finmap.mem_of_lookup_eq_some hlook)

def foundMsg (opcode : Int16) (found : Bool) : MessageT :=
  if found then resultMsg opcode 0 else buildErrorMsg

/-- The reply to a request other than a listing, from the contents alone. -/
def Request.reply (m : KeyMap) : Request → MessageT
  | .size _ => resultMsg (ocSize + 1) m.keys.card
  | .put entry => resultMsg (ocPut + 1) (mapPut m entry.key entry.value).1
  | .get key => match m.lookup key with
    | some data => ⟨ocGet + 1, .data data⟩
    | none => buildErrorMsg
  | .update entry => foundMsg (ocUpdate + 1) (entry.key ∈ m)
  | .del key => foundMsg (ocDel + 1) (key ∈ m)

variable {n : ℤ} {m : KeyMap}

lemma invokeSize_refines (hr : tabela.Represents n m) :
    invokeSize tabela = .ok (resultReply (ocSize + 1) m.keys.card, tabela) := by
  have hsize : ¬(m.keys.card : ℤ) < 0 := by omega
  rw [invokeSize, tableSize_refines hr]
  simp only [if_neg hsize]

lemma invokePut_refines (hr : tabela.Represents n m) {entry : EntryT}
    (hk : 0 ≤ keyHash entry.key n) :
    ∃ tabela', invokePut tabela (.entry entry) =
        .ok (resultReply (ocPut + 1) (mapPut m entry.key entry.value).1, tabela') ∧
      tabela'.Represents n (mapPut m entry.key entry.value).2 := by
  obtain ⟨tabela', hput, hr'⟩ := tablePut_refines hr hk entry.value
  refine ⟨tabela', ?_, hr'⟩
  simp only [invokePut, Content.entryMember, ok_bind, hput]
  unfold mapPut
  by_cases hmem : entry.key ∈ m
  · simp [hmem, pure_eq_ok]
  · simp [hmem, pure_eq_ok]

lemma invokeUpdate_refines (hr : tabela.Represents n m) {entry : EntryT}
    (hk : 0 ≤ keyHash entry.key n) :
    ∃ tabela', invokeUpdate tabela (.entry entry) =
        .ok (.message (foundMsg (ocUpdate + 1) (entry.key ∈ m)), tabela') ∧
      tabela'.Represents n (mapUpdate m entry.key entry.value).2 := by
  obtain ⟨tabela', hupdate, hr'⟩ := tableUpdate_refines hr hk entry.value
  refine ⟨tabela', ?_, hr'⟩
  simp only [invokeUpdate, Content.entryMember, ok_bind, hupdate]
  unfold mapUpdate foundMsg
  by_cases hmem : entry.key ∈ m
  · simp [hmem, pure_eq_ok, resultReply]
  · simp [hmem, pure_eq_ok, errorReply]

lemma invokeDel_refines (hr : tabela.Represents n m) {key : CString} (hk : 0 ≤ keyHash key n) :
    ∃ tabela', invokeDel tabela (.key key) =
        .ok (.message (foundMsg (ocDel + 1) (key ∈ m)), tabela') ∧
      tabela'.Represents n (mapDel m key).2 := by
  obtain ⟨tabela', hdel, hr'⟩ := tableDel_refines hr hk
  refine ⟨tabela', ?_, hr'⟩
  simp only [invokeDel, Content.keyMember, ok_bind, hdel]
  unfold mapDel foundMsg
  by_cases hmem : key ∈ m
  · simp [hmem, pure_eq_ok, resultReply]
  · simp [hmem, pure_eq_ok, errorReply]

lemma invokeGet_refines (hr : tabela.Represents n m) {key : CString} (hk : 0 ≤ keyHash key n)
    (hbang : key ≠ bang) :
    invokeGet tabela (.key key) = .ok (.message ((Request.get key).reply m), tabela) := by
  have hcmp : ¬strcmp bang key = 0 := by
    rw [strcmp_eq_zero_iff]
    exact Ne.symm hbang
  simp only [invokeGet, Content.keyMember, ok_bind, if_neg hcmp, tableGet_refines hr hk,
    Request.reply, pure_eq_ok]
  cases m.lookup key with
  | none => rfl
  | some data => rfl

/-! ### The listing -/

lemma collectKeys_eq (tabela : TableT) :
    collectKeys tabela.buckets = tabela.entries.map EntryT.key := by
  have hbucket : ∀ list : ListT, (listGetKeys list).getD [] = list.head.map EntryT.key := by
    intro list
    unfold listGetKeys
    by_cases h : list.head = []
    · rw [if_pos h, h]
      rfl
    · rw [if_neg h]
      rfl
  rw [collectKeys, TableT.entries, funext hbucket, List.map_flatten, List.map_map,
    List.flatMap_def]
  rfl

lemma card_keys_eq_zero_iff : (m.keys.card : ℤ) = 0 ↔ m = ∅ := by
  rw [Nat.cast_eq_zero, Finset.card_eq_zero]
  constructor
  · intro h
    apply Finmap.ext_lookup
    intro key
    rw [Finmap.lookup_empty, Finmap.lookup_eq_none, ← Finmap.mem_keys, h]
    simp
  · intro h
    rw [h]
    rfl

lemma quantityEntry_eq_zero_iff (hr : tabela.Represents n m) :
    tabela.quantityEntry = 0 ↔ m = ∅ := by
  rw [← hr.contents, quantityEntry_eq_card hr.wellFormed, card_keys_eq_zero_iff]

lemma invokeGet_empty (hr : tabela.Represents n ∅) :
    invokeGet tabela (.key bang) = .ok (resultReply (ocGet + 1) 0, tabela) := by
  have hcmp : strcmp bang bang = 0 := (strcmp_eq_zero_iff _ _).mpr rfl
  have hzero := (quantityEntry_eq_zero_iff hr).mpr rfl
  simp only [invokeGet, Content.keyMember, ok_bind, if_pos hcmp, if_pos hzero, pure_eq_ok]

lemma nodup_collectKeys (hr : tabela.Represents n m) : (collectKeys tabela.buckets).Nodup := by
  rw [collectKeys_eq]
  exact nodup_keys_entries hr.wellFormed

lemma mem_collectKeys (hr : tabela.Represents n m) (key : CString) :
    key ∈ collectKeys tabela.buckets ↔ key ∈ m := by
  rw [collectKeys_eq, ← mem_keys_contents, hr.contents, Finmap.mem_keys]

lemma invokeGet_listing (hr : tabela.Represents n m) (hne : m ≠ ∅) :
    invokeGet tabela (.key bang) =
      .ok (.message ⟨ocGet + 1, .keys (collectKeys tabela.buckets)⟩, tabela) := by
  have hcmp : strcmp bang bang = 0 := (strcmp_eq_zero_iff _ _).mpr rfl
  have hzero : ¬tabela.quantityEntry = 0 := fun h => hne ((quantityEntry_eq_zero_iff hr).mp h)
  simp only [invokeGet, Content.keyMember, ok_bind, if_pos hcmp, if_neg hzero, tableGetKeys,
    pure_eq_ok]

/-- A request other than a listing is answered from the contents and changes them as it says. -/
theorem invoke_refines (hr : tabela.Represents n m) {request : Request}
    (hi : request.Indexable n) (hbang : request ≠ .get bang) :
    ∃ tabela', invoke tabela request.msg = .ok (.message (request.reply m), tabela') ∧
      tabela'.Represents n (request.apply m) := by
  cases request with
  | size result =>
    rw [Request.msg, invoke_size]
    exact ⟨tabela, invokeSize_refines hr, hr⟩
  | put entry =>
    rw [Request.msg, invoke_put]
    exact invokePut_refines hr (hi entry.key List.mem_cons_self)
  | get key =>
    rw [Request.msg, invoke_get]
    have hne : key ≠ bang := fun h => hbang (h ▸ rfl)
    exact ⟨tabela, invokeGet_refines hr (hi key List.mem_cons_self) hne, hr⟩
  | update entry =>
    rw [Request.msg, invoke_update]
    exact invokeUpdate_refines hr (hi entry.key List.mem_cons_self)
  | del key =>
    rw [Request.msg, invoke_del]
    exact invokeDel_refines hr (hi key List.mem_cons_self)

/-- Every table request is served, and the contents change as the request says. -/
theorem invoke_represents (hr : tabela.Represents n m) {request : Request}
    (hi : request.Indexable n) :
    ∃ msg tabela', invoke tabela request.msg = .ok (.message msg, tabela') ∧
      tabela'.Represents n (request.apply m) := by
  by_cases hbang : request = .get bang
  · subst hbang
    rw [Request.msg, invoke_get]
    by_cases hne : m = ∅
    · subst hne
      exact ⟨_, tabela, invokeGet_empty hr, hr⟩
    · exact ⟨_, tabela, invokeGet_listing hr hne, hr⟩
  · obtain ⟨tabela', h, hr'⟩ := invoke_refines hr hi hbang
    exact ⟨_, tabela', h, hr'⟩

end RemoteTable
