import RemoteTable.PointerTables

/-!
# Whole lives of a table

A caller makes a table, calls it as long as it likes with keys and values of its own, and
destroys it. Where every allocation is granted, no call uses a released block or one that is
not its own, the answers are those of the finite map, and the blocks that are left are counted:
two for a `table_put` of a key that is there, one for a `table_update` of a key that is not.
-/

namespace RemoteTable.Pointers
open Memory Memory.Assertion Allocation

/-! ### The caller -/

section
variable {β : Type}

/-- A key that the caller owns during a call. -/
def withKey (key : CString) (call : Option ℕ → Mem Cell β) : Mem Cell β := do
  let k ← malloc (.block (.string key))
  let r ← call k
  free k
  pure r

/-- A value that the caller owns during a call. -/
def withValue (value : DataT) (call : Option ℕ → Mem Cell β) : Mem Cell β := do
  let bytes ← malloc (.block (.bytes value.bytes))
  let data ← malloc (.block (.data value.datasize bytes))
  let r ← call data
  lift blocks (dataDestroy data)
  pure r

end

/-- The value behind a pointer. -/
def readValue (data : Option ℕ) : Mem Block DataT := do
  let (datasize, block) ← readData data
  let bs ← readBytes block
  if h : 0 < bs.length ∧ bs.length < 2 ^ 31 ∧ datasize = bs.length then pure ⟨bs, h.1, h.2.1⟩
  else throw .outside

/-- A call with what it takes, after which the caller releases its key and its value, and the
copy that it got. -/
def runCall (table : Option ℕ) : TableCall → Mem Cell TableReturn
  | .put key value => withKey key fun k => withValue value fun d => do
    let result ← tablePut table k d
    pure (.code result)
  | .update key value => withKey key fun k => withValue value fun d => do
    let result ← tableUpdate table k d
    pure (.code result)
  | .get key => withKey key fun k => do
    let data ← tableGet table k
    match data with
    | none => pure (.data none)
    | some _ => do
      let value ← lift blocks (readValue data)
      lift blocks (dataDestroy data)
      pure (.data (some value))
  | .del key => withKey key fun k => do
    let result ← tableDel table k
    pure (.code result)
  | .size => do
    let result ← tableSize table
    pure (.code result)

def runCalls (table : Option ℕ) : List TableCall → Mem Cell (List TableReturn)
  | [] => pure []
  | call :: calls => do
    let r ← runCall table call
    let rs ← runCalls table calls
    pure (r :: rs)

/-- A table from its creation to its destruction. -/
def tableLife (unset n : ℤ) (calls : List TableCall) : Mem Cell (List TableReturn) := do
  let table ← tableCreate unset n
  let returns ← runCalls table calls
  tableDestroy table
  pure returns

/-- The blocks that a call on a map leaves behind. -/
def leaked (m : KeyMap) : TableCall → ℕ
  | .put key _ => if key ∈ m then 2 else 0
  | .update key _ => if key ∈ m then 0 else 1
  | _ => 0

def leakedAll (m : KeyMap) : List TableCall → ℕ
  | [] => 0
  | call :: calls => leaked m call + leakedAll (mapCall m call).2 calls

/-- A table that stores a finite map. -/
def storesAt (t : ℕ) (n : ℤ) (m : KeyMap) : Assertion Cell :=
  ex fun table => only (table.Represents n m) * tableAt t table

section
variable {β : Type} {P : Assertion Cell} {Q : β → Assertion Cell} {t : ℕ} {n : ℤ} {m : KeyMap}
  {table : TableT} {key : CString} {value : DataT} {list : ListT}

lemma withKey_triple {call : Option ℕ → Mem Cell β}
    (h : ∀ k, Triple (ownedString k key * P) (call (some k)) fun r => Q r * ownedString k key) :
    Triple P (withKey key call) Q := by
  refine triple_malloc_step fun k => ?_
  have hkey : ownedString k key = cell k (.block (.string key)) := embed_cell blocks
  rw [← hkey]
  refine (h k).bind fun r => ?_
  rw [mul_comm, hkey]
  refine (triple_free k _).step (Q r) rfl fun _ => ?_
  rw [one_mul]
  exact triple_pure le_rfl

lemma withValue_triple {call : Option ℕ → Mem Cell β}
    (h : ∀ d, Triple (ownedData d value * P) (call (some d)) fun r => Q r * ownedData d value) :
    Triple P (withValue value call) Q := by
  refine triple_malloc_step fun b => triple_malloc_step fun d => ?_
  have hdata : cell d (.block (.data value.datasize (some b))) *
      cell b (.block (.bytes value.bytes)) ≤ ownedData d value := by
    refine le_trans (le_of_eq ?_) (embed_mono blocks (dataAt_intro d b value))
    rw [embed_mul, embed_cell, embed_cell]
    rfl
  rw [← mul_assoc]
  refine Triple.weaken ?_ (mul_le_mul_left hdata P)
  refine (h d).bind fun r => ?_
  rw [mul_comm]
  refine (destroyData_triple d value).step (Q r) rfl fun _ => ?_
  rw [one_mul]
  exact triple_pure le_rfl

lemma readValue_reads (d : ℕ) (value : DataT) :
    Reads (dataAt d value) (readValue (some d)) value := by
  refine reads_ex fun b => ?_
  refine (reads_data _ _).step _ rfl ?_
  refine (reads_bytes value.bytes).step _ (mul_comm _ _) ?_
  rw [dif_pos ⟨value.positive, value.fits, rfl⟩]
  exact reads_pure _ value

lemma storesAt_intro (hr : table.Represents n m) (t : ℕ) : tableAt t table ≤ storesAt t n m :=
  fun _ hc => ⟨table, mem_only_mul.mpr ⟨hr, hc⟩⟩

/-- What a call of the caller comes to. -/
def Answered (t : ℕ) (n : ℤ) (m : KeyMap) (call : TableCall) (r : TableReturn) :
    Assertion Cell :=
  only (r = (mapCall m call).1) * (held (leaked m call) * storesAt t n (mapCall m call).2)

/-- An `int` that is returned for a key and a value. -/
lemma code_triple {call : TableCall} {run : Option ℕ → Option ℕ → Mem Cell ℤ} (result : ℤ)
    (left : ℕ) (m' : KeyMap) (hcall : mapCall m call = (.code result, m'))
    (hleft : leaked m call = left)
    (h : ∀ k d, Triple (tableAt t table * (ownedString k key * ownedData d value))
      (run (some k) (some d)) fun r => only (r = result) *
        (held left * storesAt t n m' * (ownedString k key * ownedData d value))) :
    Triple (tableAt t table) (withKey key fun k => withValue value fun d => do
      let result ← run k d
      pure (.code result)) (Answered t n m call) := by
  refine withKey_triple fun k => withValue_triple fun d => ?_
  rw [mul_comm (ownedString k key)]
  refine (h k d).step 1 ?_ fun r => ?_
  · rw [mul_one]
    ac_rfl
  · rw [mul_one]
    apply triple_only
    rintro rfl
    apply triple_pure
    rw [Answered, hcall, hleft, only_mul_of rfl]
    exact le_of_eq (by ac_rfl)

lemma tablePut_of_absent (hb : RemoteTable.bucketAt table (keyHash key table.size) = .ok list)
    (hw : list.WellFormed) (hget : RemoteTable.listGet list key = none) :
    RemoteTable.tablePut table key value = .ok (0, RemoteTable.setBucket table
      (keyHash key table.size) (RemoteTable.listAdd list ⟨key, value⟩).2
      (table.quantityEntry + 1)) := by
  have hadd : (RemoteTable.listAdd list ⟨key, value⟩).1 = 0 := by rw [listAdd_eq hw]
  simp [RemoteTable.tablePut, RemoteTable.tableGet, hb, hget, hadd, Bind.bind, Except.bind, pure,
    Except.pure]

lemma tablePut_of_present {e : EntryT}
    (hb : RemoteTable.bucketAt table (keyHash key table.size) = .ok list)
    (hget : RemoteTable.listGet list key = some e) :
    RemoteTable.tablePut table key value = .ok (-10, table) := by
  simp [RemoteTable.tablePut, RemoteTable.tableGet, hb, hget, Bind.bind, Except.bind, pure,
    Except.pure]

lemma tableUpdate_of_absent (hb : RemoteTable.bucketAt table (keyHash key table.size) = .ok list)
    (hget : RemoteTable.listGet list key = none) :
    RemoteTable.tableUpdate table key value = .ok (-1, table) := by
  simp [RemoteTable.tableUpdate, hb, hget, Bind.bind, Except.bind, pure, Except.pure]

lemma tableUpdate_of_present {e : EntryT}
    (hb : RemoteTable.bucketAt table (keyHash key table.size) = .ok list)
    (hget : RemoteTable.listGet list key = some e) :
    RemoteTable.tableUpdate table key value = .ok (0, RemoteTable.setBucket table
      (keyHash key table.size) (listSetValue list key value) table.quantityEntry) := by
  simp [RemoteTable.tableUpdate, hb, hget, Bind.bind, Except.bind, pure, Except.pure]

lemma tableDel_eq (hb : RemoteTable.bucketAt table (keyHash key table.size) = .ok list) :
    RemoteTable.tableDel table key = .ok ((RemoteTable.listRemove list key).1,
      RemoteTable.setBucket table (keyHash key table.size) (RemoteTable.listRemove list key).2
        (if (RemoteTable.listRemove list key).1 = 0 then table.quantityEntry - 1
          else table.quantityEntry)) := by
  simp only [RemoteTable.tableDel, hb, Bind.bind, Except.bind]
  split
  · rfl
  · rfl

/-- `table_put` on a table that stores a map. -/
lemma tablePut_stored (hr : table.Represents n m) (hk : 0 ≤ keyHash key n) (t k d : ℕ)
    (value : DataT) :
    ∃ table', RemoteTable.tablePut table key value = .ok ((mapPut m key value).1, table') ∧
      table'.Represents n (mapPut m key value).2 ∧
      Triple (tableAt t table * (ownedString k key * ownedData d value))
        (tablePut (some t) (some k) (some d)) fun r => only (r = (mapPut m key value).1) *
          (held (leaked m (.put key value)) *
            (tableAt t table' * (ownedString k key * ownedData d value))) := by
  obtain ⟨list, hb, hw, hlook, -⟩ := hr.exists_bucketAt hk
  obtain ⟨table', hput, hr'⟩ := tablePut_refines hr hk value
  refine ⟨table', hput, hr', ?_⟩
  have hmem := mem_iff_listGet hlook
  cases hget : RemoteTable.listGet list key with
  | none =>
    have habsent : key ∉ m := fun h => hmem.mp h hget
    rw [tablePut_of_absent hb hw hget, mapPut, if_neg habsent] at hput
    cases hput
    rw [mapPut, if_neg habsent, leaked, if_neg habsent]
    exact (tablePut_absent t k d value hw hb hget).mono le_rfl fun r =>
      mul_le_mul' le_rfl (le_held_zero_mul _)
  | some e =>
    have hpresent : key ∈ m := hmem.mpr (by simp [hget])
    rw [tablePut_of_present hb hget, mapPut, if_pos hpresent] at hput
    cases hput
    rw [mapPut, if_pos hpresent, leaked, if_pos hpresent]
    exact tablePut_present t k d value hb hget

/-- `table_update` on a table that stores a map. -/
lemma tableUpdate_stored (hr : table.Represents n m) (hk : 0 ≤ keyHash key n) (t k d : ℕ)
    (value : DataT) :
    ∃ table', RemoteTable.tableUpdate table key value = .ok ((mapUpdate m key value).1, table') ∧
      table'.Represents n (mapUpdate m key value).2 ∧
      Triple (tableAt t table * (ownedString k key * ownedData d value))
        (tableUpdate (some t) (some k) (some d)) fun r => only (r = (mapUpdate m key value).1) *
          (held (leaked m (.update key value)) *
            (tableAt t table' * (ownedString k key * ownedData d value))) := by
  obtain ⟨list, hb, -, hlook, -⟩ := hr.exists_bucketAt hk
  obtain ⟨table', hupdate, hr'⟩ := tableUpdate_refines hr hk value
  refine ⟨table', hupdate, hr', ?_⟩
  have hmem := mem_iff_listGet hlook
  cases hget : RemoteTable.listGet list key with
  | none =>
    have habsent : key ∉ m := fun h => hmem.mp h hget
    rw [tableUpdate_of_absent hb hget, mapUpdate, if_neg habsent] at hupdate
    cases hupdate
    rw [mapUpdate, if_neg habsent, leaked, if_neg habsent]
    exact tableUpdate_absent t k d value hb hget
  | some e =>
    have hpresent : key ∈ m := hmem.mpr (by simp [hget])
    rw [tableUpdate_of_present hb hget, mapUpdate, if_pos hpresent] at hupdate
    cases hupdate
    rw [mapUpdate, if_pos hpresent, leaked, if_pos hpresent]
    exact (tableUpdate_present t k d value hb hget).mono le_rfl fun r =>
      mul_le_mul' le_rfl (le_held_zero_mul _)

/-- `table_del` on a table that stores a map. -/
lemma tableDel_stored (hr : table.Represents n m) (hk : 0 ≤ keyHash key n) (t k : ℕ) :
    ∃ table', RemoteTable.tableDel table key = .ok ((mapDel m key).1, table') ∧
      table'.Represents n (mapDel m key).2 ∧
      Triple (tableAt t table * ownedString k key) (tableDel (some t) (some k)) fun r =>
        only (r = (mapDel m key).1) * (tableAt t table' * ownedString k key) := by
  obtain ⟨list, hb, -, -, -⟩ := hr.exists_bucketAt hk
  obtain ⟨table', hdel, hr'⟩ := tableDel_refines hr hk
  refine ⟨table', hdel, hr', ?_⟩
  rw [tableDel_eq hb, Except.ok.injEq, Prod.mk.injEq] at hdel
  obtain ⟨hcode, rfl⟩ := hdel
  rw [← hcode]
  exact tableDel_triple t k hb

lemma put_triple (hr : table.Represents n m) (hk : 0 ≤ keyHash key n) :
    Triple (tableAt t table) (runCall (some t) (.put key value))
      (Answered t n m (.put key value)) := by
  refine code_triple _ _ _ rfl rfl fun k d => ?_
  obtain ⟨table', -, hr', hput⟩ := tablePut_stored hr hk t k d value
  refine hput.mono le_rfl fun r => ?_
  rw [← mul_assoc (held _)]
  exact mul_le_mul' le_rfl (mul_le_mul_left (mul_le_mul' le_rfl (storesAt_intro hr' t)) _)

lemma update_triple (hr : table.Represents n m) (hk : 0 ≤ keyHash key n) :
    Triple (tableAt t table) (runCall (some t) (.update key value))
      (Answered t n m (.update key value)) := by
  refine code_triple _ _ _ rfl rfl fun k d => ?_
  obtain ⟨table', -, hr', hupdate⟩ := tableUpdate_stored hr hk t k d value
  refine hupdate.mono le_rfl fun r => ?_
  rw [← mul_assoc (held _)]
  exact mul_le_mul' le_rfl (mul_le_mul_left (mul_le_mul' le_rfl (storesAt_intro hr' t)) _)

lemma get_triple (hr : table.Represents n m) (hk : 0 ≤ keyHash key n) :
    Triple (tableAt t table) (runCall (some t) (.get key)) (Answered t n m (.get key)) := by
  obtain ⟨list, hb, -, hlook, -⟩ := hr.exists_bucketAt hk
  have hstay : tableAt t table ≤ held 0 * storesAt t n m :=
    (storesAt_intro hr t).trans (le_held_zero_mul _)
  refine withKey_triple fun k => ?_
  refine (tableGet_triple t k hb).step 1 (by rw [mul_one, mul_comm]) fun r => ?_
  rw [mul_one]
  cases hget : RemoteTable.listGet list key with
  | none =>
    rw [hget] at hlook
    apply triple_only
    rintro rfl
    apply triple_pure
    rw [Answered, mapCall, hlook, Option.map_none, only_mul_of rfl]
    exact mul_le_mul_left hstay _
  | some e =>
    rw [hget] at hlook
    apply triple_returned
    rintro d rfl
    refine ((readValue_reads d e.value).lift blocks).step _ rfl ?_
    refine (destroyData_triple d e.value).step _ rfl fun _ => ?_
    rw [one_mul]
    apply triple_pure
    rw [Answered, mapCall, hlook, Option.map_some, only_mul_of rfl]
    exact mul_le_mul_left hstay _

lemma del_triple (hr : table.Represents n m) (hk : 0 ≤ keyHash key n) :
    Triple (tableAt t table) (runCall (some t) (.del key)) (Answered t n m (.del key)) := by
  refine withKey_triple fun k => ?_
  obtain ⟨table', -, hr', hdel⟩ := tableDel_stored hr hk t k
  refine hdel.step 1 (by rw [mul_one, mul_comm]) fun r => ?_
  rw [mul_one]
  apply triple_only
  rintro rfl
  apply triple_pure
  rw [Answered, mapCall, only_mul_of rfl]
  exact mul_le_mul_left ((storesAt_intro hr' t).trans (le_held_zero_mul _)) _

lemma size_triple (hr : table.Represents n m) :
    Triple (tableAt t table) (runCall (some t) .size) (Answered t n m .size) := by
  refine (tableSize_triple t table).bind (triple_pure ?_)
  rw [Answered, mapCall, tableSize_refines hr, only_mul_of rfl]
  exact (storesAt_intro hr t).trans (le_held_zero_mul _)

/-- Every call on a table that stores a map. -/
theorem runCall_triple (t : ℕ) (n : ℤ) (m : KeyMap) (call : TableCall)
    (hk : ∀ key ∈ call.keys, 0 ≤ keyHash key n) :
    Triple (storesAt t n m) (runCall (some t) call) (Answered t n m call) := by
  refine triple_ex fun table => triple_only fun hr => ?_
  cases call with
  | put key value => exact put_triple hr (hk key (by simp [TableCall.keys]))
  | update key value => exact update_triple hr (hk key (by simp [TableCall.keys]))
  | get key => exact get_triple hr (hk key (by simp [TableCall.keys]))
  | del key => exact del_triple hr (hk key (by simp [TableCall.keys]))
  | size => exact size_triple hr

/-- What is left adds up over the calls. -/
theorem runCalls_triple (t : ℕ) (n : ℤ) (m : KeyMap) (calls : List TableCall)
    (hk : ∀ call ∈ calls, ∀ key ∈ call.keys, 0 ≤ keyHash key n) :
    Triple (storesAt t n m) (runCalls (some t) calls) fun rs =>
      only (rs = (Machine.answers mapCall m calls).1) *
        (held (leakedAll m calls) * storesAt t n (Machine.answers mapCall m calls).2) := by
  induction calls generalizing m with
  | nil => exact triple_pure ((le_held_zero_mul _).trans (only_mul_of rfl _).ge)
  | cons call calls ih =>
    refine (runCall_triple t n m call (hk call List.mem_cons_self)).bind fun r => ?_
    apply triple_only
    rintro rfl
    refine (ih (mapCall m call).2 fun c hc => hk c (List.mem_cons_of_mem _ hc)).step
      (held (leaked m call)) (mul_comm _ _) fun rs => ?_
    rw [mul_assoc]
    apply triple_only
    rintro rfl
    apply triple_pure
    refine le_trans ?_ (only_mul_of rfl _).ge
    rw [mul_comm _ (held (leaked m call)), ← mul_assoc]
    exact mul_le_mul_left (held_mul_le _ _) _

end

theorem tableLife_triple (unset : ℤ) {n : ℤ} (hn : 0 < n) (calls : List TableCall)
    (hk : ∀ call ∈ calls, ∀ key ∈ call.keys, 0 ≤ keyHash key n) :
    Triple 1 (tableLife unset n calls) fun rs =>
      only (rs = (Machine.answers mapCall ∅ calls).1) * held (leakedAll ∅ calls) := by
  obtain ⟨created, hcreate, hsize, hw, hempty⟩ := contents_tableCreate hn
  refine (tableCreate_triple unset hcreate).step 1 (mul_one _).symm fun r => triple_returned ?_
  rintro t rfl
  rw [mul_one]
  refine Triple.weaken ?_ (storesAt_intro ⟨hw, hsize, hempty⟩ t)
  refine (runCalls_triple t n ∅ calls hk).bind fun rs => ?_
  apply triple_only
  rintro rfl
  rw [mul_comm, storesAt, ex_mul]
  refine triple_ex fun table => ?_
  rw [mul_assoc]
  refine triple_only fun hr => ?_
  have hlen : table.buckets.length = table.size.toNat := by
    rw [hr.wellFormed.size_eq, Int.toNat_natCast]
  refine (tableDestroy_triple t hlen).step _ rfl fun _ => ?_
  rw [one_mul]
  exact triple_pure (only_mul_of rfl _).ge

/-- The life of a table, from a heap with no refusals and whatever else it holds: the answers
are those of the empty map, what was live stays as it is, and beside it are live as many blocks
as the calls leak. -/
theorem tableLife_accounts (unset n : ℤ) (hn : 0 < n) (calls : List TableCall)
    (hk : ∀ call ∈ calls, ∀ key ∈ call.keys, 0 ≤ keyHash key n) (h : Heap Cell)
    (hg : h.Granted) :
    ∃ h', tableLife unset n calls h = .ok ((Machine.answers mapCall ∅ calls).1, h') ∧
      (∀ p, h.cells p ≠ none → h'.cells p = h.cells p) ∧
      {p | h'.cells p ≠ none ∧ h.cells p = none}.ncard = leakedAll ∅ calls := by
  obtain ⟨rs, h', hrun, rfl, hkept, hleft⟩ := (tableLife_triple unset hn calls hk).leaves h hg
  exact ⟨h', hrun, hkept, hleft⟩

/-- A second write to a key, and an update of a key that is not there. -/
def leakyCalls : List TableCall :=
  [.put (.ofBytes [97]) ⟨[11], by decide, by decide⟩,
    .put (.ofBytes [97]) ⟨[12, 13], by decide, by decide⟩,
    .update (.ofBytes [99]) ⟨[14], by decide, by decide⟩,
    .get (.ofBytes [97]), .del (.ofBytes [97])]

def emptyHeap : Heap Cell := ⟨fun _ => none, 0, fun _ => true, fun _ _ => rfl⟩

theorem tableLife_accounts_leaky :
    ∃ h', tableLife 0 2 leakyCalls emptyHeap =
        .ok ([.code 0, .code (-10), .code (-1), .data (some ⟨[11], by decide, by decide⟩), .code 0],
          h') ∧
      (∀ p, emptyHeap.cells p ≠ none → h'.cells p = emptyHeap.cells p) ∧
      {p | h'.cells p ≠ none ∧ emptyHeap.cells p = none}.ncard = 3 := by
  have h := tableLife_accounts 0 2 (by decide) leakyCalls (by decide) emptyHeap (fun _ => rfl)
  have hanswers : (Machine.answers mapCall ∅ leakyCalls).1 =
      [.code 0, .code (-10), .code (-1), .data (some ⟨[11], by decide, by decide⟩), .code 0] := by
    decide
  have hleaked : leakedAll ∅ leakyCalls = 3 := by decide
  rwa [hanswers, hleaked] at h

end RemoteTable.Pointers
