import RemoteTable.Requests

/-!
# The arrays of copied keys

`list_get_keys` and `table_get_keys` fill a `char **` slot by slot and close it with `NULL`.
A block is the bytes that `malloc` was asked for and the pointers stored since, so that what
is read back and where it was written are two questions.
-/

namespace RemoteTable
open KeyedList

/-- `sizeof(char *)` -/
def sizeofPointer : ℤ := 8

/-- A pointer stored into a block: the slot, and a copied string or `NULL`. -/
structure SlotStore where
  slot : ℤ
  pointer : Option CString
  deriving DecidableEq

structure KeyArray where
  bytes : ℤ
  stores : List SlotStore
  deriving DecidableEq

/-- Copies of strings at consecutive slots. -/
def storeKeys (i : ℤ) : List CString → List SlotStore
  | [] => []
  | key :: keys => ⟨i, some key⟩ :: storeKeys (i + 1) keys

/-- The last pointer stored to slot `i`. -/
def lastStored (i : ℤ) : List SlotStore → Option (Option CString)
  | [] => none
  | store :: stores =>
    (lastStored i stores).or (if store.slot = i then some store.pointer else none)

/-- `while (keys[i] != NULL)`, where a slot that was never stored to has no value to test. -/
def readKeys (stores : List SlotStore) : ℕ → ℤ → Except Fault (List CString)
  | 0, _ => .error .uninitialised
  | fuel + 1, i =>
    match lastStored i stores with
    | none => .error .uninitialised
    | some none => .ok []
    | some (some key) => do
      let keys ← readKeys stores fuel (i + 1)
      return key :: keys

/-- The strings of an array. Each slot read was stored to, so there are no more of them than
stores. -/
def KeyArray.strings (keys : KeyArray) : Except Fault (List CString) :=
  readKeys keys.stores keys.stores.length 0

/-- `list_get_keys`, which closes the array at `list->size`. -/
def listKeyArray (list : ListT) : Option KeyArray :=
  if list.head = [] then none
  else some ⟨sizeofPointer * (list.size + 1),
    storeKeys 0 (list.head.map EntryT.key) ++ [⟨list.size, none⟩]⟩

/-- The loop of `table_get_keys` over the buckets, with the next slot of `table_keys`. -/
def tableKeysLoop (indexTotal : ℤ) : List ListT → Except Fault (List SlotStore × ℤ)
  | [] => .ok ([], indexTotal)
  | list :: rest =>
    match listKeyArray list with
    | none => tableKeysLoop indexTotal rest
    | some temp => do
      let keys ← temp.strings
      let (stores, indexTotal') ← tableKeysLoop (indexTotal + keys.length) rest
      return (storeKeys indexTotal keys ++ stores, indexTotal')

/-- `table_get_keys`, whose block has `sizeof(char *) * quantity_entry + 1` bytes. -/
def tableKeyArray (table : TableT) : Except Fault (Option KeyArray) :=
  if table.quantityEntry = 0 then .ok none
  else do
    let (stores, indexTotal) ← tableKeysLoop 0 table.buckets
    return some ⟨sizeofPointer * table.quantityEntry + 1, stores ++ [⟨indexTotal, none⟩]⟩

/-- Strings at the first slots and `NULL` after them. -/
def KeyArray.ofKeys (bytes : ℤ) (keys : List CString) : KeyArray :=
  ⟨bytes, storeKeys 0 keys ++ [⟨keys.length, none⟩]⟩

/-! ### What is read back -/

lemma length_storeKeys (i : ℤ) (keys : List CString) : (storeKeys i keys).length = keys.length := by
  induction keys generalizing i with
  | nil => rfl
  | cons key keys ih => simp only [storeKeys, List.length_cons, ih]

lemma storeKeys_append (i : ℤ) (keys keys' : List CString) :
    storeKeys i (keys ++ keys') = storeKeys i keys ++ storeKeys (i + keys.length) keys' := by
  induction keys generalizing i with
  | nil => simp [storeKeys]
  | cons key keys ih =>
    have hnext : i + 1 + keys.length = i + (key :: keys).length := by
      push_cast [List.length_cons]
      ring
    rw [List.cons_append, storeKeys, ih, storeKeys, List.cons_append, hnext]

lemma lastStored_append (i : ℤ) (stores stores' : List SlotStore) :
    lastStored i (stores ++ stores') = (lastStored i stores').or (lastStored i stores) := by
  induction stores with
  | nil => simp [lastStored]
  | cons store stores ih => rw [List.cons_append, lastStored, ih, lastStored, Option.or_assoc]

lemma lastStored_storeKeys_of_lt {i j : ℤ} (h : i < j) (keys : List CString) :
    lastStored i (storeKeys j keys) = none := by
  induction keys generalizing j with
  | nil => rfl
  | cons key keys ih =>
    rw [storeKeys, lastStored, ih (by omega)]
    simp [h.ne']

/-- The walk from a slot reads what was stored from there on. -/
lemma readKeys_storeKeys {all before keys : List CString} (hall : all = before ++ keys)
    (fuel : ℕ) :
    readKeys (storeKeys 0 all ++ [⟨all.length, none⟩]) (keys.length + 1 + fuel) before.length =
      .ok keys := by
  induction keys generalizing before with
  | nil =>
    have hslot : lastStored before.length (storeKeys 0 all ++ [⟨all.length, none⟩]) =
        some none := by
      rw [hall, List.append_nil]
      simp [lastStored_append, lastStored]
    rw [List.length_nil, Nat.zero_add, Nat.add_comm, readKeys, hslot]
  | cons key keys ih =>
    have hslot : lastStored before.length (storeKeys 0 all ++ [⟨all.length, none⟩]) =
        some (some key) := by
      have hend : ¬(all.length : ℤ) = before.length := by
        rw [hall]
        push_cast [List.length_append, List.length_cons]
        omega
      have hlater := lastStored_storeKeys_of_lt
        (show (before.length : ℤ) < before.length + 1 by omega) keys
      rw [lastStored_append, hall, storeKeys_append, ← hall, lastStored_append, storeKeys, zero_add]
      simp only [lastStored, hlater, if_neg hend, if_true, Option.none_or, Option.some_or]
    have hrest := ih (show all = (before ++ [key]) ++ keys by simp [hall])
    rw [List.length_append, List.length_singleton, Nat.cast_add, Nat.cast_one] at hrest
    have hfuel : (key :: keys).length + 1 + fuel = keys.length + 1 + fuel + 1 := by
      rw [List.length_cons]
      omega
    rw [hfuel, readKeys, hslot]
    simp only [hrest, ok_bind, pure_eq_ok]

lemma strings_ofKeys (bytes : ℤ) (keys : List CString) :
    (KeyArray.ofKeys bytes keys).strings = .ok keys := by
  have h := readKeys_storeKeys (List.nil_append keys).symm 0
  rw [Nat.add_zero] at h
  rw [KeyArray.strings, KeyArray.ofKeys, List.length_append, length_storeKeys]
  exact h

variable {list : ListT} {table : TableT} {n : ℤ} {m : KeyMap}

/-- A list that counts its nodes closes its array after the last of them. -/
lemma listKeyArray_eq (hw : list.WellFormed) (hne : list.head ≠ []) :
    listKeyArray list =
      some (.ofKeys (sizeofPointer * (list.size + 1)) (list.head.map EntryT.key)) := by
  rw [listKeyArray, if_neg hne, KeyArray.ofKeys, List.length_map, ← hw.counted]

lemma tableKeysLoop_eq (indexTotal : ℤ) {buckets : List ListT}
    (hw : ∀ list ∈ buckets, list.WellFormed) :
    tableKeysLoop indexTotal buckets =
      .ok (storeKeys indexTotal (collectKeys buckets),
        indexTotal + (collectKeys buckets).length) := by
  induction buckets generalizing indexTotal with
  | nil => simp [tableKeysLoop, collectKeys, storeKeys]
  | cons list rest ih =>
    have hrest := fun i => ih i (fun l hl => hw l (List.mem_cons_of_mem list hl))
    have hcollect : collectKeys (list :: rest) =
        (listGetKeys list).getD [] ++ collectKeys rest := rfl
    rw [tableKeysLoop, hcollect]
    by_cases hne : list.head = []
    · rw [listKeyArray, if_pos hne, listGetKeys, if_pos hne]
      exact hrest indexTotal
    · rw [listKeyArray_eq (hw list List.mem_cons_self) hne, listGetKeys, if_neg hne]
      simp only [strings_ofKeys, ok_bind, hrest, pure_eq_ok, Option.getD_some, storeKeys_append,
        List.length_append]
      push_cast
      rw [add_assoc]

/-- The array of a table holds the keys of `collectKeys`, closed after the last of them. -/
theorem tableKeyArray_eq (hr : table.Represents n m) (hne : m ≠ ∅) :
    tableKeyArray table =
      .ok (some (.ofKeys (sizeofPointer * table.quantityEntry + 1)
        (collectKeys table.buckets))) := by
  have hzero : ¬table.quantityEntry = 0 := fun h => hne ((quantityEntry_eq_zero_iff hr).mp h)
  rw [tableKeyArray, if_neg hzero, tableKeysLoop_eq 0 hr.wellFormed.bucket, ok_bind, zero_add]
  rfl

/-- What the array of a table holds is what `tableGetKeys` returns. -/
theorem tableKeyArray_strings (hr : table.Represents n m) (hne : m ≠ ∅) :
    ∃ keys strings, tableKeyArray table = .ok (some keys) ∧ keys.strings = .ok strings ∧
      tableGetKeys table = some strings := by
  have hzero : ¬table.quantityEntry = 0 := fun h => hne ((quantityEntry_eq_zero_iff hr).mp h)
  exact ⟨_, _, tableKeyArray_eq hr hne, strings_ofKeys _ _, by rw [tableGetKeys, if_neg hzero]⟩

/-! ### The listing of a table -/

lemma length_collectKeys (hr : table.Represents n m) :
    ((collectKeys table.buckets).length : ℤ) = tableSize table := by
  rw [collectKeys_eq, List.length_map, tableSize, length_entries hr.wellFormed]

/-- Keys come bucket by bucket, and in each bucket from the highest to the lowest. -/
lemma pairwise_collectKeys (hr : table.Represents n m) :
    (collectKeys table.buckets).Pairwise (fun a b => keyHash a n < keyHash b n ∨
      keyHash a n = keyHash b n ∧ 0 < strcmp a b) := by
  have hw := hr.wellFormed
  have hdesc : ∀ b ∈ table.buckets.map ListT.head, Descending EntryT.key b := by
    intro b hb
    obtain ⟨list, hlist, rfl⟩ := List.mem_map.mp hb
    exact (hw.bucket list hlist).descending
  rw [collectKeys_eq, List.pairwise_map, ← hr.size]
  simp only [strcmp_pos_iff]
  exact pairwise_flatten _ (fun k => keyHash k table.size) hw.placed_head hdesc

/-- A `NULL`-terminated array of the stored keys, in the order of the buckets. -/
structure KeyListing (table : TableT) (n : ℤ) (keys : List CString) : Prop where
  array : ∃ bytes, tableKeyArray table = .ok (some (.ofKeys bytes keys))
  returned : tableGetKeys table = some keys
  count : (keys.length : ℤ) = tableSize table
  distinct : keys.Nodup
  complete : ∀ key, key ∈ keys ↔ key ∈ table.contents
  ordered : keys.Pairwise (fun a b => keyHash a n < keyHash b n ∨
    keyHash a n = keyHash b n ∧ 0 < strcmp a b)

theorem tableGetKeys_lists (h : table.Reachable n) (hne : table.contents ≠ ∅) :
    ∃ keys, KeyListing table n keys := by
  have hr := h.represents
  have hzero : ¬table.quantityEntry = 0 := fun h0 => hne ((quantityEntry_eq_zero_iff hr).mp h0)
  exact ⟨collectKeys table.buckets,
    { array := ⟨_, tableKeyArray_eq hr hne⟩
      returned := by rw [tableGetKeys, if_neg hzero]
      count := length_collectKeys hr
      distinct := nodup_collectKeys hr
      complete := mem_collectKeys hr
      ordered := pairwise_collectKeys hr }⟩

lemma bangTable_reachable : bangTable.Reachable 1 :=
  ⟨_, [.put bang ⟨[7], by decide, by decide⟩], [.code 0], rfl, by decide, by decide⟩

lemma bangTable_nonempty : bangTable.contents ≠ ∅ := by
  intro h
  have hzero := (quantityEntry_eq_zero_iff bangTable_reachable.represents).mpr h
  exact absurd hzero (by decide)

theorem tableGetKeys_lists_letters : ∃ keys, KeyListing lettersTable 2 keys := by
  apply tableGetKeys_lists lettersTable_reachable
  intro h
  have hzero := (quantityEntry_eq_zero_iff lettersTable_reachable.represents).mpr h
  exact absurd hzero (by decide)

/-! ### The blocks -/

/-- Every slot that is stored to lies in the block. -/
def KeyArray.StoresInside (keys : KeyArray) : Prop :=
  ∀ store ∈ keys.stores,
    0 ≤ store.slot ∧ sizeofPointer * store.slot + sizeofPointer ≤ keys.bytes

lemma slot_of_mem_storeKeys {i : ℤ} {keys : List CString} {store : SlotStore}
    (h : store ∈ storeKeys i keys) : i ≤ store.slot ∧ store.slot < i + keys.length := by
  induction keys generalizing i with
  | nil => cases h
  | cons key keys ih =>
    rw [List.length_cons]
    rcases List.mem_cons.mp h with rfl | h
    · push_cast
      omega
    · have := ih h
      push_cast
      omega

/-- `n` strings and `NULL` take `n + 1` slots. -/
theorem storesInside_ofKeys_iff (bytes : ℤ) (keys : List CString) :
    (KeyArray.ofKeys bytes keys).StoresInside ↔ sizeofPointer * (keys.length + 1) ≤ bytes := by
  unfold KeyArray.StoresInside KeyArray.ofKeys sizeofPointer
  constructor
  · intro h
    have := h ⟨keys.length, none⟩ (by simp)
    simp only at this
    omega
  · intro h store hstore
    rcases List.mem_append.mp hstore with hstore | hstore
    · have := slot_of_mem_storeKeys hstore
      simp only
      omega
    · obtain rfl := List.mem_singleton.mp hstore
      simp only
      omega

/-- The block of `list_get_keys` has a slot for `NULL`. -/
theorem listKeyArray_storesInside (hw : list.WellFormed) {keys : KeyArray}
    (h : listKeyArray list = some keys) : keys.StoresInside := by
  have hne : list.head ≠ [] := by
    intro hnil
    rw [listKeyArray, if_pos hnil] at h
    cases h
  rw [listKeyArray_eq hw hne] at h
  rw [← Option.some.inj h, storesInside_ofKeys_iff, List.length_map, ← hw.counted]

/-- `table_get_keys` stores inside the block that it allocated. -/
def KeysFitBlock (table : TableT) : Prop :=
  ∀ keys, tableKeyArray table = .ok (some keys) → keys.StoresInside

/-- One byte is no slot: `NULL` ends seven bytes behind the block of every table with keys. -/
theorem not_keysFitBlock (h : table.Reachable n) (hne : table.contents ≠ ∅) :
    ¬KeysFitBlock table := by
  intro hfit
  have hr := h.represents
  have hinside := hfit _ (tableKeyArray_eq hr hne)
  rw [storesInside_ofKeys_iff, length_collectKeys hr, tableSize] at hinside
  unfold sizeofPointer at hinside
  omega

theorem not_keysFitBlock_bang : ¬KeysFitBlock bangTable :=
  not_keysFitBlock bangTable_reachable bangTable_nonempty

/-- One key: the block has nine bytes, and `NULL` goes into those from the eighth on. -/
theorem not_keysFitBlock_one : ¬∀ (n : ℤ) (table : TableT), table.Reachable n →
    table.contents ≠ ∅ → KeysFitBlock table := by
  intro h
  have harray : tableKeyArray bangTable = .ok (some ⟨9, [⟨0, some bang⟩, ⟨1, none⟩]⟩) := by decide
  have hinside := h 1 bangTable bangTable_reachable bangTable_nonempty _ harray ⟨1, none⟩ (by simp)
  exact absurd hinside (by decide)

end RemoteTable
