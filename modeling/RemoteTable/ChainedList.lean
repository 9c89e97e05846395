import RemoteTable.Library.KeyedList
import RemoteTable.Values

/-!
# The chained lists of `list.c`

`head` lists the entries of the nodes from `list->head` along the `next` pointers. The
insertion loop walks that chain and links the new node where the source does, including
the branch that makes it the head whatever stands before it.
-/

namespace RemoteTable

/-- `struct list_t` -/
@[ext] structure ListT where
  /-- An `int` in C, which counts up to 2^31 - 1 entries. -/
  size : ℤ
  head : List EntryT
  deriving DecidableEq

def listCreate : ListT := ⟨0, []⟩

/-- The loop of `list_add` at `current`, with the nodes already passed in `front`. -/
def listAddLoop (size : ℤ) (new : EntryT) (front : List EntryT) : List EntryT → ℤ × ListT
  | [] => (-1, ⟨size, front⟩)
  | current :: rest =>
    if strcmp current.key new.key = 0 then (0, ⟨size, front ++ new :: rest⟩)
    -- `list->head = new_node` and `new_node->next = current`: the nodes of `front` are lost
    else if strcmp current.key new.key < 0 then (0, ⟨size + 1, new :: current :: rest⟩)
    else match rest with
      | [] => (0, ⟨size + 1, front ++ [current, new]⟩)
      | next :: rest =>
        if 0 < strcmp current.key new.key ∧ strcmp next.key new.key < 0 then
          (0, ⟨size + 1, front ++ current :: new :: next :: rest⟩)
        else listAddLoop size new (front ++ [current]) (next :: rest)

def listAdd (list : ListT) (entry : EntryT) : ℤ × ListT :=
  match list.head with
  | [] => (0, ⟨list.size + 1, [entry]⟩)
  | current :: rest => listAddLoop list.size entry [] (current :: rest)

/-- The loop of `list_remove`, which looks one node ahead. -/
def listRemoveLoop (size : ℤ) (key : CString) (front : List EntryT) : List EntryT → ℤ × ListT
  | [] => (-1, ⟨size, front⟩)
  | [current] => (-1, ⟨size, front ++ [current]⟩)
  | current :: next :: rest =>
    if strcmp next.key key = 0 then (0, ⟨size - 1, front ++ current :: rest⟩)
    else listRemoveLoop size key (front ++ [current]) (next :: rest)

def listRemove (list : ListT) (key : CString) : ℤ × ListT :=
  match list.head with
  | [] => (-1, list)
  | current :: rest =>
    if strcmp current.key key = 0 then (0, ⟨list.size - 1, rest⟩)
    else listRemoveLoop list.size key [] (current :: rest)

/-- The walk of `list_get` from `current_node`. -/
def listGetLoop (key : CString) : List EntryT → Option EntryT
  | [] => none
  | current :: rest => if strcmp current.key key = 0 then some current else listGetLoop key rest

def listGet (list : ListT) (key : CString) : Option EntryT := listGetLoop key list.head

/-- A write to the value of the entry that `list_get` refers to. -/
def setValueLoop (key : CString) (value : DataT) : List EntryT → List EntryT
  | [] => []
  | current :: rest =>
    if strcmp current.key key = 0 then ⟨current.key, value⟩ :: rest
    else current :: setValueLoop key value rest

def listSetValue (list : ListT) (key : CString) (value : DataT) : ListT :=
  ⟨list.size, setValueLoop key value list.head⟩

/-- `NULL` for an empty list, otherwise the keys before the closing `NULL`. -/
def listGetKeys (list : ListT) : Option (List CString) :=
  if list.head = [] then none else some (list.head.map EntryT.key)

/-! ### The loops as operations on descending lists -/

open KeyedList

/-- The chain is strictly descending and counted by `size`. -/
structure ListT.WellFormed (list : ListT) : Prop where
  descending : Descending EntryT.key list.head
  counted : list.size = list.head.length

lemma listGet_eq (list : ListT) (key : CString) :
    listGet list key = lookupKey EntryT.key key list.head := by
  obtain ⟨size, es⟩ := list
  simp only [listGet]
  induction es with
  | nil => rfl
  | cons e es ih => simp only [listGetLoop, lookup_cons, strcmp_eq_zero_iff, ih]

def EntryT.withValue (value : DataT) (e : EntryT) : EntryT := ⟨e.key, value⟩

@[simp] lemma key_withValue (value : DataT) (e : EntryT) : (e.withValue value).key = e.key := rfl

lemma setValueLoop_eq (key : CString) (value : DataT) (es : List EntryT) :
    setValueLoop key value es = modifyKey EntryT.key key (EntryT.withValue value) es := by
  induction es with
  | nil => rfl
  | cons e es ih => simp only [setValueLoop, modifyKey, strcmp_eq_zero_iff, ih, EntryT.withValue]

/-- On a descending chain the head branch can only be taken at the first node: the invariant
is that every key passed so far is above the new key. -/
lemma listAddLoop_eq (size : ℤ) (new : EntryT) (front : List EntryT) (current : EntryT)
    (rest : List EntryT) (hd : Descending EntryT.key (current :: rest))
    (hfront : front ≠ [] → new.key ≤ current.key) :
    listAddLoop size new front (current :: rest) =
      (0, ⟨if lookupKey EntryT.key new.key (current :: rest) = none then size + 1 else size,
        front ++ insertKeyed EntryT.key new (current :: rest)⟩) := by
  induction rest generalizing front current with
  | nil =>
    rw [listAddLoop]
    simp only [strcmp_eq_zero_iff, strcmp_neg_iff, insertKeyed, lookup_cons, lookup_nil]
    by_cases heq : current.key = new.key
    · simp [heq]
    · by_cases hlt : current.key < new.key
      · have hnil : front = [] := by
          by_contra hne
          exact absurd (hfront hne) (not_le.mpr hlt)
        simp [heq, hlt, hnil]
      · simp [heq, hlt]
  | cons next rest ih =>
    obtain ⟨hcur, htail⟩ := descending_cons.mp hd
    rw [listAddLoop]
    simp only [strcmp_eq_zero_iff, strcmp_neg_iff, strcmp_pos_iff]
    by_cases heq : current.key = new.key
    · simp [heq, insertKeyed, lookup_cons]
    · by_cases hlt : current.key < new.key
      · have hnil : front = [] := by
          by_contra hne
          exact absurd (hfront hne) (not_le.mpr hlt)
        have habsent : lookupKey EntryT.key new.key (current :: next :: rest) = none := by
          rw [lookup_eq_none]
          intro e he
          rcases List.mem_cons.mp he with rfl | he
          · exact heq
          · exact ((hcur e he).trans hlt).ne
        simp [heq, hlt, hnil, insertKeyed, habsent]
      · have hgt : new.key < current.key := lt_of_le_of_ne (not_lt.mp hlt) (Ne.symm heq)
        rw [if_neg heq, if_neg hlt]
        by_cases hnext : next.key < new.key
        · have habsent : lookupKey EntryT.key new.key (next :: rest) = none := by
            rw [lookup_eq_none]
            intro e he
            rcases List.mem_cons.mp he with rfl | he
            · exact hnext.ne
            · exact (((descending_cons.mp htail).1 e he).trans hnext).ne
          simp [hgt, hnext, hnext.ne, heq, hlt, insertKeyed, lookup_cons] at habsent ⊢
          simp [habsent]
        · rw [if_neg (fun h => hnext h.2), ih (front ++ [current]) next htail
            (fun _ => not_lt.mp hnext)]
          rw [lookup_cons _ current, if_neg heq, insert_of_lt _ hgt]
          simp

theorem listAdd_eq {list : ListT} (hw : list.WellFormed) (new : EntryT) :
    listAdd list new =
      (0, ⟨if listGet list new.key = none then list.size + 1 else list.size,
        insertKeyed EntryT.key new list.head⟩) := by
  obtain ⟨size, es⟩ := list
  rw [listGet_eq]
  cases es with
  | nil => simp [listAdd, insertKeyed]
  | cons e es =>
    simp only [listAdd]
    rw [listAddLoop_eq size new [] e es hw.descending (fun h => absurd rfl h)]
    rfl

lemma listRemoveLoop_eq (size : ℤ) (key : CString) (front : List EntryT) (current : EntryT)
    (rest : List EntryT) (hne : current.key ≠ key) :
    listRemoveLoop size key front (current :: rest) =
      if lookupKey EntryT.key key rest = none then (-1, ⟨size, front ++ current :: rest⟩)
      else (0, ⟨size - 1, front ++ current :: eraseKey EntryT.key key rest⟩) := by
  induction rest generalizing front current with
  | nil => simp [listRemoveLoop]
  | cons next rest ih =>
    rw [listRemoveLoop, lookup_cons, eraseKey]
    simp only [strcmp_eq_zero_iff]
    by_cases hnext : next.key = key
    · simp [hnext]
    · rw [if_neg hnext, if_neg hnext, if_neg hnext, ih (front ++ [current]) next hnext]
      simp

theorem listRemove_eq (list : ListT) (key : CString) :
    listRemove list key =
      if listGet list key = none then (-1, list)
      else (0, ⟨list.size - 1, eraseKey EntryT.key key list.head⟩) := by
  obtain ⟨size, es⟩ := list
  rw [listGet_eq]
  cases es with
  | nil => simp [listRemove]
  | cons e es =>
    simp only [listRemove, lookup_cons, eraseKey, strcmp_eq_zero_iff]
    by_cases he : e.key = key
    · simp [he]
    · rw [if_neg he, if_neg he, if_neg he, listRemoveLoop_eq size key [] e es he]
      rfl

lemma listCreate_wellFormed : listCreate.WellFormed := ⟨descending_nil, rfl⟩

theorem listAdd_wellFormed {list : ListT} (hw : list.WellFormed) (new : EntryT) :
    (listAdd list new).2.WellFormed := by
  rw [listAdd_eq hw, listGet_eq]
  refine ⟨descending_insert new hw.descending, ?_⟩
  simp only
  cases hget : lookupKey EntryT.key new.key list.head with
  | none =>
    rw [if_pos rfl, length_insert hget, hw.counted]
    rfl
  | some e => rw [if_neg (by simp), length_insert_of_some hw.descending hget, hw.counted]

theorem listRemove_wellFormed {list : ListT} (hw : list.WellFormed) (key : CString) :
    (listRemove list key).2.WellFormed := by
  rw [listRemove_eq]
  split
  · exact hw
  · rename_i h
    obtain ⟨e, he⟩ := Option.ne_none_iff_exists'.mp h
    rw [listGet_eq] at he
    refine ⟨descending_erase key hw.descending, ?_⟩
    have hlen := length_erase he
    have hsize := hw.counted
    simp only
    omega

theorem listSetValue_wellFormed {list : ListT} (hw : list.WellFormed) (key : CString)
    (value : DataT) : (listSetValue list key value).WellFormed := by
  refine ⟨?_, ?_⟩
  · simp only [listSetValue, setValueLoop_eq]
    exact descending_modify (key_withValue value) hw.descending
  · simp only [listSetValue, setValueLoop_eq, length_modify]
    exact hw.counted

/-- What `list_get` finds after an insertion of an absent key. -/
theorem listGet_listAdd {list : ListT} (hw : list.WellFormed) (new : EntryT) (key : CString) :
    listGet (listAdd list new).2 key = if new.key = key then some new else listGet list key := by
  rw [listGet_eq list key, ← lookup_insert new key hw.descending, listAdd_eq hw, listGet_eq]

theorem listGet_listRemove {list : ListT} (hw : list.WellFormed) (key key' : CString) :
    listGet (listRemove list key).2 key' = if key = key' then none else listGet list key' := by
  rw [listRemove_eq]
  split
  · rename_i h
    by_cases hk : key = key'
    · rw [if_pos hk, ← hk, h]
    · rw [if_neg hk]
  · rw [listGet_eq, listGet_eq, lookup_erase key key' hw.descending]

theorem listGet_listSetValue (list : ListT) (key : CString) (value : DataT) (key' : CString) :
    listGet (listSetValue list key value) key' =
      if key = key' then (listGet list key').map (EntryT.withValue value)
      else listGet list key' := by
  rw [listGet_eq, listGet_eq, listSetValue, setValueLoop_eq]
  exact lookup_modify (key_withValue value) key' list.head

end RemoteTable
