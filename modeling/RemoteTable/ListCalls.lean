import RemoteTable.KeyArrays

/-!
# Sequences of calls on a list

Every order of `list_add` and `list_remove` calls on a list from `list_create` leaves the
entries of the finite map that the calls build, in strictly descending order.
-/

namespace RemoteTable
open KeyedList

inductive ListCall
  | add (entry : EntryT)
  | remove (key : CString)
  deriving DecidableEq

def listCall (list : ListT) : ListCall → ℤ × ListT
  | .add entry => listAdd list entry
  | .remove key => listRemove list key

/-- The finite map that the calls are meant to operate on. -/
def mapListCall (m : KeyMap) : ListCall → ℤ × KeyMap
  | .add entry => (0, m.insert entry.key entry.value)
  | .remove key => (if key ∈ m then 0 else -1, m.erase key)

/-- A well-formed list with the pairs of `m`. -/
structure ListT.Represents (list : ListT) (m : KeyMap) : Prop where
  wellFormed : list.WellFormed
  lookup : ∀ key, m.lookup key = (listGet list key).map EntryT.value

variable {list : ListT} {m : KeyMap}

lemma listCreate_represents : listCreate.Represents ∅ :=
  ⟨listCreate_wellFormed, fun key => by rw [Finmap.lookup_empty, listGet_eq]; rfl⟩

lemma listAdd_represents (hr : list.Represents m) (entry : EntryT) :
    (listAdd list entry).1 = 0 ∧
      (listAdd list entry).2.Represents (m.insert entry.key entry.value) := by
  refine ⟨by rw [listAdd_eq hr.wellFormed], listAdd_wellFormed hr.wellFormed entry, ?_⟩
  intro key
  rw [listGet_listAdd hr.wellFormed]
  by_cases hkey : entry.key = key
  · rw [if_pos hkey, ← hkey, Finmap.lookup_insert]
    rfl
  · rw [if_neg hkey, Finmap.lookup_insert_of_ne _ (Ne.symm hkey), hr.lookup]

lemma listRemove_represents (hr : list.Represents m) (key : CString) :
    (listRemove list key).1 = (if key ∈ m then 0 else -1) ∧
      (listRemove list key).2.Represents (m.erase key) := by
  refine ⟨?_, listRemove_wellFormed hr.wellFormed key, ?_⟩
  · rw [listRemove_eq]
    by_cases hmem : key ∈ m
    · rw [if_pos hmem, if_neg ((mem_iff_listGet (hr.lookup key)).mp hmem)]
    · have hnone : listGet list key = none := by
        by_contra h
        exact hmem ((mem_iff_listGet (hr.lookup key)).mpr h)
      rw [if_neg hmem, if_pos hnone]
  · intro key'
    rw [listGet_listRemove hr.wellFormed]
    by_cases hkey : key = key'
    · rw [if_pos hkey, ← hkey, Finmap.lookup_erase]
      rfl
    · rw [if_neg hkey, Finmap.lookup_erase_ne (Ne.symm hkey), hr.lookup]

lemma listCall_represents (hr : list.Represents m) (call : ListCall) :
    (listCall list call).1 = (mapListCall m call).1 ∧
      (listCall list call).2.Represents (mapListCall m call).2 := by
  cases call with
  | add entry => exact listAdd_represents hr entry
  | remove key => exact listRemove_represents hr key

/-- `list_get` finds the pair of the key in the map. -/
lemma listGet_represents (hr : list.Represents m) (key : CString) :
    listGet list key = (m.lookup key).map (EntryT.mk key) := by
  rw [hr.lookup, listGet_eq]
  cases hget : lookupKey EntryT.key key list.head with
  | none => rfl
  | some e =>
    rw [Option.map_some, Option.map_some, ← key_of_lookup hget]

lemma mem_represents (hr : list.Represents m) (e : EntryT) :
    e ∈ list.head ↔ m.lookup e.key = some e.value := by
  rw [hr.lookup, listGet_eq]
  constructor
  · intro he
    rw [lookup_of_mem hr.wellFormed.descending he]
    rfl
  · intro h
    obtain ⟨e', hget, hvalue⟩ := Option.map_eq_some_iff.mp h
    have hsame : e' = e := EntryT.ext (key_of_lookup hget) hvalue
    exact hsame ▸ mem_of_lookup hget

/-- The list holds the pairs of `m` from the highest key to the lowest, and the calls that read
it see `m`. -/
structure ListT.Holds (list : ListT) (m : KeyMap) : Prop where
  descending : list.head.Pairwise (fun a b => 0 < strcmp a.key b.key)
  counted : list.size = list.head.length
  entries : ∀ e, e ∈ list.head ↔ m.lookup e.key = some e.value
  found : ∀ key, listGet list key = (m.lookup key).map (EntryT.mk key)
  noKeys : list.head = [] → listKeyArray list = none
  keys : list.head ≠ [] → ∃ array, listKeyArray list = some array ∧
    array.StoresInside ∧ array.strings = .ok (list.head.map EntryT.key)

lemma ListT.Represents.holds (hr : list.Represents m) : list.Holds m where
  descending := by
    simp only [strcmp_pos_iff]
    exact hr.wellFormed.descending
  counted := hr.wellFormed.counted
  entries := mem_represents hr
  found := listGet_represents hr
  noKeys hnil := by rw [listKeyArray, if_pos hnil]
  keys hne := by
    have harray := listKeyArray_eq hr.wellFormed hne
    exact ⟨_, harray, listKeyArray_storesInside hr.wellFormed harray, strings_ofKeys _ _⟩

/-- Any calls on a new list answer as on the empty map, and leave the map that they build. -/
theorem listCalls_refine (calls : List ListCall) :
    (Machine.answers listCall listCreate calls).1 = (Machine.answers mapListCall ∅ calls).1 ∧
      (Machine.answers listCall listCreate calls).2.Holds
        (Machine.answers mapListCall ∅ calls).2 := by
  obtain ⟨houts, hr⟩ := Machine.answers_refine ListT.Represents
    (fun _ _ call hr => listCall_represents hr call) calls listCreate_represents
  exact ⟨houts, hr.holds⟩

/-- An insertion between two nodes, a replacement at the head and a removal. -/
example : Machine.answers listCall listCreate
    [.add ⟨.ofBytes [99], ⟨[1], by decide, by decide⟩⟩,
      .add ⟨.ofBytes [97], ⟨[2], by decide, by decide⟩⟩,
      .add ⟨.ofBytes [98], ⟨[3], by decide, by decide⟩⟩,
      .add ⟨.ofBytes [99], ⟨[4], by decide, by decide⟩⟩, .remove (.ofBytes [97])] =
    ([0, 0, 0, 0, 0], ⟨2, [⟨.ofBytes [99], ⟨[4], by decide, by decide⟩⟩,
      ⟨.ofBytes [98], ⟨[3], by decide, by decide⟩⟩]⟩) := by decide

end RemoteTable
