import RemoteTable.TableInvariant
import RemoteTable.Library.Machine

/-!
# Table operations as finite map operations

Every call on a table made by `table_create` returns what the finite map of its contents
returns, for any order of calls and any keys whose hash is not negative.
-/

namespace RemoteTable
open KeyedList

def mapPut (m : KeyMap) (key : CString) (value : DataT) : ℤ × KeyMap :=
  if key ∈ m then (-10, m) else (0, m.insert key value)

def mapUpdate (m : KeyMap) (key : CString) (value : DataT) : ℤ × KeyMap :=
  if key ∈ m then (0, m.insert key value) else (-1, m)

def mapDel (m : KeyMap) (key : CString) : ℤ × KeyMap :=
  if key ∈ m then (0, m.erase key) else (-1, m)

/-- A well-formed table of `n` buckets that stores `m`. -/
structure TableT.Represents (table : TableT) (n : ℤ) (m : KeyMap) : Prop where
  wellFormed : table.WellFormed
  size : table.size = n
  contents : table.contents = m

variable {table : TableT} {n : ℤ} {m : KeyMap}

lemma TableT.Represents.self (hr : table.Represents n m) : table.Represents n table.contents :=
  ⟨hr.wellFormed, hr.size, rfl⟩

lemma TableT.Represents.exists_bucketAt (hr : table.Represents n m) {key : CString}
    (hk : 0 ≤ keyHash key n) :
    ∃ list, bucketAt table (keyHash key table.size) = .ok list ∧ list.WellFormed ∧
      m.lookup key = (listGet list key).map EntryT.value ∧
      (∀ e ∈ list.head, keyHash e.key table.size = keyHash key table.size) := by
  rw [← hr.size] at hk
  rw [← hr.contents]
  exact RemoteTable.exists_bucketAt hr.wellFormed hk

lemma mem_iff_listGet {list : ListT} {key : CString}
    (h : m.lookup key = (listGet list key).map EntryT.value) :
    key ∈ m ↔ listGet list key ≠ none := by
  rw [← Finmap.lookup_isSome, h, Option.isSome_map, ← Option.ne_none_iff_isSome]

theorem tableGet_refines (hr : table.Represents n m) {key : CString} (hk : 0 ≤ keyHash key n) :
    tableGet table key = .ok (m.lookup key) := by
  obtain ⟨list, hb, -, hlook, -⟩ := hr.exists_bucketAt hk
  unfold tableGet
  rw [hlook]
  simp only [hb, Bind.bind, Except.bind]
  cases listGet list key with
  | none => rfl
  | some e => rfl

/-- A change of the bucket of `key` that stores `m'`, where `m'` differs from `m` at `key` only. -/
lemma setBucket_represents (hr : table.Represents n m) {key : CString} {list list' : ListT}
    (hb : bucketAt table (keyHash key table.size) = .ok list) (hw' : list'.WellFormed)
    (hp : ∀ e ∈ list'.head, keyHash e.key table.size = keyHash key table.size)
    {quantity : ℤ} (hq : quantity = table.quantityEntry - list.size + list'.size)
    (hother : ∀ key', key ≠ key' → listGet list' key' = listGet list key') {m' : KeyMap}
    (hkey : m'.lookup key = (listGet list' key).map EntryT.value)
    (hm' : ∀ key', key ≠ key' → m'.lookup key' = m.lookup key') :
    (setBucket table (keyHash key table.size) list' quantity).Represents n m' := by
  have hw := setBucket_wellFormed hr.wellFormed hb hw' hp hq
  refine ⟨hw, hr.size, ?_⟩
  apply Finmap.ext_lookup
  intro key'
  rw [lookup_setBucket hr.wellFormed hb hw hother]
  by_cases h : key = key'
  · rw [if_pos h, ← h, hkey]
  · rw [if_neg h, hm' key' h, hr.contents]

theorem tablePut_refines (hr : table.Represents n m) {key : CString} (hk : 0 ≤ keyHash key n)
    (value : DataT) :
    ∃ table', tablePut table key value = .ok ((mapPut m key value).1, table') ∧
      table'.Represents n (mapPut m key value).2 := by
  obtain ⟨list, hb, hw, hlook, hplaced⟩ := hr.exists_bucketAt hk
  unfold tablePut mapPut
  simp only [tableGet_refines hr hk, hb, Bind.bind, Except.bind]
  by_cases hmem : key ∈ m
  · have hne : m.lookup key ≠ none := fun h => Finmap.lookup_eq_none.mp h hmem
    rw [if_pos hne, if_pos hmem]
    exact ⟨table, rfl, hr⟩
  · have hnone : m.lookup key = none := Finmap.lookup_eq_none.mpr hmem
    have habsent : listGet list key = none := by
      by_contra h
      exact hmem ((mem_iff_listGet hlook).mpr h)
    have hadd := listAdd_eq hw ⟨key, value⟩
    rw [if_pos habsent] at hadd
    have hset : (setBucket table (keyHash key table.size) (listAdd list ⟨key, value⟩).2
        (table.quantityEntry + 1)).Represents n (m.insert key value) := by
      refine setBucket_represents hr hb (listAdd_wellFormed hw ⟨key, value⟩) ?_ ?_ ?_ ?_ ?_
      · rw [hadd]
        intro e he
        rcases mem_insert he with rfl | he
        · rfl
        · exact hplaced e he
      · rw [hadd]
        simp only
        omega
      · intro key' hne
        rw [listGet_listAdd hw, if_neg hne]
      · rw [listGet_listAdd hw, if_pos rfl, Finmap.lookup_insert]
        rfl
      · intro key' hne
        rw [Finmap.lookup_insert_of_ne _ (Ne.symm hne)]
    rw [hadd] at hset
    simp only [hnone, ne_eq, not_true_eq_false, if_false, if_neg hmem, hadd]
    exact ⟨_, rfl, hset⟩

theorem tableUpdate_refines (hr : table.Represents n m) {key : CString}
    (hk : 0 ≤ keyHash key n) (value : DataT) :
    ∃ table', tableUpdate table key value = .ok ((mapUpdate m key value).1, table') ∧
      table'.Represents n (mapUpdate m key value).2 := by
  obtain ⟨list, hb, hw, hlook, hplaced⟩ := hr.exists_bucketAt hk
  unfold tableUpdate mapUpdate
  simp only [hb, Bind.bind, Except.bind]
  cases hget : listGet list key with
  | none =>
    have hmem : key ∉ m := fun h => (mem_iff_listGet hlook).mp h hget
    rw [if_neg hmem]
    exact ⟨table, rfl, hr⟩
  | some e =>
    have hmem : key ∈ m := (mem_iff_listGet hlook).mpr (by simp [hget])
    rw [if_pos hmem]
    refine ⟨_, rfl,
      setBucket_represents hr hb (listSetValue_wellFormed hw key value) ?_ ?_ ?_ ?_ ?_⟩
    · intro x hx
      have hkeys : (listSetValue list key value).head.map EntryT.key =
          list.head.map EntryT.key := by
        simp only [listSetValue, setValueLoop_eq]
        exact map_key_modify (key_withValue value) list.head
      have hmemKey : x.key ∈ list.head.map EntryT.key := hkeys ▸ List.mem_map_of_mem hx
      obtain ⟨y, hy, hyx⟩ := List.mem_map.mp hmemKey
      rw [← hyx]
      exact hplaced y hy
    · simp [listSetValue]
    · intro key' hne
      rw [listGet_listSetValue, if_neg hne]
    · rw [listGet_listSetValue, if_pos rfl, hget, Finmap.lookup_insert]
      rfl
    · intro key' hne
      rw [Finmap.lookup_insert_of_ne _ (Ne.symm hne)]

theorem tableDel_refines (hr : table.Represents n m) {key : CString} (hk : 0 ≤ keyHash key n) :
    ∃ table', tableDel table key = .ok ((mapDel m key).1, table') ∧
      table'.Represents n (mapDel m key).2 := by
  obtain ⟨list, hb, hw, hlook, hplaced⟩ := hr.exists_bucketAt hk
  have hw' := listRemove_wellFormed hw key
  have hother : ∀ key', key ≠ key' →
      listGet (listRemove list key).2 key' = listGet list key' := by
    intro key' hne
    rw [listGet_listRemove hw, if_neg hne]
  have hgone : listGet (listRemove list key).2 key = none := by
    rw [listGet_listRemove hw, if_pos rfl]
  unfold tableDel mapDel
  simp only [hb, Bind.bind, Except.bind]
  cases hget : listGet list key with
  | none =>
    have hmem : key ∉ m := fun h => (mem_iff_listGet hlook).mp h hget
    have hrem := listRemove_eq list key
    rw [if_pos hget] at hrem
    rw [hrem] at hw'
    rw [if_neg hmem, hrem]
    refine ⟨_, rfl, setBucket_represents hr hb hw' hplaced ?_ (fun _ _ => rfl) hlook
      (fun _ _ => rfl)⟩
    simp
  | some e =>
    have hmem : key ∈ m := (mem_iff_listGet hlook).mpr (by simp [hget])
    have hrem := listRemove_eq list key
    rw [if_neg (by simp [hget])] at hrem
    rw [hrem] at hw' hother hgone
    rw [if_pos hmem, hrem]
    refine ⟨_, rfl, setBucket_represents hr hb hw' ?_ ?_ hother ?_ ?_⟩
    · exact fun x hx => hplaced x (mem_erase hx)
    · simp only
      omega
    · rw [hgone, Finmap.lookup_erase]
      rfl
    · intro key' hne
      rw [Finmap.lookup_erase_ne (Ne.symm hne)]

theorem tableSize_refines (hr : table.Represents n m) : tableSize table = m.keys.card := by
  rw [← hr.contents]
  exact quantityEntry_eq_card hr.wellFormed

/-! ### Sequences of calls -/

inductive TableCall
  | put (key : CString) (value : DataT)
  | update (key : CString) (value : DataT)
  | get (key : CString)
  | del (key : CString)
  | size

/-- What a call gives back: an `int`, or for `table_get` a copy of the data or `NULL`. -/
inductive TableReturn
  | code (result : ℤ)
  | data (value : Option DataT)
  deriving DecidableEq

def TableCall.keys : TableCall → List CString
  | .put key _ | .update key _ | .get key | .del key => [key]
  | .size => []

def tableCall (table : TableT) : TableCall → Except Fault (TableReturn × TableT)
  | .put key value => do
    let (result, table) ← tablePut table key value
    return (.code result, table)
  | .update key value => do
    let (result, table) ← tableUpdate table key value
    return (.code result, table)
  | .get key => do
    let value ← tableGet table key
    return (.data value, table)
  | .del key => do
    let (result, table) ← tableDel table key
    return (.code result, table)
  | .size => return (.code (tableSize table), table)

/-- The finite map that the calls are meant to operate on. -/
def mapCall (m : KeyMap) : TableCall → TableReturn × KeyMap
  | .put key value => (.code (mapPut m key value).1, (mapPut m key value).2)
  | .update key value => (.code (mapUpdate m key value).1, (mapUpdate m key value).2)
  | .get key => (.data (m.lookup key), m)
  | .del key => (.code (mapDel m key).1, (mapDel m key).2)
  | .size => (.code m.keys.card, m)

lemma tableCall_refines (hr : table.Represents n m) (call : TableCall)
    (hk : ∀ key ∈ call.keys, 0 ≤ keyHash key n) :
    ∃ table', tableCall table call = .ok ((mapCall m call).1, table') ∧
      table'.Represents n (mapCall m call).2 := by
  cases call with
  | put key value =>
    obtain ⟨table', h, hr'⟩ := tablePut_refines hr (hk key (by simp [TableCall.keys])) value
    exact ⟨table', by simp only [tableCall, h]; rfl, hr'⟩
  | update key value =>
    obtain ⟨table', h, hr'⟩ := tableUpdate_refines hr (hk key (by simp [TableCall.keys])) value
    exact ⟨table', by simp only [tableCall, h]; rfl, hr'⟩
  | get key =>
    have h := tableGet_refines hr (hk key (by simp [TableCall.keys]))
    exact ⟨table, by simp only [tableCall, h]; rfl, hr⟩
  | del key =>
    obtain ⟨table', h, hr'⟩ := tableDel_refines hr (hk key (by simp [TableCall.keys]))
    exact ⟨table', by simp only [tableCall, h]; rfl, hr'⟩
  | size =>
    refine ⟨table, ?_, hr⟩
    rw [tableCall, tableSize_refines hr]
    rfl

/-- The tables that `table_create` and calls with indexable keys lead to. -/
def TableT.Reachable (table : TableT) (n : ℤ) : Prop :=
  ∃ created calls returns, tableCreate n = some created ∧
    (∀ call ∈ calls, ∀ key ∈ call.keys, 0 ≤ keyHash key n) ∧
    Machine.run tableCall created calls = .ok (returns, table)

lemma pos_of_tableCreate {created : TableT} (hc : tableCreate n = some created) : 0 < n := by
  by_contra hle
  rw [tableCreate, if_pos (not_lt.mp hle)] at hc
  cases hc

lemma tableCalls_represent (hn : 0 < n) (calls : List TableCall)
    (hk : ∀ call ∈ calls, ∀ key ∈ call.keys, 0 ≤ keyHash key n) :
    ∃ created table, tableCreate n = some created ∧
      Machine.run tableCall created calls =
        .ok ((Machine.answers mapCall ∅ calls).1, table) ∧
      table.Represents n (Machine.answers mapCall ∅ calls).2 := by
  obtain ⟨created, hc, hsize, hw, hempty⟩ := contents_tableCreate hn
  obtain ⟨table, hrun, hr⟩ := Machine.run_refines (fun t m => TableT.Represents t n m)
    (fun call => ∀ key ∈ call.keys, 0 ≤ keyHash key n)
    (fun t m call hr hk => tableCall_refines hr call hk) calls hk ⟨hw, hsize, hempty⟩
  exact ⟨created, table, hc, hrun, hr⟩

/-- A run of calls from a new table, call by call as on the empty map. -/
theorem tableCalls_refine (n : ℤ) (hn : 0 < n) (calls : List TableCall)
    (hk : ∀ call ∈ calls, ∀ key ∈ call.keys, 0 ≤ keyHash key n) :
    ∃ created table, tableCreate n = some created ∧
      Machine.run tableCall created calls =
        .ok ((Machine.answers mapCall ∅ calls).1, table) ∧
      table.contents = (Machine.answers mapCall ∅ calls).2 := by
  obtain ⟨created, table, hc, hrun, hr⟩ := tableCalls_represent hn calls hk
  exact ⟨created, table, hc, hrun, hr.contents⟩

/-- Two keys of one bucket, with the second deleted again. -/
def collidingCalls : List TableCall :=
  [.put (.ofBytes [97]) ⟨[1], by decide, by decide⟩,
    .put (.ofBytes [99]) ⟨[2, 3], by decide, by decide⟩,
    .update (.ofBytes [97]) ⟨[4], by decide, by decide⟩,
    .del (.ofBytes [99]), .get (.ofBytes [97]), .size]

theorem tableCalls_refine_colliding :
    ∃ created table, tableCreate 2 = some created ∧
      Machine.run tableCall created collidingCalls =
        .ok ((Machine.answers mapCall ∅ collidingCalls).1, table) ∧
      table.contents = (Machine.answers mapCall ∅ collidingCalls).2 :=
  tableCalls_refine 2 (by decide) collidingCalls (by decide)

/-- Every table a server can hold is well-formed. -/
theorem TableT.Reachable.represents (h : table.Reachable n) :
    table.Represents n table.contents := by
  obtain ⟨created, calls, returns, hc, hk, hrun⟩ := h
  obtain ⟨created', table', hc', hrun', hr⟩ := tableCalls_represent (pos_of_tableCreate hc) calls hk
  have hsame : created = created' := Option.some.inj (hc.symm.trans hc')
  rw [hsame, hrun'] at hrun
  simp only [Except.ok.injEq, Prod.mk.injEq] at hrun
  rw [← hrun.2]
  exact hr.self

/-- One byte is the key and the value. -/
def letterEntry (c : UInt8) : EntryT := ⟨.ofBytes [c], ⟨[c], by simp, by simp⟩⟩

/-- Three keys in two buckets. -/
def lettersTable : TableT :=
  ⟨[⟨1, [letterEntry 98]⟩, ⟨2, [letterEntry 99, letterEntry 97]⟩], 2, 3⟩

lemma lettersTable_reachable : lettersTable.Reachable 2 :=
  ⟨_, [letterEntry 97, letterEntry 98, letterEntry 99].map fun e => .put e.key e.value,
    [.code 0, .code 0, .code 0], rfl, by decide, by decide⟩

lemma lookup_lettersTable {key : CString} {data : DataT}
    (h : lettersTable.contents.lookup key = some data) :
    ∃ e ∈ lettersTable.entries, key = e.key ∧ data = e.value := by
  rw [lookup_contents, Option.map_eq_some_iff] at h
  obtain ⟨e, he, hdata⟩ := h
  exact ⟨e, KeyedList.mem_of_lookup he, (KeyedList.key_of_lookup he).symm, hdata.symm⟩

lemma mem_lettersTable {key : CString} (h : key ∈ lettersTable.contents) :
    ∃ e ∈ lettersTable.entries, key = e.key := by
  obtain ⟨data, hlook⟩ := Finmap.mem_iff.mp h
  obtain ⟨e, he, hkey, -⟩ := lookup_lettersTable hlook
  exact ⟨e, he, hkey⟩

end RemoteTable
