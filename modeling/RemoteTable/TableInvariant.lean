import RemoteTable.HashTable

/-!
# The table as a finite map

A well-formed table keeps every entry in the bucket of its hash, every bucket strictly
descending and counted, and `quantity_entry` equal to the number of entries. Its contents
are then a finite map, and a change of one bucket changes that map only at keys of that
bucket.
-/

namespace RemoteTable
open KeyedList

/-- Finite maps from keys to byte blocks. -/
abbrev KeyMap := Finmap (fun _ : CString => DataT)

def TableT.entries (table : TableT) : List EntryT := (table.buckets.map ListT.head).flatten

def EntryT.toSigma (e : EntryT) : Σ _ : CString, DataT := ⟨e.key, e.value⟩

/-- The finite map that a table stores. -/
def TableT.contents (table : TableT) : KeyMap := (table.entries.map EntryT.toSigma).toFinmap

structure TableT.WellFormed (table : TableT) : Prop where
  size_pos : 0 < table.size
  size_eq : table.size = table.buckets.length
  bucket : ∀ list ∈ table.buckets, list.WellFormed
  placed : ∀ (i : ℕ) list, table.buckets[i]? = some list →
    ∀ e ∈ list.head, keyHash e.key table.size = i
  counted : table.quantityEntry = (table.buckets.map ListT.size).sum

variable {table : TableT}

lemma TableT.WellFormed.placed_head (hw : table.WellFormed) (i : ℕ) (b : List EntryT)
    (hb : (table.buckets.map ListT.head)[i]? = some b) :
    ∀ e ∈ b, keyHash e.key table.size = i := by
  rw [List.getElem?_map] at hb
  obtain ⟨list, hlist, rfl⟩ := Option.map_eq_some_iff.mp hb
  exact hw.placed i list hlist

lemma dlookup_map_toSigma (key : CString) (es : List EntryT) :
    (es.map EntryT.toSigma).dlookup key = (lookupKey EntryT.key key es).map EntryT.value := by
  induction es with
  | nil => rfl
  | cons e es ih =>
    rw [List.map_cons, lookup_cons]
    by_cases h : e.key = key
    · subst h
      simp [EntryT.toSigma]
    · rw [List.dlookup_cons_ne _ _ (fun h' => h h'.symm), ih, if_neg h]

lemma lookup_contents (table : TableT) (key : CString) :
    table.contents.lookup key = (lookupKey EntryT.key key table.entries).map EntryT.value := by
  rw [TableT.contents, Finmap.dlookup_list_toFinmap, dlookup_map_toSigma]

/-- A key is looked up in the bucket of its hash. -/
theorem lookup_contents_bucket (hw : table.WellFormed) (key : CString) :
    table.contents.lookup key =
      if 0 ≤ keyHash key table.size then
        (table.buckets[(keyHash key table.size).toNat]?).bind
          (fun list => (listGet list key).map EntryT.value)
      else none := by
  rw [lookup_contents, TableT.entries,
    lookup_flatten _ (fun k => keyHash k table.size) key hw.placed_head]
  by_cases h : 0 ≤ keyHash key table.size
  · rw [if_pos h, if_pos h, List.getElem?_map]
    cases table.buckets[(keyHash key table.size).toNat]? with
    | none => rfl
    | some list =>
      simp only [Option.map_some, Option.bind_some, listGet_eq]
  · rw [if_neg h, if_neg h]
    rfl

lemma TableT.WellFormed.keyHash_lt_length (hw : table.WellFormed) (key : CString) :
    (keyHash key table.size).toNat < table.buckets.length := by
  have hlt := keyHash_lt key hw.size_pos
  have hpos := hw.size_pos
  have hsize := hw.size_eq
  omega

/-- The bucket of a key whose hash is an index. -/
theorem exists_bucketAt (hw : table.WellFormed) {key : CString}
    (hk : 0 ≤ keyHash key table.size) :
    ∃ list, bucketAt table (keyHash key table.size) = .ok list ∧ list.WellFormed ∧
      table.contents.lookup key = (listGet list key).map EntryT.value ∧
      (∀ e ∈ list.head, keyHash e.key table.size = keyHash key table.size) := by
  have hlt := hw.keyHash_lt_length key
  refine ⟨table.buckets[(keyHash key table.size).toNat],
    bucketAt_eq_ok.mpr ⟨hk, List.getElem?_eq_getElem hlt⟩,
    hw.bucket _ (List.getElem_mem hlt), ?_, ?_⟩
  · rw [lookup_contents_bucket hw, if_pos hk, List.getElem?_eq_getElem hlt]
    rfl
  · intro e he
    have := hw.placed _ _ (List.getElem?_eq_getElem hlt) e he
    omega

lemma contents_tableCreate {n : ℤ} (hn : 0 < n) :
    ∃ table, tableCreate n = some table ∧ table.size = n ∧ table.WellFormed ∧
      table.contents = ∅ := by
  refine ⟨⟨List.replicate n.toNat listCreate, n, 0⟩, by rw [tableCreate, if_neg (by omega)],
    rfl, ?_, ?_⟩
  · refine ⟨hn, ?_, ?_, ?_, ?_⟩
    · simp only [List.length_replicate]
      omega
    · intro list hlist
      rw [List.eq_of_mem_replicate hlist]
      exact listCreate_wellFormed
    · intro i list hlist e he
      have hmem := List.mem_of_getElem? hlist
      rw [List.eq_of_mem_replicate hmem] at he
      cases he
    · simp [listCreate]
  · apply Finmap.ext_lookup
    intro key
    rw [lookup_contents]
    simp [TableT.entries, listCreate]

/-! ### The number of entries -/

lemma length_entries (hw : table.WellFormed) : table.quantityEntry = table.entries.length := by
  have hsum : ∀ bs : List ListT, (∀ list ∈ bs, list.WellFormed) →
      (bs.map ListT.size).sum = ((bs.map ListT.head).flatten.length : ℤ) := by
    intro bs hbs
    induction bs with
    | nil => rfl
    | cons b bs ih =>
      have hb := (hbs b List.mem_cons_self).counted
      have ht := ih (fun list hl => hbs list (List.mem_cons_of_mem b hl))
      simp only [List.map_cons, List.sum_cons, List.flatten_cons, List.length_append]
      push_cast
      omega
  rw [hw.counted, hsum _ hw.bucket, TableT.entries]

lemma nodup_keys_entries (hw : table.WellFormed) : (table.entries.map EntryT.key).Nodup := by
  apply nodup_keys_flatten _ (fun k => keyHash k table.size) hw.placed_head
  intro b hb
  obtain ⟨list, hlist, rfl⟩ := List.mem_map.mp hb
  exact (hw.bucket list hlist).descending

lemma mem_keys_contents (table : TableT) (key : CString) :
    key ∈ table.contents.keys ↔ key ∈ table.entries.map EntryT.key := by
  rw [Finmap.mem_keys, ← Finmap.lookup_isSome, lookup_contents, Option.isSome_map,
    List.mem_map, ← Option.ne_none_iff_isSome, Ne, lookup_eq_none]
  push Not
  rfl

/-- `quantity_entry` is the number of keys present. -/
theorem quantityEntry_eq_card (hw : table.WellFormed) :
    table.quantityEntry = table.contents.keys.card := by
  have hkeys : table.contents.keys = (table.entries.map EntryT.key).toFinset := by
    ext key
    rw [mem_keys_contents, List.mem_toFinset]
  rw [hkeys, List.toFinset_card_of_nodup (nodup_keys_entries hw), List.length_map,
    length_entries hw]

/-! ### Changes of one bucket -/

lemma sum_set (bs : List ListT) (i : ℕ) (list list' : ListT) (h : bs[i]? = some list) :
    ((bs.set i list').map ListT.size).sum = (bs.map ListT.size).sum - list.size + list'.size := by
  induction bs generalizing i with
  | nil => simp at h
  | cons b bs ih =>
    cases i with
    | zero =>
      simp only [List.getElem?_cons_zero, Option.some.injEq] at h
      simp only [List.set_cons_zero, List.map_cons, List.sum_cons, h]
      omega
    | succ i =>
      simp only [List.getElem?_cons_succ] at h
      simp only [List.set_cons_succ, List.map_cons, List.sum_cons, ih i h]
      omega

/-- Well-formedness after a change of one bucket that keeps the placement. -/
theorem setBucket_wellFormed (hw : table.WellFormed) {i : ℤ} {list list' : ListT}
    (hb : bucketAt table i = .ok list) (hw' : list'.WellFormed)
    (hp : ∀ e ∈ list'.head, keyHash e.key table.size = i) {quantity : ℤ}
    (hq : quantity = table.quantityEntry - list.size + list'.size) :
    (setBucket table i list' quantity).WellFormed := by
  obtain ⟨hi, hget⟩ := bucketAt_eq_ok.mp hb
  refine ⟨hw.size_pos, by simpa [setBucket] using hw.size_eq, ?_, ?_, ?_⟩
  · intro b hmem
    rcases List.mem_or_eq_of_mem_set hmem with h | h
    · exact hw.bucket b h
    · exact h ▸ hw'
  · intro j b hj e he
    simp only [setBucket, List.getElem?_set] at hj
    by_cases hij : i.toNat = j
    · rw [if_pos hij] at hj
      split at hj
      · have hb' : list' = b := Option.some.inj hj
        rw [← hb'] at he
        have := hp e he
        simp only [setBucket]
        omega
      · cases hj
    · rw [if_neg hij] at hj
      exact hw.placed j b hj e he
  · simp only [setBucket]
    rw [sum_set table.buckets i.toNat list list' hget, hq, hw.counted]

/-- The contents after a change of the bucket of `key` that only concerns `key`. -/
theorem lookup_setBucket (hw : table.WellFormed) {key : CString} {list list' : ListT}
    (hb : bucketAt table (keyHash key table.size) = .ok list) {quantity : ℤ}
    (hw' : (setBucket table (keyHash key table.size) list' quantity).WellFormed)
    (hother : ∀ key', key ≠ key' → listGet list' key' = listGet list key') (key' : CString) :
    (setBucket table (keyHash key table.size) list' quantity).contents.lookup key' =
      if key = key' then (listGet list' key).map EntryT.value
      else table.contents.lookup key' := by
  obtain ⟨hk, hget⟩ := bucketAt_eq_ok.mp hb
  have hlt := hw.keyHash_lt_length key
  rw [lookup_contents_bucket hw', lookup_contents_bucket hw key']
  change (if 0 ≤ keyHash key' table.size then
    ((table.buckets.set (keyHash key table.size).toNat list')[
      (keyHash key' table.size).toNat]?).bind
      (fun list => (listGet list key').map EntryT.value) else none) = _
  by_cases hkey : key = key'
  · subst hkey
    simp [hk, hlt]
  · rw [if_neg hkey]
    by_cases hk' : 0 ≤ keyHash key' table.size
    · rw [if_pos hk', if_pos hk', List.getElem?_set]
      by_cases hsame : (keyHash key table.size).toNat = (keyHash key' table.size).toNat
      · rw [if_pos hsame, if_pos hlt, ← hsame, hget]
        simp only [Option.bind_some, hother key' hkey]
      · rw [if_neg hsame]
    · rw [if_neg hk', if_neg hk']

end RemoteTable
