import RemoteTable.StoredTables

/-!
# Writes under failing allocations

When `table_put`, `table_update` and the constructors below them do what they are meant to,
for every pattern of failing allocations and for values that `data_dup` refuses.
-/

namespace RemoteTable.Allocation
open Memory KeyedList

/-- A constructor returns a copy of the caller's pair or `NULL`, and the pair is left alone. -/
def Copies (call : Mem Block (Option ℕ)) (h : Heap Block) (c : Pair)
    (copied : Heap Block → ℕ → DataT → Prop) : Prop :=
  ∃ r h', call h = .ok (r, h') ∧ c.At h' ∧
    ∀ p, r = some p → ∃ v, c.accepted = some v ∧ copied h' p v

def IsEntry (h : Heap Block) (c : Pair) (h' : Heap Block) (e : ℕ) (v : DataT) : Prop :=
  ∃ c', EntryCopy h h' e c.text v c'

def IsNode (h : Heap Block) (c : Pair) (h' : Heap Block) (p : ℕ) (v : DataT) : Prop :=
  ∃ e, h'.cells p = some (.node (some e)) ∧ IsEntry h c h' e v

/-- A call answers as on the finite map, or returns -1 and leaves the table. The key and the
value of the caller are left alone. -/
def Answers (call : Mem Block (ℤ × HeapTable)) (h : Heap Block) (table : HeapTable) (n : ℤ)
    (m : KeyMap) (c : Pair) (answer : DataT → ℤ × KeyMap) : Prop :=
  ∃ r table' h', call h = .ok ((r, table'), h') ∧ c.At h' ∧
    ((∃ v, c.accepted = some v ∧ r = (answer v).1 ∧
        TableAt h' table' n (answer v).2 c.blocks) ∨
      r = -1 ∧ table' = table ∧ TableAt h' table n m c.blocks)

section
variable {h h' h₁ : Heap Block} {table : HeapTable} {g : StoredTable} {n : ℤ} {m : KeyMap}
  {c c' : Pair} {v : DataT} {e : ℕ}

/-! ### The constructors -/

lemma Copies.not_faults {call : Mem Block (Option ℕ)} {copied : Heap Block → ℕ → DataT → Prop}
    (hcopies : Copies call h c copied) : ¬Faults call h := by
  obtain ⟨r, h', hrun, -⟩ := hcopies
  exact fun hfaults => hfaults.ne_ok hrun

/-- A value that is refused, or an allocation for it that fails. -/
lemma missing_value (hnot : ¬(c.accepted ≠ none ∧ ∀ k < 4, h.grants k = true))
    (hg : h.grants 0 = true) (hg' : h.grants 1 = true) :
    c.accepted = none ∨ h.grants 2 = false ∨ h.grants 3 = false := by
  by_contra hall
  simp only [not_or, Bool.not_eq_false] at hall
  refine hnot ⟨hall.1, fun k hk => ?_⟩
  obtain rfl | rfl | rfl | rfl : k = 0 ∨ k = 1 ∨ k = 2 ∨ k = 3 := by omega
  · exact hg
  · exact hg'
  · exact hall.2.1
  · exact hall.2.2

/-- What `entry_create` does when it cannot copy: it releases the caller's key, it faults, or it
returns an entry that was released. -/
lemma entryCreate_cases (hc : c.At h)
    (hnot : ¬(c.accepted ≠ none ∧ ∀ k < 4, h.grants k = true)) :
    (h.grants 0 = false) ∨ (h.grants 0 = true ∧ h.grants 1 = false) ∨
      ∃ k h', entryCreate (some c.key) (some c.value) h = .ok (some h.next, h') ∧
        Extends k h h' ∧ h'.cells h.next = none ∧ h.next < h'.next := by
  cases hg : h.grants 0 with
  | false => exact Or.inl rfl
  | true =>
    cases hg' : h.grants 1 with
    | false => exact Or.inr (Or.inl ⟨rfl, rfl⟩)
    | true => exact Or.inr (Or.inr (entryCreate_noValue hc hg hg' (missing_value hnot hg hg')))

/-- What was released is no copy. -/
lemma not_copies_released {call : Mem Block (Option ℕ)} (hrun : call h = .ok (some e, h'))
    (hdead : h'.cells e = none) : ¬Copies call h c (IsEntry h c) := by
  rintro ⟨r, h₁, hrun₁, -, hcopied⟩
  rw [hrun] at hrun₁
  cases hrun₁
  obtain ⟨v, -, c', hcopy⟩ := hcopied _ rfl
  rw [hcopy.held.entry] at hdead
  cases hdead

lemma copies_of_copy {call : Mem Block (Option ℕ)} (hrun : call h = .ok (some e, h'))
    (hc : c.At h') (hv : c.accepted = some v) (hcopy : EntryCopy h h' e c.text v c') :
    Copies call h c (IsEntry h c) := by
  refine ⟨some e, h', hrun, hc, fun p hp => ⟨v, hv, c', ?_⟩⟩
  cases hp
  exact hcopy

lemma entryCreate_copies_iff (hc : c.At h) :
    Copies (entryCreate (some c.key) (some c.value)) h c (IsEntry h c) ↔
      c.accepted ≠ none ∧ ∀ k < 4, h.grants k = true := by
  refine ⟨fun hcopies => ?_, fun ⟨ha, hg⟩ => ?_⟩
  · by_contra hnot
    rcases entryCreate_cases hc hnot with hg | ⟨hg, hg'⟩ | ⟨k, h₁, hrun, -, hdead, -⟩
    · obtain ⟨r, h', hrun, hc', -⟩ := hcopies
      have hkey := (entryCreate_noEntry hg hrun).2
      rw [hc'.key] at hkey
      cases hkey
    · exact hcopies.not_faults (entryCreate_noKey hc hg hg')
    · exact not_copies_released hrun hdead hcopies
  · obtain ⟨v, hv⟩ := Option.ne_none_iff_exists'.mp ha
    obtain ⟨e, c', h', hrun, hext, hcopy⟩ := entryCreate_copied hc hv hg
    exact copies_of_copy hrun (hc.extends hext) hv hcopy

lemma entryDup_copies_iff (he : EntryAt h e c) :
    Copies (entryDup (some e)) h c (IsEntry h c) ↔
      c.accepted ≠ none ∧ ∀ k < 4, h.grants k = true := by
  refine ⟨fun hcopies => ?_, fun ⟨ha, hg⟩ => ?_⟩
  · by_contra hnot
    rcases entryCreate_cases he.pair hnot with hg | ⟨hg, hg'⟩ | ⟨k, h₁, hrun, -, hdead, -⟩
    · exact hcopies.not_faults (entryDup_faults he (Or.inl hg))
    · exact hcopies.not_faults (entryDup_faults he (Or.inr ⟨hg, hg'⟩))
    · exact not_copies_released (entryDup_of_entry he hrun (by simp)) hdead hcopies
  · obtain ⟨v, hv⟩ := Option.ne_none_iff_exists'.mp ha
    obtain ⟨e', c', h', hrun, hext, hcopy⟩ := entryCreate_copied he.pair hv hg
    exact copies_of_copy (entryDup_of_entry he hrun (by simp)) (he.pair.extends hext) hv hcopy

/-- What `create_node` does with room for the node but not for the copy: it faults, or the
entry of its node was released. -/
lemma createNode_cases (he : EntryAt h e c) (hg : h.grants 0 = true)
    (hnot : ¬(c.accepted ≠ none ∧ ∀ k < 5, h.grants k = true)) :
    Faults (createNode (some e)) h ∨
      ∃ k e' h', createNode (some e) h = .ok (some h.next, h') ∧ Extends k h h' ∧
        h'.cells h.next = some (.node (some e')) ∧ h'.cells e' = none ∧ h.next ≤ e' ∧
        e' < h'.next := by
  have hext : Extends 1 h (h.allocate (.node none)) := extends_allocate h _
  have hnot' : ¬(c.accepted ≠ none ∧ ∀ k < 4, (h.allocate (.node none)).grants k = true) := by
    rintro ⟨ha, hall⟩
    refine hnot ⟨ha, fun k hk => ?_⟩
    cases k with
    | zero => exact hg
    | succ k => exact (hext.grants k).symm.trans (hall k (by omega))
  cases hg₁ : h.grants 1 with
  | false => exact Or.inl (createNode_faults he hg (Or.inl hg₁))
  | true =>
    cases hg₂ : h.grants 2 with
    | false => exact Or.inl (createNode_faults he hg (Or.inr ⟨hg₁, hg₂⟩))
    | true =>
      have hvalue := missing_value hnot' ((hext.grants 0).trans hg₁) ((hext.grants 1).trans hg₂)
      rw [hext.grants 2, hext.grants 3] at hvalue
      refine Or.inr (createNode_noValue he (fun k hk => ?_) hvalue)
      obtain rfl | rfl | rfl : k = 0 ∨ k = 1 ∨ k = 2 := by omega
      · exact hg
      · exact hg₁
      · exact hg₂

lemma createNode_copies_iff (he : EntryAt h e c) :
    Copies (createNode (some e)) h c (IsNode h c) ↔
      h.grants 0 = false ∨ c.accepted ≠ none ∧ ∀ k < 5, h.grants k = true := by
  refine ⟨fun hcopies => ?_, ?_⟩
  · by_contra hnot
    simp only [not_or, Bool.not_eq_false] at hnot
    rcases createNode_cases he hnot.1 hnot.2 with hfaults | ⟨k, e', h₁, hrun, -, hnode, hdead, -⟩
    · exact hcopies.not_faults hfaults
    · obtain ⟨r, h', hrun', -, hcopied⟩ := hcopies
      rw [hrun] at hrun'
      cases hrun'
      obtain ⟨v, -, e'', hnode', c', hcopy⟩ := hcopied _ rfl
      rw [hnode] at hnode'
      cases hnode'
      rw [hcopy.held.entry] at hdead
      cases hdead
  · rintro (hg | ⟨ha, hg⟩)
    · exact ⟨none, h.refuse, createNode_refused hg, he.pair.extends (extends_refuse h),
        fun p hp => by cases hp⟩
    · obtain ⟨v, hv⟩ := Option.ne_none_iff_exists'.mp ha
      obtain ⟨e', c', h', hrun, hext, hnode, hcopy⟩ := createNode_copied he hv hg
      refine ⟨_, h', hrun, he.pair.extends hext, fun p hp => ⟨v, hv, ?_⟩⟩
      cases hp
      exact ⟨e', hnode, c', hcopy⟩

/-! ### `table_put` -/

/-- What is left to do in `table_put` once `table_get` has returned `NULL`. -/
def finishAdd (table : HeapTable) (placeEntry : ℤ) (newEntry : Option ℕ) :
    Mem Block (ℤ × HeapTable) := do
  let list ← bucketAt table placeEntry
  let (resultedValue, list) ← listAdd list newEntry
  entryDestroy newEntry
  let quantity := if resultedValue = 0 then table.quantityEntry + 1 else table.quantityEntry
  pure (resultedValue, ⟨table.buckets.set placeEntry.toNat list, table.size, quantity⟩)

/-- What is left to do once the entry is made. -/
def finishPut (table : HeapTable) (key newEntry : Option ℕ) : Mem Block (ℤ × HeapTable) := do
  let chars ← readString key
  let found ← tableGet table key
  match found with
  | some _ => do
    entryDestroy newEntry
    pure (-10, table)
  | none => finishAdd table (keyHash chars table.size) newEntry

lemma tablePut_entry (hrun : entryCreate (some c.key) (some c.value) h = .ok (some e, h₁)) :
    tablePut table (some c.key) (some c.value) h = finishPut table (some c.key) (some e) h₁ := by
  rw [tablePut, if_neg (by simp), bind_of_ok hrun]
  rfl

lemma finishPut_absent (hc : c.At h)
    (hget : tableGet table (some c.key) h = .ok (none, h₁)) :
    finishPut table (some c.key) (some e) h =
      finishAdd table (keyHash c.text table.size) (some e) h₁ := by
  rw [finishPut, bind_of_ok (readString_run hc.key)]
  exact bind_of_ok hget

lemma finishPut_present {p : ℕ} (hc : c.At h)
    (hget : tableGet table (some c.key) h = .ok (some p, h₁)) :
    finishPut table (some c.key) (some e) h =
      (do entryDestroy (some e)
          pure ((-10, table) : ℤ × HeapTable)) h₁ := by
  rw [finishPut, bind_of_ok (readString_run hc.key)]
  exact bind_of_ok hget

lemma entryDestroy_released (hdead : h.cells e = none) : Faults (entryDestroy (some e)) h := by
  rw [entryDestroy]
  exact (readEntry_released hdead).bind

/-- An entry that was released is used again: by `entry_dup` or by `entry_destroy`. -/
lemma listAdd_released {list : HeapList} {r : ℤ × HeapList} (hdead : h.cells e = none)
    (hlt : e < h.next) (hrun : listAdd list (some e) h = .ok (r, h')) :
    h'.cells e = none := by
  cases hg : h.grants 0 with
  | false =>
    rw [listAdd, bind_of_ok (createNode_refused hg)] at hrun
    cases hrun
    exact hdead
  | true =>
    have hext : Extends 1 h (h.allocate (.node none)) := extends_allocate h _
    have hnode : Faults (createNode (some e)) h := by
      rw [createNode]
      apply faults_of_ok (malloc_granted hg _)
      exact Faults.bind (Faults.bind (readEntry_released (hext.dead hdead hlt)))
    rw [listAdd] at hrun
    exact absurd hrun hnode.bind.ne_ok

lemma bucketAt_same {i : ℤ} {list : HeapList} (hrun : bucketAt table i h = .ok (list, h')) :
    h' = h := by
  rw [bucketAt] at hrun
  by_cases hi : i < 0
  · rw [if_pos hi] at hrun
    cases hrun
  · rw [if_neg hi] at hrun
    cases hget : table.buckets[i.toNat]? with
    | none =>
      rw [hget] at hrun
      cases hrun
    | some list' =>
      rw [hget] at hrun
      cases hrun
      rfl

lemma finishPut_released (hg : g.At h) (hr : g.table.Represents n m) (hc : c.At h)
    (hdead : h.cells e = none) (hlt : e < h.next) :
    Faults (finishPut g.heap (some c.key) (some e)) h := by
  rw [finishPut]
  apply faults_of_ok (readString_run hc.key)
  apply faults_bind
  intro found h₁ hget
  obtain ⟨k, hext⟩ := tableGet_extends hg hr hc.key hget
  have hdead₁ := hext.dead hdead hlt
  cases found with
  | some p => exact (entryDestroy_released hdead₁).bind
  | none =>
    apply faults_bind
    intro list h₂ hbucket
    obtain rfl := bucketAt_same hbucket
    apply faults_bind
    intro r h₃ hadd
    have hdead₃ := listAdd_released hdead₁ (lt_of_lt_of_le hlt hext.next_le) hadd
    exact (entryDestroy_released hdead₃).bind

lemma TableAt.of_kept {others : List ℕ} (ht : TableAt h table n m others)
    (hkept : ∀ p < h.next, h'.cells p = h.cells p) : TableAt h' table n m others := by
  obtain ⟨g, hheap, hr, hg, hothers⟩ := ht
  exact ⟨g, hheap, hr, hg.of_kept hkept, hothers⟩

/-- The entry that `table_put` makes first. -/
structure NewEntry (h h₁ : Heap Block) (c : Pair) (v : DataT) (e : ℕ) (c' : Pair) : Prop where
  run : entryCreate (some c.key) (some c.value) h = .ok (some e, h₁)
  ext : Extends 4 h h₁
  copy : EntryCopy h h₁ e c.text v c'

/-- When the new entry is destroyed, what was there before it and what came after it stay. -/
lemma NewEntry.destroy (hmade : NewEntry h h₁ c v e c') {k : ℕ} {h₂ : Heap Block}
    (hext : Extends k h₁ h₂) :
    ∃ h₃, entryDestroy (some e) h₂ = .ok ((), h₃) ∧ (∀ p < h.next, h₃.cells p = h.cells p) ∧
      ∀ p, h₁.next ≤ p → h₃.cells p = h₂.cells p := by
  obtain ⟨h₃, hrun, -, -, hcells⟩ := entryDestroy_run (hmade.copy.held.extends hext)
  refine ⟨h₃, hrun, fun p hp => ?_, fun p hp => hcells p (fun hmem => ?_)⟩
  · have hnot : p ∉ e :: c'.blocks := fun hmem => absurd (hmade.copy.fresh p hmem) (by omega)
    rw [hcells p hnot, (hmade.ext.trans hext).kept p hp]
  · exact absurd (Heap.lt_next (hmade.copy.held.live hmem)) (by omega)

/-- Without room for a node `list_add` returns -1. -/
lemma finishAdd_refused {list : StoredList} (hb : BucketOf g m c.text list)
    (hmade : NewEntry h h₁ c v e c') {k : ℕ} {h₂ : Heap Block} (hext : Extends k h₁ h₂)
    (hgrant : h₂.grants 0 = false) :
    ∃ h₃, finishAdd g.heap (keyHash c.text g.size) (some e) h₂ = .ok ((-1, g.heap), h₃) ∧
      ∀ p < h.next, h₃.cells p = h.cells p := by
  obtain ⟨h₃, hdestroy, hkept, -⟩ := hmade.destroy (hext.trans (extends_refuse h₂))
  have hadd : listAdd list.heap (some e) h₂ = .ok ((-1, list.heap), h₂.refuse) := by
    rw [listAdd, bind_of_ok (createNode_refused hgrant)]
    rfl
  obtain ⟨hlt, hget⟩ := List.getElem?_eq_some_iff.mp hb.get
  have hset : g.heap.buckets.set (keyHash c.text g.size).toNat list.heap = g.heap.buckets := by
    simp only [StoredTable.heap]
    rw [← List.map_set, ← hget, List.set_getElem_self]
  refine ⟨h₃, ?_, hkept⟩
  rw [finishAdd, bind_of_ok (hb.run h₂), bind_of_ok hadd]
  simp only
  rw [bind_of_ok hdestroy, hset]
  rfl

/-- With room for a node `create_node` returns one, or it does not return. -/
lemma createNode_some {p r : Option ℕ} (hp : p ≠ none) (hg : h.grants 0 = true)
    (hrun : createNode p h = .ok (r, h')) : r = some h.next := by
  obtain ⟨q, rfl⟩ := Option.ne_none_iff_exists'.mp hp
  simp only [createNode] at hrun
  rw [bind_of_ok (malloc_granted hg _)] at hrun
  simp only at hrun
  obtain ⟨_, _, -, hrun⟩ := bind_inv hrun
  obtain ⟨_, _, -, hrun⟩ := bind_inv hrun
  obtain ⟨_, _, -, hrun⟩ := bind_inv hrun
  obtain ⟨_, _, -, hrun⟩ := bind_inv hrun
  cases hrun
  rfl

/-- With room for a node `list_add` on a list with nodes returns 0, or it does not return. -/
lemma finishAdd_zero {list : StoredList} (hb : BucketOf g m c.text list)
    (hne : list.nodes ≠ []) (hgrant : h.grants 0 = true) {r : ℤ × HeapTable}
    (hrun : finishAdd g.heap (keyHash c.text g.size) (some e) h = .ok (r, h')) : r.1 = 0 := by
  rw [finishAdd, bind_of_ok (hb.run h)] at hrun
  obtain ⟨⟨resultedValue, list'⟩, h₂, hadd, hrun⟩ := bind_inv hrun
  obtain ⟨_, h₃, -, hrun⟩ := bind_inv hrun
  cases hrun
  rw [listAdd] at hadd
  obtain ⟨node, h₄, hnode, hadd⟩ := bind_inv hadd
  obtain rfl := createNode_some (by simp) hgrant hnode
  obtain ⟨s, rest, hnodes⟩ := List.exists_cons_of_ne_nil hne
  simp only [StoredList.heap, hnodes, List.map_cons] at hadd
  exact listAddLoop_zero hadd

/-- With room for the node and the copy of the entry `list_add` adds the pair. -/
lemma finishAdd_added {list : StoredList} (hg : g.At h) (hb : BucketOf g m c.text list)
    (hnot : c.text ∉ m) (hmade : NewEntry h h₁ c v e c') (hgrants : ∀ k < 5, h₁.grants k = true) :
    ∃ new h₃, new.key = c.text ∧ new.value = v ∧
      finishAdd g.heap (keyHash c.text g.size) (some e) h₁ =
        .ok ((0, (g.addNode list new).heap), h₃) ∧
      (∀ p < h.next, h₃.cells p = h.cells p) ∧ new.At h₃ ∧ ∀ p ∈ new.blocks, h.next ≤ p := by
  obtain ⟨e', c'', h₂, hnode, hext, hcell, hcopy⟩ :=
    createNode_copied hmade.copy.held hmade.copy.accepted hgrants
  obtain ⟨h₃, hdestroy, hkept, hkept'⟩ := hmade.destroy hext
  obtain ⟨new, hnew⟩ : ∃ new : Stored, new = ⟨h₁.next, e', c'', v, hcopy.accepted⟩ := ⟨_, rfl⟩
  have hkey : new.key = c.text := by
    rw [hnew]
    exact hcopy.text.trans hmade.copy.text
  have hat : new.At h₂ := by
    rw [hnew]
    exact ⟨hcell, hcopy.held⟩
  have hfresh : ∀ p ∈ new.blocks, h₁.next ≤ p := by
    intro p hp
    rw [hnew] at hp
    rcases List.mem_cons.mp hp with rfl | hp
    · exact le_refl _
    · exact hcopy.fresh p hp
  have hnodes : ∀ s ∈ list.nodes, s.At h₂ := fun s hs =>
    (hg.extends (hmade.ext.trans hext)).nodes s (hb.mem hs)
  have hdescending : Descending Stored.key list.nodes :=
    List.pairwise_map.mp hb.wellFormed.descending
  have hadd : listAdd list.heap (some e) h₁ = .ok ((0, ⟨list.size + 1,
      (insertKeyed Stored.key new list.nodes).map Stored.node⟩), h₂) := by
    have hfound := hkey ▸ hb.lookup_none hnot
    rw [listAdd, bind_of_ok hnode, StoredList.heap]
    cases hlist : list.nodes with
    | nil =>
      rw [hnew]
      rfl
    | cons s rest =>
      rw [hlist] at hnodes hdescending hfound
      have hloop := listAddLoop_run list.size (some e) [] s rest hat hnodes hdescending
        (fun hne => absurd rfl hne) hfound
      rw [hnew] at hloop
      exact hnew ▸ hloop
  refine ⟨new, h₃, hkey, by rw [hnew], ?_, hkept,
    hat.of_cells (fun p hp => hkept' p (hfresh p hp)),
    fun p hp => hmade.ext.next_le.trans (hfresh p hp)⟩
  rw [finishAdd, bind_of_ok (hb.run h₁), bind_of_ok hadd]
  simp only
  rw [bind_of_ok hdestroy, addNode_heap, hkey]
  rfl

/-- Every node of a table has its entry. -/
lemma TableAt.entry_live {others : List ℕ} (ht : TableAt h table n m others) {i node e' : ℕ}
    {list : HeapList} (hget : table.buckets[i]? = some list) (hnode : node ∈ list.head)
    (hcell : h.cells node = some (.node (some e'))) : h.cells e' ≠ none := by
  obtain ⟨g', rfl, -, hg', -⟩ := ht
  obtain ⟨s, hs, rfl⟩ := exists_stored hget hnode
  have hat := hg'.nodes s hs
  have hentry : s.entry = e' := by
    have hscell := hat.node
    rw [hcell] at hscell
    cases hscell
    rfl
  rw [← hentry, hat.entry.entry]
  simp

/-- In front of other nodes the comparison reads the entry that the new node lacks. -/
lemma listAdd_entryless {list : StoredList} {s : Stored} {rest : List Stored} {node e' : ℕ}
    (hlist : list.nodes = s :: rest) (hs : s.At h₁)
    (hnode : createNode (some e) h = .ok (some node, h₁))
    (hcell : h₁.cells node = some (.node (some e'))) (hdead : h₁.cells e' = none) :
    Faults (listAdd list.heap (some e)) h := by
  rw [listAdd]
  apply faults_of_ok hnode
  simp only [StoredList.heap, hlist, List.map_cons]
  rw [listAddLoop.eq_def]
  apply faults_of_ok (nodeKey_run hs)
  apply Faults.bind
  rw [nodeKey]
  apply faults_of_ok (readNode_run hcell)
  exact (readEntry_released hdead).bind

/-- With room for the node alone `list_add` leaves a node without an entry, or it does not
return. -/
lemma finishAdd_broken {list : StoredList} (hg : g.At h) (hb : BucketOf g m c.text list)
    (hmade : NewEntry h h₁ c v e c') (hgrant : h₁.grants 0 = true)
    (hmissing : ¬∀ k < 5, h₁.grants k = true) {r : ℤ × HeapTable}
    (hrun : finishAdd g.heap (keyHash c.text g.size) (some e) h₁ = .ok (r, h')) (m' : KeyMap)
    (others : List ℕ) : ¬TableAt h' r.2 n m' others := by
  rw [finishAdd, bind_of_ok (hb.run h₁)] at hrun
  rcases createNode_cases hmade.copy.held hgrant (fun hall => hmissing hall.2) with
    hfaults | ⟨k, e', h₂, hnode, hext, hcell, hdead, hle, hlt⟩
  · have hadd : Faults (listAdd list.heap (some e)) h₁ := by
      rw [listAdd]
      exact hfaults.bind
    exact absurd hrun hadd.bind.ne_ok
  · obtain ⟨h₃, hdestroy, -, hkept⟩ := hmade.destroy hext
    cases hlist : list.nodes with
    | nil =>
      have hadd : listAdd list.heap (some e) h₁ =
          .ok ((0, ⟨list.size + 1, [h₁.next]⟩), h₂) := by
        rw [listAdd, bind_of_ok hnode, StoredList.heap, hlist]
        rfl
      rw [bind_of_ok hadd] at hrun
      simp only at hrun
      rw [bind_of_ok hdestroy] at hrun
      cases hrun
      intro ht
      have hindex : (keyHash c.text g.size).toNat < g.heap.buckets.length := by
        obtain ⟨hlt', -⟩ := List.getElem?_eq_some_iff.mp hb.get
        simpa only [StoredTable.heap, List.length_map] using hlt'
      have hnew : h'.cells h₁.next = some (.node (some e')) := (hkept _ (le_refl _)).trans hcell
      exact ht.entry_live (List.getElem?_set_self hindex) List.mem_cons_self hnew
        ((hkept e' hle).trans hdead)
    | cons s rest =>
      have hs : s.At h₂ := (hg.extends (hmade.ext.trans hext)).nodes s
        (hb.mem (by rw [hlist]; exact List.mem_cons_self))
      exact absurd hrun (listAdd_entryless hlist hs hnode hcell hdead).bind.ne_ok

/-- When `table_put` does what it is meant to. -/
def PutFits (h : Heap Block) (n : ℤ) (m : KeyMap) (c : Pair) : Prop :=
  0 ≤ keyHash c.text n ∧ (c.accepted ≠ none ∧ ∀ k < 4, h.grants k = true) ∧
    (c.text ∈ m → h.grants 4 = true ∧ h.grants 5 = true ∨
      h.grants 4 = false ∧ h.grants 5 = false ∨
      h.grants 4 = true ∧ h.grants 5 = false ∧ h.grants 6 = false) ∧
    (c.text ∉ m → h.grants 4 = false ∨ ∀ k < 9, h.grants k = true)

/-- An unchanged table. -/
lemma answers_refused {call : Mem Block (ℤ × HeapTable)} {answer : DataT → ℤ × KeyMap}
    (ht : TableAt h table n m c.blocks) (hc : c.At h) (hrun : call h = .ok ((-1, table), h'))
    (hkept : ∀ p < h.next, h'.cells p = h.cells p) : Answers call h table n m c answer :=
  ⟨-1, table, h', hrun, hc.of_kept hkept, Or.inr ⟨rfl, rfl, ht.of_kept hkept⟩⟩

lemma put_absent_iff (hg : g.At h) (hr : g.table.Represents n m) (hc : c.At h)
    (hothers : ∀ p ∈ c.blocks, p ∉ g.blocks) (hk : 0 ≤ keyHash c.text n)
    (hmade : NewEntry h h₁ c v e c') (hv : c.accepted = some v) (hnot : c.text ∉ m) :
    Answers (tablePut g.heap (some c.key) (some c.value)) h g.heap n m c (mapPut m c.text) ↔
      h₁.grants 0 = false ∨ ∀ k < 5, h₁.grants k = true := by
  obtain ⟨list, hb⟩ := exists_bucketOf hr hk
  have hput : tablePut g.heap (some c.key) (some c.value) h =
      finishAdd g.heap (keyHash c.text g.size) (some e) h₁ := by
    rw [tablePut_entry hmade.run]
    have hc₁ := hc.extends hmade.ext
    exact finishPut_absent hc₁
      (tableGet_absent (hg.extends hmade.ext) hr hk hc₁.key hnot)
  refine ⟨fun hanswers => ?_, ?_⟩
  · by_contra hnone
    simp only [not_or, Bool.not_eq_false] at hnone
    obtain ⟨r, table', h', hrun, -, houtcome⟩ := hanswers
    rw [hput] at hrun
    have hbroken := finishAdd_broken hg hb hmade hnone.1 hnone.2 hrun (n := n)
    rcases houtcome with ⟨v', -, -, ht⟩ | ⟨-, rfl, ht⟩
    · exact hbroken _ _ ht
    · exact hbroken _ _ ht
  · rintro (hrefused | hgrants)
    · obtain ⟨h₃, hrun, hkept⟩ := finishAdd_refused hb hmade (Extends.refl h₁) hrefused
      exact answers_refused ⟨g, rfl, hr, hg, hothers⟩ hc (hput.trans hrun) hkept
    · obtain ⟨new, h₃, hkey, hvalue, hrun, hkept, hnew, hfresh⟩ :=
        finishAdd_added hg hb hnot hmade hgrants
      rw [← hkey] at hk hb hnot
      have hnotnew : ∀ p ∈ new.blocks, p ∉ g.blocks := fun p hp hmem =>
        absurd (Heap.lt_next (hg.live hmem)) (by have := hfresh p hp; omega)
      have hmap : mapPut m c.text v = (0, m.insert new.key new.value) := by
        rw [mapPut, hkey, if_neg (hkey ▸ hnot), hvalue]
      refine ⟨0, _, h₃, hput.trans hrun, hc.of_kept hkept, Or.inl ⟨v, hv, by rw [hmap], ?_⟩⟩
      rw [hmap]
      refine ⟨_, rfl, addNode_represents hr hk hb hnot,
        addNode_at (hg.of_kept hkept) hb hnot hnew hnotnew, fun p hp hmem => ?_⟩
      rcases (mem_addNode_blocks hb hnot).mp hmem with hmem | hmem
      · exact absurd (Heap.lt_next (hc.live hp)) (by have := hfresh p hmem; omega)
      · exact hothers p hp hmem

/-- When the copy in `table_get` fails, the key of the table is taken for a new one. -/
lemma put_overlooked_iff (hg : g.At h) (hr : g.table.Represents n m) (hc : c.At h)
    (hothers : ∀ p ∈ c.blocks, p ∉ g.blocks) (hk : 0 ≤ keyHash c.text n)
    (hmade : NewEntry h h₁ c v e c') (hmem : c.text ∈ m) {k : ℕ} {h₂ : Heap Block}
    (hext : Extends k h₁ h₂) (hget : tableGet g.heap (some c.key) h₁ = .ok (none, h₂)) :
    Answers (tablePut g.heap (some c.key) (some c.value)) h g.heap n m c (mapPut m c.text) ↔
      h₂.grants 0 = false := by
  obtain ⟨list, hb⟩ := exists_bucketOf hr hk
  have hput : tablePut g.heap (some c.key) (some c.value) h =
      finishAdd g.heap (keyHash c.text g.size) (some e) h₂ := by
    rw [tablePut_entry hmade.run]
    exact finishPut_absent (hc.extends hmade.ext) hget
  refine ⟨fun hanswers => ?_, fun hrefused => ?_⟩
  · by_contra hgrant
    obtain ⟨s, hs, -, -⟩ := hb.lookup_some hmem
    obtain ⟨r, table', h', hrun, -, houtcome⟩ := hanswers
    rw [hput] at hrun
    have hzero : r = 0 :=
      finishAdd_zero hb (List.ne_nil_of_mem hs) (Bool.eq_true_of_not_eq_false hgrant) hrun
    rcases houtcome with ⟨v', -, hr', -⟩ | ⟨hr', -, -⟩
    · rw [hzero, mapPut, if_pos hmem] at hr'
      cases hr'
    · omega
  · obtain ⟨h₃, hrun, hkept⟩ := finishAdd_refused hb hmade hext hrefused
    exact answers_refused ⟨g, rfl, hr, hg, hothers⟩ hc (hput.trans hrun) hkept

lemma put_present_iff (hg : g.At h) (hr : g.table.Represents n m) (hc : c.At h)
    (hothers : ∀ p ∈ c.blocks, p ∉ g.blocks) (hk : 0 ≤ keyHash c.text n)
    (hmade : NewEntry h h₁ c v e c') (hv : c.accepted = some v) (hmem : c.text ∈ m) :
    Answers (tablePut g.heap (some c.key) (some c.value)) h g.heap n m c (mapPut m c.text) ↔
      h₁.grants 0 = true ∧ h₁.grants 1 = true ∨ h₁.grants 0 = false ∧ h₁.grants 1 = false ∨
        h₁.grants 0 = true ∧ h₁.grants 1 = false ∧ h₁.grants 2 = false := by
  have hc₁ := hc.extends hmade.ext
  have hg₁ := hg.extends hmade.ext
  obtain ⟨s, hs, hget⟩ := tableGet_present hg₁ hr hk hc₁.key hmem
  have hs₁ := (hg₁.nodes s hs).entry.pair
  by_cases hboth : h₁.grants 0 = true ∧ h₁.grants 1 = true
  · obtain ⟨p, b, h₂, hdup, hext, -⟩ := dataDup_granted hs₁ s.accepted hboth.1 hboth.2
    obtain ⟨h₃, hdestroy, hkept, -⟩ := hmade.destroy hext
    have hrun : tablePut g.heap (some c.key) (some c.value) h = .ok ((-10, g.heap), h₃) := by
      rw [tablePut_entry hmade.run, finishPut_present hc₁ (hget.trans hdup),
        bind_of_ok hdestroy]
      rfl
    have hmap : mapPut m c.text v = (-10, m) := if_pos hmem
    refine iff_of_true ⟨-10, g.heap, h₃, hrun, hc.of_kept hkept, Or.inl ⟨v, hv, by rw [hmap], ?_⟩⟩
      (Or.inl hboth)
    rw [hmap]
    exact ⟨g, rfl, hr, hg.of_kept hkept, hothers⟩
  · have hrefused : h₁.grants 0 = false ∨ h₁.grants 1 = false := by
      by_contra hall
      exact hboth (by simpa using hall)
    obtain ⟨k, h₂, hdup, hext, hcount⟩ := dataDup_refused hs₁ s.accepted hrefused
    rw [put_overlooked_iff hg hr hc hothers hk hmade hmem hext (hget.trans hdup),
      hext.grants 0, hcount]
    cases hg₀ : h₁.grants 0 with
    | false => simp
    | true =>
      rw [hg₀] at hrefused
      simp [hrefused.resolve_left (by simp)]

/-- Without a copy of the caller's pair `table_put` goes wrong. -/
lemma put_not_started (hg : g.At h) (hr : g.table.Represents n m) (hc : c.At h)
    (hnot : ¬(c.accepted ≠ none ∧ ∀ k < 4, h.grants k = true))
    (answer : DataT → ℤ × KeyMap) :
    ¬Answers (tablePut g.heap (some c.key) (some c.value)) h g.heap n m c answer := by
  rintro ⟨r, table', h', hrun, hc', -⟩
  rcases entryCreate_cases hc hnot with hg₀ | ⟨hg₀, hg₁⟩ | ⟨k, h₁, hcreate, hext, hdead, hlt⟩
  · rw [tablePut, if_neg (by simp)] at hrun
    obtain ⟨entry, h₁, hcreate, hrest⟩ := bind_inv hrun
    obtain ⟨rfl, hkey⟩ := entryCreate_noEntry hg₀ hcreate
    cases hrest
    rw [hc'.key] at hkey
    cases hkey
  · have hfaults : Faults (tablePut g.heap (some c.key) (some c.value)) h := by
      rw [tablePut, if_neg (by simp)]
      exact (entryCreate_noKey hc hg₀ hg₁).bind
    exact hfaults.ne_ok hrun
  · rw [tablePut_entry hcreate] at hrun
    exact (finishPut_released (hg.extends hext) hr (hc.extends hext) hdead hlt).ne_ok hrun

theorem put_answers_iff (ht : TableAt h table n m c.blocks) (hc : c.At h) :
    Answers (tablePut table (some c.key) (some c.value)) h table n m c (mapPut m c.text) ↔
      PutFits h n m c := by
  obtain ⟨g, rfl, hr, hg, hothers⟩ := ht
  by_cases hstart : c.accepted ≠ none ∧ ∀ k < 4, h.grants k = true
  · obtain ⟨v, hv⟩ := Option.ne_none_iff_exists'.mp hstart.1
    obtain ⟨e, c', h₁, hrun, hext, hcopy⟩ := entryCreate_copied hc hv hstart.2
    have hmade : NewEntry h h₁ c v e c' := ⟨hrun, hext, hcopy⟩
    by_cases hk : 0 ≤ keyHash c.text n
    · by_cases hmem : c.text ∈ m
      · rw [put_present_iff hg hr hc hothers hk hmade hv hmem, hext.grants, hext.grants,
          hext.grants]
        exact ⟨fun hgrants => ⟨hk, hstart, fun _ => hgrants, fun hnot => absurd hmem hnot⟩,
          fun hfits => hfits.2.2.1 hmem⟩
      · have hgrants : (∀ k < 5, h₁.grants k = true) ↔ ∀ k < 9, h.grants k = true := by
          refine ⟨fun hall k hlt => ?_, fun hall k hlt => ?_⟩
          · by_cases hfirst : k < 4
            · exact hstart.2 k hfirst
            · obtain ⟨l, rfl⟩ := Nat.exists_eq_add_of_le (not_lt.mp hfirst)
              rw [Nat.add_comm, ← hext.grants]
              exact hall l (by omega)
          · rw [hext.grants]
            exact hall _ (by omega)
        rw [put_absent_iff hg hr hc hothers hk hmade hv hmem, hgrants, hext.grants]
        exact ⟨fun hall => ⟨hk, hstart, fun hin => absurd hin hmem, fun _ => hall⟩,
          fun hfits => hfits.2.2.2 hmem⟩
    · refine iff_of_false ?_ (fun hfits => hk hfits.1)
      rintro ⟨r, table', h', hput, -⟩
      have hc₁ := hc.extends hext
      have hget : Faults (tableGet g.heap (some c.key)) h₁ :=
        tableGet_negative hr (not_le.mp hk) hc₁.key
      have hfaults : Faults (finishPut g.heap (some c.key) (some e)) h₁ := by
        rw [finishPut]
        exact faults_of_ok (readString_run hc₁.key) hget.bind
      rw [tablePut_entry hrun] at hput
      exact hfaults.ne_ok hput
  · exact iff_of_false (put_not_started hg hr hc hstart _) (fun hfits => hstart hfits.2.1)

/-! ### `table_update` -/

/-- What is left to do in `table_update` once the value is copied. -/
def finishUpdate (table : HeapTable) (key newData : Option ℕ) : Mem Block (ℤ × HeapTable) := do
  let chars ← readString key
  let list ← bucketAt table (keyHash chars table.size)
  let entryToUpdate ← listGetLoop chars list.head
  match entryToUpdate with
  | none => do
    free newData
    pure (-1, table)
  | some p => do
    let (_, old) ← readEntry (some p)
    dataDestroy old
    setValue (some p) newData
    pure (0, table)

lemma tableUpdate_noData (hrun : dataDup (some c.value) h = .ok (none, h₁)) :
    tableUpdate table (some c.key) (some c.value) h = .ok ((-1, table), h₁) := by
  rw [tableUpdate, if_neg (by simp), bind_of_ok hrun]
  rfl

lemma tableUpdate_data {p : ℕ} (hrun : dataDup (some c.value) h = .ok (some p, h₁)) :
    tableUpdate table (some c.key) (some c.value) h =
      finishUpdate table (some c.key) (some p) h₁ := by
  rw [tableUpdate, if_neg (by simp), bind_of_ok hrun]
  rfl

/-- The old value of a node is destroyed and the copy takes its place. -/
lemma replace_value {s : Stored} {p b : ℕ} (hs : s.At h₁) (hcopy : CopyAt h h₁ p b v)
    (hold : ∀ q ∈ s.blocks, q < h.next) :
    ∃ h₂ h₃, dataDestroy (some s.pair.value) h₁ = .ok ((), h₂) ∧
      setValue (some s.entry) (some p) h₂ = .ok ((), h₃) ∧ (s.withCopy p b v).At h₃ ∧
      ∀ q, q ∉ s.blocks → h₃.cells q = h₁.cells q := by
  obtain ⟨h₂, hdestroy, -, -, hcells⟩ := dataDestroy_run hs.entry.pair
  obtain ⟨hentryKey, hentryValue, hentryData⟩ := hs.entry.entry_apart
  obtain ⟨hkeyValue, hkeyData⟩ := hs.entry.pair.key_apart
  have hentry : h₂.cells s.entry = some (.entry (some s.pair.key) (some s.pair.value)) := by
    rw [hcells _ hentryValue hentryData]
    exact hs.entry.entry
  obtain ⟨hcell, hset⟩ := setValue_run hentry (some p)
  set h₃ := h₂.assign s.entry hcell (some (.entry (some s.pair.key) (some p))) with hh₃
  have hfinal : ∀ q, q ≠ s.entry → q ≠ s.pair.value → s.pair.data ≠ some q →
      h₃.cells q = h₁.cells q := by
    intro q hq hqv hqd
    rw [hh₃, assign_cells_of_ne _ _ hq, hcells q hqv hqd]
  have hkept : ∀ q, q ∉ s.blocks → h₃.cells q = h₁.cells q := by
    intro q hq
    simp only [Stored.blocks, Pair.blocks, List.mem_cons, Option.mem_toList, not_or] at hq
    exact hfinal q hq.2.1 hq.2.2.2.1 hq.2.2.2.2
  have hnew : ∀ q, h.next ≤ q → h₃.cells q = h₁.cells q := fun q hq =>
    hkept q (fun hmem => absurd (hold q hmem) (not_lt.mpr hq))
  have hnode : h₃.cells s.node = some (.node (some s.entry)) := by
    rw [hfinal _ (ne_of_cells hs.node hs.entry.entry (by simp))
      (ne_of_cells hs.node hs.entry.pair.value (by simp))
      (fun heq => ne_of_cells hs.node (hs.entry.pair.bytes _ heq) (by simp) rfl)]
    exact hs.node
  have hkey : h₃.cells s.pair.key = some (.string s.pair.text) := by
    rw [hfinal _ hentryKey.symm hkeyValue hkeyData]
    exact hs.entry.pair.key
  refine ⟨h₂, h₃, hdestroy, hset, ⟨hnode, assign_self _ _, hkey, ?_, fun q hq => ?_⟩, hkept⟩
  · exact (hnew p hcopy.newData).trans hcopy.data
  · cases hq
    exact (hnew b hcopy.newBytes).trans hcopy.bytes

/-- A value of the table is replaced by the copy. -/
lemma finishUpdate_replaced {p b k : ℕ} (hg : g.At h)
    (hr : g.table.Represents n m) (hc : c.At h) (hothers : ∀ p ∈ c.blocks, p ∉ g.blocks)
    (hk : 0 ≤ keyHash c.text n) (hmem : c.text ∈ m) (hext : Extends k h h₁)
    (hcopy : CopyAt h h₁ p b v) :
    ∃ h₃, finishUpdate g.heap (some c.key) (some p) h₁ = .ok ((0, g.heap), h₃) ∧ c.At h₃ ∧
      TableAt h₃ g.heap n (m.insert c.text v) c.blocks := by
  obtain ⟨list, hb⟩ := exists_bucketOf hr hk
  obtain ⟨s, hs, hkey, hlook⟩ := hb.lookup_some hmem
  have hg₁ := hg.extends hext
  have hc₁ := hc.extends hext
  have hs₁ := hg₁.nodes s (hb.mem hs)
  have hsblocks : ∀ q ∈ s.blocks, q ∈ g.blocks := fun q hq =>
    List.mem_flatMap.mpr ⟨s, hb.mem hs, hq⟩
  obtain ⟨h₂, h₃, hdestroy, hset, hs₃, hkept⟩ := replace_value hs₁ hcopy
    (fun q hq => Heap.lt_next ((hg.nodes s (hb.mem hs)).live hq))
  have hp : p ∉ g.blocks := fun hin =>
    absurd (Heap.lt_next (hg.live hin)) (not_lt.mpr hcopy.newData)
  have hb' : b ∉ g.blocks := fun hin =>
    absurd (Heap.lt_next (hg.live hin)) (not_lt.mpr hcopy.newBytes)
  obtain ⟨hg₃, hblocks⟩ := withCopy_at hg₁ hb hlook hp hb' hkept hs₃
  have hget := listGetLoop_run c.text (fun s hs => hg₁.nodes s (hb.mem hs))
  rw [hlook] at hget
  refine ⟨h₃, ?_, hc₁.of_cells (fun q hq => hkept q (fun hin => hothers q hq (hsblocks q hin))),
    g.withCopy list c.text p b v, withCopy_heap hb p b v,
    withCopy_represents hr hk hb hmem p b v, hg₃, fun q hq hin => ?_⟩
  · rw [finishUpdate, bind_of_ok (readString_run hc₁.key)]
    refine (bind_of_ok (hb.run h₁)).trans ((bind_of_ok hget).trans ?_)
    simp only [Option.map_some]
    rw [bind_of_ok (readEntry_run hs₁.entry.entry)]
    simp only
    rw [bind_of_ok hdestroy, bind_of_ok hset]
    rfl
  · have hlt := Heap.lt_next (hc.live hq)
    rcases hblocks q hin with hin | rfl | rfl
    · exact hothers q hq hin
    · exact absurd hlt (not_lt.mpr hcopy.newData)
    · exact absurd hlt (not_lt.mpr hcopy.newBytes)

/-- Without the key in the table the copy is released. -/
lemma finishUpdate_absent {p b k : ℕ} (hg : g.At h) (hr : g.table.Represents n m) (hc : c.At h)
    (hk : 0 ≤ keyHash c.text n) (hnot : c.text ∉ m) (hext : Extends k h h₁)
    (hcopy : CopyAt h h₁ p b v) :
    ∃ h₂, finishUpdate g.heap (some c.key) (some p) h₁ = .ok ((-1, g.heap), h₂) ∧
      ∀ q < h.next, h₂.cells q = h.cells q := by
  obtain ⟨list, hb⟩ := exists_bucketOf hr hk
  have hg₁ := hg.extends hext
  have hcell : h₁.cells p ≠ none := by simp [hcopy.data]
  have hget := listGetLoop_run c.text (fun s hs => hg₁.nodes s (hb.mem hs))
  rw [hb.lookup_none hnot] at hget
  refine ⟨h₁.assign p hcell none, ?_, (hext.assign hcell hcopy.newData none).kept⟩
  rw [finishUpdate, bind_of_ok (readString_run (hc.extends hext).key)]
  refine (bind_of_ok (hb.run h₁)).trans ((bind_of_ok hget).trans ?_)
  simp only [Option.map_none]
  rw [bind_of_ok (free_of_cell hcell)]
  rfl

/-- When `table_update` does what it is meant to. -/
def UpdateFits (h : Heap Block) (n : ℤ) (c : Pair) : Prop :=
  c.accepted = none ∨ h.grants 0 = false ∨ h.grants 1 = false ∨ 0 ≤ keyHash c.text n

theorem update_answers_iff (ht : TableAt h table n m c.blocks) (hc : c.At h) :
    Answers (tableUpdate table (some c.key) (some c.value)) h table n m c
      (mapUpdate m c.text) ↔ UpdateFits h n c := by
  cases hv : c.accepted with
  | none =>
    exact iff_of_true (answers_refused ht hc (tableUpdate_noData (dataDup_none hc hv))
      (fun p _ => rfl)) (Or.inl hv)
  | some v =>
    by_cases hgrants : h.grants 0 = true ∧ h.grants 1 = true
    · obtain ⟨p, b, h₁, hdup, hext, hcopy⟩ := dataDup_granted hc hv hgrants.1 hgrants.2
      have hfits : UpdateFits h n c ↔ 0 ≤ keyHash c.text n := by
        simp [UpdateFits, hv, hgrants.1, hgrants.2]
      obtain ⟨g, rfl, hr, hg, hothers⟩ := ht
      rw [hfits]
      refine ⟨fun hanswers => ?_, fun hk => ?_⟩
      · by_contra hneg
        obtain ⟨r, table', h', hrun, -⟩ := hanswers
        have hsize : g.heap.size = n := hr.size
        have hfaults : Faults (finishUpdate g.heap (some c.key) (some p)) h₁ := by
          rw [finishUpdate]
          apply faults_of_ok (readString_run (hc.extends hext).key)
          exact (bucketAt_negative (hsize ▸ not_le.mp hneg) _ _).bind
        rw [tableUpdate_data hdup] at hrun
        exact hfaults.ne_ok hrun
      · by_cases hmem : c.text ∈ m
        · obtain ⟨h₃, hrun, hc₃, ht₃⟩ :=
            finishUpdate_replaced hg hr hc hothers hk hmem hext hcopy
          have hmap : mapUpdate m c.text v = (0, m.insert c.text v) := if_pos hmem
          refine ⟨0, g.heap, h₃, (tableUpdate_data hdup).trans hrun, hc₃,
            Or.inl ⟨v, hv, by rw [hmap], ?_⟩⟩
          rw [hmap]
          exact ht₃
        · obtain ⟨h₂, hrun, hkept⟩ := finishUpdate_absent hg hr hc hk hmem hext hcopy
          exact answers_refused ⟨g, rfl, hr, hg, hothers⟩ hc ((tableUpdate_data hdup).trans hrun)
            hkept
    · have hrefused : h.grants 0 = false ∨ h.grants 1 = false := by
        by_contra hall
        exact hgrants (by simpa using hall)
      obtain ⟨k, h₁, hdup, hext, -⟩ := dataDup_refused hc hv hrefused
      refine iff_of_true (answers_refused ht hc (tableUpdate_noData hdup) hext.kept) ?_
      rcases hrefused with hg | hg
      · exact Or.inr (Or.inl hg)
      · exact Or.inr (Or.inr (Or.inl hg))

end

/-! ### Writes and their constructors -/

/-- For every table, pair and pattern of failing allocations: when the two writes and the three
constructors do what they are meant to. `NULL` arguments are refused without a change. -/
theorem writes_answer_iff {h : Heap Block} {table : HeapTable} {n : ℤ} {m : KeyMap} {c : Pair}
    (ht : TableAt h table n m c.blocks) (hc : c.At h) :
    (Answers (tablePut table (some c.key) (some c.value)) h table n m c (mapPut m c.text) ↔
        PutFits h n m c) ∧
      (Answers (tableUpdate table (some c.key) (some c.value)) h table n m c
        (mapUpdate m c.text) ↔ UpdateFits h n c) ∧
      (∀ key value, key = none ∨ value = none →
        tablePut table key value h = .ok ((-1, table), h) ∧
          tableUpdate table key value h = .ok ((-1, table), h)) ∧
      (Copies (entryCreate (some c.key) (some c.value)) h c (IsEntry h c) ↔
        c.accepted ≠ none ∧ ∀ k < 4, h.grants k = true) ∧
      ∀ h' e c', EntryAt h' e c' →
        (Copies (entryDup (some e)) h' c' (IsEntry h' c') ↔
          c'.accepted ≠ none ∧ ∀ k < 4, h'.grants k = true) ∧
        (Copies (createNode (some e)) h' c' (IsNode h' c') ↔
          h'.grants 0 = false ∨ c'.accepted ≠ none ∧ ∀ k < 5, h'.grants k = true) := by
  refine ⟨put_answers_iff ht hc, update_answers_iff ht hc, fun key value hnull => ?_,
    entryCreate_copies_iff hc, fun h' e c' he => ⟨entryDup_copies_iff he,
      createNode_copies_iff he⟩⟩
  rw [tablePut, tableUpdate, if_pos hnull, if_pos hnull]
  exact ⟨rfl, rfl⟩

/-- An empty table of one bucket. -/
def emptyTable : HeapTable := ⟨[⟨0, []⟩], 1, 0⟩

/-- The pair of the key `a` and a value. -/
def lentPair (datasize : ℤ) (bytes : List UInt8) (hfits : datasize ≤ bytes.length)
    (hsmall : datasize < 2 ^ 31) : Pair :=
  ⟨0, .ofBytes [97], 1, datasize, some 2, bytes, fun _ => hfits, hsmall⟩

/-- A heap with that pair alone, and room for every allocation. -/
def lentHeap (datasize : ℤ) (bytes : List UInt8) : Heap Block where
  cells
    | 0 => some (.string (.ofBytes [97]))
    | 1 => some (.data datasize (some 2))
    | 2 => some (.bytes bytes)
    | _ => none
  next := 3
  grants _ := true
  fresh p hp := by
    match p with
    | 0 | 1 | 2 => omega
    | _ + 3 => rfl

lemma lentPair_at {datasize : ℤ} {bytes : List UInt8} (hfits : datasize ≤ bytes.length)
    (hsmall : datasize < 2 ^ 31) :
    (lentPair datasize bytes hfits hsmall).At (lentHeap datasize bytes) := by
  refine ⟨rfl, rfl, fun p hp => ?_⟩
  cases hp
  rfl

lemma emptyTable_at (h : Heap Block) (others : List ℕ) : TableAt h emptyTable 1 ∅ others := by
  obtain ⟨table, hcreated, hsize, hw, hcontents⟩ := contents_tableCreate (n := 1) (by decide)
  cases hcreated
  exact ⟨⟨[⟨0, []⟩], 1, 0⟩, rfl, ⟨hw, hsize, hcontents⟩,
    ⟨fun s hs => (List.not_mem_nil hs).elim, List.nodup_nil⟩, fun _ _ => List.not_mem_nil⟩

theorem writes_answer_iff_lent :
    TableAt (lentHeap 1 [7]) emptyTable 1 ∅ [0, 1, 2] ∧
      Answers (tablePut emptyTable (some 0) (some 1)) (lentHeap 1 [7]) emptyTable 1 ∅
        (lentPair 1 [7] (by decide) (by decide)) (mapPut ∅ (.ofBytes [97])) := by
  have hpair : (lentPair 1 [7] (by decide) (by decide)).At (lentHeap 1 [7]) :=
    lentPair_at (by decide) (by decide)
  refine ⟨emptyTable_at _ _, ((writes_answer_iff (emptyTable_at _ _) hpair).1).mpr
    ⟨by decide, ⟨by decide, fun _ _ => rfl⟩, fun hmem => ?_, fun _ => Or.inr (fun _ _ => rfl)⟩⟩
  exact absurd hmem (Finmap.notMem_empty)

/-- A value without bytes, and every allocation succeeds: the released entry is used again. -/
theorem not_answers_empty_value :
    TableAt (lentHeap 0 []) emptyTable 1 ∅ [0, 1, 2] ∧
      (lentPair 0 [] (by decide) (by decide)).At (lentHeap 0 []) ∧
      tablePut emptyTable (some 0) (some 1) (lentHeap 0 []) = .error .released ∧
      ¬Answers (tablePut emptyTable (some 0) (some 1)) (lentHeap 0 []) emptyTable 1 ∅
        (lentPair 0 [] (by decide) (by decide)) (mapPut ∅ (.ofBytes [97])) := by
  have hfault : tablePut emptyTable (some 0) (some 1) (lentHeap 0 []) = .error .released := rfl
  refine ⟨emptyTable_at _ _, lentPair_at (by decide) (by decide), hfault, ?_⟩
  rintro ⟨r, table', h', hrun, -⟩
  rw [hfault] at hrun
  cases hrun

end RemoteTable.Allocation
