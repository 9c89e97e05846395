import RemoteTable.Values
import RemoteTable.Library.Memory

/-!
# The clean-up in `table_create`

When `list_create` fails at bucket `i`, a loop releases the lists of the buckets below, and
`table_destroy` follows while `size` is still unset. The loop stops short of bucket 0, which
only `table_destroy` could release.
-/

namespace RemoteTable.Cleanup
open Memory

/-! ### The calls -/

/-- `struct table_t`, its array of buckets, in which a slot is unset at first, and an empty
`struct list_t`. -/
inductive Block
  | table (buckets : Option ℕ) (size quantityEntry : ℤ)
  | array (slots : List (Option (Option ℕ)))
  | list

def listCreate : Mem Block (Option ℕ) := malloc .list

/-- A list without nodes is destroyed. -/
def listDestroy (list : Option ℕ) : Mem Block Unit :=
  match list with
  | none => pure ()
  | some p => do
    let _ ← read (some p)
    free (some p)

def readTable (table : Option ℕ) : Mem Block (Option ℕ × ℤ) := do
  match ← read table with
  | .table buckets size _ => pure (buckets, size)
  | _ => throw .outside

def readSlots (buckets : Option ℕ) : Mem Block (List (Option (Option ℕ))) := do
  match ← read buckets with
  | .array slots => pure slots
  | _ => throw .outside

/-- `table->buckets[i]` -/
def bucketAt (buckets : Option ℕ) (i : ℤ) : Mem Block (Option ℕ) := do
  let slots ← readSlots buckets
  if i < 0 then throw .outside
  else match slots[i.toNat]? with
    | none => throw .outside
    | some none => throw .unset
    | some (some list) => pure list

/-- `table->buckets[i] = list` -/
def setBucket (buckets : Option ℕ) (i : ℕ) (list : Option ℕ) : Mem Block Unit := do
  let slots ← readSlots buckets
  write buckets (.array (slots.set i (some list)))

/-- The loop of `table_destroy` with `left` turns to go. -/
def destroyLoop (buckets : Option ℕ) : ℕ → ℤ → Mem Block Unit
  | 0, _ => pure ()
  | left + 1, var => do
    let list ← bucketAt buckets var
    listDestroy list
    destroyLoop buckets left (var + 1)

def tableDestroy (table : Option ℕ) : Mem Block Unit :=
  match table with
  | none => pure ()
  | some p => do
    let (buckets, size) ← readTable (some p)
    destroyLoop buckets size.toNat 0
    free buckets
    free (some p)

/-- The loop `while (j != 0)` from an index that is not negative, with the indices that it
accesses. -/
def revertFrom (buckets : Option ℕ) : ℕ → Mem Block (List ℤ)
  | 0 => pure []
  | j + 1 => do
    let list ← bucketAt buckets (j + 1)
    listDestroy list
    let accessed ← revertFrom buckets j
    pure (((j : ℤ) + 1) :: accessed)

/-- Below zero the first access is outside the array, whatever would follow it. -/
def revertLoop (buckets : Option ℕ) (j : ℤ) : Mem Block (List ℤ) :=
  if j < 0 then do
    let _ ← bucketAt buckets j
    pure [j]
  else revertFrom buckets j.toNat

/-- The loop that fills the buckets. Where a list is missing the table is taken down, and the
indices that this accesses are returned. -/
def createLoop (newTable buckets : Option ℕ) : ℕ → ℕ → Mem Block (Option (List ℤ))
  | 0, _ => pure none
  | left + 1, i => do
    let list ← listCreate
    setBucket buckets i list
    match list with
    | none => do
      let accessed ← revertLoop buckets (i - 1)
      tableDestroy newTable
      pure (some accessed)
    | some _ => createLoop newTable buckets left (i + 1)

/-- `table_create`, with the accesses of its clean-up. The counters of the new table hold
`unset` until they are assigned. -/
def tableCreate (unset n : ℤ) : Mem Block (Option ℕ × List ℤ) :=
  if n ≤ 0 then pure (none, [])
  else do
    let newTable ← malloc (.table none unset unset)
    match newTable with
    | none => pure (none, [])
    | some _ => do
      let buckets ← malloc (.array (List.replicate n.toNat none))
      write newTable (.table buckets unset unset)
      match buckets with
      | none => do
        tableDestroy newTable
        pure (none, [])
      | some _ => do
        match ← createLoop newTable buckets n.toNat 0 with
        | none => do
          write newTable (.table buckets n 0)
          pure (newTable, [])
        | some accessed => pure (none, accessed)

/-- Of the allocations in `table_create`, the first that fails is that of list `i`. -/
def FailsAt (h : Heap Block) (i : ℕ) : Prop :=
  (∀ k < i + 2, h.grants k = true) ∧ h.grants (i + 2) = false

/-- `NULL` is returned, the clean-up stays in the buckets below, and nothing that was allocated
on the way is left. -/
def CleansUp {n : ℕ} (i : Fin n) (unset : ℤ) : Prop :=
  ∀ h : Heap Block, FailsAt h i → ∃ accessed h',
    tableCreate unset n h = .ok ((none, accessed), h') ∧
      (∀ j ∈ accessed, 0 ≤ j ∧ j < i) ∧ h'.cells = h.cells

/-! ### The lists that are created -/

/-- Buckets that were filled, up to bucket `k`. -/
def filled (start k : ℕ) : List (Option (Option ℕ)) :=
  (List.range k).map fun m => some (some (start + 2 + m))

/-- What the call has allocated since `h`: the table, the array and the lists, of which those
below `live` are not yet released. -/
structure Allocated (h : Heap Block) (unset : ℤ) (slots : List (Option (Option ℕ)))
    (k live : ℕ) (g : Heap Block) : Prop where
  table : g.cells h.next = some (.table (some (h.next + 1)) unset unset)
  array : g.cells (h.next + 1) = some (.array slots)
  lists : ∀ m < k, g.cells (h.next + 2 + m) = if m < live then some .list else none
  old : ∀ p < h.next, g.cells p = h.cells p
  next : g.next = h.next + 2 + k

section
variable {h g : Heap Block} {unset : ℤ} {slots : List (Option (Option ℕ))} {k live : ℕ}

lemma length_filled (start k : ℕ) : (filled start k).length = k := by simp [filled]

lemma filled_succ (start k : ℕ) :
    filled start (k + 1) = filled start k ++ [some (some (start + 2 + k))] := by
  simp [filled, List.range_succ]

lemma filled_get {start k m : ℕ} (hm : m < k) (rest : List (Option (Option ℕ))) :
    (filled start k ++ rest)[m]? = some (some (some (start + 2 + m))) := by
  rw [List.getElem?_append_left (by rw [length_filled]; exact hm)]
  simp [filled, hm]

lemma readSlots_run (ha : Allocated h unset slots k live g) :
    readSlots (some (h.next + 1)) g = .ok (slots, g) := by
  rw [readSlots, bind_of_ok (read_of_cell ha.array)]
  rfl

lemma bucketAt_run (ha : Allocated h unset slots k live g) {i : ℕ} {list : Option ℕ}
    (hslot : slots[i]? = some (some list)) :
    bucketAt (some (h.next + 1)) i g = .ok (list, g) := by
  have hneg : ¬(i : ℤ) < 0 := by omega
  rw [bucketAt, bind_of_ok (readSlots_run ha), if_neg hneg, Int.toNat_natCast, hslot]
  rfl

lemma bucketAt_faults (ha : Allocated h unset slots k live g) {i : ℤ}
    (hslot : i < 0 ∨ slots[i.toNat]? = none ∨ slots[i.toNat]? = some none) :
    Faults (bucketAt (some (h.next + 1)) i) g := by
  rw [bucketAt]
  apply faults_of_ok (readSlots_run ha)
  by_cases hneg : i < 0
  · rw [if_pos hneg]
    exact ⟨_, rfl⟩
  · rw [if_neg hneg]
    rcases hslot.resolve_left hneg with hnone | hunset
    · rw [hnone]
      exact ⟨_, rfl⟩
    · rw [hunset]
      exact ⟨_, rfl⟩

/-- Filling one more bucket. -/
lemma setBucket_run (ha : Allocated h unset slots k live g) (i : ℕ) (list : Option ℕ) :
    ∃ g', setBucket (some (h.next + 1)) i list g = .ok ((), g') ∧
      Allocated h unset (slots.set i (some list)) k live g' ∧ g'.grants = g.grants := by
  have hcell : g.cells (h.next + 1) ≠ none := by simp [ha.array]
  refine ⟨g.assign _ hcell (some (.array (slots.set i (some list)))), ?_,
    ⟨?_, ?_, ?_, ?_, ha.next⟩, rfl⟩
  · rw [setBucket, bind_of_ok (readSlots_run ha), write_of_cell hcell]
  · rw [assign_cells_of_ne hcell _ (by omega)]
    exact ha.table
  · exact assign_self hcell _
  · intro m hm
    rw [assign_cells_of_ne hcell _ (by omega)]
    exact ha.lists m hm
  · intro p hp
    rw [assign_cells_of_ne hcell _ (by omega)]
    exact ha.old p hp

/-- The last list that is left is released. -/
lemma listDestroy_run (ha : Allocated h unset slots k (live + 1) g) (hlive : live < k) :
    ∃ g', listDestroy (some (h.next + 2 + live)) g = .ok ((), g') ∧
      Allocated h unset slots k live g' := by
  have hlist : g.cells (h.next + 2 + live) = some .list := by
    rw [ha.lists live hlive, if_pos (Nat.lt_succ_self live)]
  have hcell : g.cells (h.next + 2 + live) ≠ none := by simp [hlist]
  refine ⟨g.assign _ hcell none, ?_, ⟨?_, ?_, ?_, ?_, ha.next⟩⟩
  · simp only [listDestroy]
    rw [bind_of_ok (read_of_cell hlist), free_of_cell hcell]
  · rw [assign_cells_of_ne hcell _ (by omega)]
    exact ha.table
  · rw [assign_cells_of_ne hcell _ (by omega)]
    exact ha.array
  · intro m hm
    by_cases heq : m = live
    · rw [heq, assign_self, if_neg (lt_irrefl live)]
    · rw [assign_cells_of_ne hcell _ (by omega), ha.lists m hm]
      exact if_congr (by omega) rfl rfl
  · intro p hp
    rw [assign_cells_of_ne hcell _ (by omega)]
    exact ha.old p hp

/-- A list that was released before. -/
lemma listDestroy_faults (ha : Allocated h unset slots k live g) {m : ℕ} (hm : m < k)
    (hdead : live ≤ m) : Faults (listDestroy (some (h.next + 2 + m))) g := by
  have hcell : g.cells (h.next + 2 + m) = none := by
    rw [ha.lists m hm, if_neg (not_lt.mpr hdead)]
  simp only [listDestroy]
  exact Faults.bind ⟨_, read_released hcell⟩

/-- The buckets that `table_create` leaves when list `i` fails. -/
def slotsAt (start n i : ℕ) : List (Option (Option ℕ)) :=
  filled start i ++ some none :: List.replicate (n - i - 1) none

/-- The first bucket that is not filled yet. -/
lemma set_filled (start k left : ℕ) (list : Option ℕ) :
    (filled start k ++ List.replicate (left + 1) none).set k (some list) =
      filled start k ++ some list :: List.replicate left none := by
  rw [List.set_append_right _ _ (by rw [length_filled]), length_filled, Nat.sub_self,
    List.replicate_succ, List.set_cons_zero]

lemma listCreate_refused (ha : Allocated h unset slots k live g) (hgrant : g.grants 0 = false) :
    listCreate g = .ok (none, g.refuse) ∧ Allocated h unset slots k live g.refuse :=
  ⟨malloc_refused hgrant _, ha.table, ha.array, ha.lists, ha.old, ha.next⟩

/-- The next list, while none is released. -/
lemma listCreate_granted (ha : Allocated h unset slots k k g) (hgrant : g.grants 0 = true) :
    listCreate g = .ok (some g.next, g.allocate .list) ∧
      Allocated h unset slots (k + 1) (k + 1) (g.allocate .list) := by
  have hnext := ha.next
  refine ⟨malloc_granted hgrant _, ?_, ?_, ?_, ?_, ?_⟩
  · rw [allocate_cells_of_ne _ _ (by omega)]
    exact ha.table
  · rw [allocate_cells_of_ne _ _ (by omega)]
    exact ha.array
  · intro m hm
    rw [if_pos hm]
    by_cases hmk : m = k
    · rw [hmk, ← hnext, allocate_next_cell]
    · have hlt : m < k := by omega
      rw [allocate_cells_of_ne _ _ (by omega), ha.lists m hlt, if_pos hlt]
  · intro p hp
    rw [allocate_cells_of_ne _ _ (by omega)]
    exact ha.old p hp
  · simp only [Heap.allocate, hnext]
    omega

lemma createLoop_fails {i left : ℕ} (hleft : i < k + left) (hk : k ≤ i)
    (ha : Allocated h unset (filled h.next k ++ List.replicate left none) k k g)
    (hgrants : ∀ m, g.grants m = h.grants (k + 2 + m)) (hfails : FailsAt h i) :
    ∃ g', Allocated h unset (slotsAt h.next (k + left) i) i i g' ∧
      createLoop (some h.next) (some (h.next + 1)) left k g =
        (do let accessed ← revertLoop (some (h.next + 1)) (i - 1)
            tableDestroy (some h.next)
            pure (some accessed)) g' := by
  induction left generalizing k g with
  | zero => omega
  | succ left ih =>
    rw [createLoop]
    by_cases hki : k = i
    · subst hki
      obtain ⟨hlist, ha'⟩ := listCreate_refused ha ((hgrants 0).trans hfails.2)
      obtain ⟨g', hrun, hafter, -⟩ := setBucket_run ha' k none
      rw [set_filled] at hafter
      refine ⟨g', ?_, ?_⟩
      · have hrest : k + (left + 1) - k - 1 = left := by omega
        rwa [slotsAt, hrest]
      · rw [bind_of_ok hlist, bind_of_ok hrun]
    · have hgrant : g.grants 0 = true := (hgrants 0).trans (hfails.1 _ (by omega))
      obtain ⟨hlist, ha'⟩ := listCreate_granted ha hgrant
      obtain ⟨g', hrun, hafter, hsame⟩ := setBucket_run ha' k (some g.next)
      rw [set_filled, ha.next, ← List.singleton_append, ← List.append_assoc,
        ← filled_succ] at hafter
      have hgrants' : ∀ m, g'.grants m = h.grants (k + 1 + 2 + m) := by
        intro m
        rw [hsame]
        simp only [Heap.allocate]
        rw [hgrants]
        exact congrArg h.grants (by omega)
      obtain ⟨g'', hallocated, hloop⟩ := ih (by omega) (by omega) hafter hgrants'
      have hlength : k + (left + 1) = k + 1 + left := by omega
      refine ⟨g'', ?_, ?_⟩
      · rwa [hlength]
      · rw [← hloop, bind_of_ok hlist, bind_of_ok hrun]

/-! ### What the two loops release -/

variable {n i : ℕ}

lemma slotsAt_below {start m : ℕ} (hm : m < i) :
    (slotsAt start n i)[m]? = some (some (some (start + 2 + m))) := filled_get hm _

lemma slotsAt_self (start n i : ℕ) : (slotsAt start n i)[i]? = some (some none) := by
  rw [slotsAt, List.getElem?_append_right (by rw [length_filled]), length_filled, Nat.sub_self]
  rfl

lemma slotsAt_above {start m : ℕ} (hm : i < m) :
    (slotsAt start n i)[m]? = none ∨ (slotsAt start n i)[m]? = some none := by
  obtain ⟨d, rfl⟩ := Nat.exists_eq_add_of_lt hm
  rw [slotsAt, List.getElem?_append_right (by rw [length_filled]; omega), length_filled]
  have hd : i + d + 1 - i = d + 1 := by omega
  rw [hd, List.getElem?_cons_succ, List.getElem?_replicate]
  split
  · exact Or.inr rfl
  · exact Or.inl rfl

/-- The loop releases the lists from the index that it starts with down to 1. -/
lemma revertFrom_run (j : ℕ) (hj : j < i)
    (ha : Allocated h unset (slotsAt h.next n i) i (j + 1) g) :
    ∃ accessed g', revertFrom (some (h.next + 1)) j g = .ok (accessed, g') ∧
      (∀ a ∈ accessed, 0 ≤ a ∧ a < i) ∧ Allocated h unset (slotsAt h.next n i) i 1 g' := by
  induction j generalizing g with
  | zero => exact ⟨[], g, rfl, by simp, ha⟩
  | succ j ih =>
    obtain ⟨g₁, hdestroy, ha₁⟩ := listDestroy_run ha hj
    obtain ⟨accessed, g', hrest, hbounds, ha'⟩ := ih (by omega) ha₁
    have hbucket : bucketAt (some (h.next + 1)) ((j : ℤ) + 1) g =
        .ok (some (h.next + 2 + (j + 1)), g) := bucketAt_run ha (slotsAt_below hj)
    refine ⟨((j : ℤ) + 1) :: accessed, g', ?_, ?_, ha'⟩
    · rw [revertFrom, bind_of_ok hbucket, bind_of_ok hdestroy, bind_of_ok hrest]
      rfl
    · intro a hmem
      rcases List.mem_cons.mp hmem with rfl | hmem
      · omega
      · exact hbounds a hmem

/-- `table_destroy` when its loop ends: the table and the array are released as well. -/
lemma tableDestroy_run {live live' : ℕ} {g' : Heap Block}
    (ha : Allocated h unset slots k live g)
    (hloop : destroyLoop (some (h.next + 1)) unset.toNat 0 g = .ok ((), g'))
    (ha' : Allocated h unset slots k live' g') :
    ∃ g'', tableDestroy (some h.next) g = .ok ((), g'') ∧
      (∀ m < k, g''.cells (h.next + 2 + m) = if m < live' then some .list else none) ∧
      (live' = 0 → g''.cells = h.cells) := by
  have hread : readTable (some h.next) g = .ok ((some (h.next + 1), unset), g) := by
    rw [readTable, bind_of_ok (read_of_cell ha.table)]
    rfl
  have harray : g'.cells (h.next + 1) ≠ none := by simp [ha'.array]
  have htable : (g'.assign _ harray none).cells h.next ≠ none := by
    rw [assign_cells_of_ne harray _ (by omega), ha'.table]
    simp
  have hcells : ∀ p, ((g'.assign _ harray none).assign _ htable none).cells p =
      if p = h.next ∨ p = h.next + 1 then none else g'.cells p := by
    intro p
    by_cases hp : p = h.next
    · rw [hp, assign_self, if_pos (Or.inl rfl)]
    · rw [assign_cells_of_ne htable _ hp]
      by_cases hp' : p = h.next + 1
      · rw [hp', assign_self, if_pos (Or.inr rfl)]
      · rw [assign_cells_of_ne harray _ hp', if_neg (by tauto)]
  refine ⟨(g'.assign _ harray none).assign _ htable none, ?_, ?_, ?_⟩
  · simp only [tableDestroy]
    rw [bind_of_ok hread]
    simp only
    rw [bind_of_ok hloop, bind_of_ok (free_of_cell harray), free_of_cell htable]
  · intro m hm
    rw [hcells, if_neg (by omega)]
    exact ha'.lists m hm
  · intro hlive
    funext p
    rw [hcells]
    by_cases hnew : p = h.next ∨ p = h.next + 1
    · rw [if_pos hnew]
      exact (h.fresh p (by omega)).symm
    · rw [if_neg hnew]
      by_cases hold : p < h.next
      · exact ha'.old p hold
      · rw [h.fresh p (by omega)]
        by_cases hlist : p < h.next + 2 + k
        · obtain ⟨m, rfl⟩ : ∃ m, p = h.next + 2 + m := ⟨p - (h.next + 2), by omega⟩
          rw [ha'.lists m (by omega), if_neg (by omega)]
        · exact g'.fresh p (by rw [ha'.next]; omega)

lemma tableDestroy_faults (ha : Allocated h unset slots k live g)
    (hloop : Faults (destroyLoop (some (h.next + 1)) unset.toNat 0) g) :
    Faults (tableDestroy (some h.next)) g := by
  have hread : readTable (some h.next) g = .ok ((some (h.next + 1), unset), g) := by
    rw [readTable, bind_of_ok (read_of_cell ha.table)]
    rfl
  simp only [tableDestroy]
  exact faults_of_ok hread hloop.bind

/-- The loop of `table_destroy` with the value that `size` happens to hold. -/
lemma destroyLoop_cases (hi : 0 < i) (ha : Allocated h unset (slotsAt h.next n i) i 1 g) :
    (unset ≤ 0 ∧ destroyLoop (some (h.next + 1)) unset.toNat 0 g = .ok ((), g)) ∨
      ((unset = 1 ∨ i = 1 ∧ unset = 2) ∧ ∃ g',
        destroyLoop (some (h.next + 1)) unset.toNat 0 g = .ok ((), g') ∧
          Allocated h unset (slotsAt h.next n i) i 0 g') ∨
      (0 < unset ∧ ¬(unset = 1 ∨ i = 1 ∧ unset = 2) ∧
        Faults (destroyLoop (some (h.next + 1)) unset.toNat 0) g) := by
  by_cases hneg : unset ≤ 0
  · refine Or.inl ⟨hneg, ?_⟩
    rw [Int.toNat_of_nonpos hneg]
    rfl
  · refine Or.inr ?_
    obtain ⟨left, hleft⟩ : ∃ left : ℕ, unset = left + 1 := ⟨(unset - 1).toNat, by omega⟩
    have hturns : unset.toNat = left + 1 := by omega
    obtain ⟨g₁, hdestroy, ha₁⟩ := listDestroy_run ha hi
    have hfirst : bucketAt (some (h.next + 1)) 0 g = .ok (some (h.next + 2 + 0), g) :=
      bucketAt_run ha (slotsAt_below hi)
    have hloop : destroyLoop (some (h.next + 1)) (left + 1) 0 g =
        destroyLoop (some (h.next + 1)) left 1 g₁ := by
      rw [destroyLoop, bind_of_ok hfirst, bind_of_ok hdestroy]
      rfl
    rw [hturns, Faults, hloop]
    cases left with
    | zero => exact Or.inl ⟨Or.inl (by omega), g₁, rfl, ha₁⟩
    | succ left =>
      by_cases hone : i = 1
      · -- bucket 1 holds the `NULL` of the list that failed
        subst hone
        have hsecond : bucketAt (some (h.next + 1)) 1 g₁ = .ok (none, g₁) :=
          bucketAt_run ha₁ (slotsAt_self h.next n 1)
        have hnull : listDestroy none g₁ = .ok ((), g₁) := rfl
        have hrest : destroyLoop (some (h.next + 1)) (left + 1) 1 g₁ =
            destroyLoop (some (h.next + 1)) left 2 g₁ := by
          rw [destroyLoop, bind_of_ok hsecond, bind_of_ok hnull]
          rfl
        rw [hrest]
        cases left with
        | zero => exact Or.inl ⟨Or.inr ⟨rfl, by omega⟩, g₁, rfl, ha₁⟩
        | succ left =>
          refine Or.inr ⟨by omega, by omega, ?_⟩
          rw [destroyLoop]
          exact Faults.bind (bucketAt_faults ha₁ (Or.inr (slotsAt_above (by decide))))
      · -- list 1 was released by the first loop
        have hlt : 1 < i := by omega
        have hsecond : bucketAt (some (h.next + 1)) 1 g₁ = .ok (some (h.next + 2 + 1), g₁) :=
          bucketAt_run ha₁ (slotsAt_below hlt)
        refine Or.inr ⟨by omega, by omega, ?_⟩
        rw [destroyLoop]
        apply faults_of_ok hsecond
        exact Faults.bind (listDestroy_faults ha₁ hlt (Nat.zero_le 1))

end

/-! ### The whole call -/

/-- The heap when list `i` has failed, and what is left to do. -/
lemma tableCreate_fails {n : ℕ} (i : Fin n) (unset : ℤ) {h : Heap Block} (hfails : FailsAt h i) :
    ∃ g, Allocated h unset (slotsAt h.next n i) i i g ∧
      tableCreate unset n h =
        (do let accessed ← revertLoop (some (h.next + 1)) (i - 1)
            tableDestroy (some h.next)
            pure ((none, accessed) : Option ℕ × List ℤ)) g := by
  have hn : ¬((n : ℤ) ≤ 0) := by
    have := i.isLt
    omega
  have htable : malloc (.table none unset unset) h =
      .ok (some h.next, h.allocate (.table none unset unset)) :=
    malloc_granted (hfails.1 0 (by omega)) _
  have harray : malloc (.array (List.replicate n none)) (h.allocate (.table none unset unset)) =
      .ok (some (h.next + 1), (h.allocate (.table none unset unset)).allocate
        (.array (List.replicate n none))) :=
    malloc_granted (hfails.1 1 (by omega)) _
  set g₂ := (h.allocate (.table none unset unset)).allocate (.array (List.replicate n none))
    with hg₂
  have hcell : g₂.cells h.next ≠ none := by
    rw [hg₂, allocate_cells_of_ne _ _ (Nat.ne_of_lt (Nat.lt_succ_self _)), allocate_next_cell]
    simp
  have hwrite := write_of_cell hcell (.table (some (h.next + 1)) unset unset)
  have ha : Allocated h unset (filled h.next 0 ++ List.replicate n none) 0 0
      (g₂.assign _ hcell (some (.table (some (h.next + 1)) unset unset))) := by
    refine ⟨assign_self _ _, ?_, by simp, ?_, rfl⟩
    · rw [assign_cells_of_ne _ _ (by omega)]
      exact allocate_next_cell _ _
    · intro p hp
      rw [assign_cells_of_ne _ _ (by omega), hg₂, allocate_cells_of_ne,
        allocate_cells_of_ne _ _ (by omega)]
      simp only [Heap.allocate]
      omega
  have hgrants : ∀ m, (g₂.assign _ hcell (some (.table (some (h.next + 1)) unset unset))).grants m =
      h.grants (0 + 2 + m) := fun m => congrArg h.grants (by omega)
  have hlt : i.val < 0 + n := by
    have := i.isLt
    omega
  obtain ⟨g, hallocated, hloop⟩ := createLoop_fails hlt (Nat.zero_le i.val) ha hgrants hfails
  rw [Nat.zero_add] at hallocated
  refine ⟨g, hallocated, ?_⟩
  rw [tableCreate, if_neg hn, bind_of_ok htable]
  simp only [Int.toNat_natCast]
  rw [bind_of_ok harray, bind_of_ok hwrite]
  simp only
  rw [bind_congr hloop]
  simp only [bind_assoc, pure_bind]

/-- A heap on which list `i` is the first that fails. -/
def failingHeap (i : ℕ) : Heap Block := ⟨fun _ => none, 0, fun k => k ≠ i + 2, fun _ _ => rfl⟩

lemma failsAt_failingHeap (i : ℕ) : FailsAt (failingHeap i) i :=
  ⟨fun k hk => by simp [failingHeap]; omega, by simp [failingHeap]⟩

/-- Backwards from the list that failed, every list but the first is released. -/
lemma revertLoop_run {n : ℕ} {i : Fin n} {unset : ℤ} {h g : Heap Block} (hi : 0 < i.val)
    (ha : Allocated h unset (slotsAt h.next n i) i i g) :
    ∃ accessed g', revertLoop (some (h.next + 1)) (i - 1) g = .ok (accessed, g') ∧
      (∀ a ∈ accessed, 0 ≤ a ∧ a < i) ∧ Allocated h unset (slotsAt h.next n i) i 1 g' := by
  have hneg : ¬((i.val : ℤ) - 1 < 0) := by omega
  have htoNat : ((i.val : ℤ) - 1).toNat = i.val - 1 := by omega
  rw [revertLoop, if_neg hneg, htoNat]
  apply revertFrom_run (i.val - 1) (by omega)
  rwa [Nat.sub_add_cancel hi]

/-- With the first list the loop starts in front of the array. -/
lemma tableCreate_first {n : ℕ} (i : Fin n) (hi : i.val = 0) (unset : ℤ) {h : Heap Block}
    (hfails : FailsAt h i) : Faults (tableCreate unset n) h := by
  obtain ⟨g, ha, hcreate⟩ := tableCreate_fails i unset hfails
  have hneg : (i.val : ℤ) - 1 < 0 := by omega
  rw [Faults, hcreate, revertLoop, if_pos hneg]
  exact Faults.bind (bucketAt_faults ha (Or.inl hneg)).bind

/-- The exact indices and values of the unset field for which the clean-up is right. -/
theorem cleansUp_iff {n : ℕ} (i : Fin n) (unset : ℤ) :
    CleansUp i unset ↔ 0 < i.val ∧ (unset = 1 ∨ i.val = 1 ∧ unset = 2) := by
  constructor
  · intro hclean
    obtain ⟨accessed, h', hrun, -, hcells⟩ := hclean _ (failsAt_failingHeap i)
    have hi : 0 < i.val := by
      by_contra hnot
      exact (tableCreate_first i (by omega) unset (failsAt_failingHeap i)).ne_ok hrun
    refine ⟨hi, ?_⟩
    obtain ⟨g, ha, hcreate⟩ := tableCreate_fails i unset (failsAt_failingHeap i)
    obtain ⟨accessed', g', hloop, -, ha'⟩ := revertLoop_run hi ha
    rw [hcreate, bind_of_ok hloop] at hrun
    rcases destroyLoop_cases hi ha' with ⟨-, hdestroy⟩ | ⟨hunset, -⟩ | ⟨-, -, hfaults⟩
    · -- list 0 is never released
      obtain ⟨g'', htable, hlists, -⟩ := tableDestroy_run ha' hdestroy ha'
      rw [bind_of_ok htable, pure_run] at hrun
      simp only [Except.ok.injEq, Prod.mk.injEq] at hrun
      have hleft := hlists 0 hi
      rw [hrun.2, hcells] at hleft
      cases hleft
    · exact hunset
    · exact absurd hrun (Faults.bind (tableDestroy_faults ha' hfaults)).ne_ok
  · rintro ⟨hi, hunset⟩ h hfails
    obtain ⟨g, ha, hcreate⟩ := tableCreate_fails i unset hfails
    obtain ⟨accessed, g', hloop, hbounds, ha'⟩ := revertLoop_run hi ha
    rcases destroyLoop_cases hi ha' with ⟨hneg, -⟩ | ⟨-, g'', hdestroy, ha''⟩ | ⟨-, hne, -⟩
    · omega
    · obtain ⟨h', htable, -, hcells⟩ := tableDestroy_run ha' hdestroy ha''
      refine ⟨accessed, h', ?_, hbounds, hcells rfl⟩
      rw [hcreate, bind_of_ok hloop, bind_of_ok htable, pure_run]
    · exact absurd hunset hne

/-- Where the first list fails, the clean-up starts in front of the array. -/
theorem not_cleansUp_first : ¬∀ {n : ℕ} (i : Fin n) (unset : ℤ), CleansUp i unset := by
  intro h
  have hfails := failsAt_failingHeap 0
  obtain ⟨accessed, h', hrun, -⟩ := h (⟨0, by decide⟩ : Fin 1) 0 _ hfails
  exact (tableCreate_first ⟨0, by decide⟩ rfl 0 hfails).ne_ok hrun

end RemoteTable.Cleanup
