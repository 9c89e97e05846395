import RemoteTable.Allocation

/-!
# Copies of data, entries and nodes

What the constructors return, and what they leave of the heap, for every pattern of failing
allocations. An entry without its key or value is released and yet used or returned.
-/

namespace RemoteTable.Allocation
open Memory

/-! ### What stands in memory -/

/-- A key and a value with their places in memory. -/
structure Pair where
  key : ℕ
  text : CString
  value : ℕ
  datasize : ℤ
  data : Option ℕ
  bytes : List UInt8
  fits : data ≠ none → datasize ≤ bytes.length
  small : datasize < 2 ^ 31

structure Pair.At (c : Pair) (h : Heap Block) : Prop where
  key : h.cells c.key = some (.string c.text)
  value : h.cells c.value = some (.data c.datasize c.data)
  bytes : ∀ p, c.data = some p → h.cells p = some (.bytes c.bytes)

/-- What `data_dup` copies, unless it refuses the value. -/
def Pair.accepted (c : Pair) : Option DataT :=
  if h : c.data ≠ none ∧ 0 < c.datasize then
    some ⟨c.bytes.take c.datasize.toNat, by
      have := c.fits h.1
      rw [List.length_take]
      omega, by
      have := c.small
      rw [List.length_take]
      omega⟩
  else none

structure EntryAt (h : Heap Block) (entry : ℕ) (c : Pair) : Prop where
  entry : h.cells entry = some (.entry (some c.key) (some c.value))
  pair : c.At h

def Pair.blocks (c : Pair) : List ℕ := c.key :: c.value :: c.data.toList

section
variable {h h' : Heap Block} {p e : ℕ} {c : Pair} {v : DataT}

lemma accepted_eq_none_iff : c.accepted = none ↔ c.data = none ∨ c.datasize ≤ 0 := by
  rw [Pair.accepted]
  by_cases hc : c.data ≠ none ∧ 0 < c.datasize
  · simp [hc]
  · rw [dif_neg hc]
    simp only [true_iff]
    by_contra hnot
    push Not at hnot
    exact hc hnot

lemma accepted_eq_some (ha : c.accepted = some v) :
    (∃ p, c.data = some p) ∧ 0 < c.datasize ∧ c.datasize ≤ c.bytes.length ∧
      v.bytes = c.bytes.take c.datasize.toNat ∧ (v.datasize : ℤ) = c.datasize := by
  rw [Pair.accepted] at ha
  by_cases hc : c.data ≠ none ∧ 0 < c.datasize
  · rw [dif_pos hc] at ha
    cases ha
    have hfits := c.fits hc.1
    refine ⟨Option.ne_none_iff_exists'.mp hc.1, hc.2, hfits, rfl, ?_⟩
    simp only [DataT.datasize, List.length_take]
    omega
  · rw [dif_neg hc] at ha
    cases ha

lemma Pair.At.live (hc : c.At h) (hp : p ∈ c.blocks) : h.cells p ≠ none := by
  simp only [Pair.blocks, List.mem_cons, Option.mem_toList] at hp
  rcases hp with rfl | rfl | hp
  · simp [hc.key]
  · simp [hc.value]
  · simp [hc.bytes p hp]

lemma Pair.At.of_cells (hc : c.At h) (hcells : ∀ p ∈ c.blocks, h'.cells p = h.cells p) :
    c.At h' := by
  refine ⟨?_, ?_, fun q hq => ?_⟩
  · rw [hcells _ (by simp [Pair.blocks])]
    exact hc.key
  · rw [hcells _ (by simp [Pair.blocks])]
    exact hc.value
  · rw [hcells q (by simp [Pair.blocks, hq])]
    exact hc.bytes q hq

lemma Pair.At.of_kept (hc : c.At h) (hkept : ∀ p < h.next, h'.cells p = h.cells p) :
    c.At h' :=
  hc.of_cells (fun p hp => hkept p (Heap.lt_next (hc.live hp)))

lemma Pair.At.extends {k : ℕ} (hc : c.At h) (he : Extends k h h') : c.At h' :=
  hc.of_kept he.kept

lemma EntryAt.live (hc : EntryAt h e c) (hp : p ∈ e :: c.blocks) : h.cells p ≠ none := by
  rcases List.mem_cons.mp hp with rfl | hp
  · simp [hc.entry]
  · exact hc.pair.live hp

lemma EntryAt.extends {k : ℕ} (hc : EntryAt h e c) (he : Extends k h h') : EntryAt h' e c :=
  ⟨he.cell hc.entry, hc.pair.extends he⟩

lemma readEntry_run {key value : Option ℕ} (hp : h.cells p = some (.entry key value)) :
    readEntry (some p) h = .ok ((key, value), h) := by
  rw [readEntry, bind_of_ok (read_of_cell hp)]
  rfl

lemma readEntry_released (hp : h.cells p = none) : Faults (readEntry (some p)) h :=
  Faults.bind ⟨_, read_released hp⟩

lemma readString_run {s : CString} (hp : h.cells p = some (.string s)) :
    readString (some p) h = .ok (s, h) := by
  rw [readString, bind_of_ok (read_of_cell hp)]
  rfl

lemma readData_run {datasize : ℤ} {data : Option ℕ}
    (hp : h.cells p = some (.data datasize data)) :
    readData (some p) h = .ok ((datasize, data), h) := by
  rw [readData, bind_of_ok (read_of_cell hp)]
  rfl

lemma readBytes_run {bs : List UInt8} (hp : h.cells p = some (.bytes bs)) :
    readBytes (some p) h = .ok (bs, h) := by
  rw [readBytes, bind_of_ok (read_of_cell hp)]
  rfl

lemma readNode_run {entry : Option ℕ} (hp : h.cells p = some (.node entry)) :
    readNode (some p) h = .ok (entry, h) := by
  rw [readNode, bind_of_ok (read_of_cell hp)]
  rfl

/-! ### Copies of data -/

/-- A copy of `v` in new blocks. -/
structure CopyAt (h h' : Heap Block) (p b : ℕ) (v : DataT) : Prop where
  data : h'.cells p = some (.data v.datasize (some b))
  bytes : h'.cells b = some (.bytes v.bytes)
  newData : h.next ≤ p
  newBytes : h.next ≤ b

lemma dataCreate_granted {size : ℤ} (hsize : 0 < size) (hg : h.grants 0 = true)
    (hg' : h.grants 1 = true) :
    ∃ h', dataCreate size h = .ok (some h.next, h') ∧ Extends 2 h h' ∧
      h'.cells h.next = some (.data size (some (h.next + 1))) ∧
      h'.cells (h.next + 1) = some (.bytes (List.replicate size.toNat 0)) := by
  have hneg : ¬size ≤ 0 := not_le.mpr hsize
  set h₁ := h.allocate (.data 0 none) with hh₁
  set h₂ := h₁.allocate (.bytes (List.replicate size.toNat 0)) with hh₂
  have hnext : h₁.next = h.next + 1 := rfl
  have hcell : h₂.cells h.next ≠ none := by
    rw [hh₂, allocate_cells_of_ne _ _ (by omega), hh₁, allocate_next_cell]
    simp
  have hcell' : (h₂.assign _ hcell (some (.data 0 (some (h.next + 1))))).cells h.next ≠ none := by
    simp
  have hext : Extends 2 h h₂ := (extends_allocate h _).trans (extends_allocate h₁ _)
  have hblock : malloc (.bytes (List.replicate size.toNat 0)) h₁ = .ok (some (h.next + 1), h₂) :=
    malloc_granted hg' _
  refine ⟨(h₂.assign _ hcell (some (.data 0 (some (h.next + 1))))).assign _ hcell'
    (some (.data size (some (h.next + 1)))), ?_, ?_, assign_self _ _, ?_⟩
  · rw [dataCreate, if_neg hneg, bind_of_ok (malloc_granted hg _)]
    simp only
    rw [bind_of_ok hblock, bind_of_ok (write_of_cell hcell _)]
    simp only
    rw [bind_of_ok (write_of_cell hcell' _)]
    rfl
  · exact (hext.assign hcell (le_refl _) _).assign hcell' (le_refl _) _
  · rw [assign_cells_of_ne _ _ (by omega), assign_cells_of_ne _ _ (by omega), hh₂, ← hnext,
      allocate_next_cell]

/-- Without room for the bytes the new block is released. -/
lemma dataCreate_refused {size : ℤ} (hsize : 0 < size) (hg : h.grants 0 = true)
    (hg' : h.grants 1 = false) :
    ∃ h', dataCreate size h = .ok (none, h') ∧ Extends 2 h h' := by
  have hneg : ¬size ≤ 0 := not_le.mpr hsize
  set h₁ := h.allocate (.data 0 none) with hh₁
  have hcell : h₁.refuse.cells h.next ≠ none := by
    have hdata : h₁.cells h.next = some (.data 0 none) := allocate_next_cell h _
    simp [Heap.refuse, hdata]
  have hcell' : (h₁.refuse.assign _ hcell (some (.data 0 none))).cells h.next ≠ none := by simp
  have hext : Extends 2 h h₁.refuse := (extends_allocate h _).trans (extends_refuse h₁)
  refine ⟨(h₁.refuse.assign _ hcell (some (.data 0 none))).assign _ hcell' none, ?_, ?_⟩
  · rw [dataCreate, if_neg hneg, bind_of_ok (malloc_granted hg _)]
    simp only
    rw [bind_of_ok (malloc_refused hg' _), bind_of_ok (write_of_cell hcell _)]
    simp only
    rw [bind_of_ok (free_of_cell hcell')]
    rfl
  · exact (hext.assign hcell (le_refl _) _).assign hcell' (le_refl _) _

lemma memcpy_run {dst src n : ℕ} {bs old : List UInt8} (hsrc : h.cells src = some (.bytes bs))
    (hdst : h.cells dst = some (.bytes old)) (hbs : n ≤ bs.length) (hold : old.length = n) :
    ∃ hcell, memcpy (some dst) (some src) n h =
      .ok ((), h.assign dst hcell (some (.bytes (bs.take n)))) := by
  have hcell : h.cells dst ≠ none := by simp [hdst]
  have hroom : ¬(bs.length < n ∨ old.length < n) := by omega
  have hdrop : old.drop n = [] := List.drop_eq_nil_of_le hold.le
  refine ⟨hcell, ?_⟩
  rw [memcpy, bind_of_ok (readBytes_run hsrc), bind_of_ok (readBytes_run hdst), if_neg hroom,
    hdrop, List.append_nil, write_of_cell hcell]

lemma dataDup_none (hc : c.At h) (ha : c.accepted = none) :
    dataDup (some c.value) h = .ok (none, h) := by
  simp only [dataDup]
  rw [bind_of_ok (readData_run hc.value)]
  simp only [dataCreate2]
  rw [if_pos (accepted_eq_none_iff.mp ha)]
  rfl

/-- A value that is not refused is copied into what `data_create` makes. -/
lemma dataDup_eq (hc : c.At h) (ha : c.accepted = some v) :
    dataDup (some c.value) h = dataCreate2 c.datasize c.data h ∧
      ¬(c.data = none ∨ c.datasize ≤ 0) := by
  refine ⟨?_, fun hrefused => ?_⟩
  · simp only [dataDup]
    rw [bind_of_ok (readData_run hc.value)]
  · rw [accepted_eq_none_iff.mpr hrefused] at ha
    cases ha

lemma dataDup_refused (hc : c.At h) (ha : c.accepted = some v)
    (hg : h.grants 0 = false ∨ h.grants 1 = false) :
    ∃ k h', dataDup (some c.value) h = .ok (none, h') ∧ Extends k h h' ∧
      k = if h.grants 0 then 2 else 1 := by
  obtain ⟨heq, hnot⟩ := dataDup_eq hc ha
  have hsize : 0 < c.datasize := (accepted_eq_some ha).2.1
  rw [heq, dataCreate2, if_neg hnot]
  by_cases hg₀ : h.grants 0 = true
  · obtain ⟨h', hrun, hext⟩ := dataCreate_refused hsize hg₀
      (hg.resolve_left (by simp [hg₀]))
    refine ⟨2, h', ?_, hext, by rw [if_pos hg₀]⟩
    rw [bind_of_ok hrun]
    rfl
  · have hrun : dataCreate c.datasize h = .ok (none, h.refuse) := by
      rw [dataCreate, if_neg (not_le.mpr hsize),
        bind_of_ok (malloc_refused (Bool.eq_false_iff.mpr hg₀) _)]
      rfl
    refine ⟨1, h.refuse, ?_, extends_refuse h, by rw [if_neg hg₀]⟩
    rw [bind_of_ok hrun]
    rfl

lemma dataDup_granted (hc : c.At h) (ha : c.accepted = some v) (hg : h.grants 0 = true)
    (hg' : h.grants 1 = true) :
    ∃ p b h', dataDup (some c.value) h = .ok (some p, h') ∧ Extends 2 h h' ∧
      CopyAt h h' p b v := by
  obtain ⟨heq, hnot⟩ := dataDup_eq hc ha
  obtain ⟨⟨src, hsrc⟩, hsize, hfits, hbytes, hdatasize⟩ := accepted_eq_some ha
  obtain ⟨h₁, hrun, hext, hdata, hblock⟩ := dataCreate_granted hsize hg hg'
  have hsrcCell : h₁.cells src = some (.bytes c.bytes) := hext.cell (hc.bytes src hsrc)
  obtain ⟨hcell, hcopy⟩ := memcpy_run (n := c.datasize.toNat) hsrcCell hblock (by omega)
    (List.length_replicate)
  refine ⟨h.next, h.next + 1,
    h₁.assign _ hcell (some (.bytes (c.bytes.take c.datasize.toNat))), ?_,
    hext.assign hcell (Nat.le_succ _) _, ⟨?_, ?_, le_refl _, Nat.le_succ _⟩⟩
  · rw [heq, dataCreate2, if_neg hnot, bind_of_ok hrun]
    simp only
    rw [bind_of_ok (readData_run hdata), hsrc]
    simp only
    rw [bind_of_ok hcopy]
    rfl
  · rw [assign_cells_of_ne _ _ (by omega), hdata, hdatasize]
  · rw [assign_self, hbytes]

/-! ### Copies of entries -/

/-- A copied pair is held by blocks that are new. -/
structure EntryCopy (h h' : Heap Block) (e : ℕ) (text : CString) (v : DataT) (c : Pair) :
    Prop where
  held : EntryAt h' e c
  text : c.text = text
  accepted : c.accepted = some v
  fresh : ∀ p ∈ e :: c.blocks, h.next ≤ p

/-- The pair that `entry_create` builds. -/
def newPair (k : ℕ) (text : CString) (p b : ℕ) (v : DataT) : Pair where
  key := k
  text := text
  value := p
  datasize := v.datasize
  data := some b
  bytes := v.bytes
  fits _ := le_refl _
  small := by
    have := v.fits
    simp only [DataT.datasize]
    omega

lemma accepted_newPair (k : ℕ) (text : CString) (p b : ℕ) (v : DataT) :
    (newPair k text p b v).accepted = some v := by
  have hpos : 0 < (v.datasize : ℤ) := by
    have := v.positive
    simp only [DataT.datasize]
    omega
  rw [Pair.accepted, dif_pos ⟨by simp [newPair], hpos⟩]
  simp only [newPair, DataT.datasize, Int.toNat_natCast, List.take_length]

/-- What is left to do in `entry_create` once the key is copied. -/
def finishEntry (newEntry data : Option ℕ) : Mem Block (Option ℕ) := do
  let value ← dataDup data
  setValue newEntry value
  whenNull value (do
    let (key, _) ← readEntry newEntry
    free key
    free newEntry)
  pure newEntry

lemma entryCreate_started (hc : c.At h) (hg : h.grants 0 = true) (hg' : h.grants 1 = true) :
    ∃ h', entryCreate (some c.key) (some c.value) h =
        finishEntry (some h.next) (some c.value) h' ∧ Extends 2 h h' ∧
      h'.cells h.next = some (.entry (some (h.next + 1)) none) ∧
      h'.cells (h.next + 1) = some (.string c.text) ∧ h'.next = h.next + 2 := by
  set h₁ := h.allocate (.entry none none) with hh₁
  set h₂ := h₁.allocate (.string c.text) with hh₂
  have hnext : h₁.next = h.next + 1 := rfl
  have hentry : h₂.cells h.next = some (.entry none none) := by
    rw [hh₂, allocate_cells_of_ne _ _ (by omega), hh₁, allocate_next_cell]
  have hcell : h₂.cells h.next ≠ none := by simp [hentry]
  have hext₁ : Extends 1 h h₁ := extends_allocate h _
  have hext : Extends 2 h h₂ := hext₁.trans (extends_allocate h₁ _)
  have hmalloc : malloc (.string c.text) h₁ = .ok (some (h.next + 1), h₂) :=
    malloc_granted hg' _
  have hdup : strdup (some c.key) h₁ = .ok (some (h.next + 1), h₂) := by
    rw [strdup, bind_of_ok (readString_run (hext₁.cell hc.key)), hmalloc]
  have hset : setKey (some h.next) (some (h.next + 1)) h₂ =
      .ok ((), h₂.assign _ hcell (some (.entry (some (h.next + 1)) none))) := by
    rw [setKey, bind_of_ok (readEntry_run hentry)]
    exact write_of_cell hcell _
  refine ⟨h₂.assign _ hcell (some (.entry (some (h.next + 1)) none)), ?_,
    hext.assign hcell (le_refl _) _, assign_self _ _, ?_, rfl⟩
  · rw [entryCreate, if_neg (by simp), bind_of_ok (malloc_granted hg _)]
    simp only
    rw [bind_of_ok hdup, bind_of_ok hset, bind_of_ok (whenNull_some _ _ _)]
    rfl
  · rw [assign_cells_of_ne _ _ (by omega), hh₂, ← hnext, allocate_next_cell]

lemma setValue_run {key old : Option ℕ} (hp : h.cells p = some (.entry key old))
    (value : Option ℕ) :
    ∃ hcell, setValue (some p) value h =
      .ok ((), h.assign p hcell (some (.entry key value))) := by
  have hcell : h.cells p ≠ none := by simp [hp]
  refine ⟨hcell, ?_⟩
  rw [setValue, bind_of_ok (readEntry_run hp)]
  exact write_of_cell hcell _

lemma dataDup_extends (hc : c.At h) {r : Option ℕ} (hrun : dataDup (some c.value) h = .ok (r, h')) :
    ∃ k, Extends k h h' := by
  cases ha : c.accepted with
  | none =>
    rw [dataDup_none hc ha] at hrun
    cases hrun
    exact ⟨0, Extends.refl h⟩
  | some v =>
    by_cases hg : h.grants 0 = true ∧ h.grants 1 = true
    · obtain ⟨p, b, h₁, hrun₁, hext, -⟩ := dataDup_granted hc ha hg.1 hg.2
      rw [hrun₁] at hrun
      cases hrun
      exact ⟨2, hext⟩
    · have hrefused : h.grants 0 = false ∨ h.grants 1 = false := by
        by_contra hboth
        exact hg (by simpa using hboth)
      obtain ⟨k, h₁, hrun₁, hext, -⟩ := dataDup_refused hc ha hrefused
      rw [hrun₁] at hrun
      cases hrun
      exact ⟨k, hext⟩

lemma entryCreate_copied (hc : c.At h) (ha : c.accepted = some v)
    (hg : ∀ k < 4, h.grants k = true) :
    ∃ e c' h', entryCreate (some c.key) (some c.value) h = .ok (some e, h') ∧ Extends 4 h h' ∧
      EntryCopy h h' e c.text v c' := by
  obtain ⟨h₁, hstart, hext₁, hentry, hkey, hnext⟩ :=
    entryCreate_started hc (hg 0 (by omega)) (hg 1 (by omega))
  obtain ⟨p, b, h₂, hdup, hext₂, hcopy⟩ := dataDup_granted (hc.extends hext₁) ha
    ((hext₁.grants 0).trans (hg 2 (by omega))) ((hext₁.grants 1).trans (hg 3 (by omega)))
  have hp := hcopy.newData
  have hb := hcopy.newBytes
  obtain ⟨hcell, hset⟩ := setValue_run (hext₂.cell hentry) (some p)
  have hext := (hext₁.trans hext₂).assign hcell (le_refl _)
    (some (.entry (some (h.next + 1)) (some p)))
  refine ⟨h.next, newPair (h.next + 1) c.text p b v, _, ?_, hext, ⟨⟨assign_self _ _, ?_⟩, rfl,
    accepted_newPair _ _ _ _ _, ?_⟩⟩
  · rw [hstart, finishEntry, bind_of_ok hdup, bind_of_ok hset, bind_of_ok (whenNull_some _ _ _)]
    rfl
  · refine ⟨?_, ?_, ?_⟩
    · rw [assign_cells_of_ne _ _ (by simp [newPair])]
      exact hext₂.cell hkey
    · rw [assign_cells_of_ne _ _ (by simp only [newPair]; omega)]
      exact hcopy.data
    · intro q hq
      obtain rfl : b = q := by simpa [newPair] using hq
      rw [assign_cells_of_ne _ _ (by omega)]
      exact hcopy.bytes
  · intro q hq
    simp only [Pair.blocks, newPair, Option.toList_some, List.mem_cons, List.not_mem_nil,
      or_false] at hq
    omega

/-- Without a value the entry that is returned has been released. -/
lemma entryCreate_noValue (hc : c.At h) (hg : h.grants 0 = true) (hg' : h.grants 1 = true)
    (hvalue : c.accepted = none ∨ h.grants 2 = false ∨ h.grants 3 = false) :
    ∃ k h', entryCreate (some c.key) (some c.value) h = .ok (some h.next, h') ∧ Extends k h h' ∧
      h'.cells h.next = none ∧ h.next < h'.next := by
  obtain ⟨h₁, hstart, hext₁, hentry, hkey, hnext⟩ := entryCreate_started hc hg hg'
  have hc₁ := hc.extends hext₁
  obtain ⟨k, h₂, hdup, hext₂⟩ : ∃ k h₂, dataDup (some c.value) h₁ = .ok (none, h₂) ∧
      Extends k h₁ h₂ := by
    cases ha : c.accepted with
    | none => exact ⟨0, h₁, dataDup_none hc₁ ha, Extends.refl h₁⟩
    | some v =>
      rw [ha] at hvalue
      have hrefused := hvalue.resolve_left (by simp)
      rw [← hext₁.grants 0, ← hext₁.grants 1] at hrefused
      obtain ⟨k, h₂, hdup, hext₂, -⟩ := dataDup_refused hc₁ ha hrefused
      exact ⟨k, h₂, hdup, hext₂⟩
  obtain ⟨hcell, hset⟩ := setValue_run (hext₂.cell hentry) none
  set h₃ := h₂.assign h.next hcell (some (.entry (some (h.next + 1)) none)) with hh₃
  have hentry₃ : h₃.cells h.next = some (.entry (some (h.next + 1)) none) := assign_self _ _
  have hkey₃ : h₃.cells (h.next + 1) ≠ none := by
    rw [hh₃, assign_cells_of_ne _ _ (by omega), hext₂.cell hkey]
    simp
  have hlast : (h₃.assign _ hkey₃ none).cells h.next ≠ none := by
    rw [assign_cells_of_ne _ _ (by omega), hentry₃]
    simp
  have hext := (((hext₁.trans hext₂).assign hcell (le_refl _)
    (some (.entry (some (h.next + 1)) none))).assign hkey₃ (Nat.le_succ _) none).assign hlast
      (le_refl _) none
  have hrelease : (do
      let (key, _) ← readEntry (some h.next)
      free key
      free (some h.next)) h₃ = .ok ((), (h₃.assign _ hkey₃ none).assign _ hlast none) := by
    rw [bind_of_ok (readEntry_run hentry₃)]
    simp only
    rw [bind_of_ok (free_of_cell hkey₃), free_of_cell hlast]
  refine ⟨2 + k, _, ?_, hext, assign_self _ _, ?_⟩
  · rw [hstart, finishEntry, bind_of_ok hdup, bind_of_ok hset, whenNull_none,
      bind_of_ok hrelease]
    rfl
  · have := hext₂.next_le
    change h.next < h₂.next
    omega

/-- Without a key the value is assigned to a member of a released entry. -/
lemma entryCreate_noKey (hc : c.At h) (hg : h.grants 0 = true) (hg' : h.grants 1 = false) :
    Faults (entryCreate (some c.key) (some c.value)) h := by
  set h₁ := h.allocate (.entry none none) with hh₁
  have hext₁ : Extends 1 h h₁ := extends_allocate h _
  have hext₂ : Extends 2 h h₁.refuse := hext₁.trans (extends_refuse h₁)
  have hentry : h₁.refuse.cells h.next = some (.entry none none) := allocate_next_cell h _
  have hcell : h₁.refuse.cells h.next ≠ none := by simp [hentry]
  have hdup : strdup (some c.key) h₁ = .ok (none, h₁.refuse) := by
    rw [strdup, bind_of_ok (readString_run (hext₁.cell hc.key))]
    exact malloc_refused hg' _
  have hset : setKey (some h.next) none h₁.refuse =
      .ok ((), h₁.refuse.assign _ hcell (some (.entry none none))) := by
    rw [setKey, bind_of_ok (readEntry_run hentry)]
    exact write_of_cell hcell _
  have hcell' : (h₁.refuse.assign _ hcell (some (.entry none none))).cells h.next ≠ none := by
    simp
  have hext := (hext₂.assign hcell (le_refl _) (some (.entry none none))).assign hcell'
    (le_refl _) none
  rw [entryCreate, if_neg (by simp)]
  apply faults_of_ok (malloc_granted hg _)
  simp only
  apply faults_of_ok hdup
  apply faults_of_ok hset
  rw [whenNull_none]
  apply faults_of_ok (free_of_cell hcell')
  apply faults_bind
  intro value h₂ hvalue
  obtain ⟨k, hext₃⟩ := dataDup_extends (hc.extends hext) hvalue
  have hdead := hext₃.dead (assign_self hcell' none) (Nat.lt_succ_self h.next)
  exact Faults.bind (readEntry_released hdead).bind

/-- Without an entry the caller's key and value are released. -/
lemma entryCreate_noEntry (hg : h.grants 0 = false) {r : Option ℕ}
    (hrun : entryCreate (some c.key) (some c.value) h = .ok (r, h')) :
    r = none ∧ h'.cells c.key = none := by
  rw [entryCreate, if_neg (by simp), bind_of_ok (malloc_refused hg _)] at hrun
  simp only at hrun
  obtain ⟨u, h₁, -, hrest⟩ := bind_inv hrun
  obtain ⟨w, h₂, hfree, hpure⟩ := bind_inv hrest
  cases hpure
  exact ⟨rfl, free_dead hfree⟩

/-- Data that is destroyed leaves every other block as it was. -/
lemma dataDestroy_run (hc : c.At h) :
    ∃ h', dataDestroy (some c.value) h = .ok ((), h') ∧ h'.next = h.next ∧ h'.grants = h.grants ∧
      ∀ p, p ≠ c.value → c.data ≠ some p → h'.cells p = h.cells p := by
  have hvalue : h.cells c.value ≠ none := by simp [hc.value]
  simp only [dataDestroy]
  rw [bind_of_ok (readData_run hc.value)]
  simp only
  cases hdata : c.data with
  | none =>
    refine ⟨h.assign _ hvalue none, ?_, rfl, rfl, fun p hp _ => assign_cells_of_ne _ _ hp⟩
    rw [bind_of_ok (free_null h), free_of_cell hvalue]
  | some b =>
    have hbytes := hc.bytes b hdata
    have hb : h.cells b ≠ none := by simp [hbytes]
    have hne : c.value ≠ b := ne_of_cells hc.value hbytes (by simp)
    have hvalue₁ : (h.assign b hb none).cells c.value ≠ none := by
      rw [assign_cells_of_ne _ _ hne]
      exact hvalue
    refine ⟨(h.assign b hb none).assign _ hvalue₁ none, ?_, rfl, rfl, ?_⟩
    · rw [bind_of_ok (free_of_cell hb), free_of_cell hvalue₁]
    · intro p hp hpb
      rw [assign_cells_of_ne _ _ hp, assign_cells_of_ne]
      rintro rfl
      exact hpb rfl

/-- The key stands apart from the value. -/
lemma Pair.At.key_apart (hc : c.At h) : c.key ≠ c.value ∧ c.data ≠ some c.key :=
  ⟨ne_of_cells hc.key hc.value (by simp),
    fun heq => ne_of_cells hc.key (hc.bytes _ heq) (by simp) rfl⟩

/-- The entry stands apart from what it holds. -/
lemma EntryAt.entry_apart (he : EntryAt h e c) : e ≠ c.key ∧ e ≠ c.value ∧ c.data ≠ some e :=
  ⟨ne_of_cells he.entry he.pair.key (by simp), ne_of_cells he.entry he.pair.value (by simp),
    fun heq => ne_of_cells he.entry (he.pair.bytes _ heq) (by simp) rfl⟩

/-- An entry that is destroyed leaves every other block as it was. -/
lemma entryDestroy_run (he : EntryAt h e c) :
    ∃ h', entryDestroy (some e) h = .ok ((), h') ∧ h'.next = h.next ∧ h'.grants = h.grants ∧
      ∀ p, p ∉ e :: c.blocks → h'.cells p = h.cells p := by
  obtain ⟨h₁, hdestroy, hnext₁, hgrants₁, hcells₁⟩ := dataDestroy_run he.pair
  obtain ⟨hkeyValue, hkeyData⟩ := he.pair.key_apart
  obtain ⟨hentryKey, hentryValue, hentryData⟩ := he.entry_apart
  have hkey₁ : h₁.cells c.key ≠ none := by
    rw [hcells₁ _ hkeyValue hkeyData, he.pair.key]
    simp
  have hentry₁ : (h₁.assign _ hkey₁ none).cells e ≠ none := by
    rw [assign_cells_of_ne _ _ hentryKey, hcells₁ _ hentryValue hentryData, he.entry]
    simp
  refine ⟨(h₁.assign _ hkey₁ none).assign _ hentry₁ none, ?_, hnext₁, hgrants₁, ?_⟩
  · simp only [entryDestroy]
    rw [bind_of_ok (readEntry_run he.entry)]
    simp only
    rw [bind_of_ok hdestroy, bind_of_ok (free_of_cell hkey₁), free_of_cell hentry₁]
  · intro p hp
    simp only [Pair.blocks, List.mem_cons, Option.mem_toList, not_or] at hp
    obtain ⟨hpe, hpk, hpv, hpd⟩ := hp
    rw [assign_cells_of_ne _ _ hpe, assign_cells_of_ne _ _ hpk, hcells₁ _ hpv hpd]

/-- `entry_dup` of an entry that is there. -/
lemma entryDup_of_entry (he : EntryAt h e c) {r : Option ℕ}
    (hrun : entryCreate (some c.key) (some c.value) h = .ok (r, h')) (hr : r ≠ none) :
    entryDup (some e) h = .ok (r, h') := by
  obtain ⟨p, rfl⟩ := Option.ne_none_iff_exists'.mp hr
  simp only [entryDup]
  rw [bind_of_ok (readEntry_run he.entry)]
  simp only
  rw [bind_of_ok hrun]
  rfl

/-- Without an entry or without a key `entry_dup` does not return. -/
lemma entryDup_faults (he : EntryAt h e c)
    (hg : h.grants 0 = false ∨ h.grants 0 = true ∧ h.grants 1 = false) :
    Faults (entryDup (some e)) h := by
  simp only [entryDup]
  apply faults_of_ok (readEntry_run he.entry)
  simp only
  rcases hg with hg | ⟨hg, hg'⟩
  · apply faults_bind
    intro r h' hrun
    obtain ⟨rfl, -⟩ := entryCreate_noEntry hg hrun
    exact Faults.bind (Faults.bind ⟨.null, rfl⟩)
  · exact (entryCreate_noKey he.pair hg hg').bind

lemma createNode_refused (hg : h.grants 0 = false) :
    createNode (some e) h = .ok (none, h.refuse) := by
  simp only [createNode]
  rw [bind_of_ok (malloc_refused hg _)]
  rfl

/-- A node whose entry is what `entry_dup` returned. -/
lemma createNode_of_dup (hg : h.grants 0 = true) {k e' : ℕ} {h₂ : Heap Block}
    (hrun : entryDup (some e) (h.allocate (.node none)) = .ok (some e', h₂))
    (hext : Extends k (h.allocate (.node none)) h₂) :
    ∃ hcell, createNode (some e) h =
        .ok (some h.next, h₂.assign h.next hcell (some (.node (some e')))) ∧
      Extends (1 + k) h (h₂.assign h.next hcell (some (.node (some e')))) := by
  have hnode : h₂.cells h.next = some (.node none) := hext.cell (allocate_next_cell h _)
  have hcell : h₂.cells h.next ≠ none := by simp [hnode]
  have hext' := ((extends_allocate h (.node none)).trans hext).assign hcell (le_refl _)
    (some (.node (some e')))
  refine ⟨hcell, ?_, hext'⟩
  simp only [createNode]
  rw [bind_of_ok (malloc_granted hg _)]
  simp only
  rw [bind_of_ok hrun, bind_of_ok (write_of_cell hcell _), bind_of_ok (whenNull_some _ _ _),
    bind_of_ok (readNode_run (assign_self hcell _))]
  rfl

lemma createNode_copied (he : EntryAt h e c) (ha : c.accepted = some v)
    (hg : ∀ k < 5, h.grants k = true) :
    ∃ e' c' h', createNode (some e) h = .ok (some h.next, h') ∧ Extends 5 h h' ∧
      h'.cells h.next = some (.node (some e')) ∧ EntryCopy h h' e' c.text v c' := by
  have hext₁ : Extends 1 h (h.allocate (.node none)) := extends_allocate h _
  have he₁ := he.extends hext₁
  obtain ⟨e', c', h₂, hrun, hext₂, hcopy⟩ := entryCreate_copied he₁.pair ha
    (fun k hk => (hext₁.grants k).trans (hg (k + 1) (by omega)))
  obtain ⟨hcell, hnode, hext⟩ := createNode_of_dup (hg 0 (by omega))
    (entryDup_of_entry he₁ hrun (by simp)) hext₂
  have hfresh : ∀ p ∈ e' :: c'.blocks, h.next < p := fun p hp => hcopy.fresh p hp
  refine ⟨e', c', _, hnode, hext, assign_self _ _, ⟨⟨?_, ?_⟩, hcopy.text, hcopy.accepted,
    fun p hp => (hfresh p hp).le⟩⟩
  · rw [assign_cells_of_ne _ _ (hfresh e' List.mem_cons_self).ne']
    exact hcopy.held.entry
  · refine ⟨?_, ?_, ?_⟩
    · rw [assign_cells_of_ne _ _ (hfresh _ (by simp [Pair.blocks])).ne']
      exact hcopy.held.pair.key
    · rw [assign_cells_of_ne _ _ (hfresh _ (by simp [Pair.blocks])).ne']
      exact hcopy.held.pair.value
    · intro q hq
      rw [assign_cells_of_ne _ _ (hfresh q (by simp [Pair.blocks, hq])).ne']
      exact hcopy.held.pair.bytes q hq

lemma createNode_faults (he : EntryAt h e c) (hg : h.grants 0 = true)
    (hg' : h.grants 1 = false ∨ h.grants 1 = true ∧ h.grants 2 = false) :
    Faults (createNode (some e)) h := by
  simp only [createNode]
  apply faults_of_ok (malloc_granted hg _)
  simp only
  exact Faults.bind (entryDup_faults (he.extends (extends_allocate h _)) hg')

/-- A node whose entry has been released. -/
lemma createNode_noValue (he : EntryAt h e c) (hg : ∀ k < 3, h.grants k = true)
    (hvalue : c.accepted = none ∨ h.grants 3 = false ∨ h.grants 4 = false) :
    ∃ k e' h', createNode (some e) h = .ok (some h.next, h') ∧ Extends k h h' ∧
      h'.cells h.next = some (.node (some e')) ∧ h'.cells e' = none ∧ h.next ≤ e' ∧
      e' < h'.next := by
  have hext₁ : Extends 1 h (h.allocate (.node none)) := extends_allocate h _
  have he₁ := he.extends hext₁
  obtain ⟨k, h₂, hrun, hext₂, hdead, hlt⟩ := entryCreate_noValue he₁.pair
    ((hext₁.grants 0).trans (hg 1 (by omega))) ((hext₁.grants 1).trans (hg 2 (by omega)))
    (by rwa [hext₁.grants 2, hext₁.grants 3])
  obtain ⟨hcell, hnode, hext⟩ := createNode_of_dup (hg 0 (by omega))
    (entryDup_of_entry he₁ hrun (by simp)) hext₂
  have hne : (h.allocate (.node none)).next ≠ h.next := Nat.succ_ne_self h.next
  refine ⟨1 + k, _, _, hnode, hext, assign_self _ _, ?_, Nat.le_succ _, hlt⟩
  rw [assign_cells_of_ne _ _ hne]
  exact hdead

end

end RemoteTable.Allocation
