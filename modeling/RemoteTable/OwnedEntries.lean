import RemoteTable.Allocation
import RemoteTable.Library.Separation

/-!
# Entries that own their blocks

What `data.c` and `entry.c` do to the blocks of values and entries, where every allocation is
granted. Each function is given by one triple.
-/

namespace RemoteTable.Allocation
open Memory Memory.Assertion

/-- A value in two blocks. -/
def dataAt (p : ℕ) (v : DataT) : Assertion Block :=
  ex fun b => cell p (.data v.datasize (some b)) * cell b (.bytes v.bytes)

lemma dataAt_intro (p b : ℕ) (v : DataT) :
    cell p (.data v.datasize (some b)) * cell b (.bytes v.bytes) ≤ dataAt p v :=
  fun _ hc => ⟨b, hc⟩

/-- An entry with its own key and value. -/
def entryAt (e : ℕ) (entry : EntryT) : Assertion Block :=
  ex fun k => ex fun d =>
    cell e (.entry (some k) (some d)) * (cell k (.string entry.key) * dataAt d entry.value)

lemma entryAt_intro (e k d : ℕ) (entry : EntryT) :
    cell e (.entry (some k) (some d)) * (cell k (.string entry.key) * dataAt d entry.value) ≤
      entryAt e entry := fun _ hc => ⟨k, d, hc⟩

/-! ### Reading blocks -/

section
variable {p : ℕ}

lemma reads_entry (key value : Option ℕ) :
    Reads (cell p (.entry key value)) (readEntry (some p)) (key, value) :=
  (reads_cell p _).bind (reads_pure _ (key, value))

lemma reads_string (s : CString) : Reads (cell p (.string s)) (readString (some p)) s :=
  (reads_cell p _).bind (reads_pure _ s)

lemma reads_data (datasize : ℤ) (data : Option ℕ) :
    Reads (cell p (.data datasize data)) (readData (some p)) (datasize, data) :=
  (reads_cell p _).bind (reads_pure _ (datasize, data))

lemma reads_bytes (bs : List UInt8) : Reads (cell p (.bytes bs)) (readBytes (some p)) bs :=
  (reads_cell p _).bind (reads_pure _ bs)

lemma setKey_triple (e : ℕ) (key value key' : Option ℕ) :
    Triple (cell e (.entry key value)) (setKey (some e) key') fun _ =>
      cell e (.entry key' value) :=
  (reads_entry key value).bind (triple_write e _ _)

lemma setValue_triple (e : ℕ) (key value value' : Option ℕ) :
    Triple (cell e (.entry key value)) (setValue (some e) value') fun _ =>
      cell e (.entry key value') :=
  (reads_entry key value).bind (triple_write e _ _)

end

/-! ### Values -/

variable {p : ℕ} {v : DataT}

lemma strdup_triple (k : ℕ) (s : CString) :
    Triple (cell k (.string s)) (strdup (some k)) fun r =>
      returned (fun k' => cell k' (.string s)) r * cell k (.string s) := by
  refine (reads_string s).bind ?_
  apply (triple_malloc (Block.string s)).last (cell k (.string s)) (one_mul _).symm
  exact fun _ => le_rfl

lemma memcpy_triple {dst src n : ℕ} (bs old : List UInt8) (hbs : bs.length = n)
    (hold : old.length = n) :
    Triple (cell dst (.bytes old) * cell src (.bytes bs)) (memcpy (some dst) (some src) n)
      fun _ => cell dst (.bytes bs) * cell src (.bytes bs) := by
  have hroom : ¬(bs.length < n ∨ old.length < n) := by omega
  refine (reads_bytes bs).step (cell dst (.bytes old)) (mul_comm _ _) ?_
  refine (reads_bytes old).step (cell src (.bytes bs)) rfl ?_
  rw [if_neg hroom, List.drop_eq_nil_of_le hold.le, List.append_nil,
    List.take_of_length_le hbs.le]
  exact (triple_write dst _ _).frame _

/-- New blocks of a size. -/
def blankAt (p size : ℕ) : Assertion Block :=
  ex fun b => cell p (.data size (some b)) * cell b (.bytes (List.replicate size 0))

lemma blankAt_intro (p b size : ℕ) :
    cell p (.data size (some b)) * cell b (.bytes (List.replicate size 0)) ≤ blankAt p size :=
  fun _ hc => ⟨b, hc⟩

lemma dataCreate_triple {size : ℕ} (hsize : 0 < size) :
    Triple 1 (dataCreate size) (returned fun p => blankAt p size) := by
  have hneg : ¬(size : ℤ) ≤ 0 := by omega
  rw [dataCreate, if_neg hneg]
  refine triple_malloc_step fun p => ?_
  rw [mul_one]
  refine triple_malloc_step fun b => ?_
  simp only [Int.toNat_natCast]
  refine (triple_write p _ _).step (cell b (.bytes (List.replicate size 0))) (mul_comm _ _)
    fun _ => ?_
  refine (triple_write p _ _).step (cell b (.bytes (List.replicate size 0))) rfl fun _ => ?_
  exact triple_pure ((blankAt_intro p b size).trans (le_returned (fun p => blankAt p size) p))

lemma dataDestroy_triple (p : ℕ) (v : DataT) :
    Triple (dataAt p v) (dataDestroy (some p)) fun _ => 1 := by
  refine triple_ex fun b => ?_
  rw [dataDestroy]
  refine (reads_data _ _).step (cell b (.bytes v.bytes)) rfl ?_
  refine (triple_free b _).step (cell p (.data v.datasize (some b))) (mul_comm _ _) fun _ => ?_
  rw [one_mul]
  exact triple_free p _

/-- The copy of a value. -/
lemma dataDup_triple (p : ℕ) (v : DataT) :
    Triple (dataAt p v) (dataDup (some p)) fun r =>
      returned (fun q => dataAt q v) r * dataAt p v := by
  refine triple_ex fun b => ?_
  have hsize : ¬(some b = none ∨ (v.datasize : ℤ) ≤ 0) := by
    have := v.positive
    simp only [DataT.datasize, reduceCtorEq, false_or]
    omega
  rw [dataDup]
  refine (reads_data _ _).step (cell b (.bytes v.bytes)) rfl ?_
  change Triple _ (dataCreate2 v.datasize (some b)) _
  rw [dataCreate2, if_neg hsize]
  refine (dataCreate_triple v.positive).step _ (one_mul _).symm fun r => triple_returned ?_
  rintro q rfl
  rw [blankAt, ex_mul]
  refine triple_ex fun b' => ?_
  refine (reads_data _ _).step (cell b' (.bytes (List.replicate v.bytes.length 0)) *
    (cell p (.data v.datasize (some b)) * cell b (.bytes v.bytes))) (by ac_rfl) ?_
  simp only [DataT.datasize, Int.toNat_natCast]
  refine (memcpy_triple v.bytes (List.replicate v.bytes.length 0) rfl List.length_replicate).step
    (cell q (.data v.datasize (some b')) * cell p (.data v.datasize (some b))) ?_ fun _ => ?_
  · simp only [DataT.datasize]
    ac_rfl
  · apply triple_pure
    refine le_trans (le_of_eq ?_) (mul_le_mul' ((dataAt_intro q b' v).trans
      (le_returned (fun q => dataAt q v) q)) (dataAt_intro p b v))
    simp only [DataT.datasize]
    ac_rfl

/-! ### Entries -/

lemma entryCreate_triple (k d : ℕ) (entry : EntryT) :
    Triple (cell k (.string entry.key) * dataAt d entry.value) (entryCreate (some k) (some d))
      fun r => returned (fun e => entryAt e entry) r *
        (cell k (.string entry.key) * dataAt d entry.value) := by
  have hargs : ¬(some k = none ∨ some d = none) := by simp
  rw [entryCreate, if_neg hargs]
  refine triple_malloc_step fun e => ?_
  refine (strdup_triple k entry.key).adds (cell e (.entry none none) * dataAt d entry.value)
    (by ac_rfl) fun k' => ?_
  refine (setKey_triple e none none (some k')).step (cell k' (.string entry.key) *
    (cell k (.string entry.key) * dataAt d entry.value)) (by ac_rfl) fun _ => ?_
  refine (reads_whenNull _ k' _).bind ?_
  refine (dataDup_triple d entry.value).adds (cell e (.entry (some k') none) *
    (cell k' (.string entry.key) * cell k (.string entry.key))) (by ac_rfl) fun d' => ?_
  refine (setValue_triple e (some k') none (some d')).step (dataAt d' entry.value *
    (cell k' (.string entry.key) * (cell k (.string entry.key) * dataAt d entry.value)))
    (by ac_rfl) fun _ => ?_
  refine (reads_whenNull _ d' _).bind ?_
  apply triple_pure
  refine le_trans (le_of_eq ?_) (mul_le_mul' ((entryAt_intro e k' d' entry).trans
    (le_returned (fun e => entryAt e entry) e)) le_rfl)
  ac_rfl

/-- The string `entry->key` -/
lemma reads_entry_key (e : ℕ) (entry : EntryT) :
    Reads (entryAt e entry) (do
      let (key, _) ← readEntry (some e)
      readString key) entry.key := by
  refine reads_ex fun k => reads_ex fun d => ?_
  refine (reads_entry (some k) (some d)).step _ rfl ?_
  exact (reads_string entry.key).last (cell e (.entry (some k) (some d)) * dataAt d entry.value)
    (by ac_rfl)

lemma entryDestroy_triple (e : ℕ) (entry : EntryT) :
    Triple (entryAt e entry) (entryDestroy (some e)) fun _ => 1 := by
  refine triple_ex fun k => triple_ex fun d => ?_
  rw [entryDestroy]
  refine (reads_entry _ _).step _ rfl ?_
  refine (dataDestroy_triple d entry.value).step (cell e (.entry (some k) (some d)) *
    cell k (.string entry.key)) (by ac_rfl) fun _ => ?_
  refine (triple_free k (.string entry.key)).step (cell e (.entry (some k) (some d))) ?_ fun _ => ?_
  · rw [one_mul, mul_comm]
  · rw [one_mul]
    exact triple_free e _

lemma entryDup_triple (e : ℕ) (entry : EntryT) :
    Triple (entryAt e entry) (entryDup (some e)) fun r =>
      returned (fun e' => entryAt e' entry) r * entryAt e entry := by
  refine triple_ex fun k => triple_ex fun d => ?_
  rw [entryDup]
  refine (reads_entry _ _).step _ rfl ?_
  refine (entryCreate_triple k d entry).adds (cell e (.entry (some k) (some d))) (mul_comm _ _)
    fun e' => ?_
  apply triple_pure
  exact mul_le_mul' (le_returned (fun e' => entryAt e' entry) e') (entryAt_intro e k d entry)

/-- The copy of `entry->value`. -/
lemma valueDup_triple (e : ℕ) (entry : EntryT) :
    Triple (entryAt e entry) (do
        let (_, value) ← readEntry (some e)
        dataDup value) fun r =>
      returned (fun d => dataAt d entry.value) r * entryAt e entry := by
  refine triple_ex fun k => triple_ex fun d => ?_
  refine (reads_entry (some k) (some d)).step _ rfl ?_
  refine (dataDup_triple d entry.value).last (cell e (.entry (some k) (some d)) *
    cell k (.string entry.key)) (by ac_rfl) fun r => ?_
  rw [mul_assoc]
  refine mul_le_mul' le_rfl (le_trans (le_of_eq ?_) (entryAt_intro e k d entry))
  ac_rfl

/-- The old value is released and a new one is put in its place. -/
lemma replaceValue_triple (e d' : ℕ) (entry : EntryT) (v : DataT) :
    Triple (entryAt e entry * dataAt d' v) (do
        let (_, value) ← readEntry (some e)
        dataDestroy value
        setValue (some e) (some d')) fun _ =>
      entryAt e (entry.withValue v) := by
  rw [entryAt, ex_mul]
  refine triple_ex fun k => ?_
  rw [ex_mul]
  refine triple_ex fun d => ?_
  refine (reads_entry (some k) (some d)).step (cell k (.string entry.key) *
    dataAt d entry.value * dataAt d' v) (by ac_rfl) ?_
  refine (dataDestroy_triple d entry.value).step (cell e (.entry (some k) (some d)) *
    (cell k (.string entry.key) * dataAt d' v)) (by ac_rfl) fun _ => ?_
  rw [one_mul]
  exact (setValue_triple e (some k) (some d) (some d')).last _ rfl fun _ =>
    entryAt_intro e k d' (entry.withValue v)

lemma dataAt_le_held (p : ℕ) (v : DataT) : dataAt p v ≤ held 2 :=
  ex_le fun b => (mul_le_mul' (cell_le_held p _) (cell_le_held b _)).trans (held_mul_le 1 1)

end RemoteTable.Allocation
