import RemoteTable.PointerLists
import RemoteTable.TableRefinement

/-!
# The memory of `table.c`

`table.c` over the lists with their pointers. A table is made, used by a caller that owns what
it passes and what it gets, and destroyed: the answers are those of the finite map, no call
uses a released block, and what is left is what two of the calls leak.
-/

namespace RemoteTable.Pointers
open Memory Memory.Assertion Allocation KeyedList

def readTable (p : Option ℕ) : Mem Cell (Option ℕ × ℤ × ℤ) := do
  match ← read p with
  | .table buckets size quantityEntry => pure (buckets, size, quantityEntry)
  | _ => throw .outside

def readSlots (p : Option ℕ) : Mem Cell (List (Option (Option ℕ))) := do
  match ← read p with
  | .buckets slots => pure slots
  | _ => throw .outside

/-- `table->size` -/
def sizeOf (table : Option ℕ) : Mem Cell ℤ := do
  let (_, size, _) ← readTable table
  pure size

/-- `table->buckets[i]` -/
def bucketAt (table : Option ℕ) (i : ℤ) : Mem Cell (Option ℕ) := do
  let (buckets, _, _) ← readTable table
  let slots ← readSlots buckets
  if i < 0 then throw .outside
  else match slots[i.toNat]? with
    | none => throw .outside
    | some none => throw .unset
    | some (some list) => pure list

/-- `table->buckets[i] = list` -/
def setBucket (table : Option ℕ) (i : ℕ) (list : Option ℕ) : Mem Cell Unit := do
  let (buckets, _, _) ← readTable table
  let slots ← readSlots buckets
  write buckets (.buckets (slots.set i (some list)))

/-- `table->quantity_entry += n` -/
def addQuantity (table : Option ℕ) (n : ℤ) : Mem Cell Unit := do
  let (buckets, size, quantityEntry) ← readTable table
  write table (.table buckets size (quantityEntry + n))

/-- The loop of `table_destroy` with `left` turns to go. -/
def bucketsLoop (table : Option ℕ) : ℕ → ℕ → Mem Cell Unit
  | 0, _ => pure ()
  | left + 1, var => do
    let list ← bucketAt table var
    listDestroy list
    bucketsLoop table left (var + 1)

def tableDestroy (table : Option ℕ) : Mem Cell Unit :=
  match table with
  | none => pure ()
  | some _ => do
    let size ← sizeOf table
    bucketsLoop table size.toNat 0
    let (buckets, _, _) ← readTable table
    free buckets
    free table

/-- The loop `while (j != 0)` from an index that is not negative. -/
def revertFrom (table : Option ℕ) : ℕ → Mem Cell Unit
  | 0 => pure ()
  | j + 1 => do
    let list ← bucketAt table (j + 1)
    listDestroy list
    revertFrom table j

/-- Below zero the first access is outside the array, whatever would follow it. -/
def revertLoop (table : Option ℕ) (j : ℤ) : Mem Cell Unit :=
  if j < 0 then do
    let _ ← bucketAt table j
    pure ()
  else revertFrom table j.toNat

/-- The loop that fills the buckets, and whether every list could be made. -/
def createLoop (newTable : Option ℕ) : ℕ → ℕ → Mem Cell Bool
  | 0, _ => pure true
  | left + 1, i => do
    let list ← listCreate
    setBucket newTable i list
    match list with
    | none => do
      revertLoop newTable (i - 1)
      tableDestroy newTable
      pure false
    | some _ => createLoop newTable left (i + 1)

/-- The counters of the new table hold `unset` until they are assigned. -/
def tableCreate (unset n : ℤ) : Mem Cell (Option ℕ) :=
  if n ≤ 0 then pure none
  else do
    let newTable ← malloc (.table none unset unset)
    match newTable with
    | none => pure none
    | some _ => do
      let buckets ← malloc (.buckets (List.replicate n.toNat none))
      write newTable (.table buckets unset unset)
      match buckets with
      | none => do
        tableDestroy newTable
        pure none
      | some _ => do
        if ← createLoop newTable n.toNat 0 then do
          write newTable (.table buckets n 0)
          pure newTable
        else pure none

def tableGet (table key : Option ℕ) : Mem Cell (Option ℕ) :=
  if table = none ∨ key = none then pure none
  else do
    let chars ← lift blocks (readString key)
    let size ← sizeOf table
    let list ← bucketAt table (keyHash chars size)
    let entry ← listGet list key
    match entry with
    | none => pure none
    | some _ => lift blocks do
      let (_, value) ← readEntry entry
      dataDup value

def tablePut (table key value : Option ℕ) : Mem Cell ℤ :=
  if table = none ∨ key = none ∨ value = none then pure (-1)
  else do
    let newEntry ← lift blocks (entryCreate key value)
    match newEntry with
    | none => pure (-1)
    | some _ => do
      let chars ← lift blocks (readString key)
      let size ← sizeOf table
      let placeEntry := keyHash chars size
      -- the copy that `table_get` returns is not kept
      match ← tableGet table key with
      | some _ => do
        lift blocks (entryDestroy newEntry)
        pure (-10)
      | none => do
        let list ← bucketAt table placeEntry
        let resultedValue ← listAdd list newEntry
        if resultedValue = 0 then addQuantity table 1
        lift blocks (entryDestroy newEntry)
        pure resultedValue

def tableUpdate (table key value : Option ℕ) : Mem Cell ℤ :=
  if table = none ∨ key = none ∨ value = none then pure (-1)
  else do
    let newData ← lift blocks (dataDup value)
    match newData with
    | none => pure (-1)
    | some _ => do
      let chars ← lift blocks (readString key)
      let size ← sizeOf table
      let list ← bucketAt table (keyHash chars size)
      let entryToUpdate ← listGet list key
      match entryToUpdate with
      | none => do
        -- the block of `new_data->data` stays
        free newData
        pure (-1)
      | some _ => do
        lift blocks do
          let (_, old) ← readEntry entryToUpdate
          dataDestroy old
          setValue entryToUpdate newData
        pure 0

def tableDel (table key : Option ℕ) : Mem Cell ℤ :=
  if table = none ∨ key = none then pure (-1)
  else do
    let chars ← lift blocks (readString key)
    let size ← sizeOf table
    let list ← bucketAt table (keyHash chars size)
    let retValue ← listRemove list key
    if retValue = 0 then addQuantity table (-1)
    pure retValue

def tableSize (table : Option ℕ) : Mem Cell ℤ :=
  match table with
  | none => pure (-1)
  | some _ => do
    let (_, _, quantityEntry) ← readTable table
    pure quantityEntry

/-! ### A table as a part of the heap -/

/-- `struct table_t` and its array of buckets. -/
def arrayAt (t b : ℕ) (slots : List (Option (Option ℕ))) (size quantity : ℤ) : Assertion Cell :=
  cell t (.table (some b) size quantity) * cell b (.buckets slots)

def slotsOf (ls : List ℕ) : List (Option (Option ℕ)) := ls.map fun l => some (some l)

def listsAt : List ℕ → List ListT → Assertion Cell
  | [], [] => 1
  | l :: ls, list :: lists => listAt l list * listsAt ls lists
  | _, _ => only False

def tableAt (t : ℕ) (table : TableT) : Assertion Cell :=
  ex fun b => ex fun ls =>
    arrayAt t b (slotsOf ls) table.size table.quantityEntry * listsAt ls table.buckets

lemma tableAt_intro (t b : ℕ) (ls : List ℕ) (table : TableT) :
    arrayAt t b (slotsOf ls) table.size table.quantityEntry * listsAt ls table.buckets ≤
      tableAt t table := fun _ hc => ⟨b, ls, hc⟩

section
variable {β : Type} {F : Assertion Cell} {x : Mem Cell β} {Q : β → Assertion Cell}
  {t b k d : ℕ} {i : ℤ} {slots : List (Option (Option ℕ))} {size quantity : ℤ} {ls : List ℕ}
  {lists : List ListT} {list : ListT} {table table' : TableT} {key : CString} {value : DataT}

/-! ### Fields and slots -/

lemma reads_table (t b : ℕ) (size quantity : ℤ) :
    Reads (cell t (.table (some b) size quantity)) (readTable (some t)) (some b, size, quantity) :=
  (reads_cell t _).bind (reads_pure _ (some b, size, quantity))

lemma reads_slots (b : ℕ) (slots : List (Option (Option ℕ))) :
    Reads (cell b (.buckets slots)) (readSlots (some b)) slots :=
  (reads_cell b _).bind (reads_pure _ slots)

lemma sizeOf_reads : Reads (arrayAt t b slots size quantity) (sizeOf (some t)) size :=
  (reads_table t b size quantity).step _ rfl (reads_pure _ size)

lemma bucketAt_reads {l : Option ℕ} (hi : 0 ≤ i) (hl : slots[i.toNat]? = some (some l)) :
    Reads (arrayAt t b slots size quantity) (bucketAt (some t) i) l := by
  refine (reads_table t b size quantity).step _ rfl ?_
  refine (reads_slots b slots).step _ (mul_comm _ _) ?_
  rw [if_neg (not_lt.mpr hi), hl]
  exact reads_pure _ l

lemma setBucket_triple (i : ℕ) (l : Option ℕ) :
    Triple (arrayAt t b slots size quantity) (setBucket (some t) i l) fun _ =>
      arrayAt t b (slots.set i (some l)) size quantity := by
  refine (reads_table t b size quantity).step _ rfl ?_
  refine (reads_slots b slots).step _ (mul_comm _ _) ?_
  exact (triple_write b _ _).last _ (mul_comm _ _) fun _ => (mul_comm _ _).le

lemma addQuantity_triple (n : ℤ) :
    Triple (arrayAt t b slots size quantity) (addQuantity (some t) n) fun _ =>
      arrayAt t b slots size (quantity + n) := by
  refine (reads_table t b size quantity).step _ rfl ?_
  exact (triple_write t _ _).last _ rfl fun _ => le_rfl

/-! ### One bucket -/

/-- One list may be taken out, and another put in its place. -/
lemma listsAt_get {i : ℕ} (hi : lists[i]? = some list) :
    listsAt ls lists ≤ ex fun l => only (ls[i]? = some l) *
      (listAt l list * remainder (listAt l) fun list' => listsAt ls (lists.set i list')) := by
  induction lists generalizing ls i with
  | nil => simp at hi
  | cons first lists ih =>
    cases ls with
    | nil => exact fun _ hc => hc.1.elim
    | cons l ls =>
      cases i with
      | zero =>
        cases hi
        refine le_trans ?_ (le_ex _ l)
        rw [List.getElem?_cons_zero, only_mul_of rfl, listsAt]
        exact mul_le_mul' le_rfl (le_remainder fun list' => le_rfl)
      | succ i =>
        rw [listsAt]
        refine (mul_le_mul' le_rfl (ih hi)).trans ?_
        rw [mul_comm, ex_mul]
        refine ex_le fun l' => ?_
        refine le_trans ?_ (le_ex _ l')
        rw [mul_assoc, mul_assoc]
        refine mul_le_mul' le_rfl (mul_le_mul' le_rfl (remainder_mul_le fun list' => ?_))
        rw [mul_comm]
        exact le_rfl

lemma tableAt_size (t : ℕ) (table : TableT) :
    Reads (tableAt t table) (sizeOf (some t)) table.size :=
  reads_ex fun _ => reads_ex fun _ => sizeOf_reads.frame _

/-- A table without the list `l` at an index. -/
def openAt (t : ℕ) (table : TableT) (i : ℤ) (l : ℕ) (quantity : ℤ) : Assertion Cell :=
  ex fun b => ex fun ls => only (0 ≤ i ∧ ls[i.toNat]? = some l) *
    (arrayAt t b (slotsOf ls) table.size quantity *
      remainder (listAt l) fun list' => listsAt ls (table.buckets.set i.toNat list'))

lemma tableAt_open (t : ℕ) (hb : RemoteTable.bucketAt table i = .ok list) :
    tableAt t table ≤ ex fun l => listAt l list * openAt t table i l table.quantityEntry := by
  obtain ⟨hi, hlist⟩ := bucketAt_eq_ok.mp hb
  refine ex_le fun b => ex_le fun ls => ?_
  refine (mul_le_mul' le_rfl (listsAt_get hlist)).trans ?_
  rw [mul_comm, ex_mul]
  refine ex_le fun l => ?_
  rw [mul_assoc]
  refine only_mul_le fun hl => ?_
  refine le_trans ?_ (le_ex _ l)
  rw [mul_assoc, mul_comm (remainder _ _)]
  exact mul_le_mul' le_rfl fun _ hc => ⟨b, ls, mem_only_mul.mpr ⟨⟨hi, hl⟩, hc⟩⟩

lemma openAt_close (t : ℕ) (table : TableT) (i : ℤ) (l : ℕ) (list : ListT) (quantity : ℤ) :
    listAt l list * openAt t table i l quantity ≤
      tableAt t (RemoteTable.setBucket table i list quantity) := by
  rw [openAt, mul_comm, ex_mul]
  refine ex_le fun b => ?_
  rw [ex_mul]
  refine ex_le fun ls => ?_
  rw [mul_assoc]
  refine only_mul_le fun _ => ?_
  rw [mul_assoc, mul_comm (remainder _ _)]
  have hback := mul_remainder_le (listAt l)
    (fun list' => listsAt ls (table.buckets.set i.toNat list')) list
  exact (mul_le_mul' le_rfl hback).trans
    (tableAt_intro t b ls (RemoteTable.setBucket table i list quantity))

lemma setBucket_self (hb : RemoteTable.bucketAt table i = .ok list) :
    RemoteTable.setBucket table i list table.quantityEntry = table := by
  obtain ⟨-, hlist⟩ := bucketAt_eq_ok.mp hb
  obtain ⟨hlt, rfl⟩ := List.getElem?_eq_some_iff.mp hlist
  simp only [RemoteTable.setBucket, List.set_getElem_self]

lemma openAt_close_self (t l : ℕ) (hb : RemoteTable.bucketAt table i = .ok list) :
    listAt l list * openAt t table i l table.quantityEntry ≤ tableAt t table := by
  have h := openAt_close t table i l list table.quantityEntry
  rwa [setBucket_self hb] at h

/-- What the fields say does not depend on the lists. -/
lemma openAt_reads {l : ℕ} {r : β}
    (h : ∀ b ls, 0 ≤ i → ls[i.toNat]? = some l →
      Reads (arrayAt t b (slotsOf ls) table.size quantity) x r) :
    Reads (openAt t table i l quantity) x r :=
  reads_ex fun b => reads_ex fun ls => reads_only fun ⟨hi, hl⟩ => (h b ls hi hl).frame _

lemma openAt_size {l : ℕ} : Reads (openAt t table i l quantity) (sizeOf (some t)) table.size :=
  openAt_reads fun _ _ _ _ => sizeOf_reads

lemma openAt_bucket {l : ℕ} :
    Reads (openAt t table i l quantity) (bucketAt (some t) i) (some l) := by
  refine openAt_reads fun b ls hi hl => bucketAt_reads hi ?_
  rw [slotsOf, List.getElem?_map, hl]
  rfl

lemma openAt_addQuantity {l : ℕ} (n : ℤ) :
    Triple (openAt t table i l quantity) (addQuantity (some t) n) fun _ =>
      openAt t table i l (quantity + n) := by
  refine triple_ex fun b => triple_ex fun ls => triple_only fun ⟨hi, hl⟩ => ?_
  exact (addQuantity_triple n).last _ rfl fun _ _ hc =>
    ⟨b, ls, mem_only_mul.mpr ⟨⟨hi, hl⟩, hc⟩⟩

/-! ### The calls -/

lemma triple_open (hb : RemoteTable.bucketAt table i = .ok list)
    (h : ∀ l, Triple (listAt l list * (openAt t table i l table.quantityEntry * F)) x Q) :
    Triple (tableAt t table * F) x Q := by
  refine Triple.weaken ?_ (mul_le_mul_left (tableAt_open t hb) F)
  rw [ex_mul]
  refine triple_ex fun l => ?_
  rw [mul_assoc]
  exact h l

lemma readKey (k : ℕ) (key : CString) :
    Reads (ownedString k key) (lift blocks (readString (some k))) key :=
  (reads_string key).lift blocks

/-- What `table_get` returns for an entry or its absence. -/
def copyOf (entry : Option EntryT) (r : Option ℕ) : Assertion Cell :=
  match entry with
  | none => only (r = none)
  | some e => returned (fun q => ownedData q e.value) r

lemma found_of_none {whole : List EntryT → Assertion Cell} {es : List EntryT} (r : Option ℕ)
    (h : lookupKey EntryT.key key es = none) :
    found whole es key r = only (r = none) * whole es := by
  rw [found, h]

lemma found_of_some {whole : List EntryT → Assertion Cell} {es : List EntryT} {e : EntryT}
    (r : Option ℕ) (h : lookupKey EntryT.key key es = some e) :
    found whole es key r = returned (fun q => ownedEntry q e *
      remainder (fun v => ownedEntry q (e.withValue v)) fun v =>
        whole (modifyKey EntryT.key key (EntryT.withValue v) es)) r := by
  rw [found, h]

lemma dupValue_triple (q : ℕ) (e : EntryT) :
    Triple (ownedEntry q e) (lift blocks do
        let (_, value) ← readEntry (some q)
        dataDup value) fun r =>
      returned (fun d => ownedData d e.value) r * ownedEntry q e := by
  apply (triple_lift blocks (valueDup_triple q e)).mono le_rfl
  intro r
  rw [embed_mul, embed_returned]
  rfl

theorem tableGet_triple (t k : ℕ)
    (hb : RemoteTable.bucketAt table (keyHash key table.size) = .ok list) :
    Triple (tableAt t table * ownedString k key) (tableGet (some t) (some k)) fun r =>
      copyOf (RemoteTable.listGet list key) r * (tableAt t table * ownedString k key) := by
  have hargs : ¬(some t = none ∨ some k = none) := by simp
  rw [tableGet, if_neg hargs, listGet_eq]
  refine triple_open hb fun l => ?_
  set opened := openAt t table (keyHash key table.size) l table.quantityEntry with hopened
  have hclose : listAt l list * opened ≤ tableAt t table := openAt_close_self t l hb
  refine (readKey k key).step (listAt l list * opened) (by ac_rfl) ?_
  refine openAt_size.step (listAt l list * ownedString k key) (by rw [hopened]; ac_rfl) ?_
  refine openAt_bucket.step (listAt l list * ownedString k key) (by rw [hopened]; ac_rfl) ?_
  refine (listGet_triple list l k key).step opened (by ac_rfl) fun r => ?_
  cases hlookup : lookupKey EntryT.key key list.head with
  | none =>
    rw [found_of_none r hlookup, mul_assoc, mul_assoc]
    refine triple_only ?_
    rintro rfl
    apply triple_pure
    rw [copyOf, only_mul_of rfl]
    refine le_trans (le_of_eq ?_) (mul_le_mul_left hclose (ownedString k key))
    ac_rfl
  | some e =>
    rw [found_of_some r hlookup, mul_assoc]
    apply triple_returned
    rintro q rfl
    refine (dupValue_triple q e).last (remainder (fun v => ownedEntry q (e.withValue v)) (fun v =>
      listAt l ⟨list.size, modifyKey EntryT.key key (EntryT.withValue v) list.head⟩) *
      (ownedString k key * opened)) (by ac_rfl) fun r => ?_
    rw [copyOf, mul_assoc]
    refine mul_le_mul' le_rfl ?_
    -- the entry goes back as it was
    have hback := mul_remainder_le (fun v => ownedEntry q (e.withValue v)) (fun v =>
      listAt l ⟨list.size, modifyKey EntryT.key key (EntryT.withValue v) list.head⟩) e.value
    rw [modify_of_fixed hlookup rfl] at hback
    rw [← mul_assoc]
    refine (mul_le_mul_left hback _).trans ?_
    refine le_trans (le_of_eq ?_) (mul_le_mul_left hclose (ownedString k key))
    ac_rfl

lemma newEntry_triple (k d : ℕ) (key : CString) (value : DataT) :
    Triple (ownedString k key * ownedData d value) (lift blocks (entryCreate (some k) (some d)))
      fun r => returned (fun p => ownedEntry p ⟨key, value⟩) r *
        (ownedString k key * ownedData d value) := by
  refine (triple_lift blocks (entryCreate_triple k d ⟨key, value⟩)).mono ?_ fun r => ?_
  · rw [embed_mul]
    exact le_rfl
  · rw [embed_mul, embed_mul, embed_returned]
    exact le_rfl

/-- The copy that `table_get` made is lost. -/
lemma tablePut_present {e : EntryT} (t k d : ℕ) (value : DataT)
    (hb : RemoteTable.bucketAt table (keyHash key table.size) = .ok list)
    (hget : RemoteTable.listGet list key = some e) :
    Triple (tableAt t table * (ownedString k key * ownedData d value))
      (tablePut (some t) (some k) (some d)) fun r =>
      only (r = -10) * (held 2 * (tableAt t table * (ownedString k key * ownedData d value))) := by
  have hargs : ¬(some t = none ∨ some k = none ∨ some d = none) := by simp
  rw [tablePut, if_neg hargs]
  refine (newEntry_triple k d key value).adds (tableAt t table) (mul_comm _ _) fun p => ?_
  refine (readKey k key).step (ownedEntry p ⟨key, value⟩ * (tableAt t table *
    ownedData d value)) (by ac_rfl) ?_
  refine (tableAt_size t table).step (ownedEntry p ⟨key, value⟩ * (ownedString k key *
    ownedData d value)) (by ac_rfl) ?_
  refine (tableGet_triple t k hb).step (ownedEntry p ⟨key, value⟩ * ownedData d value)
    (by ac_rfl) fun r => ?_
  rw [hget, copyOf, mul_assoc]
  apply triple_returned
  rintro q rfl
  refine (destroyEntry_triple p ⟨key, value⟩).step (ownedData q e.value * (tableAt t table *
    (ownedString k key * ownedData d value))) (by ac_rfl) fun _ => ?_
  apply triple_pure
  rw [only_mul_of rfl, one_mul]
  exact mul_le_mul_left (ownedData_le_held q e.value) _

/-- A new entry goes into its list, and the one that was made for it is released. -/
lemma tablePut_absent (t k d : ℕ) (value : DataT) (hw : list.WellFormed)
    (hb : RemoteTable.bucketAt table (keyHash key table.size) = .ok list)
    (hget : RemoteTable.listGet list key = none) :
    Triple (tableAt t table * (ownedString k key * ownedData d value))
      (tablePut (some t) (some k) (some d)) fun r =>
      only (r = 0) * (tableAt t (RemoteTable.setBucket table (keyHash key table.size)
        (RemoteTable.listAdd list ⟨key, value⟩).2 (table.quantityEntry + 1)) *
        (ownedString k key * ownedData d value)) := by
  have hargs : ¬(some t = none ∨ some k = none ∨ some d = none) := by simp
  rw [tablePut, if_neg hargs]
  refine (newEntry_triple k d key value).adds (tableAt t table) (mul_comm _ _) fun p => ?_
  refine (readKey k key).step (ownedEntry p ⟨key, value⟩ * (tableAt t table *
    ownedData d value)) (by ac_rfl) ?_
  refine (tableAt_size t table).step (ownedEntry p ⟨key, value⟩ * (ownedString k key *
    ownedData d value)) (by ac_rfl) ?_
  refine (tableGet_triple t k hb).step (ownedEntry p ⟨key, value⟩ * ownedData d value)
    (by ac_rfl) fun r => ?_
  rw [hget, copyOf, mul_assoc]
  apply triple_only
  rintro rfl
  rw [mul_assoc]
  refine triple_open hb fun l => ?_
  refine openAt_bucket.step (listAt l list * (ownedString k key * (ownedEntry p ⟨key, value⟩ *
    ownedData d value))) (by ac_rfl) ?_
  refine (listAdd_triple hw l p ⟨key, value⟩).step (openAt t table (keyHash key table.size) l
    table.quantityEntry * (ownedString k key * ownedData d value)) (by ac_rfl) fun r => ?_
  rw [mul_assoc]
  apply triple_only
  rintro rfl
  have hok : (RemoteTable.listAdd list ⟨key, value⟩).1 = 0 := by rw [listAdd_eq hw]
  rw [hok, if_pos rfl]
  refine (openAt_addQuantity 1).step (listAt l (RemoteTable.listAdd list ⟨key, value⟩).2 *
    (ownedEntry p ⟨key, value⟩ * (ownedString k key * ownedData d value))) (by ac_rfl)
    fun _ => ?_
  refine (destroyEntry_triple p ⟨key, value⟩).step (listAt l (RemoteTable.listAdd list
    ⟨key, value⟩).2 * openAt t table (keyHash key table.size) l (table.quantityEntry + 1) *
    (ownedString k key * ownedData d value)) (by ac_rfl) fun _ => ?_
  apply triple_pure
  rw [only_mul_of rfl, one_mul]
  exact mul_le_mul_left (openAt_close t table _ l _ _) _

lemma replaceData_triple (q d : ℕ) (e : EntryT) (value : DataT) :
    Triple (ownedEntry q e * ownedData d value) (lift blocks do
        let (_, old) ← readEntry (some q)
        dataDestroy old
        setValue (some q) (some d)) fun _ => ownedEntry q (e.withValue value) := by
  apply (triple_lift blocks (replaceValue_triple q d e value)).weaken
  rw [embed_mul]
  exact le_rfl

/-- Without the block of its bytes. -/
lemma freeData_triple (q : ℕ) (v : DataT) :
    Triple (ownedData q v) (free (some q)) fun _ => held 1 := by
  rw [ownedData, dataAt, embed_ex]
  refine triple_ex fun b => ?_
  rw [embed_mul, embed_cell, embed_cell]
  refine (triple_free q _).last _ rfl fun _ => ?_
  rw [one_mul]
  exact cell_le_held b _

/-- Only the block of `new_data` itself is released. -/
lemma tableUpdate_absent (t k d : ℕ) (value : DataT)
    (hb : RemoteTable.bucketAt table (keyHash key table.size) = .ok list)
    (hget : RemoteTable.listGet list key = none) :
    Triple (tableAt t table * (ownedString k key * ownedData d value))
      (tableUpdate (some t) (some k) (some d)) fun r =>
      only (r = -1) * (held 1 * (tableAt t table * (ownedString k key * ownedData d value))) := by
  have hargs : ¬(some t = none ∨ some k = none ∨ some d = none) := by simp
  rw [listGet_eq] at hget
  rw [tableUpdate, if_neg hargs]
  refine (dupData_triple d value).adds (tableAt t table * ownedString k key) (by ac_rfl)
    fun q => ?_
  refine (readKey k key).step (ownedData q value * (tableAt t table * ownedData d value))
    (by ac_rfl) ?_
  refine Triple.weaken (P := tableAt t table * (ownedString k key * (ownedData d value *
    ownedData q value))) ?_ (le_of_eq (by ac_rfl))
  refine triple_open hb fun l => ?_
  set opened := openAt t table (keyHash key table.size) l table.quantityEntry with hopened
  have hclose : listAt l list * opened ≤ tableAt t table := openAt_close_self t l hb
  refine openAt_size.step (listAt l list * (ownedString k key * (ownedData d value *
    ownedData q value))) (by rw [hopened]; ac_rfl) ?_
  refine openAt_bucket.step (listAt l list * (ownedString k key * (ownedData d value *
    ownedData q value))) (by rw [hopened]; ac_rfl) ?_
  refine (listGet_triple list l k key).step (opened * (ownedData d value * ownedData q value))
    (by ac_rfl) fun r => ?_
  rw [found_of_none r hget, mul_assoc, mul_assoc]
  apply triple_only
  rintro rfl
  refine (freeData_triple q value).step (listAt l list * opened * (ownedString k key *
    ownedData d value)) (by ac_rfl) fun _ => ?_
  apply triple_pure
  rw [only_mul_of rfl]
  exact mul_le_mul' le_rfl (mul_le_mul_left hclose _)

/-- The entry keeps its place and gets the new value. -/
lemma tableUpdate_present {e : EntryT} (t k d : ℕ) (value : DataT)
    (hb : RemoteTable.bucketAt table (keyHash key table.size) = .ok list)
    (hget : RemoteTable.listGet list key = some e) :
    Triple (tableAt t table * (ownedString k key * ownedData d value))
      (tableUpdate (some t) (some k) (some d)) fun r =>
      only (r = 0) * (tableAt t (RemoteTable.setBucket table (keyHash key table.size)
        (listSetValue list key value) table.quantityEntry) *
        (ownedString k key * ownedData d value)) := by
  have hargs : ¬(some t = none ∨ some k = none ∨ some d = none) := by simp
  rw [listGet_eq] at hget
  rw [tableUpdate, if_neg hargs]
  refine (dupData_triple d value).adds (tableAt t table * ownedString k key) (by ac_rfl)
    fun q => ?_
  refine (readKey k key).step (ownedData q value * (tableAt t table * ownedData d value))
    (by ac_rfl) ?_
  refine Triple.weaken (P := tableAt t table * (ownedString k key * (ownedData d value *
    ownedData q value))) ?_ (le_of_eq (by ac_rfl))
  refine triple_open hb fun l => ?_
  refine openAt_size.step (listAt l list * (ownedString k key * (ownedData d value *
    ownedData q value))) (by ac_rfl) ?_
  refine openAt_bucket.step (listAt l list * (ownedString k key * (ownedData d value *
    ownedData q value))) (by ac_rfl) ?_
  refine (listGet_triple list l k key).step (openAt t table (keyHash key table.size) l
    table.quantityEntry * (ownedData d value * ownedData q value)) (by ac_rfl) fun r => ?_
  rw [found_of_some r hget, mul_assoc]
  apply triple_returned
  rintro p rfl
  set rest := remainder (fun v => ownedEntry p (e.withValue v)) fun v =>
    listAt l ⟨list.size, modifyKey EntryT.key key (EntryT.withValue v) list.head⟩ with hrest
  refine (replaceData_triple p q e value).step (rest * (openAt t table (keyHash key table.size) l
    table.quantityEntry * (ownedString k key * ownedData d value))) (by ac_rfl) fun _ => ?_
  apply triple_pure
  rw [only_mul_of rfl, ← mul_assoc, ← mul_assoc]
  have hback : ownedEntry p (e.withValue value) * rest ≤
      listAt l (listSetValue list key value) := by
    rw [listSetValue, setValueLoop_eq]
    exact mul_remainder_le (fun v => ownedEntry p (e.withValue v)) _ value
  exact mul_le_mul_left ((mul_le_mul_left hback _).trans (openAt_close t table _ l _ _)) _

theorem tableDel_triple (t k : ℕ)
    (hb : RemoteTable.bucketAt table (keyHash key table.size) = .ok list) :
    Triple (tableAt t table * ownedString k key) (tableDel (some t) (some k)) fun r =>
      only (r = (RemoteTable.listRemove list key).1) *
        (tableAt t (RemoteTable.setBucket table (keyHash key table.size)
          (RemoteTable.listRemove list key).2
          (if (RemoteTable.listRemove list key).1 = 0 then table.quantityEntry - 1
            else table.quantityEntry)) * ownedString k key) := by
  have hargs : ¬(some t = none ∨ some k = none) := by simp
  rw [tableDel, if_neg hargs]
  refine triple_open hb fun l => ?_
  refine (readKey k key).step (listAt l list * openAt t table (keyHash key table.size) l
    table.quantityEntry) (by ac_rfl) ?_
  refine openAt_size.step (listAt l list * ownedString k key) (by ac_rfl) ?_
  refine openAt_bucket.step (listAt l list * ownedString k key) (by ac_rfl) ?_
  refine (listRemove_triple list l k key).step (openAt t table (keyHash key table.size) l
    table.quantityEntry) (by ac_rfl) fun r => ?_
  rw [mul_assoc]
  apply triple_only
  rintro rfl
  by_cases hok : (RemoteTable.listRemove list key).1 = 0
  · rw [if_pos hok, if_pos hok]
    refine (openAt_addQuantity (-1)).step (listAt l (RemoteTable.listRemove list key).2 *
      ownedString k key) (by ac_rfl) fun _ => ?_
    apply triple_pure
    rw [only_mul_of rfl]
    refine le_trans (le_of_eq ?_) (mul_le_mul_left (openAt_close t table _ l _ _) _)
    ac_rfl
  · rw [if_neg hok, if_neg hok]
    apply triple_pure
    rw [only_mul_of rfl]
    refine le_trans (le_of_eq ?_) (mul_le_mul_left (openAt_close t table _ l _ _) _)
    ac_rfl

theorem tableSize_triple (t : ℕ) (table : TableT) :
    Reads (tableAt t table) (tableSize (some t)) (RemoteTable.tableSize table) := by
  refine reads_ex fun b => reads_ex fun ls => ?_
  rw [arrayAt, mul_assoc]
  refine (reads_table t b table.size table.quantityEntry).step _ rfl ?_
  exact reads_pure _ table.quantityEntry

/-! ### Making and destroying a table -/

lemma bucketsLoop_triple (t b : ℕ) (size quantity : ℤ) (front ls : List ℕ)
    (lists : List ListT) :
    Triple (arrayAt t b (slotsOf (front ++ ls)) size quantity * listsAt ls lists)
      (bucketsLoop (some t) lists.length front.length) fun _ =>
      arrayAt t b (slotsOf (front ++ ls)) size quantity := by
  induction lists generalizing front ls with
  | nil =>
    cases ls with
    | nil =>
      apply triple_pure
      rw [listsAt, mul_one]
    | cons l ls =>
      rw [mul_comm]
      exact triple_only False.elim
  | cons list lists ih =>
    cases ls with
    | nil =>
      rw [mul_comm]
      exact triple_only False.elim
    | cons l ls =>
      have hslot : (slotsOf (front ++ l :: ls))[(front.length : ℤ).toNat]? =
          some (some (some l)) := by
        simp [slotsOf]
      refine (bucketAt_reads (Int.natCast_nonneg _) hslot).step _ rfl ?_
      refine (listDestroy_triple l list).step (arrayAt t b (slotsOf (front ++ l :: ls)) size
        quantity * listsAt ls lists) (by rw [listsAt]; ac_rfl) fun _ => ?_
      rw [one_mul]
      have h := ih (front ++ [l]) ls
      rwa [List.append_assoc, List.length_append] at h

theorem tableDestroy_triple (t : ℕ) (hlen : table.buckets.length = table.size.toNat) :
    Triple (tableAt t table) (tableDestroy (some t)) fun _ => 1 := by
  refine triple_ex fun b => triple_ex fun ls => ?_
  rw [tableDestroy]
  refine sizeOf_reads.step _ rfl ?_
  have hloop := bucketsLoop_triple t b table.size table.quantityEntry [] ls table.buckets
  rw [hlen] at hloop
  refine hloop.bind fun _ => ?_
  refine (reads_table t b table.size table.quantityEntry).step _ rfl ?_
  refine (triple_free b _).step _ (mul_comm _ _) fun _ => ?_
  rw [one_mul]
  exact triple_free t _

lemma listsAt_append (ls : List ℕ) (lists : List ListT) (l : ℕ) (list : ListT) :
    listsAt ls lists * listAt l list ≤ listsAt (ls ++ [l]) (lists ++ [list]) := by
  induction ls generalizing lists with
  | nil =>
    cases lists with
    | nil => exact (mul_comm _ _).le
    | cons first lists => exact fun _ ⟨_, hc, _⟩ => hc.1.elim
  | cons l' ls ih =>
    cases lists with
    | nil => exact fun _ ⟨_, hc, _⟩ => hc.1.elim
    | cons first lists =>
      rw [listsAt, mul_assoc]
      exact mul_le_mul' le_rfl (ih lists)

/-- The first buckets are filled, and the slots of the others are unset. -/
lemma createLoop_triple (t b : ℕ) (size quantity : ℤ) (left : ℕ) (ls : List ℕ) :
    Triple (arrayAt t b (slotsOf ls ++ List.replicate left none) size quantity *
        listsAt ls (List.replicate ls.length RemoteTable.listCreate))
      (createLoop (some t) left ls.length) fun r => only (r = true) * ex fun ls' =>
        arrayAt t b (slotsOf ls') size quantity *
          listsAt ls' (List.replicate (ls.length + left) RemoteTable.listCreate) := by
  induction left generalizing ls with
  | zero =>
    apply triple_pure
    rw [only_mul_of rfl, List.replicate_zero, List.append_nil]
    exact fun _ hc => ⟨ls, hc⟩
  | succ left ih =>
    rw [createLoop]
    refine listCreate_triple.step _ (one_mul _).symm fun r => triple_returned ?_
    rintro l rfl
    refine (setBucket_triple ls.length (some l)).step (listAt l RemoteTable.listCreate *
      listsAt ls (List.replicate ls.length RemoteTable.listCreate)) (by ac_rfl) fun _ => ?_
    have hslots : (slotsOf ls ++ List.replicate (left + 1) none).set ls.length (some (some l)) =
        slotsOf (ls ++ [l]) ++ List.replicate left none := by
      simp [slotsOf, List.replicate_succ]
    have hlists : listAt l RemoteTable.listCreate *
        listsAt ls (List.replicate ls.length RemoteTable.listCreate) ≤
        listsAt (ls ++ [l]) (List.replicate (ls ++ [l]).length RemoteTable.listCreate) := by
      rw [mul_comm, List.length_append, List.length_singleton, List.replicate_succ']
      exact listsAt_append ls _ l _
    have h := ih (ls ++ [l])
    rw [hslots]
    rw [List.length_append, List.length_singleton, Nat.add_assoc, Nat.add_comm 1] at h
    exact h.weaken (mul_le_mul' le_rfl (by simpa using hlists))

theorem tableCreate_triple (unset : ℤ) {n : ℤ} (hcreate : RemoteTable.tableCreate n = some table) :
    Triple 1 (tableCreate unset n) (returned fun t => tableAt t table) := by
  have hn : ¬n ≤ 0 := not_le.mpr (pos_of_tableCreate hcreate)
  rw [RemoteTable.tableCreate, if_neg hn] at hcreate
  cases hcreate
  rw [tableCreate, if_neg hn]
  refine triple_malloc_step fun t => ?_
  rw [mul_one]
  refine triple_malloc_step fun b => ?_
  refine (triple_write t _ _).step _ (mul_comm _ _) fun _ => ?_
  have hloop := createLoop_triple t b unset unset n.toNat []
  rw [List.length_nil, Nat.zero_add, List.replicate_zero, listsAt, mul_one] at hloop
  refine hloop.bind fun filled => triple_only ?_
  rintro rfl
  rw [if_pos rfl]
  refine triple_ex fun ls => ?_
  rw [arrayAt, mul_assoc]
  refine (triple_write t _ _).step _ rfl fun _ => ?_
  rw [← mul_assoc]
  apply triple_pure
  refine (tableAt_intro t b ls ⟨List.replicate n.toNat RemoteTable.listCreate, n, 0⟩).trans ?_
  exact le_returned (fun t => tableAt t ⟨List.replicate n.toNat RemoteTable.listCreate, n, 0⟩) t

end

end RemoteTable.Pointers
