import RemoteTable.ChainedList

/-!
# The hash table of `table.c`

Sizes and counters are integers, and a bucket index outside the array is a fault: it comes
from `key_hash`, whose result has the sign of the sum of the characters.
-/

namespace RemoteTable

/-- The value of a `char`, which is signed. -/
def charValue (c : UInt8) : ℤ := if c.toNat < 128 then c.toNat else (c.toNat : ℤ) - 256

/-- Conversion to a 32-bit `int`. -/
def toInt (n : ℤ) : ℤ := Int.bmod n (2 ^ 32)

/-- `hashCode = hashCode + (int) key[i]` over consecutive characters. -/
def addChars (hashCode : ℤ) (cs : List UInt8) : ℤ :=
  cs.foldl (fun h c => h + charValue c) hashCode

def keyHash (key : CString) (l : ℤ) : ℤ :=
  if l ≤ 0 then -1
  else
    let min := 3
    let lenghtKey := toInt (strlen key)
    let hashCode :=
      if lenghtKey ≤ 5 then addChars 0 (key.bytes.take lenghtKey.toNat)
      else addChars (addChars 0 (key.bytes.take min))
        ((key.bytes.drop (lenghtKey.toNat - min)).take min)
    hashCode.tmod l

/-- `struct table_t` -/
@[ext] structure TableT where
  buckets : List ListT
  size : ℤ
  /-- An `int` in C, which counts up to 2^31 - 1 entries in all buckets. -/
  quantityEntry : ℤ
  deriving DecidableEq

def tableCreate (n : ℤ) : Option TableT :=
  if n ≤ 0 then none else some ⟨List.replicate n.toNat listCreate, n, 0⟩

/-- `table->buckets[i]` -/
def bucketAt (table : TableT) (i : ℤ) : Except Fault ListT :=
  if i < 0 then .error .outOfBounds
  else match table.buckets[i.toNat]? with
    | none => .error .outOfBounds
    | some list => .ok list

/-- The table with another list behind `table->buckets[i]`. -/
def setBucket (table : TableT) (i : ℤ) (list : ListT) (quantity : ℤ) : TableT :=
  ⟨table.buckets.set i.toNat list, table.size, quantity⟩

def tableGet (table : TableT) (key : CString) : Except Fault (Option DataT) := do
  let indexEntry := keyHash key table.size
  let list ← bucketAt table indexEntry
  match listGet list key with
  | none => return none
  | some entry => return some entry.value

def tablePut (table : TableT) (key : CString) (value : DataT) : Except Fault (ℤ × TableT) := do
  let newEntry : EntryT := ⟨key, value⟩
  let placeEntry := keyHash key table.size
  if (← tableGet table key) ≠ none then
    return (-10, table)
  let list ← bucketAt table placeEntry
  let (resultedValue, list') := listAdd list newEntry
  if resultedValue = 0 then
    return (resultedValue, setBucket table placeEntry list' (table.quantityEntry + 1))
  return (resultedValue, setBucket table placeEntry list' table.quantityEntry)

def tableUpdate (table : TableT) (key : CString) (value : DataT) :
    Except Fault (ℤ × TableT) := do
  let indexEntry := keyHash key table.size
  let list ← bucketAt table indexEntry
  match listGet list key with
  | none => return (-1, table)
  | some _ =>
    return (0, setBucket table indexEntry (listSetValue list key value) table.quantityEntry)

def tableDel (table : TableT) (key : CString) : Except Fault (ℤ × TableT) := do
  let indexEntry := keyHash key table.size
  let list ← bucketAt table indexEntry
  let (retValue, list') := listRemove list key
  if retValue = 0 then
    return (retValue, setBucket table indexEntry list' (table.quantityEntry - 1))
  return (retValue, setBucket table indexEntry list' table.quantityEntry)

def tableSize (table : TableT) : ℤ := table.quantityEntry

/-- The keys that the loop over the buckets copies, up to the closing `NULL`. -/
def collectKeys (buckets : List ListT) : List CString :=
  buckets.flatMap (fun list => (listGetKeys list).getD [])

def tableGetKeys (table : TableT) : Option (List CString) :=
  if table.quantityEntry = 0 then none else some (collectKeys table.buckets)

/-! ### Bucket indices -/

lemma keyHash_lt (key : CString) {l : ℤ} (hl : 0 < l) : keyHash key l < l := by
  simp only [keyHash, if_neg (not_le.mpr hl)]
  exact Int.tmod_lt_of_pos _ hl

lemma bucketAt_eq_ok {table : TableT} {i : ℤ} {list : ListT} :
    bucketAt table i = .ok list ↔ 0 ≤ i ∧ table.buckets[i.toNat]? = some list := by
  unfold bucketAt
  by_cases hi : i < 0
  · simp [hi]
  · rw [if_neg hi]
    cases table.buckets[i.toNat]? with
    | none => simp
    | some b => simp [not_lt.mp hi]

end RemoteTable
