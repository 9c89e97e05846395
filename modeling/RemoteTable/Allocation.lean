import RemoteTable.TableRefinement
import RemoteTable.Library.Memory

/-!
# Allocation on the way of a write

The constructors of `data.c`, `entry.c` and `list.c` with every `malloc` and `free`, and the
calls of `table_put` and `table_update` through them. A list holds its nodes in the order of
their `next` pointers.
-/

namespace RemoteTable.Allocation
open Memory

/-- The blocks that the constructors allocate. -/
inductive Block
  | node (entry : Option ℕ)
  | entry (key value : Option ℕ)
  | string (s : CString)
  | data (datasize : ℤ) (data : Option ℕ)
  | bytes (bs : List UInt8)

def readNode (p : Option ℕ) : Mem Block (Option ℕ) := do
  match ← read p with
  | .node entry => pure entry
  | _ => throw .outside

def readEntry (p : Option ℕ) : Mem Block (Option ℕ × Option ℕ) := do
  match ← read p with
  | .entry key value => pure (key, value)
  | _ => throw .outside

def readString (p : Option ℕ) : Mem Block CString := do
  match ← read p with
  | .string s => pure s
  | _ => throw .outside

def readData (p : Option ℕ) : Mem Block (ℤ × Option ℕ) := do
  match ← read p with
  | .data datasize data => pure (datasize, data)
  | _ => throw .outside

def readBytes (p : Option ℕ) : Mem Block (List UInt8) := do
  match ← read p with
  | .bytes bs => pure bs
  | _ => throw .outside

def strdup (s : Option ℕ) : Mem Block (Option ℕ) := do
  let chars ← readString s
  malloc (.string chars)

def memcpy (dst src : Option ℕ) (size : ℕ) : Mem Block Unit := do
  let bs ← readBytes src
  let old ← readBytes dst
  if bs.length < size ∨ old.length < size then throw .outside
  else write dst (.bytes (bs.take size ++ old.drop size))

/-! ### `data.c` -/

/-- What `malloc` leaves in a block is written over before it is read. -/
def dataCreate (size : ℤ) : Mem Block (Option ℕ) :=
  if size ≤ 0 then pure none
  else do
    let newData ← malloc (.data 0 none)
    match newData with
    | none => pure none
    | some _ => do
      let block ← malloc (.bytes (List.replicate size.toNat 0))
      write newData (.data 0 block)
      match block with
      | none => do
        free newData
        pure none
      | some _ => do
        write newData (.data size block)
        pure newData

def dataDestroy (data : Option ℕ) : Mem Block Unit :=
  match data with
  | none => pure ()
  | some p => do
    let (_, block) ← readData (some p)
    free block
    free (some p)

def dataCreate2 (size : ℤ) (data : Option ℕ) : Mem Block (Option ℕ) :=
  if data = none ∨ size ≤ 0 then pure none
  else do
    let newData ← dataCreate size
    match newData with
    | none => pure none
    | some _ => do
      let (_, block) ← readData newData
      memcpy block data size.toNat
      match block with
      | none => do
        dataDestroy newData
        pure none
      | some _ => pure newData

def dataDup (data : Option ℕ) : Mem Block (Option ℕ) :=
  match data with
  | none => pure none
  | some p => do
    let (datasize, block) ← readData (some p)
    dataCreate2 datasize block

/-! ### `entry.c` -/

/-- `entry->key = key` -/
def setKey (entry key : Option ℕ) : Mem Block Unit := do
  let (_, value) ← readEntry entry
  write entry (.entry key value)

/-- `entry->value = value` -/
def setValue (entry value : Option ℕ) : Mem Block Unit := do
  let (key, _) ← readEntry entry
  write entry (.entry key value)

def entryCreate (key data : Option ℕ) : Mem Block (Option ℕ) :=
  if key = none ∨ data = none then pure none
  else do
    let newEntry ← malloc (.entry none none)
    match newEntry with
    | none => do
      -- the caller's data and key
      dataDestroy data
      free key
      pure none
    | some _ => do
      let newKey ← strdup key
      setKey newEntry newKey
      whenNull newKey (free newEntry)
      let value ← dataDup data
      setValue newEntry value
      whenNull value (do
        let (key, _) ← readEntry newEntry
        free key
        free newEntry)
      -- not `NULL`, whatever was released
      pure newEntry

def entryDestroy (entry : Option ℕ) : Mem Block Unit :=
  match entry with
  | none => pure ()
  | some p => do
    let (key, value) ← readEntry (some p)
    dataDestroy value
    free key
    free (some p)

def entryDup (entry : Option ℕ) : Mem Block (Option ℕ) :=
  match entry with
  | none => pure none
  | some p => do
    let (key, value) ← readEntry (some p)
    let entryDup ← entryCreate key value
    match entryDup with
    | none => do
      -- `free(entryDup->key)` with `entryDup` being `NULL`
      let (key, value) ← readEntry none
      free key
      dataDestroy value
      free none
      pure none
    | some _ => pure entryDup

/-! ### `list.c` -/

def destroyNode (n : Option ℕ) : Mem Block Unit :=
  match n with
  | none => pure ()
  | some p => do
    let entry ← readNode (some p)
    entryDestroy entry
    free (some p)

def createNode (entry : Option ℕ) : Mem Block (Option ℕ) :=
  match entry with
  | none => pure none
  | some p => do
    let node ← malloc (.node none)
    match node with
    | none => pure none
    | some _ => do
      let copy ← entryDup (some p)
      write node (.node copy)
      whenNull copy (destroyNode node)
      -- `node->next = NULL`
      let _ ← readNode node
      pure node

/-- `struct list_t` with its nodes from `head` on -/
structure HeapList where
  size : ℤ
  head : List ℕ

/-- The string `node->entry->key` -/
def nodeKey (node : ℕ) : Mem Block CString := do
  let entry ← readNode (some node)
  let (key, _) ← readEntry entry
  readString key

/-- The loop of `list_add` at `current`, with the nodes already passed in `front`. -/
def listAddLoop (size : ℤ) (newNode : ℕ) (entry : Option ℕ) :
    List ℕ → List ℕ → Mem Block (ℤ × HeapList)
  | front, [] => pure (-1, ⟨size, front⟩)
  | front, current :: rest => do
    let key ← nodeKey current
    let newKey ← nodeKey newNode
    if strcmp key newKey = 0 then do
      let old ← readNode (some current)
      entryDestroy old
      let copy ← entryDup entry
      write (some current) (.node copy)
      destroyNode (some newNode)
      pure (0, ⟨size, front ++ current :: rest⟩)
    -- `list->head = new_node` and `new_node->next = current`: the nodes of `front` are lost
    else if strcmp key newKey < 0 then pure (0, ⟨size + 1, newNode :: current :: rest⟩)
    else match rest with
      | [] => pure (0, ⟨size + 1, front ++ [current, newNode]⟩)
      | next :: _ => do
        let nextKey ← nodeKey next
        if 0 < strcmp key newKey ∧ strcmp nextKey newKey < 0 then
          pure (0, ⟨size + 1, front ++ current :: newNode :: rest⟩)
        else listAddLoop size newNode entry (front ++ [current]) rest

def listAdd (list : HeapList) (entry : Option ℕ) : Mem Block (ℤ × HeapList) := do
  let newNode ← createNode entry
  match newNode with
  | none => pure (-1, list)
  | some node =>
    match list.head with
    | [] => pure (0, ⟨list.size + 1, [node]⟩)
    | _ :: _ => listAddLoop list.size node entry [] list.head

/-- The walk of `list_get` from `current_node`. -/
def listGetLoop (key : CString) : List ℕ → Mem Block (Option ℕ)
  | [] => pure none
  | current :: rest => do
    let currentKey ← nodeKey current
    if strcmp currentKey key = 0 then readNode (some current)
    else listGetLoop key rest

/-! ### `table.c` -/

/-- `struct table_t` -/
structure HeapTable where
  buckets : List HeapList
  size : ℤ
  quantityEntry : ℤ

/-- `table->buckets[i]` -/
def bucketAt (table : HeapTable) (i : ℤ) : Mem Block HeapList :=
  if i < 0 then throw .outside
  else match table.buckets[i.toNat]? with
    | none => throw .outside
    | some list => pure list

def tableGet (table : HeapTable) (key : Option ℕ) : Mem Block (Option ℕ) :=
  if key = none then pure none
  else do
    let chars ← readString key
    let list ← bucketAt table (keyHash chars table.size)
    let entry ← listGetLoop chars list.head
    match entry with
    | none => pure none
    | some p => do
      let (_, value) ← readEntry (some p)
      dataDup value

def tablePut (table : HeapTable) (key value : Option ℕ) : Mem Block (ℤ × HeapTable) :=
  if key = none ∨ value = none then pure (-1, table)
  else do
    let newEntry ← entryCreate key value
    match newEntry with
    | none => pure (-1, table)
    | some _ => do
      let chars ← readString key
      let placeEntry := keyHash chars table.size
      let found ← tableGet table key
      match found with
      | some _ => do
        entryDestroy newEntry
        pure (-10, table)
      | none => do
        let list ← bucketAt table placeEntry
        let (resultedValue, list) ← listAdd list newEntry
        entryDestroy newEntry
        let quantity := if resultedValue = 0 then table.quantityEntry + 1 else table.quantityEntry
        pure (resultedValue, ⟨table.buckets.set placeEntry.toNat list, table.size, quantity⟩)

def tableUpdate (table : HeapTable) (key value : Option ℕ) : Mem Block (ℤ × HeapTable) :=
  if key = none ∨ value = none then pure (-1, table)
  else do
    let newData ← dataDup value
    match newData with
    | none => pure (-1, table)
    | some _ => do
      let chars ← readString key
      let list ← bucketAt table (keyHash chars table.size)
      let entryToUpdate ← listGetLoop chars list.head
      match entryToUpdate with
      | none => do
        free newData
        pure (-1, table)
      | some p => do
        let (_, old) ← readEntry (some p)
        dataDestroy old
        setValue (some p) newData
        pure (0, table)

end RemoteTable.Allocation
