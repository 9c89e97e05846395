import RemoteTable.PointerCalls
import RemoteTable.Skeleton
import RemoteTable.WireFormat

/-!
# The memory of messages

`message.c` over the blocks that its pointers lead to: the members of a message, its encoder
and `free_message`, which releases all that a message owns.
-/

namespace RemoteTable.Pointers
open Memory Memory.Assertion Allocation

/-- The member of `union content_u` that was assigned last. -/
inductive HeapContent
  | result (result : Int32)
  | data (data : Option ℕ)
  | key (key : Option ℕ)
  | keys (keys : Option ℕ)
  | entry (entry : Option ℕ)

/-- The blocks of a server process. Members of a message are unset at first. -/
inductive ServerCell
  /-- what the table and its values are made of -/
  | stored (c : Cell)
  | message (opcode cType : Option Int16) (content : Option HeapContent)
  /-- a `char **` -/
  | keys (slots : List (Option (Option ℕ)))
  /-- a `struct server_t` with its descriptor once it is assigned -/
  | server (sockFd : Option ℕ)

def cells : Inclusion Cell ServerCell where
  embed := .stored
  project
    | .stored c => some c
    | _ => none
  project_embed _ := rfl
  embed_project b c h := by
    cases b with
    | stored c =>
      cases h
      rfl
    | _ => cases h

/-- What `data.c` and `entry.c` do. -/
def onBlocks {β : Type} (x : Mem Allocation.Block β) : Mem ServerCell β :=
  lift cells (lift blocks x)

/-- A block of bytes. As many are listed as were written. -/
def bytesCell (bs : List UInt8) : ServerCell := .stored (.block (.bytes bs))

def stringCell (s : CString) : ServerCell := .stored (.block (.string s))

/-- A read past the end of what was written. -/
def parse {α β : Type} (x : Except RemoteTable.Fault β) : Mem α β :=
  match x with
  | .ok b => pure b
  | .error _ => throw .outside

/-! ### Strings and their arrays -/

/-- `malloc`, `memcpy` and a terminator. -/
def newString (s : CString) : Mem ServerCell (Option ℕ) := do
  let p ← malloc (stringCell (.ofBytes []))
  write p (stringCell s)
  pure p

def readKeys (p : Option ℕ) : Mem ServerCell (List (Option (Option ℕ))) := do
  match ← read p with
  | .keys slots => pure slots
  | _ => throw .outside

/-- `keys[i]` -/
def keyAt (keys : Option ℕ) (i : ℕ) : Mem ServerCell (Option ℕ) := do
  let slots ← readKeys keys
  match slots[i]? with
  | none => throw .outside
  | some none => throw .unset
  | some (some key) => pure key

/-- `keys[i] = key` -/
def setKeyAt (keys : Option ℕ) (i : ℕ) (key : Option ℕ) : Mem ServerCell Unit := do
  let slots ← readKeys keys
  if i < slots.length then write keys (.keys (slots.set i (some key))) else throw .outside

/-- The loop of `list_free_keys` with `left` slots to go. -/
def freeKeysLoop (keys : Option ℕ) : ℕ → ℕ → Mem ServerCell Unit
  | 0, _ => throw .outside
  | left + 1, i => do
    let key ← keyAt keys i
    match key with
    | none => pure ()
    | some _ => do
      free key
      freeKeysLoop keys left (i + 1)

def listFreeKeys (keys : Option ℕ) : Mem ServerCell Unit :=
  match keys with
  | none => pure ()
  | some _ => do
    let slots ← readKeys keys
    freeKeysLoop keys slots.length 0
    free keys

def tableFreeKeys (keys : Option ℕ) : Mem ServerCell Unit := listFreeKeys keys

/-- The strings in front of the `NULL` of a `char **`. -/
def readKeysLoop (keys : Option ℕ) : ℕ → ℕ → Mem ServerCell (List CString)
  | 0, _ => throw .outside
  | left + 1, i => do
    let key ← keyAt keys i
    match key with
    | none => pure []
    | some _ => do
      let chars ← onBlocks (readString key)
      let rest ← readKeysLoop keys left (i + 1)
      pure (chars :: rest)

/-! ### Members of a message -/

def readMessage (msg : Option ℕ) :
    Mem ServerCell (Option Int16 × Option Int16 × Option HeapContent) := do
  match ← read msg with
  | .message opcode cType content => pure (opcode, cType, content)
  | _ => throw .outside

/-- A member that was assigned. -/
def assigned {α β : Type} (member : Option β) : Mem α β :=
  match member with
  | none => throw .unset
  | some b => pure b

def opcodeOf (msg : Option ℕ) : Mem ServerCell Int16 := do
  let (opcode, _, _) ← readMessage msg
  assigned opcode

def cTypeOf (msg : Option ℕ) : Mem ServerCell Int16 := do
  let (_, cType, _) ← readMessage msg
  assigned cType

def contentOf (msg : Option ℕ) : Mem ServerCell HeapContent := do
  let (_, _, content) ← readMessage msg
  assigned content

/-- `msg->opcode` and `msg->c_type` -/
def setHeader (msg : Option ℕ) (opcode cType : Int16) : Mem ServerCell Unit := do
  let (_, _, content) ← readMessage msg
  write msg (.message (some opcode) (some cType) content)

def setContent (msg : Option ℕ) (content : HeapContent) : Mem ServerCell Unit := do
  let (opcode, cType, _) ← readMessage msg
  write msg (.message opcode cType (some content))

/-- A result with the members in front of it. -/
def setResult (msg : Option ℕ) (opcode : Int16) (result : ℤ) : Mem ServerCell Unit := do
  setHeader msg opcode ctResult
  setContent msg (.result (Int32.ofInt result))

def HeapContent.dataMember : HeapContent → Mem ServerCell (Option ℕ)
  | .data p => pure p
  | _ => throw .unset

def HeapContent.keyMember : HeapContent → Mem ServerCell (Option ℕ)
  | .key p => pure p
  | _ => throw .unset

def HeapContent.keysMember : HeapContent → Mem ServerCell (Option ℕ)
  | .keys p => pure p
  | _ => throw .unset

def HeapContent.entryMember : HeapContent → Mem ServerCell (Option ℕ)
  | .entry p => pure p
  | _ => throw .unset

def HeapContent.resultMember : HeapContent → Mem ServerCell Int32
  | .result r => pure r
  | _ => throw .unset

/-! ### `message.c` -/

/-- The tests of `c_type` exclude each other. -/
def freeMessage (msg : Option ℕ) : Mem ServerCell Unit :=
  match msg with
  | none => pure ()
  | some _ => do
    let cType ← cTypeOf msg
    if cType = ctValue then do
      let content ← contentOf msg
      let data ← content.dataMember
      onBlocks (dataDestroy data)
    else if cType = ctEntry then do
      let content ← contentOf msg
      let entry ← content.entryMember
      onBlocks (entryDestroy entry)
    else if cType = ctKeys then do
      let content ← contentOf msg
      let keys ← content.keysMember
      tableFreeKeys keys
    else if cType = ctKey then do
      let content ← contentOf msg
      let key ← content.keyMember
      free key
    free msg

/-- What the two passes of the encoder read. -/
def loadContent (cType : Int16) (content : HeapContent) : Mem ServerCell Content :=
  if cType = ctResult then do
    let result ← content.resultMember
    pure (.result result)
  else if cType = ctValue then do
    let data ← content.dataMember
    let value ← onBlocks (readValue data)
    pure (.data value)
  else if cType = ctKeys then do
    let keys ← content.keysMember
    let slots ← readKeys keys
    let strings ← readKeysLoop keys slots.length 0
    pure (.keys strings)
  else if cType = ctKey then do
    let key ← content.keyMember
    let chars ← onBlocks (readString key)
    pure (.key chars)
  else if cType = ctEntry then do
    let entry ← content.entryMember
    let (key, value) ← onBlocks (readEntry entry)
    let chars ← onBlocks (readString key)
    let stored ← onBlocks (readValue value)
    pure (.entry ⟨chars, stored⟩)
  -- the header goes into a block of no bytes
  else throw .outside

def loadMessage (msg : Option ℕ) : Mem ServerCell MessageT := do
  let opcode ← opcodeOf msg
  let cType ← cTypeOf msg
  let content ← contentOf msg
  let loaded ← loadContent cType content
  pure ⟨opcode, loaded⟩

/-- The buffer and the returned size. -/
def messageToBuffer (msg : Option ℕ) : Mem ServerCell (Option ℕ × ℤ) :=
  match msg with
  | none => pure (none, -1)
  | some _ => do
    let loaded ← loadMessage msg
    let (bytes, bufferSize) ← parse (RemoteTable.messageToBuffer (some loaded))
    let msgBuf ← malloc (bytesCell [])
    write msgBuf (bytesCell bytes)
    pure (msgBuf, bufferSize)

/-- The `datasize` of a value. -/
def printDatasize (value : Option ℕ) : Mem ServerCell Unit := do
  let _ ← onBlocks (readData value)
  pure ()

/-- What the `switch` of `print_msg` reads. -/
def printContent (cType : Int16) (content : HeapContent) : Mem ServerCell Unit :=
  if cType = ctEntry then do
    let entry ← content.entryMember
    let (key, value) ← onBlocks (readEntry entry)
    let _ ← onBlocks (readString key)
    printDatasize value
  else if cType = ctKey then do
    let key ← content.keyMember
    let _ ← onBlocks (readString key)
    pure ()
  else if cType = ctKeys then do
    let keys ← content.keysMember
    let slots ← readKeys keys
    let _ ← readKeysLoop keys slots.length 0
    pure ()
  else if cType = ctValue then do
    let data ← content.dataMember
    printDatasize data
  else if cType = ctResult then do
    let _ ← content.resultMember
    pure ()
  else pure ()

def printMsg (msg : Option ℕ) : Mem ServerCell Unit := do
  let opcode ← opcodeOf msg
  let cType ← cTypeOf msg
  if valid opcode cType = 0 then do
    let content ← contentOf msg
    printContent cType content
  else pure ()

/-! ### Messages as parts of the heap -/

def heapString (p : ℕ) (s : CString) : Assertion ServerCell := (ownedString p s).embed cells

def heapData (p : ℕ) (v : DataT) : Assertion ServerCell := (ownedData p v).embed cells

def heapEntry (p : ℕ) (e : EntryT) : Assertion ServerCell := (ownedEntry p e).embed cells

def stringsAt : List ℕ → List CString → Assertion ServerCell
  | [], [] => 1
  | p :: ps, s :: ss => heapString p s * stringsAt ps ss
  | _, _ => only False

def keySlots (ps : List ℕ) : List (Option (Option ℕ)) := ps.map fun p => some (some p)

/-- A `char **` with its strings and the `NULL` behind them. -/
def keysAt (a : ℕ) (ks : List CString) : Assertion ServerCell :=
  ex fun ps => cell a (.keys (keySlots ps ++ [some none])) * stringsAt ps ks

/-- The block of a message whose members are assigned. -/
def headAt (p : ℕ) (opcode cType : Int16) (member : HeapContent) : Assertion ServerCell :=
  cell p (.message (some opcode) (some cType) (some member))

/-- A message with what its content owns. -/
def messageAt (p : ℕ) (msg : MessageT) : Assertion ServerCell :=
  match msg.content with
  | .result r => headAt p msg.opcode ctResult (.result r)
  | .data d => ex fun q => headAt p msg.opcode ctValue (.data (some q)) * heapData q d
  | .key k => ex fun q => headAt p msg.opcode ctKey (.key (some q)) * heapString q k
  | .keys ks => ex fun q => headAt p msg.opcode ctKeys (.keys (some q)) * keysAt q ks
  | .entry e => ex fun q => headAt p msg.opcode ctEntry (.entry (some q)) * heapEntry q e

section
variable {β : Type} {P : Assertion Allocation.Block} {Q : β → Assertion Allocation.Block}
  {x : Mem Allocation.Block β} {b : β} {p : ℕ}

lemma triple_onBlocks (hx : Triple P x Q) :
    Triple ((P.embed blocks).embed cells) (onBlocks x) fun b => ((Q b).embed blocks).embed cells :=
  triple_lift cells (triple_lift blocks hx)

lemma reads_onBlocks (hx : Reads P x b) : Reads ((P.embed blocks).embed cells) (onBlocks x) b :=
  (hx.lift blocks).lift cells

lemma reads_parse {y : Except RemoteTable.Fault β} {R : Assertion ServerCell} (h : y = .ok b) :
    Reads R (parse y) b := by
  subst h
  exact reads_pure R b

lemma heapString_eq (p : ℕ) (s : CString) : heapString p s = cell p (stringCell s) := by
  rw [heapString, ownedString, embed_cell, embed_cell]
  rfl

lemma readBytes_heap (p : ℕ) (bs : List UInt8) :
    Reads (cell p (bytesCell bs)) (onBlocks (readBytes (some p))) bs := by
  have h := reads_onBlocks (reads_bytes (p := p) bs)
  rwa [embed_cell, embed_cell] at h

end

section
variable {a p q : ℕ} {s : CString} {ps : List ℕ} {ks : List CString}
  {slots : List (Option (Option ℕ))}

/-! ### Strings and their arrays -/

lemma newString_triple (s : CString) :
    Triple 1 (newString s) (returned fun p => heapString p s) := by
  refine triple_malloc_step fun p => ?_
  rw [mul_one]
  refine (triple_write p _ _).bind fun _ => ?_
  apply triple_pure
  rw [← heapString_eq]
  exact le_returned (fun p => heapString p s) p

lemma freeString_triple (p : ℕ) (s : CString) :
    Triple (heapString p s) (free (some p)) fun _ => 1 := by
  rw [heapString_eq]
  exact triple_free p _

lemma readString_reads (p : ℕ) (s : CString) :
    Reads (heapString p s) (onBlocks (readString (some p))) s := reads_onBlocks (reads_string s)

lemma readKeys_reads (a : ℕ) (slots : List (Option (Option ℕ))) :
    Reads (cell a (.keys slots)) (readKeys (some a)) slots :=
  (reads_cell a _).bind (reads_pure _ slots)

lemma keyAt_reads {i : ℕ} {key : Option ℕ} (h : slots[i]? = some (some key)) :
    Reads (cell a (.keys slots)) (keyAt (some a) i) key := by
  refine (readKeys_reads a slots).bind ?_
  rw [h]
  exact reads_pure _ key

lemma length_keySlots (ps : List ℕ) : (keySlots ps).length = ps.length := by simp [keySlots]

/-- The slot of a string. -/
lemma keySlots_get (front : List ℕ) (p : ℕ) (ps : List ℕ) :
    (keySlots (front ++ p :: ps) ++ [some none])[front.length]? = some (some (some p)) := by
  simp [keySlots]

lemma keySlots_end (ps : List ℕ) :
    (keySlots ps ++ [some none])[ps.length]? = some (some none) := by
  simp [keySlots]

lemma freeKeysLoop_triple (front ps : List ℕ) (ks : List CString) :
    Triple (cell a (.keys (keySlots (front ++ ps) ++ [some none])) * stringsAt ps ks)
      (freeKeysLoop (some a) (ps.length + 1) front.length) fun _ =>
      cell a (.keys (keySlots (front ++ ps) ++ [some none])) := by
  induction ps generalizing front ks with
  | nil =>
    cases ks with
    | nil =>
      rw [stringsAt, mul_one, List.append_nil]
      refine (keyAt_reads (keySlots_end front)).bind ?_
      exact triple_pure le_rfl
    | cons k ks =>
      rw [mul_comm]
      exact triple_only False.elim
  | cons p ps ih =>
    cases ks with
    | nil =>
      rw [mul_comm]
      exact triple_only False.elim
    | cons k ks =>
      rw [stringsAt]
      refine (keyAt_reads (keySlots_get front p ps)).step _ rfl ?_
      refine (freeString_triple p k).step (cell a (.keys (keySlots (front ++ p :: ps) ++
        [some none])) * stringsAt ps ks) (by ac_rfl) fun _ => ?_
      rw [one_mul]
      have h := ih (front ++ [p]) ks
      rwa [List.append_assoc, List.length_append] at h

lemma listFreeKeys_triple (a : ℕ) (ks : List CString) :
    Triple (keysAt a ks) (listFreeKeys (some a)) fun _ => 1 := by
  refine triple_ex fun ps => ?_
  refine (readKeys_reads a _).step _ rfl ?_
  rw [List.length_append, length_keySlots, List.length_singleton]
  refine (freeKeysLoop_triple [] ps ks).bind fun _ => ?_
  exact triple_free a _

lemma readKeysLoop_reads (front ps : List ℕ) (ks : List CString) :
    Reads (cell a (.keys (keySlots (front ++ ps) ++ [some none])) * stringsAt ps ks)
      (readKeysLoop (some a) (ps.length + 1) front.length) ks := by
  induction ps generalizing front ks with
  | nil =>
    cases ks with
    | nil =>
      rw [stringsAt, mul_one, List.append_nil]
      refine (keyAt_reads (keySlots_end front)).bind ?_
      exact reads_pure _ []
    | cons k ks =>
      rw [mul_comm]
      exact reads_only False.elim
  | cons p ps ih =>
    cases ks with
    | nil =>
      rw [mul_comm]
      exact reads_only False.elim
    | cons k ks =>
      rw [stringsAt]
      refine (keyAt_reads (keySlots_get front p ps)).step _ rfl ?_
      refine (readString_reads p k).step (cell a (.keys (keySlots (front ++ p :: ps) ++
        [some none])) * stringsAt ps ks) (by ac_rfl) ?_
      have h := ih (front ++ [p]) ks
      rw [List.append_assoc, List.length_append] at h
      refine h.step (heapString p k) (by rw [List.singleton_append]; ac_rfl) ?_
      exact reads_pure _ (k :: ks)

/-! ### Members -/

variable {opcode cType : Int16} {member : HeapContent} {F : Assertion ServerCell}

lemma readMessage_reads (p : ℕ) (opcode cType : Option Int16) (member : Option HeapContent) :
    Reads (cell p (.message opcode cType member)) (readMessage (some p))
      (opcode, cType, member) :=
  (reads_cell p _).bind (reads_pure _ (opcode, cType, member))

lemma opcodeOf_reads : Reads (headAt p opcode cType member) (opcodeOf (some p)) opcode :=
  (readMessage_reads p _ _ _).bind (reads_pure _ opcode)

lemma cTypeOf_reads : Reads (headAt p opcode cType member) (cTypeOf (some p)) cType :=
  (readMessage_reads p _ _ _).bind (reads_pure _ cType)

lemma contentOf_reads : Reads (headAt p opcode cType member) (contentOf (some p)) member :=
  (readMessage_reads p _ _ _).bind (reads_pure _ member)

lemma setHeader_triple (p : ℕ) (opcode cType : Option Int16) (member : Option HeapContent)
    (opcode' cType' : Int16) :
    Triple (cell p (.message opcode cType member)) (setHeader (some p) opcode' cType') fun _ =>
      cell p (.message (some opcode') (some cType') member) :=
  (readMessage_reads p _ _ _).bind (triple_write p _ _)

lemma setContent_triple (p : ℕ) (opcode cType : Option Int16) (member : Option HeapContent)
    (member' : HeapContent) :
    Triple (cell p (.message opcode cType member)) (setContent (some p) member') fun _ =>
      cell p (.message opcode cType (some member')) :=
  (readMessage_reads p _ _ _).bind (triple_write p _ _)

lemma setResult_triple (p : ℕ) (opcode cType : Option Int16) (member : Option HeapContent)
    (opcode' : Int16) (result : ℤ) :
    Triple (cell p (.message opcode cType member)) (setResult (some p) opcode' result) fun _ =>
      messageAt p (resultMsg opcode' result) :=
  (setHeader_triple p _ _ _ _ _).bind fun _ => setContent_triple p _ _ _ _

/-! ### `free_message` -/

lemma freeMessage_triple (p : ℕ) (msg : MessageT) :
    Triple (messageAt p msg) (freeMessage (some p)) fun _ => 1 := by
  obtain ⟨opcode, content⟩ := msg
  cases content with
  | result r =>
    refine cTypeOf_reads.bind ?_
    rw [if_neg (by decide), if_neg (by decide), if_neg (by decide), if_neg (by decide)]
    exact triple_free p _
  | data d =>
    refine triple_ex fun q => ?_
    refine cTypeOf_reads.step _ rfl ?_
    rw [if_pos rfl]
    refine contentOf_reads.step _ rfl ?_
    refine (reads_pure _ (some q)).bind ?_
    refine (triple_onBlocks (dataDestroy_triple q d)).step (headAt p opcode ctValue
      (.data (some q))) (mul_comm _ _) fun _ => ?_
    rw [embed_one, embed_one, one_mul]
    exact triple_free p _
  | key k =>
    refine triple_ex fun q => ?_
    refine cTypeOf_reads.step _ rfl ?_
    rw [if_neg (by decide), if_neg (by decide), if_neg (by decide), if_pos rfl]
    refine contentOf_reads.step _ rfl ?_
    refine (reads_pure _ (some q)).bind ?_
    refine (freeString_triple q k).step (headAt p opcode ctKey (.key (some q))) (mul_comm _ _)
      fun _ => ?_
    rw [one_mul]
    exact triple_free p _
  | keys ks =>
    refine triple_ex fun q => ?_
    refine cTypeOf_reads.step _ rfl ?_
    rw [if_neg (by decide), if_neg (by decide), if_pos rfl]
    refine contentOf_reads.step _ rfl ?_
    refine (reads_pure _ (some q)).bind ?_
    refine (listFreeKeys_triple q ks).step (headAt p opcode ctKeys (.keys (some q)))
      (mul_comm _ _) fun _ => ?_
    rw [one_mul]
    exact triple_free p _
  | entry e =>
    refine triple_ex fun q => ?_
    refine cTypeOf_reads.step _ rfl ?_
    rw [if_neg (by decide), if_pos rfl]
    refine contentOf_reads.step _ rfl ?_
    refine (reads_pure _ (some q)).bind ?_
    refine (triple_onBlocks (entryDestroy_triple q e)).step (headAt p opcode ctEntry
      (.entry (some q))) (mul_comm _ _) fun _ => ?_
    rw [embed_one, embed_one, one_mul]
    exact triple_free p _

/-! ### The encoder -/

lemma readValue_heap (q : ℕ) (d : DataT) :
    Reads (heapData q d) (onBlocks (readValue (some q))) d := reads_onBlocks (readValue_reads q d)

/-- A value has bytes. -/
lemma readData_heap (d : ℕ) (v : DataT) :
    Triple (heapData d v) (onBlocks (readData (some d))) fun r =>
      only (¬(r.1 = 0 ∧ r.2 = none)) * heapData d v := by
  have h : Triple (dataAt d v) (readData (some d)) fun r =>
      only (¬(r.1 = 0 ∧ r.2 = none)) * dataAt d v := by
    refine triple_ex fun b => ?_
    have hread := (reads_data (p := d) v.datasize (some b)).frame (cell b (.bytes v.bytes))
    refine Triple.mono hread le_rfl fun r => only_mul_le fun hr => ?_
    rw [hr, only_mul_of (by simp)]
    exact dataAt_intro d b v
  have hlift := triple_onBlocks h
  simp only [embed_mul, embed_only] at hlift
  exact hlift

lemma heapEntry_eq (q : ℕ) (e : EntryT) :
    heapEntry q e = ex fun k => ex fun d =>
      cell q (.stored (.block (.entry (some k) (some d)))) *
        (heapString k e.key * heapData d e.value) := by
  simp only [heapEntry, ownedEntry, entryAt, embed_ex, embed_mul, embed_cell, heapString,
    ownedString]
  rfl

lemma readEntry_heap (q k d : ℕ) :
    Reads (cell q (.stored (.block (.entry (some k) (some d)))))
      (onBlocks (readEntry (some q))) (some k, some d) := by
  have h := reads_onBlocks (reads_entry (p := q) (some k) (some d))
  rwa [embed_cell, embed_cell] at h

lemma loadResult_reads (F : Assertion ServerCell) (r : Int32) :
    Reads F (loadContent ctResult (.result r)) (.result r) := by
  rw [loadContent, if_pos rfl]
  exact (reads_pure F r).bind (reads_pure F (Content.result r))

lemma loadData_reads (q : ℕ) (d : DataT) :
    Reads (heapData q d) (loadContent ctValue (.data (some q))) (.data d) := by
  rw [loadContent, if_neg (by decide), if_pos rfl]
  refine (reads_pure _ (some q)).bind ?_
  exact (readValue_heap q d).bind (reads_pure _ (Content.data d))

lemma loadKey_reads (q : ℕ) (k : CString) :
    Reads (heapString q k) (loadContent ctKey (.key (some q))) (.key k) := by
  rw [loadContent, if_neg (by decide), if_neg (by decide), if_neg (by decide), if_pos rfl]
  refine (reads_pure _ (some q)).bind ?_
  exact (readString_reads q k).bind (reads_pure _ (Content.key k))

lemma loadKeys_reads (q : ℕ) (ks : List CString) :
    Reads (keysAt q ks) (loadContent ctKeys (.keys (some q))) (.keys ks) := by
  rw [loadContent, if_neg (by decide), if_neg (by decide), if_pos rfl]
  refine (reads_pure _ (some q)).bind ?_
  refine reads_ex fun ps => ?_
  refine (readKeys_reads q _).step _ rfl ?_
  rw [List.length_append, length_keySlots, List.length_singleton]
  exact (readKeysLoop_reads [] ps ks).bind (reads_pure _ (Content.keys ks))

lemma loadEntry_reads (q : ℕ) (e : EntryT) :
    Reads (heapEntry q e) (loadContent ctEntry (.entry (some q))) (.entry e) := by
  rw [loadContent, if_neg (by decide), if_neg (by decide), if_neg (by decide),
    if_neg (by decide), if_pos rfl, heapEntry_eq]
  refine (reads_pure _ (some q)).bind ?_
  refine reads_ex fun k => reads_ex fun d => ?_
  refine (readEntry_heap q k d).step _ rfl ?_
  refine (readString_reads k e.key).step _ (mul_left_comm _ _ _) ?_
  refine (readValue_heap d e.value).step (cell q (.stored (.block (.entry (some k) (some d)))) *
    heapString k e.key) (by ac_rfl) ?_
  exact reads_pure _ (Content.entry e)

lemma loadMessage_reads (p : ℕ) (msg : MessageT) :
    Reads (messageAt p msg) (loadMessage (some p)) msg := by
  obtain ⟨opcode, content⟩ := msg
  cases content with
  | result r =>
    refine opcodeOf_reads.bind (cTypeOf_reads.bind (contentOf_reads.bind ?_))
    exact (loadResult_reads _ r).bind (reads_pure _ (⟨opcode, .result r⟩ : MessageT))
  | data d =>
    refine reads_ex fun q => ?_
    refine opcodeOf_reads.step _ rfl (cTypeOf_reads.step _ rfl (contentOf_reads.step _ rfl ?_))
    refine (loadData_reads q d).step _ (mul_comm _ _) ?_
    exact reads_pure _ (⟨opcode, .data d⟩ : MessageT)
  | key k =>
    refine reads_ex fun q => ?_
    refine opcodeOf_reads.step _ rfl (cTypeOf_reads.step _ rfl (contentOf_reads.step _ rfl ?_))
    refine (loadKey_reads q k).step _ (mul_comm _ _) ?_
    exact reads_pure _ (⟨opcode, .key k⟩ : MessageT)
  | keys ks =>
    refine reads_ex fun q => ?_
    refine opcodeOf_reads.step _ rfl (cTypeOf_reads.step _ rfl (contentOf_reads.step _ rfl ?_))
    refine (loadKeys_reads q ks).step _ (mul_comm _ _) ?_
    exact reads_pure _ (⟨opcode, .keys ks⟩ : MessageT)
  | entry e =>
    refine reads_ex fun q => ?_
    refine opcodeOf_reads.step _ rfl (cTypeOf_reads.step _ rfl (contentOf_reads.step _ rfl ?_))
    refine (loadEntry_reads q e).step _ (mul_comm _ _) ?_
    exact reads_pure _ (⟨opcode, .entry e⟩ : MessageT)

/-- A new buffer holds the encoded message. -/
lemma messageToBuffer_triple (p : ℕ) {msg : MessageT} {bytes : List UInt8} {size : ℤ}
    (h : RemoteTable.messageToBuffer (some msg) = .ok (bytes, size)) :
    Triple (messageAt p msg) (messageToBuffer (some p)) fun r =>
      ex fun b => only (r = (some b, size)) * (cell b (bytesCell bytes) * messageAt p msg) := by
  refine (loadMessage_reads p msg).bind ?_
  refine (reads_parse h).bind ?_
  refine triple_malloc_step fun b => ?_
  refine (triple_write b _ (bytesCell bytes)).step (messageAt p msg) rfl fun _ => ?_
  apply triple_pure
  refine le_trans (only_mul_of rfl _).ge (le_ex (fun b' => only ((some b, size) = (some b', size)) *
    (cell b' (bytesCell bytes) * messageAt p msg)) b)

/-! ### What `print_msg` reads -/

lemma printDatasize_reads (d : ℕ) (v : DataT) :
    Reads (heapData d v) (printDatasize (some d)) () :=
  (readData_heap d v).bind fun _ => triple_only fun _ => reads_pure _ ()

lemma printContent_result (F : Assertion ServerCell) (r : Int32) :
    Reads F (printContent ctResult (.result r)) () := by
  rw [printContent, if_neg (by decide), if_neg (by decide), if_neg (by decide),
    if_neg (by decide), if_pos rfl]
  exact (reads_pure F r).bind (reads_pure F ())

lemma printContent_data (q : ℕ) (d : DataT) :
    Reads (heapData q d) (printContent ctValue (.data (some q))) () := by
  rw [printContent, if_neg (by decide), if_neg (by decide), if_neg (by decide), if_pos rfl]
  exact (reads_pure _ (some q)).bind (printDatasize_reads q d)

lemma printContent_key (q : ℕ) (k : CString) :
    Reads (heapString q k) (printContent ctKey (.key (some q))) () := by
  rw [printContent, if_neg (by decide), if_pos rfl]
  refine (reads_pure _ (some q)).bind ?_
  exact (readString_reads q k).bind (reads_pure _ ())

lemma printContent_keys (q : ℕ) (ks : List CString) :
    Reads (keysAt q ks) (printContent ctKeys (.keys (some q))) () := by
  rw [printContent, if_neg (by decide), if_neg (by decide), if_pos rfl]
  refine (reads_pure _ (some q)).bind ?_
  refine reads_ex fun ps => ?_
  refine (readKeys_reads q _).step _ rfl ?_
  rw [List.length_append, length_keySlots, List.length_singleton]
  exact (readKeysLoop_reads [] ps ks).bind (reads_pure _ ())

lemma printContent_entry (q : ℕ) (e : EntryT) :
    Reads (heapEntry q e) (printContent ctEntry (.entry (some q))) () := by
  rw [printContent, if_pos rfl, heapEntry_eq]
  refine (reads_pure _ (some q)).bind ?_
  refine reads_ex fun k => reads_ex fun d => ?_
  refine (readEntry_heap q k d).step _ rfl ?_
  refine (readString_reads k e.key).step _ (mul_left_comm _ _ _) ?_
  exact (printDatasize_reads d e.value).last (cell q (.stored (.block (.entry (some k) (some d)))) *
    heapString k e.key) (by ac_rfl)

/-- A message is read as a whole, if its type is one of those that are printed. -/
lemma printMsg_head (p : ℕ) {own : Assertion ServerCell}
    (hcontent : Reads own (printContent cType member) ()) :
    Reads (headAt p opcode cType member * own) (printMsg (some p)) () := by
  refine opcodeOf_reads.step own rfl (cTypeOf_reads.step own rfl ?_)
  by_cases hvalid : valid opcode cType = 0
  · rw [if_pos hvalid]
    exact contentOf_reads.step own rfl (hcontent.last _ (mul_comm _ _))
  · rw [if_neg hvalid]
    exact reads_pure _ ()

lemma printMsg_reads (p : ℕ) (msg : MessageT) :
    Reads (messageAt p msg) (printMsg (some p)) () := by
  obtain ⟨opcode, content⟩ := msg
  cases content with
  | result r =>
    have h : Reads (headAt p opcode ctResult (.result r) * 1) (printMsg (some p)) () :=
      printMsg_head p (printContent_result 1 r)
    rwa [mul_one] at h
  | data d => exact reads_ex fun q => printMsg_head p (printContent_data q d)
  | key k => exact reads_ex fun q => printMsg_head p (printContent_key q k)
  | keys ks => exact reads_ex fun q => printMsg_head p (printContent_keys q ks)
  | entry e => exact reads_ex fun q => printMsg_head p (printContent_entry q e)

end

end RemoteTable.Pointers
