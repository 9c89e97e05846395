import RemoteTable.ChainedList
import RemoteTable.Library.Inclusion
import RemoteTable.OwnedEntries

/-!
# The nodes of `list.c`

`list.c` with its `next` pointers. Where every allocation is granted, each function does to the
chain behind `head` what the list of entries says, uses no released block, and releases all
that it takes out.
-/

namespace RemoteTable.Pointers
open Memory Memory.Assertion Allocation KeyedList

/-- The blocks of a table and its lists. -/
inductive Cell
  /-- what `data.c` and `entry.c` allocate -/
  | block (b : Block)
  | node (entry next : Option ℕ)
  | list (head : Option ℕ) (size : ℤ)
  /-- the array of buckets, in which a slot is unset at first -/
  | buckets (slots : List (Option (Option ℕ)))
  | table (buckets : Option ℕ) (size quantityEntry : ℤ)

def blocks : Inclusion Block Cell where
  embed := .block
  project
    | .block b => some b
    | _ => none
  project_embed _ := rfl
  embed_project b a h := by
    cases b with
    | block b =>
      cases h
      rfl
    | _ => cases h

def readNode (p : Option ℕ) : Mem Cell (Option ℕ × Option ℕ) := do
  match ← read p with
  | .node entry next => pure (entry, next)
  | _ => throw .outside

def readList (p : Option ℕ) : Mem Cell (Option ℕ × ℤ) := do
  match ← read p with
  | .list head size => pure (head, size)
  | _ => throw .outside

/-- `node->next` -/
def nodeNext (node : Option ℕ) : Mem Cell (Option ℕ) := do
  let (_, next) ← readNode node
  pure next

/-- The string `node->entry->key` -/
def nodeKey (node : Option ℕ) : Mem Cell CString := do
  let (entry, _) ← readNode node
  lift blocks do
    let (key, _) ← readEntry entry
    readString key

/-- `node->next = next` -/
def setNext (node next : Option ℕ) : Mem Cell Unit := do
  let (entry, _) ← readNode node
  write node (.node entry next)

/-- `node->entry = entry` -/
def setEntry (node entry : Option ℕ) : Mem Cell Unit := do
  let (_, next) ← readNode node
  write node (.node entry next)

/-- `list->head` -/
def listHead (list : Option ℕ) : Mem Cell (Option ℕ) := do
  let (head, _) ← readList list
  pure head

/-- `list->head = head` -/
def setHead (list head : Option ℕ) : Mem Cell Unit := do
  let (_, size) ← readList list
  write list (.list head size)

/-- `list->size += n` -/
def addSize (list : Option ℕ) (n : ℤ) : Mem Cell Unit := do
  let (head, size) ← readList list
  write list (.list head (size + n))

/-- A walk over more nodes than there are addresses has no end. -/
def endless {β : Type} : Mem Cell β := throw .outside

def destroyNode (n : Option ℕ) : Mem Cell Unit :=
  match n with
  | none => pure ()
  | some p => do
    let (entry, _) ← readNode (some p)
    lift blocks (entryDestroy entry)
    free (some p)

def createNode (entry : Option ℕ) : Mem Cell (Option ℕ) :=
  match entry with
  | none => pure none
  | some p => do
    let node ← malloc (.node none none)
    match node with
    | none => pure none
    | some _ => do
      let copy ← lift blocks (entryDup (some p))
      setEntry node copy
      whenNull copy (destroyNode node)
      setNext node none
      pure node

def listCreate : Mem Cell (Option ℕ) := malloc (.list none 0)

/-- The loop of `list_destroy`. -/
def destroyLoop (list : Option ℕ) : ℕ → Mem Cell Unit
  | 0 => endless
  | bound + 1 => do
    let temp ← listHead list
    match temp with
    | none => pure ()
    | some _ => do
      let next ← nodeNext temp
      setHead list next
      destroyNode temp
      destroyLoop list bound

def listDestroy (list : Option ℕ) : Mem Cell Unit :=
  match list with
  | none => pure ()
  | some _ => do
    let bound ← allocated
    destroyLoop list bound
    free list

/-- The loop of `list_add` from `current` on. -/
def listAddLoop (list newNode entry : Option ℕ) : ℕ → Option ℕ → Mem Cell ℤ
  | 0, _ => endless
  | _ + 1, none => pure (-1)
  | bound + 1, some current => do
    let key ← nodeKey (some current)
    let newKey ← nodeKey newNode
    if strcmp key newKey = 0 then do
      let (old, _) ← readNode (some current)
      lift blocks (entryDestroy old)
      let copy ← lift blocks (entryDup entry)
      setEntry (some current) copy
      destroyNode newNode
      pure 0
    else if strcmp key newKey < 0 then do
      setHead list newNode
      setNext newNode (some current)
      addSize list 1
      pure 0
    else do
      let next ← nodeNext (some current)
      match next with
      | none => do
        setNext (some current) newNode
        addSize list 1
        pure 0
      | some _ => do
        let nextKey ← nodeKey next
        if 0 < strcmp key newKey ∧ strcmp nextKey newKey < 0 then do
          setNext (some current) newNode
          setNext newNode next
          addSize list 1
          pure 0
        else listAddLoop list newNode entry bound next

def listAdd (list entry : Option ℕ) : Mem Cell ℤ :=
  match list with
  | none => pure (-1)
  | some _ => do
    let newNode ← createNode entry
    match newNode with
    | none => pure (-1)
    | some _ => do
      let head ← listHead list
      match head with
      | none => do
        setHead list newNode
        addSize list 1
        pure 0
      | some _ => do
        let bound ← allocated
        listAddLoop list newNode entry bound head

/-- The loop of `list_remove`, which looks one node ahead. -/
def listRemoveLoop (list : Option ℕ) (key : CString) : ℕ → Option ℕ → Mem Cell ℤ
  | 0, _ => endless
  | _ + 1, none => pure (-1)
  | bound + 1, some current => do
    let temp ← nodeNext (some current)
    match temp with
    | none => pure (-1)
    | some _ => do
      let tempKey ← nodeKey temp
      if strcmp tempKey key = 0 then do
        let next ← nodeNext temp
        setNext (some current) next
        destroyNode temp
        addSize list (-1)
        pure 0
      else listRemoveLoop list key bound temp

def listRemove (list key : Option ℕ) : Mem Cell ℤ :=
  if list = none ∨ key = none then pure (-1)
  else do
    let current ← listHead list
    match current with
    | none => pure (-1)
    | some _ => do
      let chars ← lift blocks (readString key)
      let currentKey ← nodeKey current
      if strcmp currentKey chars = 0 then do
        let next ← nodeNext current
        setHead list next
        destroyNode current
        addSize list (-1)
        pure 0
      else do
        let bound ← allocated
        listRemoveLoop list chars bound current

/-- The walk of `list_get` from `current_node`. -/
def listGetLoop (key : CString) : ℕ → Option ℕ → Mem Cell (Option ℕ)
  | 0, _ => endless
  | _ + 1, none => pure none
  | bound + 1, some currentNode => do
    let currentKey ← nodeKey (some currentNode)
    if strcmp currentKey key = 0 then do
      let (entry, _) ← readNode (some currentNode)
      pure entry
    else do
      let next ← nodeNext (some currentNode)
      listGetLoop key bound next

def listGet (list key : Option ℕ) : Mem Cell (Option ℕ) :=
  if list = none ∨ key = none then pure none
  else do
    let chars ← lift blocks (readString key)
    let currentNode ← listHead list
    let bound ← allocated
    listGetLoop chars bound currentNode

/-! ### Nodes and lists as parts of the heap -/

def ownedEntry (p : ℕ) (e : EntryT) : Assertion Cell := (entryAt p e).embed blocks

def ownedString (p : ℕ) (s : CString) : Assertion Cell := (cell p (Block.string s)).embed blocks

def ownedData (p : ℕ) (v : DataT) : Assertion Cell := (dataAt p v).embed blocks

lemma ownedData_le_held (p : ℕ) (v : DataT) : ownedData p v ≤ held 2 :=
  (embed_mono blocks (dataAt_le_held p v)).trans (embed_held_le blocks 2)

/-- A node with an entry of its own. -/
def nodeAt (p : ℕ) (e : EntryT) (next : Option ℕ) : Assertion Cell :=
  ex fun entry => cell p (.node (some entry) next) * ownedEntry entry e

lemma nodeAt_intro (p entry : ℕ) (e : EntryT) (next : Option ℕ) :
    cell p (.node (some entry) next) * ownedEntry entry e ≤ nodeAt p e next :=
  fun _ hc => ⟨entry, hc⟩

/-- The nodes from a pointer on. -/
def chain : Option ℕ → List EntryT → Assertion Cell
  | p, [] => only (p = none)
  | p, e :: es => ex fun a => ex fun next => only (p = some a) * (nodeAt a e next * chain next es)

def listAt (l : ℕ) (list : ListT) : Assertion Cell :=
  ex fun head => cell l (.list head list.size) * chain head list.head

section
variable {β : Type} {F : Assertion Cell} {x : Mem Cell β} {Q : β → Assertion Cell}
  {p a l : ℕ} {e : EntryT} {es : List EntryT} {next head : Option ℕ} {size : ℤ}

lemma chain_nil : chain none [] = 1 := only_of rfl

lemma chain_cons (a : ℕ) (e : EntryT) (next : Option ℕ) (es : List EntryT) :
    nodeAt a e next * chain next es ≤ chain (some a) (e :: es) := fun _ hc =>
  ⟨a, next, mem_only_mul.mpr ⟨rfl, hc⟩⟩

lemma cons_le_chain (a : ℕ) (e : EntryT) {P : Assertion Cell} (h : P ≤ chain next es) :
    nodeAt a e next * P ≤ chain (some a) (e :: es) :=
  (mul_le_mul' le_rfl h).trans (chain_cons a e next es)

lemma single_le_chain (a : ℕ) (e : EntryT) : nodeAt a e none ≤ chain (some a) [e] := by
  have h := chain_cons a e none []
  rwa [chain_nil, mul_one] at h

lemma triple_chain_nil (h : head = none → Triple F x Q) : Triple (chain head [] * F) x Q :=
  triple_only h

/-- The first node of a chain that has one. -/
lemma triple_chain_cons
    (h : ∀ a next, head = some a → Triple (nodeAt a e next * chain next es * F) x Q) :
    Triple (chain head (e :: es) * F) x Q := by
  rw [chain, ex_mul]
  refine triple_ex fun a => ?_
  rw [ex_mul]
  refine triple_ex fun next => ?_
  rw [mul_assoc]
  exact triple_only (h a next)

/-- A chain that has a node is not `NULL`. -/
lemma triple_chain_some
    (h : ∀ a, head = some a → Triple (chain (some a) (e :: es) * F) x Q) :
    Triple (chain head (e :: es) * F) x Q := by
  refine triple_chain_cons fun a next ha => ?_
  exact (h a ha).weaken (mul_le_mul_left (chain_cons a e next es) F)

lemma atLeast_nodeAt (p : ℕ) (e : EntryT) (next : Option ℕ) : AtLeast (nodeAt p e next) 1 :=
  AtLeast.ex fun _ => (AtLeast.cell p _).mul (AtLeast.zero _)

lemma atLeast_chain (head : Option ℕ) (es : List EntryT) :
    AtLeast (chain head es) es.length := by
  induction es generalizing head with
  | nil => exact AtLeast.zero _
  | cons e es ih =>
    refine AtLeast.ex fun a => AtLeast.ex fun next => AtLeast.only_mul fun _ => ?_
    rw [List.length_cons, Nat.add_comm]
    exact (atLeast_nodeAt a e next).mul (ih next)

/-! ### One node -/

lemma reads_node (entry next : Option ℕ) :
    Reads (cell p (.node entry next)) (readNode (some p)) (entry, next) :=
  (reads_cell p _).bind (reads_pure _ (entry, next))

lemma nodeNext_reads (p : ℕ) (e : EntryT) (next : Option ℕ) :
    Reads (nodeAt p e next) (nodeNext (some p)) next := by
  refine reads_ex fun entry => ?_
  refine (reads_node (some entry) next).step (ownedEntry entry e) rfl ?_
  exact reads_pure _ next

lemma nodeKey_reads (p : ℕ) (e : EntryT) (next : Option ℕ) :
    Reads (nodeAt p e next) (nodeKey (some p)) e.key := by
  refine reads_ex fun entry => ?_
  refine (reads_node (some entry) next).step (ownedEntry entry e) rfl ?_
  exact ((reads_entry_key entry e).lift blocks).last _ (mul_comm _ _)

lemma setNext_triple (p : ℕ) (e : EntryT) (next next' : Option ℕ) :
    Triple (nodeAt p e next) (setNext (some p) next') fun _ => nodeAt p e next' := by
  refine triple_ex fun entry => ?_
  refine (reads_node (some entry) next).step (ownedEntry entry e) rfl ?_
  exact (triple_write p _ _).last (ownedEntry entry e) rfl fun _ => nodeAt_intro p entry e next'

lemma setEntry_triple (p : ℕ) (entry entry' next : Option ℕ) :
    Triple (cell p (.node entry next)) (setEntry (some p) entry') fun _ =>
      cell p (.node entry' next) :=
  (reads_node entry next).bind (triple_write p _ _)

lemma destroyEntry_triple (p : ℕ) (e : EntryT) :
    Triple (ownedEntry p e) (lift blocks (entryDestroy (some p))) fun _ => 1 := by
  have h := triple_lift blocks (entryDestroy_triple p e)
  rwa [embed_one] at h

lemma destroyData_triple (p : ℕ) (v : DataT) :
    Triple (ownedData p v) (lift blocks (dataDestroy (some p))) fun _ => 1 := by
  have h := triple_lift blocks (dataDestroy_triple p v)
  rwa [embed_one] at h

lemma dupData_triple (p : ℕ) (v : DataT) :
    Triple (ownedData p v) (lift blocks (dataDup (some p))) fun r =>
      returned (fun q => ownedData q v) r * ownedData p v := by
  apply (triple_lift blocks (dataDup_triple p v)).mono le_rfl
  intro r
  rw [embed_mul, embed_returned]
  rfl

lemma destroyNode_triple (p : ℕ) (e : EntryT) (next : Option ℕ) :
    Triple (nodeAt p e next) (destroyNode (some p)) fun _ => 1 := by
  refine triple_ex fun entry => ?_
  rw [destroyNode]
  refine (reads_node (some entry) next).step (ownedEntry entry e) rfl ?_
  refine (destroyEntry_triple entry e).step _ (mul_comm _ _) fun _ => ?_
  rw [one_mul]
  exact triple_free p _

lemma dupEntry_triple (p : ℕ) (e : EntryT) :
    Triple (ownedEntry p e) (lift blocks (entryDup (some p))) fun r =>
      returned (fun q => ownedEntry q e) r * ownedEntry p e := by
  apply (triple_lift blocks (entryDup_triple p e)).mono le_rfl
  intro r
  rw [embed_mul, embed_returned]
  rfl

lemma createNode_triple (p : ℕ) (e : EntryT) :
    Triple (ownedEntry p e) (createNode (some p)) fun r =>
      returned (fun a => nodeAt a e none) r * ownedEntry p e := by
  rw [createNode]
  refine triple_malloc_step fun a => ?_
  refine (dupEntry_triple p e).adds (cell a (.node none none)) (mul_comm _ _) fun q => ?_
  refine (setEntry_triple a none (some q) none).step (ownedEntry q e * ownedEntry p e)
    (by ac_rfl) fun _ => ?_
  refine (reads_whenNull _ q _).bind ?_
  rw [← mul_assoc]
  refine Triple.weaken ?_ (mul_le_mul_left (nodeAt_intro a q e none) _)
  refine (setNext_triple a e none none).step (ownedEntry p e) rfl fun _ => ?_
  exact triple_pure (mul_le_mul' (le_returned (fun a => nodeAt a e none) a) le_rfl)

/-! ### The head of a list -/

lemma reads_list (head : Option ℕ) (size : ℤ) :
    Reads (cell l (.list head size)) (readList (some l)) (head, size) :=
  (reads_cell l _).bind (reads_pure _ (head, size))

lemma listHead_reads (l : ℕ) (head : Option ℕ) (size : ℤ) :
    Reads (cell l (.list head size)) (listHead (some l)) head :=
  (reads_list head size).bind (reads_pure _ head)

lemma setHead_triple (l : ℕ) (head head' : Option ℕ) (size : ℤ) :
    Triple (cell l (.list head size)) (setHead (some l) head') fun _ =>
      cell l (.list head' size) :=
  (reads_list head size).bind (triple_write l _ _)

lemma addSize_triple (l : ℕ) (head : Option ℕ) (size n : ℤ) :
    Triple (cell l (.list head size)) (addSize (some l) n) fun _ =>
      cell l (.list head (size + n)) :=
  (reads_list head size).bind (triple_write l _ _)

lemma listAt_intro (l : ℕ) (head : Option ℕ) (list : ListT) :
    cell l (.list head list.size) * chain head list.head ≤ listAt l list := fun _ hc => ⟨head, hc⟩

lemma header_le_listAt (l : ℕ) (size : ℤ) : cell l (.list none size) ≤ listAt l ⟨size, []⟩ := by
  have h := listAt_intro l none ⟨size, []⟩
  rwa [chain_nil, mul_one] at h

/-- A walk of a list passes fewer nodes than have been allocated. -/
lemma atLeast_header (l : ℕ) (head : Option ℕ) (size : ℤ) (es : List EntryT) :
    AtLeast (cell l (.list head size) * chain head es) (1 + es.length) :=
  (AtLeast.cell l _).mul (atLeast_chain head es)

lemma listCreate_triple :
    Triple 1 listCreate (returned fun l => listAt l RemoteTable.listCreate) := by
  rw [listCreate]
  refine (triple_malloc (Cell.list none 0)).mono le_rfl (returned_mono fun l => ?_)
  exact header_le_listAt l 0

lemma destroyLoop_triple (es : List EntryT) (bound : ℕ) (hbound : es.length < bound) :
    Triple (cell l (.list head size) * chain head es) (destroyLoop (some l) bound) fun _ =>
      cell l (.list none size) := by
  induction es generalizing head bound with
  | nil =>
    obtain ⟨bound, rfl⟩ := Nat.exists_eq_add_one_of_ne_zero (Nat.ne_zero_of_lt hbound)
    rw [mul_comm]
    refine triple_chain_nil ?_
    rintro rfl
    exact (listHead_reads l none size).bind (triple_pure le_rfl)
  | cons e es ih =>
    obtain ⟨bound, rfl⟩ := Nat.exists_eq_add_one_of_ne_zero (Nat.ne_zero_of_lt hbound)
    rw [mul_comm]
    refine triple_chain_cons ?_
    rintro a next rfl
    refine (listHead_reads l (some a) size).step _ (mul_comm _ _) ?_
    refine (nodeNext_reads a e next).step (chain next es * cell l (.list (some a) size))
      (by ac_rfl) ?_
    refine (setHead_triple l (some a) next size).step _ (mul_comm _ _) fun _ => ?_
    refine (destroyNode_triple a e next).step (cell l (.list next size) * chain next es)
      (by ac_rfl) fun _ => ?_
    rw [one_mul]
    exact ih bound (Nat.lt_of_succ_lt_succ hbound)

lemma listDestroy_triple (l : ℕ) (list : ListT) :
    Triple (listAt l list) (listDestroy (some l)) fun _ => 1 := by
  refine triple_ex fun head => ?_
  rw [listDestroy]
  refine (triple_allocated (atLeast_header l head list.size list.head)).bind fun bound => ?_
  refine triple_only fun hbound => ?_
  refine (destroyLoop_triple list.head bound (by omega)).bind fun _ => ?_
  exact triple_free l _

/-! ### `list_add` -/

section
variable {n b bound : ℕ} {new e' : EntryT}

/-- A node with the new key gets a copy of the caller's entry. -/
lemma addTurn_replaces (heq : e.key = new.key) :
    Triple (nodeAt a e next * (nodeAt n new none * ownedEntry p new))
      (listAddLoop (some l) (some n) (some p) (bound + 1) (some a)) fun r =>
      only (r = 0) * (nodeAt a new next * ownedEntry p new) := by
  refine (nodeKey_reads a e next).step _ rfl ?_
  refine (nodeKey_reads n new none).step (nodeAt a e next * ownedEntry p new) (by ac_rfl) ?_
  rw [if_pos ((strcmp_eq_zero_iff _ _).mpr heq), nodeAt, ex_mul]
  refine triple_ex fun old => ?_
  refine (reads_node (some old) next).step (ownedEntry old e *
    (nodeAt n new none * ownedEntry p new)) (by ac_rfl) ?_
  refine (destroyEntry_triple old e).step (cell a (.node (some old) next) *
    (nodeAt n new none * ownedEntry p new)) (by ac_rfl) fun _ => ?_
  rw [one_mul]
  refine (dupEntry_triple p new).adds (cell a (.node (some old) next) * nodeAt n new none)
    (by ac_rfl) fun copy => ?_
  refine (setEntry_triple a (some old) (some copy) next).step (ownedEntry copy new *
    (nodeAt n new none * ownedEntry p new)) (by ac_rfl) fun _ => ?_
  refine (destroyNode_triple n new none).step (cell a (.node (some copy) next) *
    ownedEntry copy new * ownedEntry p new) (by ac_rfl) fun _ => ?_
  apply triple_pure
  rw [only_mul_of rfl, one_mul]
  exact mul_le_mul_left (nodeAt_intro a copy new next) _

/-- A node with a smaller key comes to stand behind the new head. -/
lemma addTurn_heads (hlt : e.key < new.key) :
    Triple (nodeAt a e next * (cell l (.list head size) * nodeAt n new none))
      (listAddLoop (some l) (some n) (some p) (bound + 1) (some a)) fun r =>
      only (r = 0) * (nodeAt n new (some a) *
        (nodeAt a e next * cell l (.list (some n) (size + 1)))) := by
  refine (nodeKey_reads a e next).step _ rfl ?_
  refine (nodeKey_reads n new none).step (nodeAt a e next * cell l (.list head size))
    (by ac_rfl) ?_
  rw [if_neg (mt (strcmp_eq_zero_iff _ _).mp hlt.ne), if_pos ((strcmp_neg_iff _ _).mpr hlt)]
  refine (setHead_triple l head (some n) size).step (nodeAt a e next * nodeAt n new none)
    (by ac_rfl) fun _ => ?_
  refine (setNext_triple n new none (some a)).step
    (nodeAt a e next * cell l (.list (some n) size)) (by ac_rfl) fun _ => ?_
  refine (addSize_triple l (some n) size 1).step (nodeAt n new (some a) * nodeAt a e next)
    (by ac_rfl) fun _ => ?_
  apply triple_pure
  rw [only_mul_of rfl]
  exact le_of_eq (by ac_rfl)

/-- After the last node. -/
lemma addTurn_appends (hgt : new.key < e.key) :
    Triple (nodeAt a e none * (cell l (.list head size) * nodeAt n new none))
      (listAddLoop (some l) (some n) (some p) (bound + 1) (some a)) fun r =>
      only (r = 0) * (nodeAt a e (some n) *
        (nodeAt n new none * cell l (.list head (size + 1)))) := by
  refine (nodeKey_reads a e none).step _ rfl ?_
  refine (nodeKey_reads n new none).step (nodeAt a e none * cell l (.list head size))
    (by ac_rfl) ?_
  rw [if_neg (mt (strcmp_eq_zero_iff _ _).mp hgt.ne'),
    if_neg (mt (strcmp_neg_iff _ _).mp hgt.not_gt)]
  refine (nodeNext_reads a e none).step _ rfl ?_
  refine (setNext_triple a e none (some n)).step _ rfl fun _ => ?_
  refine (addSize_triple l head size 1).step (nodeAt a e (some n) * nodeAt n new none)
    (by ac_rfl) fun _ => ?_
  apply triple_pure
  rw [only_mul_of rfl]
  exact le_of_eq (by ac_rfl)

/-- Between two nodes. -/
lemma addTurn_links (hgt : new.key < e.key) (hlt : e'.key < new.key) :
    Triple (nodeAt a e (some b) * (nodeAt b e' next *
        (cell l (.list head size) * nodeAt n new none)))
      (listAddLoop (some l) (some n) (some p) (bound + 1) (some a)) fun r =>
      only (r = 0) * (nodeAt a e (some n) * (nodeAt n new (some b) *
        (nodeAt b e' next * cell l (.list head (size + 1))))) := by
  refine (nodeKey_reads a e (some b)).step _ rfl ?_
  refine (nodeKey_reads n new none).step (nodeAt a e (some b) *
    (nodeAt b e' next * cell l (.list head size))) (by ac_rfl) ?_
  rw [if_neg (mt (strcmp_eq_zero_iff _ _).mp hgt.ne'),
    if_neg (mt (strcmp_neg_iff _ _).mp hgt.not_gt)]
  refine (nodeNext_reads a e (some b)).step _ rfl ?_
  refine (nodeKey_reads b e' next).step (nodeAt a e (some b) *
    (cell l (.list head size) * nodeAt n new none)) (by ac_rfl) ?_
  rw [if_pos ⟨(strcmp_pos_iff _ _).mpr hgt, (strcmp_neg_iff _ _).mpr hlt⟩]
  refine (setNext_triple a e (some b) (some n)).step _ rfl fun _ => ?_
  refine (setNext_triple n new none (some b)).step (nodeAt a e (some n) *
    (nodeAt b e' next * cell l (.list head size))) (by ac_rfl) fun _ => ?_
  refine (addSize_triple l head size 1).step (nodeAt n new (some b) * nodeAt a e (some n) *
    nodeAt b e' next) (by ac_rfl) fun _ => ?_
  apply triple_pure
  rw [only_mul_of rfl]
  exact le_of_eq (by ac_rfl)

/-- Past a node, where the next key is not below the new one. -/
lemma addTurn_passes (next : Option ℕ) (F : Assertion Cell) {Q : ℤ → Assertion Cell}
    (hgt : new.key < e.key) (hge : new.key ≤ e'.key)
    (hrest : Triple (nodeAt a e (some b) * (nodeAt b e' next * (nodeAt n new none * F)))
      (listAddLoop (some l) (some n) (some p) bound (some b)) Q) :
    Triple (nodeAt a e (some b) * (nodeAt b e' next * (nodeAt n new none * F)))
      (listAddLoop (some l) (some n) (some p) (bound + 1) (some a)) Q := by
  refine (nodeKey_reads a e (some b)).step _ rfl ?_
  refine (nodeKey_reads n new none).step (nodeAt a e (some b) * (nodeAt b e' next * F))
    (by ac_rfl) ?_
  rw [if_neg (mt (strcmp_eq_zero_iff _ _).mp hgt.ne'),
    if_neg (mt (strcmp_neg_iff _ _).mp hgt.not_gt)]
  refine (nodeNext_reads a e (some b)).step _ rfl ?_
  refine (nodeKey_reads b e' next).step (nodeAt a e (some b) * (nodeAt n new none * F))
    (by ac_rfl) ?_
  rw [if_neg fun h => ((strcmp_neg_iff _ _).mp h.2).not_ge hge]
  exact hrest

end

/-- What a caller of `list_add` has beside the chain. -/
def addRest (l n p : ℕ) (head : Option ℕ) (size : ℤ) (new : EntryT) : Assertion Cell :=
  cell l (.list head size) * (nodeAt n new none * ownedEntry p new)

lemma listAddLoop_replaces {n bound : ℕ} {new : EntryT} (heq : e.key = new.key) :
    Triple (chain (some a) (e :: es) * addRest l n p head size new)
      (listAddLoop (some l) (some n) (some p) (bound + 1) (some a)) fun r =>
      only (r = 0) * (chain (some a) (new :: es) *
        (cell l (.list head size) * ownedEntry p new)) := by
  refine triple_chain_cons fun a' next ha => ?_
  cases ha
  rw [addRest]
  refine (addTurn_replaces heq).last (chain next es * cell l (.list head size))
    (by ac_rfl) fun r => ?_
  rw [mul_assoc]
  refine mul_le_mul' le_rfl ?_
  refine le_trans (le_of_eq ?_) (mul_le_mul_left (chain_cons a new next es) _)
  ac_rfl

/-- The walk from a node whose key is not below the new one: the head branch is not taken. -/
lemma listAddLoop_triple {n : ℕ} {new : EntryT} (hge : new.key ≤ e.key) (bound : ℕ)
    (hbound : es.length < bound) (hd : Descending EntryT.key (e :: es)) :
    Triple (chain (some a) (e :: es) * addRest l n p head size new)
      (listAddLoop (some l) (some n) (some p) bound (some a)) fun r =>
      only (r = 0) * (chain (some a) (insertKeyed EntryT.key new (e :: es)) *
        (cell l (.list head
          (if lookupKey EntryT.key new.key (e :: es) = none then size + 1 else size)) *
          ownedEntry p new)) := by
  induction es generalizing a e bound with
  | nil =>
    obtain ⟨bound, rfl⟩ := Nat.exists_eq_add_one_of_ne_zero (Nat.ne_zero_of_lt hbound)
    rcases hge.eq_or_lt with heq | hgt
    · simpa [insertKeyed, heq, lookup_cons] using listAddLoop_replaces heq.symm
    · rw [insert_of_lt _ hgt, insertKeyed, lookup_cons, if_neg hgt.ne', lookup_nil, if_pos rfl]
      refine triple_chain_cons fun a' next ha => ?_
      cases ha
      rw [mul_comm (nodeAt a e next), mul_assoc]
      refine triple_chain_nil ?_
      rintro rfl
      refine (addTurn_appends hgt).last (ownedEntry p new) (by rw [addRest]; ac_rfl) fun r => ?_
      rw [mul_assoc]
      refine mul_le_mul' le_rfl ?_
      refine le_trans (le_of_eq ?_) (mul_le_mul_left (cons_le_chain a e (single_le_chain n new)) _)
      ac_rfl
  | cons e' es ih =>
    obtain ⟨bound, rfl⟩ := Nat.exists_eq_add_one_of_ne_zero (Nat.ne_zero_of_lt hbound)
    obtain ⟨hcur, htail⟩ := descending_cons.mp hd
    rcases hge.eq_or_lt with heq | hgt
    · simpa [insertKeyed, heq, lookup_cons] using listAddLoop_replaces heq.symm
    rw [insert_of_lt _ hgt, lookup_cons, if_neg hgt.ne']
    refine triple_chain_cons fun a' next ha => ?_
    cases ha
    rw [mul_comm (nodeAt a e next), mul_assoc]
    refine triple_chain_cons ?_
    rintro b next' rfl
    rcases lt_or_ge e'.key new.key with hlt | hge'
    · rw [insert_of_gt es hlt, lookup_of_lt htail hlt, if_pos rfl]
      refine (addTurn_links hgt hlt).last (chain next' es * ownedEntry p new)
        (by rw [addRest]; ac_rfl) fun r => ?_
      rw [mul_assoc]
      refine mul_le_mul' le_rfl ?_
      refine le_trans (le_of_eq ?_) (mul_le_mul_left
        (cons_le_chain a e (cons_le_chain n new (chain_cons b e' next' es))) _)
      ac_rfl
    · -- the rest of the walk happens behind the node that is passed
      have hwalk := (ih (a := b) hge' bound (Nat.lt_of_succ_lt_succ hbound) htail).frame
        (nodeAt a e (some b))
      refine (addTurn_passes next' (chain next' es * (cell l (.list head size) * ownedEntry p new))
        hgt hge' (hwalk.weaken ?_)).mono ?_ fun r => ?_
      · refine le_trans (le_of_eq ?_) (mul_le_mul_left (mul_le_mul_left
          (chain_cons b e' next' es) _) _)
        rw [addRest]
        ac_rfl
      · rw [addRest]
        exact le_of_eq (by ac_rfl)
      · rw [mul_assoc]
        refine mul_le_mul' le_rfl ?_
        refine le_trans (le_of_eq ?_) (mul_le_mul_left (chain_cons a e (some b) _) _)
        ac_rfl

theorem listAdd_triple {list : ListT} (hw : list.WellFormed) (l p : ℕ) (new : EntryT) :
    Triple (listAt l list * ownedEntry p new) (listAdd (some l) (some p)) fun r =>
      only (r = (RemoteTable.listAdd list new).1) *
        (listAt l (RemoteTable.listAdd list new).2 * ownedEntry p new) := by
  obtain ⟨size, es⟩ := list
  rw [listAdd_eq hw, listGet_eq, listAdd, listAt, ex_mul]
  refine triple_ex fun head => ?_
  refine (createNode_triple p new).adds (cell l (.list head size) * chain head es)
    (mul_comm _ _) fun n => ?_
  refine (listHead_reads l head size).step (nodeAt n new none * (chain head es *
    ownedEntry p new)) (by ac_rfl) ?_
  refine Triple.weaken (P := chain head es * addRest l n p head size new) ?_
    (by rw [addRest]; exact le_of_eq (by ac_rfl))
  cases es with
  | nil =>
    refine triple_chain_nil ?_
    rintro rfl
    refine (setHead_triple l none (some n) size).step _ rfl fun _ => ?_
    refine (addSize_triple l (some n) size 1).step _ rfl fun _ => ?_
    apply triple_pure
    rw [only_mul_of rfl, ← mul_assoc]
    exact mul_le_mul_left ((mul_le_mul' le_rfl (single_le_chain n new)).trans
      (listAt_intro l (some n) ⟨size + 1, [new]⟩)) _
  | cons e es =>
    refine triple_chain_some ?_
    rintro a rfl
    have hbound := (atLeast_chain (some a) (e :: es)).mul
      (AtLeast.zero (addRest l n p (some a) size new))
    refine (triple_allocated hbound).bind fun bound => triple_only fun hlen => ?_
    rcases lt_or_ge e.key new.key with hlt | hge
    · -- the only turn in which the head branch is taken
      obtain ⟨bound, rfl⟩ := Nat.exists_eq_add_one_of_ne_zero
        (Nat.ne_zero_of_lt (Nat.lt_of_succ_le hlen))
      simp only [lookup_of_lt hw.descending hlt, if_true, insert_of_gt es hlt]
      refine triple_chain_cons fun a' next ha => ?_
      cases ha
      refine (addTurn_heads hlt).last (chain next es * ownedEntry p new)
        (by rw [addRest]; ac_rfl) fun r => ?_
      rw [mul_assoc]
      refine mul_le_mul' le_rfl ?_
      refine le_trans (le_of_eq ?_) (mul_le_mul_left ((mul_le_mul' le_rfl
        (cons_le_chain n new (chain_cons a e next es))).trans
        (listAt_intro l (some n) ⟨size + 1, new :: e :: es⟩)) _)
      ac_rfl
    · refine (listAddLoop_triple hge bound hlen hw.descending).mono le_rfl fun r => ?_
      refine mul_le_mul' le_rfl ?_
      rw [← mul_assoc, mul_comm (chain _ _)]
      exact mul_le_mul_left (listAt_intro l (some a) ⟨_, insertKeyed EntryT.key new (e :: es)⟩) _

/-! ### `list_remove` -/

section
variable {b bound : ℕ} {e' : EntryT} {key : CString}

lemma removeTurn_ends (a : ℕ) (e : EntryT) :
    Triple (nodeAt a e none) (listRemoveLoop (some l) key (bound + 1) (some a)) fun r =>
      only (r = -1) * nodeAt a e none := by
  refine (nodeNext_reads a e none).bind ?_
  exact triple_pure (only_mul_of rfl _).ge

lemma removeTurn_unlinks (heq : e'.key = key) :
    Triple (nodeAt a e (some b) * (nodeAt b e' next * cell l (.list head size)))
      (listRemoveLoop (some l) key (bound + 1) (some a)) fun r =>
      only (r = 0) * (nodeAt a e next * cell l (.list head (size - 1))) := by
  refine (nodeNext_reads a e (some b)).step _ rfl ?_
  refine (nodeKey_reads b e' next).step (nodeAt a e (some b) * cell l (.list head size))
    (by ac_rfl) ?_
  rw [if_pos ((strcmp_eq_zero_iff _ _).mpr heq)]
  refine (nodeNext_reads b e' next).step (nodeAt a e (some b) * cell l (.list head size))
    (by ac_rfl) ?_
  refine (setNext_triple a e (some b) next).step _ rfl fun _ => ?_
  refine (destroyNode_triple b e' next).step (nodeAt a e next * cell l (.list head size))
    (by ac_rfl) fun _ => ?_
  rw [one_mul]
  refine (addSize_triple l head size (-1)).step (nodeAt a e next) (mul_comm _ _) fun _ => ?_
  apply triple_pure
  rw [only_mul_of rfl]
  exact (mul_comm _ _).le

lemma removeTurn_passes (next : Option ℕ) (F : Assertion Cell) {Q : ℤ → Assertion Cell}
    (hne : e'.key ≠ key)
    (hrest : Triple (nodeAt a e (some b) * (nodeAt b e' next * F))
      (listRemoveLoop (some l) key bound (some b)) Q) :
    Triple (nodeAt a e (some b) * (nodeAt b e' next * F))
      (listRemoveLoop (some l) key (bound + 1) (some a)) Q := by
  refine (nodeNext_reads a e (some b)).step _ rfl ?_
  refine (nodeKey_reads b e' next).step (nodeAt a e (some b) * F) (by ac_rfl) ?_
  rw [if_neg (mt (strcmp_eq_zero_iff _ _).mp hne)]
  exact hrest

/-- The walk from a node with another key. -/
lemma listRemoveLoop_triple (key : CString) (hbound : es.length < bound) :
    Triple (chain (some a) (e :: es) * cell l (.list head size))
      (listRemoveLoop (some l) key bound (some a)) fun r =>
      only (r = if lookupKey EntryT.key key es = none then -1 else 0) *
        (chain (some a) (e :: eraseKey EntryT.key key es) *
          cell l (.list head (if lookupKey EntryT.key key es = none then size else size - 1))) := by
  induction es generalizing a e bound with
  | nil =>
    obtain ⟨bound, rfl⟩ := Nat.exists_eq_add_one_of_ne_zero (Nat.ne_zero_of_lt hbound)
    refine triple_chain_cons fun a' next ha => ?_
    cases ha
    rw [mul_comm (nodeAt a e next), mul_assoc]
    refine triple_chain_nil ?_
    rintro rfl
    refine (removeTurn_ends a e).last _ rfl fun r => ?_
    rw [mul_assoc]
    exact mul_le_mul' le_rfl (mul_le_mul_left (single_le_chain a e) _)
  | cons e' es ih =>
    obtain ⟨bound, rfl⟩ := Nat.exists_eq_add_one_of_ne_zero (Nat.ne_zero_of_lt hbound)
    rw [lookup_cons, eraseKey]
    refine triple_chain_cons fun a' next ha => ?_
    cases ha
    rw [mul_comm (nodeAt a e next), mul_assoc]
    refine triple_chain_cons ?_
    rintro b next' rfl
    by_cases heq : e'.key = key
    · simp only [if_pos heq, reduceCtorEq, if_false]
      refine (removeTurn_unlinks heq).last (chain next' es) (by ac_rfl) fun r => ?_
      rw [mul_assoc]
      refine mul_le_mul' le_rfl ?_
      refine le_trans (le_of_eq ?_) (mul_le_mul_left (chain_cons a e next' es) _)
      ac_rfl
    · simp only [if_neg heq]
      have hwalk := (ih (a := b) (e := e') (Nat.lt_of_succ_lt_succ hbound)).frame
        (nodeAt a e (some b))
      refine (removeTurn_passes next' (chain next' es * cell l (.list head size)) heq
        (hwalk.weaken ?_)).mono (le_of_eq (by ac_rfl)) fun r => ?_
      · refine le_trans (le_of_eq ?_) (mul_le_mul_left (mul_le_mul_left
          (chain_cons b e' next' es) _) _)
        ac_rfl
      · rw [mul_assoc]
        refine mul_le_mul' le_rfl ?_
        refine le_trans (le_of_eq ?_) (mul_le_mul_left (chain_cons a e (some b) _) _)
        ac_rfl

end

theorem listRemove_triple (list : ListT) (l k : ℕ) (key : CString) :
    Triple (listAt l list * ownedString k key) (listRemove (some l) (some k)) fun r =>
      only (r = (RemoteTable.listRemove list key).1) *
        (listAt l (RemoteTable.listRemove list key).2 * ownedString k key) := by
  obtain ⟨size, es⟩ := list
  have hresult : RemoteTable.listRemove ⟨size, es⟩ key =
      (if lookupKey EntryT.key key es = none then -1 else 0,
        ⟨if lookupKey EntryT.key key es = none then size else size - 1,
          eraseKey EntryT.key key es⟩) := by
    rw [listRemove_eq, listGet_eq]
    by_cases hnone : lookupKey EntryT.key key es = none
    · simp only [if_pos hnone, erase_of_none hnone]
    · simp only [if_neg hnone]
  have hargs : ¬(some l = none ∨ some k = none) := by simp
  rw [hresult, listRemove, if_neg hargs, listAt, ex_mul]
  refine triple_ex fun head => ?_
  refine (listHead_reads l head size).step (chain head es * ownedString k key) (by ac_rfl) ?_
  refine Triple.weaken (P := chain head es * (cell l (.list head size) * ownedString k key)) ?_
    (le_of_eq (by ac_rfl))
  cases es with
  | nil =>
    refine triple_chain_nil ?_
    rintro rfl
    apply triple_pure
    rw [lookup_nil, if_pos rfl, only_mul_of rfl]
    exact mul_le_mul_left (header_le_listAt l size) _
  | cons e es =>
    rw [lookup_cons, eraseKey]
    refine triple_chain_cons ?_
    rintro a next rfl
    refine ((reads_string key).lift blocks).step (nodeAt a e next * chain next es *
      cell l (.list (some a) size)) (by rw [ownedString]; ac_rfl) ?_
    refine (nodeKey_reads a e next).step (chain next es *
      (cell l (.list (some a) size) * ownedString k key)) (by ac_rfl) ?_
    by_cases heq : e.key = key
    · simp only [if_pos heq, (strcmp_eq_zero_iff _ _).mpr heq, if_true, reduceCtorEq, if_false]
      refine (nodeNext_reads a e next).step (chain next es *
        (cell l (.list (some a) size) * ownedString k key)) (by ac_rfl) ?_
      refine (setHead_triple l (some a) next size).step (nodeAt a e next * chain next es *
        ownedString k key) (by ac_rfl) fun _ => ?_
      refine (destroyNode_triple a e next).step (cell l (.list next size) * chain next es *
        ownedString k key) (by ac_rfl) fun _ => ?_
      rw [one_mul]
      refine (addSize_triple l next size (-1)).step (chain next es * ownedString k key)
        (by ac_rfl) fun _ => ?_
      apply triple_pure
      rw [only_mul_of rfl, ← mul_assoc]
      exact mul_le_mul_left (listAt_intro l next ⟨size - 1, es⟩) _
    · simp only [if_neg heq, if_neg (mt (strcmp_eq_zero_iff _ _).mp heq)]
      refine Triple.weaken (P := chain (some a) (e :: es) * (cell l (.list (some a) size) *
        ownedString k key)) ?_ (mul_le_mul_left (chain_cons a e next es) _)
      have hbound := (atLeast_chain (some a) (e :: es)).mul
        (AtLeast.zero (cell l (.list (some a) size) * ownedString k key))
      refine (triple_allocated hbound).bind fun bound => triple_only fun hlen => ?_
      refine (listRemoveLoop_triple key hlen).last (ownedString k key) (by ac_rfl) fun r => ?_
      rw [mul_assoc]
      refine mul_le_mul' le_rfl (mul_le_mul_left ?_ _)
      rw [mul_comm]
      exact listAt_intro l (some a) ⟨_, e :: eraseKey EntryT.key key es⟩

/-! ### `list_get` -/

/-- What `list_get` returns: `NULL`, or an entry of the list, in whose place it may come back
with another value. -/
def found (whole : List EntryT → Assertion Cell) (es : List EntryT) (key : CString)
    (r : Option ℕ) : Assertion Cell :=
  match lookupKey EntryT.key key es with
  | none => only (r = none) * whole es
  | some e => returned (fun q => ownedEntry q e *
      remainder (fun v => ownedEntry q (e.withValue v)) fun v =>
        whole (modifyKey EntryT.key key (EntryT.withValue v) es)) r

lemma found_le {whole whole' : List EntryT → Assertion Cell} {es' : List EntryT} {key : CString}
    (hlookup : lookupKey EntryT.key key es = lookupKey EntryT.key key es')
    (hle : whole es * F ≤ whole' es')
    (hmodify : ∀ v, whole (modifyKey EntryT.key key (EntryT.withValue v) es) * F ≤
      whole' (modifyKey EntryT.key key (EntryT.withValue v) es')) (r : Option ℕ) :
    found whole es key r * F ≤ found whole' es' key r := by
  rw [found, found, hlookup]
  cases lookupKey EntryT.key key es' with
  | none =>
    rw [mul_assoc]
    exact mul_le_mul' le_rfl hle
  | some e =>
    simp only [returned, ex_mul]
    refine ex_le fun q => ?_
    refine le_trans ?_ (le_ex _ q)
    rw [mul_assoc, mul_assoc]
    exact mul_le_mul' le_rfl (mul_le_mul' le_rfl (remainder_mul_le hmodify))

lemma listGetLoop_triple (key : CString) (es : List EntryT) {bound : ℕ}
    (hbound : es.length < bound) :
    Triple (chain head es) (listGetLoop key bound head) (found (chain head) es key) := by
  induction es generalizing head bound with
  | nil =>
    obtain ⟨bound, rfl⟩ := Nat.exists_eq_add_one_of_ne_zero (Nat.ne_zero_of_lt hbound)
    rw [← mul_one (chain head [])]
    refine triple_chain_nil ?_
    rintro rfl
    apply triple_pure
    rw [found, lookup_nil, chain_nil, only_mul_of rfl]
  | cons e es ih =>
    obtain ⟨bound, rfl⟩ := Nat.exists_eq_add_one_of_ne_zero (Nat.ne_zero_of_lt hbound)
    rw [← mul_one (chain head (e :: es))]
    refine triple_chain_cons ?_
    rintro a next rfl
    rw [mul_one]
    refine (nodeKey_reads a e next).step _ rfl ?_
    by_cases heq : e.key = key
    · rw [if_pos ((strcmp_eq_zero_iff _ _).mpr heq), nodeAt, ex_mul]
      refine triple_ex fun q => ?_
      refine (reads_node (some q) next).step (ownedEntry q e * chain next es) (by ac_rfl) ?_
      apply triple_pure
      rw [found, lookup_cons, if_pos heq]
      refine le_trans ?_ (le_returned _ q)
      refine le_trans (le_of_eq ?_) (mul_le_mul' le_rfl (le_remainder
        (R := cell a (.node (some q) next) * chain next es) fun v => ?_))
      · ac_rfl
      · rw [modifyKey, if_pos heq]
        refine le_trans (le_of_eq ?_) ((mul_le_mul_left
          (nodeAt_intro a q (e.withValue v) next) _).trans (chain_cons a _ next es))
        ac_rfl
    · rw [if_neg (mt (strcmp_eq_zero_iff _ _).mp heq)]
      refine (nodeNext_reads a e next).step _ rfl ?_
      refine (ih (Nat.lt_of_succ_lt_succ hbound)).last (nodeAt a e next) (mul_comm _ _) ?_
      refine found_le ?_ ?_ fun v => ?_
      · rw [lookup_cons, if_neg heq]
      · rw [mul_comm]
        exact chain_cons a e next es
      · rw [modifyKey, if_neg heq, mul_comm]
        exact chain_cons a e next _

theorem listGet_triple (list : ListT) (l k : ℕ) (key : CString) :
    Triple (listAt l list * ownedString k key) (listGet (some l) (some k)) fun r =>
      found (fun es => listAt l ⟨list.size, es⟩) list.head key r * ownedString k key := by
  have hargs : ¬(some l = none ∨ some k = none) := by simp
  rw [listGet, if_neg hargs, listAt, ex_mul]
  refine triple_ex fun head => ?_
  refine ((reads_string key).lift blocks).step _ (mul_comm _ _) ?_
  refine (listHead_reads l head list.size).step (chain head list.head * ownedString k key)
    (by ac_rfl) ?_
  refine ((triple_allocated (atLeast_header l head list.size list.head)).step (ownedString k key)
    rfl fun bound => ?_)
  rw [mul_assoc]
  refine triple_only fun hbound => ?_
  refine (listGetLoop_triple key list.head (by omega)).last
    (cell l (.list head list.size) * ownedString k key) (by ac_rfl) fun r => ?_
  rw [← mul_assoc]
  refine mul_le_mul_left (found_le rfl ?_ (fun v => ?_) r) _
  · rw [mul_comm]
    exact listAt_intro l head list
  · rw [mul_comm]
    exact listAt_intro l head ⟨list.size, modifyKey EntryT.key key (EntryT.withValue v) list.head⟩

end

end RemoteTable.Pointers
