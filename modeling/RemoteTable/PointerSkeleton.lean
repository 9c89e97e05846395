import RemoteTable.PointerDecoder
import RemoteTable.UnsetReplies

/-!
# The memory of `invoke`

`table_skel.c` over the blocks of the request, the reply and the table. Where every allocation
is granted, a request does to the table what the dispatcher says, the reply owns its blocks,
and the blocks that nothing points to afterwards are counted.
-/

namespace RemoteTable.Pointers
open Memory Memory.Assertion Allocation

/-- What `table.c` and `list.c` do. -/
def onCells {β : Type} (x : Mem Cell β) : Mem ServerCell β := lift cells x

/-! ### The list of all keys -/

/-- The loop of `list_get_keys`, and whether every key could be copied. -/
def listKeysLoop (listKeys : Option ℕ) : ℕ → ℕ → Option ℕ → Mem ServerCell Bool
  | 0, _, _ => throw .outside
  | _ + 1, _, none => pure true
  | bound + 1, i, some currentNode => do
    let key ← onCells (nodeKey (some currentNode))
    let copy ← malloc (stringCell key)
    setKeyAt listKeys i copy
    match copy with
    | none => do
      listFreeKeys listKeys
      free (some currentNode)
      pure false
    | some _ => do
      let next ← onCells (nodeNext (some currentNode))
      listKeysLoop listKeys bound (i + 1) next

def listGetKeys (list : Option ℕ) : Mem ServerCell (Option ℕ) :=
  match list with
  | none => pure none
  | some _ => do
    let (head, size) ← onCells (readList list)
    match head with
    | none => pure none
    | some _ => do
      let listKeys ← malloc (.keys (List.replicate (size + 1).toNat none))
      match listKeys with
      | none => pure none
      | some _ => do
        let bound ← allocated
        if ← listKeysLoop listKeys bound 0 head then do
          setKeyAt listKeys size.toNat none
          pure listKeys
        else pure none

/-- The loop over the strings of one list: the index that follows the last copy, unless one of
them could not be made. -/
def copyKeysLoop (tableKeys temp : Option ℕ) : ℕ → ℕ → ℕ → Mem ServerCell (Option ℕ)
  | 0, _, _ => throw .outside
  | left + 1, indexTemp, indexTotal => do
    let key ← keyAt temp indexTemp
    match key with
    | none => pure (some indexTotal)
    | some _ => do
      let copy ← onBlocks (strdup key)
      setKeyAt tableKeys indexTotal copy
      match copy with
      | none => do
        tableFreeKeys tableKeys
        listFreeKeys temp
        pure none
      | some _ => copyKeysLoop tableKeys temp left (indexTemp + 1) (indexTotal + 1)

/-- The loop over the buckets with `left` of them to go. -/
def tableKeysLoop (table tableKeys : Option ℕ) : ℕ → ℕ → ℕ → Mem ServerCell (Option ℕ)
  | 0, _, indexTotal => pure (some indexTotal)
  | left + 1, indexTable, indexTotal => do
    let list ← onCells (bucketAt table indexTable)
    let temp ← listGetKeys list
    match temp with
    | none => tableKeysLoop table tableKeys left (indexTable + 1) indexTotal
    | some _ => do
      let slots ← readKeys temp
      match ← copyKeysLoop tableKeys temp slots.length 0 indexTotal with
      | none => pure none
      | some indexTotal => do
        listFreeKeys temp
        tableKeysLoop table tableKeys left (indexTable + 1) indexTotal

def tableGetKeys (table : Option ℕ) : Mem ServerCell (Option ℕ) :=
  match table with
  | none => pure none
  | some _ => do
    let (_, size, quantityEntry) ← onCells (readTable table)
    if quantityEntry = 0 then pure none
    else do
      -- one byte more than `quantity_entry` pointers, which is no slot for the `NULL`
      let tableKeys ← malloc (.keys (List.replicate quantityEntry.toNat none))
      match tableKeys with
      | none => pure none
      | some _ => do
        match ← tableKeysLoop table tableKeys size.toNat 0 0 with
        | none => pure none
        | some indexTotal => do
          setKeyAt tableKeys indexTotal none
          pure tableKeys

/-! ### `invoke` -/

/-- `content.key` -/
def keyOf (msgIn : Option ℕ) : Mem ServerCell (Option ℕ) := do
  let content ← contentOf msgIn
  content.keyMember

/-- A call with `content.entry->key` and `content.entry->value`. -/
def onEntry (msgIn : Option ℕ) (call : Option ℕ → Option ℕ → Mem Cell ℤ) : Mem ServerCell ℤ := do
  let content ← contentOf msgIn
  let entry ← content.entryMember
  let (key, value) ← onBlocks (readEntry entry)
  onCells (call key value)

/-- `build_error_msg` -/
def setError (msgError : Option ℕ) : Mem ServerCell Unit := setResult msgError ocRtError (-1)

def invokeSize (tabela msgResposta : Option ℕ) : Mem ServerCell Unit := do
  let result ← onCells (tableSize tabela)
  if result < 0 then setError msgResposta
  else setResult msgResposta (ocSize + 1) result

def invokePut (tabela msgIn msgResposta : Option ℕ) : Mem ServerCell Unit := do
  let result ← onEntry msgIn (tablePut tabela)
  if result = -1 then setError msgResposta
  else if result = -10 then setResult msgResposta (ocPut + 1) (-10)
  else setResult msgResposta (ocPut + 1) result

/-- What becomes of the value that `table_get` returned. -/
def setFound (msgResposta tempData : Option ℕ) : Mem ServerCell Unit := do
  let (datasize, block) ← onBlocks (readData tempData)
  setHeader msgResposta (ocGet + 1) ctValue
  if datasize = 0 ∧ block = none then setContent msgResposta (.data tempData)
  else do
    let copy ← onBlocks (dataDup tempData)
    setContent msgResposta (.data copy)
    onBlocks (dataDestroy tempData)

/-- No path releases `temp_key`. -/
def invokeGet (tabela msgIn msgResposta : Option ℕ) : Mem ServerCell Unit := do
  let key ← keyOf msgIn
  let tempKey ← onBlocks (strdup key)
  whenNull tempKey (setError msgResposta)
  let chars ← onBlocks (readString tempKey)
  if strcmp bang chars = 0 then do
    let (_, _, quantityEntry) ← onCells (readTable tabela)
    if quantityEntry = 0 then setResult msgResposta (ocGet + 1) 0
    else do
      setHeader msgResposta (ocGet + 1) ctKeys
      let keys ← tableGetKeys tabela
      setContent msgResposta (.keys keys)
  else do
    let tempData ← onCells (tableGet tabela tempKey)
    match tempData with
    | none => setError msgResposta
    | some _ => setFound msgResposta tempData

def invokeUpdate (tabela msgIn msgResposta : Option ℕ) : Mem ServerCell Unit := do
  let result ← onEntry msgIn (tableUpdate tabela)
  if result = -1 then setError msgResposta
  else setResult msgResposta (ocUpdate + 1) result

def invokeDel (tabela msgIn msgResposta : Option ℕ) : Mem ServerCell Unit := do
  let key ← keyOf msgIn
  let result ← onCells (tableDel tabela key)
  if result = -1 then setError msgResposta
  else setResult msgResposta (ocDel + 1) result

/-- The switch of `invoke`. -/
def dispatch (tabela msgIn msgResposta : Option ℕ) (opcode : Int16) : Mem ServerCell Unit :=
  if opcode = ocSize then invokeSize tabela msgResposta
  else if opcode = ocPut then invokePut tabela msgIn msgResposta
  else if opcode = ocGet then invokeGet tabela msgIn msgResposta
  else if opcode = ocUpdate then invokeUpdate tabela msgIn msgResposta
  else if opcode = ocDel then invokeDel tabela msgIn msgResposta
  else pure ()

def invoke (tabela msgIn : Option ℕ) : Mem ServerCell (Option ℕ) := do
  let msgResposta ← malloc (.message none none none)
  match msgResposta with
  | none => pure none
  | some _ =>
    if msgIn = none ∨ tabela = none then do
      freeMessage msgResposta
      pure none
    else do
      let opcode ← opcodeOf msgIn
      let cType ← cTypeOf msgIn
      if opcode < 0 ∨ cType < 0 then do
        freeMessage msgResposta
        pure none
      else do
        printMsg msgIn
        dispatch tabela msgIn msgResposta opcode
        printMsg msgResposta
        pure msgResposta

/-! ### `print_status` -/

/-- The loop over the keys with `left` slots to go. Of a value only the `struct` is released. -/
def printStatusLoop (tabela keys : Option ℕ) : ℕ → ℕ → Mem ServerCell Unit
  | 0, _ => throw .outside
  | left + 1, i => do
    let key ← keyAt keys i
    match key with
    | none => pure ()
    | some _ => do
      let tempData ← onCells (tableGet tabela key)
      let _ ← onBlocks (readString key)
      let (_, block) ← onBlocks (readData tempData)
      let bytes ← onBlocks (readBytes block)
      -- `%s` goes on to the next zero byte
      if 0 ∉ bytes then throw .outside
      else do
        free tempData
        printStatusLoop tabela keys left (i + 1)

def printStatus (tabela : Option ℕ) : Mem ServerCell Unit := do
  let keys ← tableGetKeys tabela
  match keys with
  | none => pure ()
  | some _ => do
    let slots ← readKeys keys
    printStatusLoop tabela keys slots.length 0
  tableFreeKeys keys

/-! ### What it leaves -/

/-- The blocks that a request leaves behind, beside those of its reply. A list of keys does not
fit its array, and a reply has to be set when it is printed. -/
def invokeLeaked (tabela : TableT) (msgIn : MessageT) : Except RemoteTable.Fault ℕ :=
  if msgIn.opcode = ocPut then do
    let entry ← msgIn.content.entryMember
    return leaked tabela.contents (.put entry.key entry.value)
  else if msgIn.opcode = ocGet then do
    let key ← msgIn.content.keyMember
    if strcmp bang key = 0 ∧ tabela.quantityEntry ≠ 0 then throw .outOfBounds else return 1
  else if msgIn.opcode = ocUpdate then do
    let entry ← msgIn.content.entryMember
    return leaked tabela.contents (.update entry.key entry.value)
  else if msgIn.opcode ∈ tableOpcodes then return 0
  else throw .uninitialised

/-- A well-formed table of `n` buckets. -/
def tabelaAt (t : ℕ) (n : ℤ) (tabela : TableT) : Assertion ServerCell :=
  only (tabela.Represents n tabela.contents) * (tableAt t tabela).embed cells

def replyAt (q : ℕ) : Reply → Assertion ServerCell
  | .unset => cell q (.message none none none)
  | .message msg => messageAt q msg

section
variable {β : Type} {x : Mem ServerCell β} {Q : β → Assertion ServerCell}
  {F : Assertion ServerCell} {p q k d t left : ℕ} {n result : ℤ} {opcode cType : Int16}
  {tabela tabela' : TableT} {key : CString} {value : DataT} {e : EntryT} {reply : Reply}
  {content : Content} {msg : MessageT}

/-! ### The calls on the table -/

lemma tabelaAt_intro (hr : tabela.Represents n tabela.contents) (t : ℕ) :
    (tableAt t tabela).embed cells ≤ tabelaAt t n tabela := (only_mul_of hr _).ge

/-- A call that got an index had a key for it. -/
lemma indexable_of_bucketAt {m : KeyMap} {list : ListT} (hr : tabela.Represents n m)
    (h : RemoteTable.bucketAt tabela (keyHash key tabela.size) = .ok list) :
    0 ≤ keyHash key n := hr.size ▸ (bucketAt_eq_ok.mp h).1

/-- A call on the table that returns an `int`, among the other blocks. -/
lemma code_onCells {y : Mem Cell ℤ} {own : Assertion Cell}
    (hr' : tabela'.Represents n tabela'.contents)
    (hy : Triple (tableAt t tabela * own) y fun r => only (r = result) *
      (held left * (tableAt t tabela' * own))) :
    Triple ((tableAt t tabela).embed cells * own.embed cells) (onCells y) fun r =>
      only (r = result) * (held left * (tabelaAt t n tabela' * own.embed cells)) := by
  have h := triple_lift cells hy
  simp only [embed_mul, embed_only] at h
  refine h.mono le_rfl fun r => ?_
  refine mul_le_mul' le_rfl (mul_le_mul' (embed_held_le cells left) ?_)
  exact mul_le_mul_left (tabelaAt_intro hr' t) _

lemma put_onCells (h : RemoteTable.tablePut tabela key value = .ok (result, tabela')) (k d : ℕ) :
    Triple (tabelaAt t n tabela * (heapString k key * heapData d value))
      (onCells (tablePut (some t) (some k) (some d))) fun r => only (r = result) *
        (held (leaked tabela.contents (.put key value)) *
          (tabelaAt t n tabela' * (heapString k key * heapData d value))) := by
  rw [tabelaAt, mul_assoc]
  refine triple_only fun hr => ?_
  obtain ⟨found, hget, -⟩ := bind_eq_ok h
  obtain ⟨list, hb, -⟩ := bind_eq_ok hget
  obtain ⟨table', hput, hr', htriple⟩ :=
    tablePut_stored hr (indexable_of_bucketAt hr hb) t k d value
  rw [h, Except.ok.injEq, Prod.mk.injEq] at hput
  obtain ⟨rfl, rfl⟩ := hput
  have hcall := code_onCells hr'.self htriple
  rwa [embed_mul] at hcall

lemma update_onCells (h : RemoteTable.tableUpdate tabela key value = .ok (result, tabela'))
    (k d : ℕ) :
    Triple (tabelaAt t n tabela * (heapString k key * heapData d value))
      (onCells (tableUpdate (some t) (some k) (some d))) fun r => only (r = result) *
        (held (leaked tabela.contents (.update key value)) *
          (tabelaAt t n tabela' * (heapString k key * heapData d value))) := by
  rw [tabelaAt, mul_assoc]
  refine triple_only fun hr => ?_
  obtain ⟨list, hb, -⟩ := bind_eq_ok h
  obtain ⟨table', hupdate, hr', htriple⟩ :=
    tableUpdate_stored hr (indexable_of_bucketAt hr hb) t k d value
  rw [h, Except.ok.injEq, Prod.mk.injEq] at hupdate
  obtain ⟨rfl, rfl⟩ := hupdate
  have hcall := code_onCells hr'.self htriple
  rwa [embed_mul] at hcall

lemma del_onCells (h : RemoteTable.tableDel tabela key = .ok (result, tabela')) (k : ℕ) :
    Triple (tabelaAt t n tabela * heapString k key)
      (onCells (tableDel (some t) (some k))) fun r => only (r = result) *
        (held 0 * (tabelaAt t n tabela' * heapString k key)) := by
  rw [tabelaAt, mul_assoc]
  refine triple_only fun hr => ?_
  obtain ⟨list, hb, -⟩ := bind_eq_ok h
  obtain ⟨table', hdel, hr', htriple⟩ := tableDel_stored hr (indexable_of_bucketAt hr hb) t k
  rw [h, Except.ok.injEq, Prod.mk.injEq] at hdel
  obtain ⟨rfl, rfl⟩ := hdel
  exact code_onCells hr'.self (htriple.mono le_rfl fun r =>
    mul_le_mul' le_rfl (le_held_zero_mul _))

/-- What `table_get` returns. -/
def foundAt (found : Option DataT) (r : Option ℕ) : Assertion ServerCell :=
  match found with
  | none => only (r = none)
  | some v => returned (fun q => heapData q v) r

lemma get_onCells {found : Option DataT} (h : RemoteTable.tableGet tabela key = .ok found)
    (k : ℕ) :
    Triple (tabelaAt t n tabela * heapString k key) (onCells (tableGet (some t) (some k)))
      fun r => foundAt found r * (tabelaAt t n tabela * heapString k key) := by
  rw [tabelaAt, mul_assoc]
  refine triple_only fun hr => ?_
  obtain ⟨list, hb, h⟩ := bind_eq_ok h
  have hcall := triple_lift cells (tableGet_triple t k hb)
  simp only [embed_mul] at hcall
  refine hcall.mono le_rfl fun r => ?_
  rw [only_mul_of hr]
  refine mul_le_mul_left ?_ _
  cases hlist : RemoteTable.listGet list key with
  | none =>
    simp only [hlist] at h
    cases h
    rw [copyOf, embed_only]
    exact le_rfl
  | some e =>
    simp only [hlist] at h
    cases h
    rw [copyOf, embed_returned]
    exact le_rfl

lemma size_onCells (t : ℕ) (n : ℤ) (tabela : TableT) :
    Reads (tabelaAt t n tabela) (onCells (tableSize (some t)))
      (RemoteTable.tableSize tabela) :=
  reads_only fun _ => (tableSize_triple t tabela).lift cells

lemma quantity_onCells (t : ℕ) (n : ℤ) (tabela : TableT) :
    Triple (tabelaAt t n tabela) (onCells (readTable (some t))) fun r =>
      only (r.2.2 = tabela.quantityEntry) * tabelaAt t n tabela := by
  refine triple_only fun hr => ?_
  have h : Triple (tableAt t tabela) (readTable (some t)) fun r =>
      only (r.2.2 = tabela.quantityEntry) * tableAt t tabela := by
    refine triple_ex fun b => triple_ex fun ls => ?_
    rw [arrayAt, mul_assoc]
    have hread := (reads_table t b tabela.size tabela.quantityEntry).frame
      (cell b (.buckets (slotsOf ls)) * listsAt ls tabela.buckets)
    refine Triple.mono hread le_rfl fun r => only_mul_le fun hr => ?_
    rw [hr, only_mul_of rfl, ← mul_assoc]
    exact tableAt_intro t b ls tabela
  have hcall := triple_lift cells h
  simp only [embed_mul, embed_only] at hcall
  exact hcall.mono le_rfl fun r => mul_le_mul' le_rfl (tabelaAt_intro hr t)

/-! ### The request and the reply -/

/-- The two blocks of a request that lead to the key and the value of its entry. -/
def openEntryAt (p : ℕ) (opcode : Int16) (q k d : ℕ) : Assertion ServerCell :=
  headAt p opcode ctEntry (.entry (some q)) * cell q (.stored (.block (.entry (some k) (some d))))

lemma openEntry_close (p : ℕ) (opcode : Int16) (q k d : ℕ) (e : EntryT) :
    openEntryAt p opcode q k d * (heapString k e.key * heapData d e.value) ≤
      messageAt p ⟨opcode, .entry e⟩ := by
  refine le_trans ?_ (le_ex (fun q => headAt p opcode ctEntry (.entry (some q)) *
    heapEntry q e) q)
  rw [openEntryAt, mul_assoc]
  refine mul_le_mul' le_rfl ?_
  rw [heapEntry_eq]
  exact fun _ hc => ⟨k, d, hc⟩

lemma triple_openEntry
    (h : ∀ q k d, Triple (openEntryAt p opcode q k d *
      (heapString k e.key * heapData d e.value) * F) x Q) :
    Triple (messageAt p ⟨opcode, .entry e⟩ * F) x Q := by
  rw [messageAt, ex_mul]
  refine triple_ex fun q => ?_
  rw [heapEntry_eq, mul_assoc, mul_left_comm, ex_mul]
  refine triple_ex fun k => ?_
  rw [ex_mul]
  refine triple_ex fun d => (h q k d).weaken (le_of_eq ?_)
  rw [openEntryAt]
  ac_rfl

lemma onEntry_triple {call : Option ℕ → Option ℕ → Mem Cell ℤ} {P P' : Assertion ServerCell}
    (hcall : ∀ k d, Triple (P * (heapString k e.key * heapData d e.value))
      (onCells (call (some k) (some d))) fun r => only (r = result) * (held left *
        (P' * (heapString k e.key * heapData d e.value)))) :
    Triple (P * messageAt p ⟨opcode, .entry e⟩) (onEntry (some p) call) fun r =>
      only (r = result) * (held left * (P' * messageAt p ⟨opcode, .entry e⟩)) := by
  rw [mul_comm P]
  refine triple_openEntry fun q k d => ?_
  rw [openEntryAt]
  refine contentOf_reads.step _ (by rw [mul_assoc, mul_assoc]) ?_
  refine (reads_pure _ (some q)).bind ?_
  refine (readEntry_heap q k d).step (headAt p opcode ctEntry (.entry (some q)) *
    (heapString k e.key * heapData d e.value * P)) (by ac_rfl) ?_
  refine (hcall k d).last (openEntryAt p opcode q k d) (by rw [openEntryAt]; ac_rfl) fun r => ?_
  rw [mul_assoc, mul_assoc, mul_assoc]
  refine mul_le_mul' le_rfl (mul_le_mul' le_rfl (mul_le_mul' le_rfl ?_))
  rw [mul_comm]
  exact openEntry_close p opcode q k d e

lemma triple_openKey
    (h : ∀ k, Triple (headAt p opcode ctKey (.key (some k)) * heapString k key * F) x Q) :
    Triple (messageAt p ⟨opcode, .key key⟩ * F) x Q := by
  rw [messageAt, ex_mul]
  exact triple_ex h

lemma openKey_close (p : ℕ) (opcode : Int16) (k : ℕ) (key : CString) :
    headAt p opcode ctKey (.key (some k)) * heapString k key ≤ messageAt p ⟨opcode, .key key⟩ :=
  le_ex (fun k => headAt p opcode ctKey (.key (some k)) * heapString k key) k

lemma keyOf_reads (p : ℕ) (opcode : Int16) (k : ℕ) :
    Reads (headAt p opcode ctKey (.key (some k))) (keyOf (some p)) (some k) :=
  contentOf_reads.bind (reads_pure _ (some k))

lemma eq_entry_of_entryMember (h : content.entryMember = .ok e) : content = .entry e := by
  cases content with
  | entry e' =>
    cases h
    rfl
  | _ => cases h

lemma setReply_triple (q : ℕ) (opcode : Int16) (result : ℤ) :
    Triple (replyAt q .unset) (setResult (some q) opcode result) fun _ =>
      replyAt q (resultReply opcode result) := setResult_triple q none none none opcode result

lemma setError_triple (q : ℕ) :
    Triple (replyAt q .unset) (setError (some q)) fun _ => replyAt q errorReply :=
  setResult_triple q none none none ocRtError (-1)

/-! ### One case for each opcode -/

/-- The reply, the table and the request after a case, with the blocks that it leaves. -/
def answeredAt (q t p : ℕ) (n : ℤ) (reply : Reply) (left : ℕ) (tabela : TableT)
    (msg : MessageT) : Assertion ServerCell :=
  replyAt q reply * (held left * (tabelaAt t n tabela * messageAt p msg))

/-- A case has its `int`, and assigns the reply. -/
lemma answer_triple {assign : Mem ServerCell Unit} (reply : Reply)
    (hassign : Triple (replyAt q .unset) assign fun _ => replyAt q reply) :
    Triple (held left * (tabelaAt t n tabela * messageAt p msg) * replyAt q .unset) assign
      fun _ => answeredAt q t p n reply left tabela msg :=
  hassign.last _ (mul_comm _ _) fun _ => le_rfl

lemma invokePut_triple
    (h : RemoteTable.invokePut tabela (.entry e) = .ok (reply, tabela')) :
    Triple (tabelaAt t n tabela * messageAt p ⟨opcode, .entry e⟩ * replyAt q .unset)
      (invokePut (some t) (some p) (some q)) fun _ =>
        answeredAt q t p n reply (leaked tabela.contents (.put e.key e.value)) tabela'
          ⟨opcode, .entry e⟩ := by
  obtain ⟨_, hentry, h⟩ := bind_eq_ok h
  cases hentry
  obtain ⟨⟨result, tabela₁⟩, hput, h⟩ := bind_eq_ok h
  refine (onEntry_triple fun k d => put_onCells hput k d).step _ rfl fun r => ?_
  rw [mul_assoc]
  apply triple_only
  rintro rfl
  by_cases hfailed : r = -1
  · simp only [if_pos hfailed] at h ⊢
    cases h
    exact answer_triple _ (setError_triple q)
  simp only [if_neg hfailed] at h ⊢
  by_cases hkept : r = -10
  · simp only [if_pos hkept] at h ⊢
    cases h
    exact answer_triple _ (setReply_triple q _ _)
  · simp only [if_neg hkept] at h ⊢
    cases h
    exact answer_triple _ (setReply_triple q _ _)

lemma invokeUpdate_triple
    (h : RemoteTable.invokeUpdate tabela (.entry e) = .ok (reply, tabela')) :
    Triple (tabelaAt t n tabela * messageAt p ⟨opcode, .entry e⟩ * replyAt q .unset)
      (invokeUpdate (some t) (some p) (some q)) fun _ =>
        answeredAt q t p n reply (leaked tabela.contents (.update e.key e.value)) tabela'
          ⟨opcode, .entry e⟩ := by
  obtain ⟨_, hentry, h⟩ := bind_eq_ok h
  cases hentry
  obtain ⟨⟨result, tabela₁⟩, hupdate, h⟩ := bind_eq_ok h
  refine (onEntry_triple fun k d => update_onCells hupdate k d).step _ rfl fun r => ?_
  rw [mul_assoc]
  apply triple_only
  rintro rfl
  by_cases hfailed : r = -1
  · simp only [if_pos hfailed] at h ⊢
    cases h
    exact answer_triple _ (setError_triple q)
  · simp only [if_neg hfailed] at h ⊢
    cases h
    exact answer_triple _ (setReply_triple q _ _)

lemma invokeDel_triple (h : RemoteTable.invokeDel tabela (.key key) = .ok (reply, tabela')) :
    Triple (tabelaAt t n tabela * messageAt p ⟨opcode, .key key⟩ * replyAt q .unset)
      (invokeDel (some t) (some p) (some q)) fun _ =>
        answeredAt q t p n reply 0 tabela' ⟨opcode, .key key⟩ := by
  obtain ⟨_, hkey, h⟩ := bind_eq_ok h
  cases hkey
  obtain ⟨⟨result, tabela₁⟩, hdel, h⟩ := bind_eq_ok h
  rw [mul_comm (tabelaAt t n tabela), mul_assoc]
  refine triple_openKey fun k => ?_
  refine (keyOf_reads p opcode k).step _ (mul_assoc _ _ _) ?_
  refine (del_onCells hdel k).step (headAt p opcode ctKey (.key (some k)) * replyAt q .unset)
    (by ac_rfl) fun r => ?_
  rw [mul_assoc]
  apply triple_only
  rintro rfl
  -- the key goes back into the request
  have hclose : held 0 * (tabelaAt t n tabela₁ * heapString k key) *
      (headAt p opcode ctKey (.key (some k)) * replyAt q .unset) ≤
      held 0 * (tabelaAt t n tabela₁ * messageAt p ⟨opcode, .key key⟩) * replyAt q .unset := by
    refine le_trans (le_of_eq ?_) (mul_le_mul_left (mul_le_mul' le_rfl (mul_le_mul' le_rfl
      (openKey_close p opcode k key))) _)
    ac_rfl
  refine Triple.weaken ?_ hclose
  by_cases hfailed : r = -1
  · simp only [if_pos hfailed] at h ⊢
    cases h
    exact answer_triple _ (setError_triple q)
  · simp only [if_neg hfailed] at h ⊢
    cases h
    exact answer_triple _ (setReply_triple q _ _)

lemma invokeSize_triple (h : RemoteTable.invokeSize tabela = .ok (reply, tabela')) :
    Triple (tabelaAt t n tabela * messageAt p msg * replyAt q .unset)
      (invokeSize (some t) (some q)) fun _ => answeredAt q t p n reply 0 tabela' msg := by
  refine (size_onCells t n tabela).step _ (mul_assoc _ _ _) ?_
  refine Triple.weaken ?_ (mul_le_mul_left (le_held_zero_mul _) _)
  unfold RemoteTable.invokeSize at h
  by_cases hneg : RemoteTable.tableSize tabela < 0
  · simp only [if_pos hneg] at h ⊢
    cases h
    exact answer_triple _ (setError_triple q)
  · simp only [if_neg hneg] at h ⊢
    cases h
    exact answer_triple _ (setReply_triple q _ _)

lemma strdup_heap (k : ℕ) (key : CString) :
    Triple (heapString k key) (onBlocks (strdup (some k))) fun r =>
      returned (fun k' => heapString k' key) r * heapString k key := by
  have h := triple_onBlocks (strdup_triple k key)
  simp only [embed_mul, embed_returned] at h
  exact h

lemma heapString_le_held (k : ℕ) (key : CString) : heapString k key ≤ held 1 := by
  rw [heapString_eq]
  exact cell_le_held k _

/-- The reply owns a copy, and the value itself is destroyed. -/
lemma setFound_triple (q d : ℕ) (v : DataT) :
    Triple (heapData d v * replyAt q .unset) (setFound (some q) (some d)) fun _ =>
      replyAt q (.message ⟨ocGet + 1, .data v⟩) := by
  refine (readData_heap d v).step _ rfl fun r => ?_
  obtain ⟨datasize, block⟩ := r
  rw [mul_assoc]
  refine triple_only fun hbytes => ?_
  refine (setHeader_triple q none none none _ _).step _ (mul_comm _ _) fun _ => ?_
  rw [if_neg hbytes]
  have hdup := triple_onBlocks (dataDup_triple d v)
  simp only [embed_mul, embed_returned] at hdup
  refine hdup.adds (blankMessage q (ocGet + 1) ctValue) (mul_comm _ _) fun d' => ?_
  refine (setContent_triple q _ _ none (.data (some d'))).step (heapData d' v * heapData d v)
    (mul_left_comm _ _ _) fun _ => ?_
  refine (destroyData_heap d v).last (headAt q (ocGet + 1) ctValue (.data (some d')) *
    heapData d' v) (by rw [headAt]; ac_rfl) fun _ => ?_
  rw [one_mul]
  exact le_ex (fun d => headAt q (ocGet + 1) ctValue (.data (some d)) * heapData d v) d'

/-- Whatever is done with the copy of the key, it stays. -/
lemma invokeGet_triple {key : CString}
    (h : RemoteTable.invokeGet tabela (.key key) = .ok (reply, tabela'))
    (hlist : ¬(strcmp bang key = 0 ∧ tabela.quantityEntry ≠ 0)) :
    Triple (tabelaAt t n tabela * messageAt p ⟨opcode, .key key⟩ * replyAt q .unset)
      (invokeGet (some t) (some p) (some q)) fun _ =>
        answeredAt q t p n reply 1 tabela' ⟨opcode, .key key⟩ := by
  obtain ⟨_, hkey, h⟩ := bind_eq_ok h
  cases hkey
  rw [mul_comm (tabelaAt t n tabela), mul_assoc]
  refine triple_openKey fun k => ?_
  refine (keyOf_reads p opcode k).step _ (mul_assoc _ _ _) ?_
  refine (strdup_heap k key).adds (headAt p opcode ctKey (.key (some k)) *
    (tabelaAt t n tabela * replyAt q .unset)) (by ac_rfl) fun k' => ?_
  have hclose : heapString k' key * (headAt p opcode ctKey (.key (some k)) * heapString k key *
      (tabelaAt t n tabela * replyAt q .unset)) ≤
      heapString k' key * (tabelaAt t n tabela * messageAt p ⟨opcode, .key key⟩ *
        replyAt q .unset) := by
    refine mul_le_mul' le_rfl (le_trans (mul_le_mul_left (openKey_close p opcode k key) _)
      (le_of_eq ?_))
    ac_rfl
  refine Triple.weaken ?_ hclose
  refine (reads_whenNull _ k' _).bind ?_
  refine (readString_reads k' key).step _ rfl ?_
  have hkept : heapString k' key * (tabelaAt t n tabela * messageAt p ⟨opcode, .key key⟩ *
      replyAt q .unset) ≤ held 1 * (tabelaAt t n tabela * messageAt p ⟨opcode, .key key⟩) *
        replyAt q .unset := by
    rw [mul_assoc (held 1)]
    exact mul_le_mul_left (heapString_le_held k' key) _
  by_cases hbang : strcmp bang key = 0
  · have hempty : tabela.quantityEntry = 0 := by
      by_contra hne
      exact hlist ⟨hbang, hne⟩
    simp only [if_pos hbang, if_pos hempty] at h ⊢
    cases h
    refine (quantity_onCells t n tabela).step (heapString k' key * (messageAt p
      ⟨opcode, .key key⟩ * replyAt q .unset)) (by ac_rfl) fun r => ?_
    obtain ⟨buckets, size, quantity⟩ := r
    rw [mul_assoc]
    refine triple_only fun hquantity => ?_
    rw [if_pos (hquantity.trans hempty)]
    refine Triple.weaken ?_ (le_trans (le_of_eq ?_) hkept)
    · exact answer_triple _ (setReply_triple q _ _)
    · ac_rfl
  · simp only [if_neg hbang] at h ⊢
    obtain ⟨found, hget, h⟩ := bind_eq_ok h
    refine (get_onCells hget k').step (messageAt p ⟨opcode, .key key⟩ * replyAt q .unset)
      (by ac_rfl) fun r => ?_
    cases found with
    | none =>
      cases h
      rw [foundAt, mul_assoc]
      apply triple_only
      rintro rfl
      refine Triple.weaken ?_ (le_trans (le_of_eq ?_) hkept)
      · exact answer_triple _ (setError_triple q)
      · ac_rfl
    | some v =>
      cases h
      rw [foundAt, mul_assoc]
      apply triple_returned
      rintro d rfl
      refine Triple.weaken ?_ (le_trans (le_of_eq ?_) (mul_le_mul' (le_refl (heapData d v)) hkept))
      · refine (setFound_triple q d v).last (held 1 * (tabelaAt t n tabela *
          messageAt p ⟨opcode, .key key⟩)) (by ac_rfl) fun _ => le_rfl
      · ac_rfl

/-! ### The dispatcher -/

/-- The reply to a request that is counted is set. -/
lemma mem_tableOpcodes_of_leaked (h : invokeLeaked tabela msg = .ok left) :
    msg.opcode ∈ tableOpcodes := by
  unfold invokeLeaked at h
  split at h
  · simp [tableOpcodes, *]
  · split at h
    · simp [tableOpcodes, *]
    · split at h
      · simp [tableOpcodes, *]
      · split at h
        · assumption
        · cases h

lemma dispatch_triple (h : RemoteTable.invoke tabela ⟨opcode, content⟩ = .ok (reply, tabela'))
    (hleft : invokeLeaked tabela ⟨opcode, content⟩ = .ok left) :
    Triple (tabelaAt t n tabela * messageAt p ⟨opcode, content⟩ * replyAt q .unset)
      (dispatch (some t) (some p) (some q) opcode) fun _ =>
        answeredAt q t p n reply left tabela' ⟨opcode, content⟩ := by
  simp only [invokeLeaked] at hleft
  rw [dispatch]
  by_cases hsize : opcode = ocSize
  · subst hsize
    rw [invoke_size] at h
    rw [if_neg (by decide), if_neg (by decide), if_neg (by decide)] at hleft
    cases hleft
    rw [if_pos rfl]
    exact invokeSize_triple h
  by_cases hput : opcode = ocPut
  · subst hput
    rw [invoke_put] at h
    rw [if_pos rfl] at hleft
    obtain ⟨e, hentry, hleft⟩ := bind_eq_ok hleft
    cases eq_entry_of_entryMember hentry
    cases hleft
    rw [if_neg (by decide), if_pos rfl]
    exact invokePut_triple h
  by_cases hget : opcode = ocGet
  · subst hget
    rw [invoke_get] at h
    rw [if_neg (by decide), if_pos rfl] at hleft
    obtain ⟨key, hkey, hlist⟩ := bind_eq_ok hleft
    cases eq_key_of_keyMember hkey
    rw [if_neg (by decide), if_neg (by decide), if_pos rfl]
    split at hlist
    · cases hlist
    · rename_i hfits
      cases hlist
      exact invokeGet_triple h hfits
  by_cases hupdate : opcode = ocUpdate
  · subst hupdate
    rw [invoke_update] at h
    rw [if_neg (by decide), if_neg (by decide), if_pos rfl] at hleft
    obtain ⟨e, hentry, hleft⟩ := bind_eq_ok hleft
    cases eq_entry_of_entryMember hentry
    cases hleft
    rw [if_neg (by decide), if_neg (by decide), if_neg (by decide), if_pos rfl]
    exact invokeUpdate_triple h
  rw [if_neg hput, if_neg hget, if_neg hupdate] at hleft
  by_cases hop : opcode ∈ tableOpcodes
  · rw [if_pos hop] at hleft
    cases hleft
    obtain rfl : opcode = ocDel := by
      simpa [tableOpcodes, hsize, hput, hget, hupdate] using hop
    rw [invoke_del] at h
    obtain ⟨key, hkey, -⟩ := bind_eq_ok h
    cases eq_key_of_keyMember hkey
    rw [if_neg hsize, if_neg hput, if_neg hget, if_neg hupdate, if_pos rfl]
    exact invokeDel_triple h
  -- the reply is printed unset
  · rw [if_neg hop] at hleft
    cases hleft

lemma opcodeOf_message (p : ℕ) (msg : MessageT) :
    Reads (messageAt p msg) (opcodeOf (some p)) msg.opcode := by
  obtain ⟨opcode, content⟩ := msg
  cases content with
  | result r => exact opcodeOf_reads
  | _ => exact reads_ex fun q => opcodeOf_reads.frame _

lemma cTypeOf_message (p : ℕ) (msg : MessageT) :
    Reads (messageAt p msg) (cTypeOf (some p)) msg.cType := by
  obtain ⟨opcode, content⟩ := msg
  cases content with
  | result r => exact cTypeOf_reads
  | _ => exact reads_ex fun q => cTypeOf_reads.frame _

/-- The request is answered as the dispatcher says, and both messages are printed. -/
theorem invoke_triple (h : RemoteTable.invoke tabela msg = .ok (reply, tabela'))
    (hleft : invokeLeaked tabela msg = .ok left) (t p : ℕ) (n : ℤ) :
    Triple (tabelaAt t n tabela * messageAt p msg) (invoke (some t) (some p)) fun r =>
      returned (fun q => replyAt q reply) r *
        (held left * (tabelaAt t n tabela' * messageAt p msg)) := by
  have hvalid : ¬(msg.opcode < 0 ∨ msg.cType < 0) := by
    intro hneg
    rw [RemoteTable.invoke, if_pos hneg] at h
    cases h
  obtain ⟨answer, rfl⟩ := invoke_message (mem_tableOpcodes_of_leaked hleft) h
  refine triple_malloc_step fun q => ?_
  have hargs : ¬(some p = none ∨ some t = none) := by simp
  rw [if_neg hargs]
  refine (opcodeOf_message p msg).step (cell q (.message none none none) *
    tabelaAt t n tabela) (by ac_rfl) ?_
  refine (cTypeOf_message p msg).step (cell q (.message none none none) *
    tabelaAt t n tabela) (by ac_rfl) ?_
  rw [if_neg hvalid]
  refine (printMsg_reads p msg).step (cell q (.message none none none) *
    tabelaAt t n tabela) (by ac_rfl) ?_
  rw [mul_comm]
  refine (dispatch_triple h hleft).bind fun _ => ?_
  refine (printMsg_reads q answer).step _ rfl (triple_pure ?_)
  exact mul_le_mul_left (le_returned (fun q => replyAt q (.message answer)) q) _

/-! ### `print_status` of an empty table -/

/-- There are no keys to print. -/
lemma printStatus_triple (t : ℕ) (n : ℤ) (hempty : tabela.quantityEntry = 0) :
    Triple (tabelaAt t n tabela) (printStatus (some t)) fun _ => tabelaAt t n tabela := by
  have hkeys : Triple (tabelaAt t n tabela) (tableGetKeys (some t)) fun r =>
      only (r = none) * tabelaAt t n tabela := by
    refine (quantity_onCells t n tabela).bind fun r => triple_only fun hquantity => ?_
    obtain ⟨buckets, size, quantity⟩ := r
    obtain rfl : quantity = 0 := hquantity.trans hempty
    simp only [if_true]
    exact reads_pure _ none
  refine hkeys.bind fun r => ?_
  apply triple_only
  rintro rfl
  exact triple_pure le_rfl

end

end RemoteTable.Pointers
