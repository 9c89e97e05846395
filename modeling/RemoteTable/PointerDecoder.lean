import RemoteTable.DecodeBounds
import RemoteTable.PointerMessages

/-!
# The memory of the decoder

`buffer_to_message` with what it allocates on the way. Where every allocation is granted, it
turns any bytes on which the decoder does not fault into a message that owns its blocks, or
into none and no blocks.
-/

namespace RemoteTable.Pointers
open Memory Memory.Assertion Allocation

/-- `memcpy(data->data, msg_buf, bs.length)` -/
def storeBytes (data : Option ℕ) (bs : List UInt8) : Mem Allocation.Block Unit := do
  let (_, block) ← readData data
  let old ← readBytes block
  if old.length < bs.length then throw .outside
  else write block (.bytes (bs ++ old.drop bs.length))

/-- The loop over the strings of CT_KEYS with `left` of them to go. -/
def decodeKeys (keys : Option ℕ) : ℕ → ℕ → List UInt8 → Mem ServerCell Unit
  | 0, i, _ => setKeyAt keys i none
  | left + 1, i, msgBuf => do
    let (chars, msgBuf) ← parse (getKey msgBuf)
    let key ← newString chars
    setKeyAt keys i key
    decodeKeys keys left (i + 1) msgBuf

/-- The part of the decoder behind the header. -/
def decodeContent (msg : Option ℕ) (cType : Int16) (msgBuf : List UInt8) :
    Mem ServerCell (Option ℕ) :=
  if cType = ctResult then do
    let (result, _) ← parse (getInt msgBuf)
    setContent msg (.result (Int32.ofNat result))
    pure msg
  else if cType = ctKey then do
    let (chars, _) ← parse (getKey msgBuf)
    let key ← newString chars
    setContent msg (.key key)
    pure msg
  else if cType = ctValue then do
    let (dataSize, msgBuf) ← parse (getInt msgBuf)
    let data ← onBlocks (dataCreate (toInt dataSize))
    setContent msg (.data data)
    match data with
    | none => do
      free msg
      pure none
    | some _ => do
      let (value, _) ← parse (getData (toInt dataSize) msgBuf)
      onBlocks (storeBytes data value.bytes)
      pure msg
  else if cType = ctEntry then do
    let (chars, msgBuf) ← parse (getKey msgBuf)
    let auxKey ← newString chars
    let (dataSize, msgBuf) ← parse (getInt msgBuf)
    let tempData ← onBlocks (dataCreate (toInt dataSize))
    match tempData with
    | none => do
      free auxKey
      freeMessage msg
      pure none
    | some _ => do
      let entry ← onBlocks (entryCreate auxKey tempData)
      setContent msg (.entry entry)
      match entry with
      | none => do
        free auxKey
        onBlocks (dataDestroy tempData)
        freeMessage msg
        pure none
      | some _ => do
        let (value, _) ← parse (getData (toInt dataSize) msgBuf)
        onBlocks do
          let (_, stored) ← readEntry entry
          storeBytes stored value.bytes
        free auxKey
        onBlocks (dataDestroy tempData)
        pure msg
  else if cType = ctKeys then do
    let (nkeys, msgBuf) ← parse (getInt msgBuf)
    let keys ← malloc (.keys (List.replicate (toInt nkeys + 1).toNat none))
    setContent msg (.keys keys)
    decodeKeys keys (toInt nkeys).toNat 0 msgBuf
    pure msg
  else pure msg

def bufferToMessage (msgBuf : Option ℕ) (msgSize : ℤ) : Mem ServerCell (Option ℕ) :=
  if msgBuf = none ∨ msgSize < 0 then pure none
  else do
    let msg ← malloc (.message none none none)
    match msg with
    | none => pure none
    | some _ => do
      let bytes ← onBlocks (readBytes msgBuf)
      let (opcode, bytes) ← parse (getShort bytes)
      let (cType, bytes) ← parse (getShort bytes)
      setHeader msg (Int16.ofNat opcode) (Int16.ofNat cType)
      if valid (Int16.ofNat opcode) (Int16.ofNat cType) ≠ 0 then do
        freeMessage msg
        pure none
      else decodeContent msg (Int16.ofNat cType) bytes

/-! ### Values -/

/-- The value that `data_create` leaves where another one is to be copied. -/
def blankValue (v : DataT) : DataT :=
  ⟨List.replicate v.datasize 0, by rw [List.length_replicate]; exact v.positive,
    by rw [List.length_replicate]; exact v.fits⟩

/-- What a decoded message or its absence comes to. -/
def decodedAt (msg : Option MessageT) (r : Option ℕ) : Assertion ServerCell :=
  match msg with
  | none => only (r = none)
  | some msg => returned (fun p => messageAt p msg) r

section
variable {a b p q : ℕ} {opcode cType : Int16} {msgBuf rest : List UInt8} {v : DataT}
  {key : CString}

lemma blank_le (q : ℕ) (v : DataT) : blankAt q v.datasize ≤ dataAt q (blankValue v) := by
  refine ex_le fun b => le_trans (le_of_eq ?_) (dataAt_intro q b (blankValue v))
  simp only [blankValue, DataT.datasize, List.length_replicate]

lemma newData_triple (v : DataT) :
    Triple 1 (onBlocks (dataCreate v.datasize)) (returned fun q => heapData q (blankValue v)) := by
  have h := triple_onBlocks ((dataCreate_triple v.positive).mono le_rfl fun r =>
    returned_mono (fun q => blank_le q v) r)
  rw [embed_one, embed_one] at h
  refine h.mono le_rfl fun r => ?_
  rw [embed_returned, embed_returned]
  exact le_rfl

lemma noData_reads {size : ℤ} (hsize : size ≤ 0) (F : Assertion ServerCell) :
    Reads F (onBlocks (dataCreate size)) none := by
  have hnone : Reads 1 (dataCreate size) none := by
    rw [dataCreate, if_pos hsize]
    exact reads_pure 1 none
  have h := (reads_onBlocks hnone).frame F
  rwa [embed_one, embed_one, one_mul] at h

lemma storeBytes_triple (q : ℕ) (v : DataT) :
    Triple (dataAt q (blankValue v)) (storeBytes (some q) v.bytes) fun _ => dataAt q v := by
  refine triple_ex fun b => ?_
  have hroom : ¬(blankValue v).bytes.length < v.bytes.length := by
    simp [blankValue, DataT.datasize]
  have hdrop : (blankValue v).bytes.drop v.bytes.length = [] := by
    simp [blankValue, DataT.datasize]
  have hsize : (blankValue v).datasize = v.datasize := by
    simp [blankValue, DataT.datasize]
  rw [hsize]
  refine (reads_data _ _).step _ rfl ?_
  refine (reads_bytes _).step _ (mul_comm _ _) ?_
  rw [if_neg hroom, hdrop, List.append_nil]
  exact (triple_write b _ _).last _ (mul_comm _ _) fun _ =>
    (mul_comm _ _).le.trans (dataAt_intro q b v)

/-- The bytes go into the copy that the entry owns. -/
lemma storeEntry_triple (q : ℕ) (key : CString) (v : DataT) :
    Triple (entryAt q ⟨key, blankValue v⟩) (do
        let (_, stored) ← readEntry (some q)
        storeBytes stored v.bytes) fun _ => entryAt q ⟨key, v⟩ := by
  refine triple_ex fun k => triple_ex fun d => ?_
  refine (reads_entry _ _).step _ rfl ?_
  refine (storeBytes_triple d v).last (cell q (.entry (some k) (some d)) *
    cell k (.string key)) (by ac_rfl) fun _ => ?_
  refine le_trans (le_of_eq ?_) (entryAt_intro q k d ⟨key, v⟩)
  ac_rfl

lemma storeEntry_heap (q : ℕ) (key : CString) (v : DataT) :
    Triple (heapEntry q ⟨key, blankValue v⟩) (onBlocks do
        let (_, stored) ← readEntry (some q)
        storeBytes stored v.bytes) fun _ => heapEntry q ⟨key, v⟩ :=
  triple_onBlocks (storeEntry_triple q key v)

lemma newEntry_heap (k d : ℕ) (e : EntryT) :
    Triple (heapString k e.key * heapData d e.value) (onBlocks (entryCreate (some k) (some d)))
      fun r => returned (fun q => heapEntry q e) r * (heapString k e.key * heapData d e.value) := by
  have h := triple_onBlocks (entryCreate_triple k d e)
  simp only [embed_mul, embed_returned] at h
  exact h

lemma destroyData_heap (q : ℕ) (v : DataT) :
    Triple (heapData q v) (onBlocks (dataDestroy (some q))) fun _ => 1 := by
  have h := triple_onBlocks (dataDestroy_triple q v)
  rwa [embed_one, embed_one] at h

/-! ### Contents -/

lemma datasize_getData {size : ℤ} (h : getData size msgBuf = .ok (v, rest)) :
    (v.datasize : ℤ) = size := by
  unfold getData at h
  split at h
  · rename_i hsize
    simp only [Except.ok.injEq, Prod.mk.injEq] at h
    rw [← h.1, DataT.datasize, List.length_take]
    omega
  · cases h

/-- A message with its header and nothing behind it. -/
def blankMessage (p : ℕ) (opcode cType : Int16) : Assertion ServerCell :=
  cell p (.message (some opcode) (some cType) none)

lemma decodeResult_triple {content : Option Content}
    (h : getContent ctResult msgBuf = .ok content) :
    Triple (blankMessage p opcode ctResult) (decodeContent (some p) ctResult msgBuf)
      (decodedAt (content.map (MessageT.mk opcode))) := by
  rw [getContent_ctResult] at h
  obtain ⟨⟨result, rest⟩, hresult, h⟩ := bind_eq_ok h
  cases h
  rw [decodeContent, if_pos rfl]
  refine (reads_parse hresult).bind ?_
  refine (setContent_triple p _ _ _ _).bind fun _ => ?_
  exact triple_pure (le_returned (fun p => messageAt p ⟨opcode, .result (Int32.ofNat result)⟩) p)

lemma decodeKey_triple {content : Option Content} (h : getContent ctKey msgBuf = .ok content) :
    Triple (blankMessage p opcode ctKey) (decodeContent (some p) ctKey msgBuf)
      (decodedAt (content.map (MessageT.mk opcode))) := by
  rw [getContent_ctKey] at h
  obtain ⟨⟨chars, rest⟩, hkey, h⟩ := bind_eq_ok h
  cases h
  rw [decodeContent, if_neg (by decide), if_pos rfl]
  refine (reads_parse hkey).bind ?_
  refine (newString_triple chars).step (blankMessage p opcode ctKey) (one_mul _).symm fun r =>
    triple_returned ?_
  rintro k rfl
  refine (setContent_triple p _ _ _ (.key (some k))).step (heapString k chars) (mul_comm _ _)
    fun _ => ?_
  apply triple_pure
  exact (le_ex (fun k => headAt p opcode ctKey (.key (some k)) * heapString k chars) k).trans
    (le_returned (fun p => messageAt p ⟨opcode, .key chars⟩) p)

lemma decodeValue_triple {content : Option Content} (h : getContent ctValue msgBuf = .ok content) :
    Triple (blankMessage p opcode ctValue) (decodeContent (some p) ctValue msgBuf)
      (decodedAt (content.map (MessageT.mk opcode))) := by
  rw [getContent_ctValue] at h
  obtain ⟨⟨size, rest⟩, hsize, h⟩ := bind_eq_ok h
  rw [decodeContent, if_neg (by decide), if_neg (by decide), if_pos rfl]
  refine (reads_parse hsize).bind ?_
  by_cases hneg : toInt size ≤ 0
  · simp only [if_pos hneg] at h
    cases h
    refine (noData_reads hneg _).bind ?_
    refine (setContent_triple p _ _ _ _).bind fun _ => ?_
    refine (triple_free p _).bind fun _ => ?_
    exact triple_pure (only_of rfl).ge
  · simp only [if_neg hneg] at h
    obtain ⟨⟨v, rest'⟩, hdata, h⟩ := bind_eq_ok h
    cases h
    have hcast : toInt size = v.datasize := (datasize_getData hdata).symm
    rw [hcast] at hdata
    simp only [hcast]
    refine (newData_triple v).step (blankMessage p opcode ctValue) (one_mul _).symm fun r =>
      triple_returned ?_
    rintro q rfl
    refine (setContent_triple p _ _ _ (.data (some q))).step (heapData q (blankValue v))
      (mul_comm _ _) fun _ => ?_
    refine (reads_parse hdata).bind ?_
    refine (triple_onBlocks (storeBytes_triple q v)).step (headAt p opcode ctValue
      (.data (some q))) (mul_comm _ _) fun _ => ?_
    apply triple_pure
    rw [mul_comm]
    exact (le_ex (fun q => headAt p opcode ctValue (.data (some q)) * heapData q v) q).trans
      (le_returned (fun p => messageAt p ⟨opcode, .data v⟩) p)

lemma decodeEntry_triple {content : Option Content} (h : getContent ctEntry msgBuf = .ok content) :
    Triple (blankMessage p opcode ctEntry) (decodeContent (some p) ctEntry msgBuf)
      (decodedAt (content.map (MessageT.mk opcode))) := by
  rw [getContent_ctEntry] at h
  obtain ⟨⟨chars, rest⟩, hkey, h⟩ := bind_eq_ok h
  obtain ⟨⟨size, rest'⟩, hsize, h⟩ := bind_eq_ok h
  by_cases hneg : toInt size ≤ 0
  · simp only [if_pos hneg] at h
    cases h
  simp only [if_neg hneg] at h
  obtain ⟨⟨v, rest''⟩, hdata, h⟩ := bind_eq_ok h
  cases h
  have hcast : toInt size = v.datasize := (datasize_getData hdata).symm
  rw [hcast] at hdata
  rw [decodeContent, if_neg (by decide), if_neg (by decide), if_neg (by decide), if_pos rfl]
  refine (reads_parse hkey).bind ?_
  refine (newString_triple chars).step (blankMessage p opcode ctEntry) (one_mul _).symm fun r =>
    triple_returned ?_
  rintro k rfl
  refine (reads_parse hsize).bind ?_
  simp only [hcast]
  refine (newData_triple v).step (heapString k chars * blankMessage p opcode ctEntry)
    (one_mul _).symm fun r => triple_returned ?_
  rintro d rfl
  refine (newEntry_heap k d ⟨chars, blankValue v⟩).step (blankMessage p opcode ctEntry)
    (by ac_rfl) fun r => ?_
  rw [mul_assoc]
  apply triple_returned
  rintro q rfl
  refine (setContent_triple p (some opcode) (some ctEntry) none (.entry (some q))).step
    (heapEntry q ⟨chars, blankValue v⟩ * (heapString k chars * heapData d (blankValue v))) ?_
    fun _ => ?_
  · rw [blankMessage]
    ac_rfl
  refine (reads_parse hdata).bind ?_
  refine (storeEntry_heap q chars v).step (headAt p opcode ctEntry (.entry (some q)) *
    (heapString k chars * heapData d (blankValue v))) ?_ fun _ => ?_
  · rw [headAt]
    ac_rfl
  refine (freeString_triple k chars).step (heapEntry q ⟨chars, v⟩ * (headAt p opcode ctEntry
    (.entry (some q)) * heapData d (blankValue v))) (by ac_rfl) fun _ => ?_
  rw [one_mul]
  refine (destroyData_heap d (blankValue v)).step (headAt p opcode ctEntry (.entry (some q)) *
    heapEntry q ⟨chars, v⟩) (by ac_rfl) fun _ => ?_
  rw [one_mul]
  apply triple_pure
  exact (le_ex (fun q => headAt p opcode ctEntry (.entry (some q)) *
    heapEntry q ⟨chars, v⟩) q).trans
    (le_returned (fun p => messageAt p ⟨opcode, .entry ⟨chars, v⟩⟩) p)

lemma setKeyAt_triple {slots : List (Option (Option ℕ))} {i : ℕ} (hi : i < slots.length)
    (key : Option ℕ) :
    Triple (cell a (.keys slots)) (setKeyAt (some a) i key) fun _ =>
      cell a (.keys (slots.set i (some key))) := by
  refine (readKeys_reads a slots).bind ?_
  rw [if_pos hi]
  exact triple_write a _ _

lemma stringsAt_append (ps : List ℕ) (ks : List CString) (p : ℕ) (k : CString) :
    stringsAt ps ks * heapString p k ≤ stringsAt (ps ++ [p]) (ks ++ [k]) := by
  induction ps generalizing ks with
  | nil =>
    cases ks with
    | nil => exact le_of_eq (by simp only [stringsAt, List.nil_append, one_mul, mul_one])
    | cons k' ks => exact only_mul_le False.elim
  | cons p' ps ih =>
    cases ks with
    | nil => exact only_mul_le False.elim
    | cons k' ks =>
      rw [List.cons_append, List.cons_append, stringsAt, stringsAt, mul_assoc]
      exact mul_le_mul' le_rfl (ih ks)

/-- The strings so far, and slots for those to come and for the `NULL`. -/
lemma decodeKeys_triple (left : ℕ) {msgBuf rest : List UInt8} {ks : List CString}
    (h : getKeys left msgBuf = .ok (ks, rest)) (ps : List ℕ) (front : List CString) :
    Triple (cell a (.keys (keySlots ps ++ List.replicate (left + 1) none)) * stringsAt ps front)
      (decodeKeys (some a) left ps.length msgBuf) fun _ => keysAt a (front ++ ks) := by
  induction left generalizing msgBuf ks ps front with
  | zero =>
    cases h
    have hroom : ps.length < (keySlots ps ++ List.replicate (0 + 1) none).length := by
      simp [keySlots]
    have hset : (keySlots ps ++ List.replicate (0 + 1) none).set ps.length (some none) =
        keySlots ps ++ [some none] := by
      simp [keySlots]
    refine (setKeyAt_triple hroom none).last _ rfl fun _ => ?_
    rw [hset, List.append_nil]
    exact le_ex (fun ps => cell a (.keys (keySlots ps ++ [some none])) * stringsAt ps front) ps
  | succ left ih =>
    rw [getKeys] at h
    obtain ⟨⟨k, rest₁⟩, hkey, h⟩ := bind_eq_ok h
    obtain ⟨⟨ks', rest₂⟩, hkeys, h⟩ := bind_eq_ok h
    cases h
    have hroom : ps.length < (keySlots ps ++ List.replicate (left + 1 + 1) none).length := by
      simp [keySlots]
    refine (reads_parse hkey).bind ?_
    refine (newString_triple k).step (cell a (.keys (keySlots ps ++
      List.replicate (left + 1 + 1) none)) * stringsAt ps front) (one_mul _).symm fun r =>
      triple_returned ?_
    rintro p rfl
    refine (setKeyAt_triple hroom (some p)).step (stringsAt ps front * heapString p k)
      (by ac_rfl) fun _ => ?_
    have hset : (keySlots ps ++ List.replicate (left + 1 + 1) none).set ps.length (some (some p)) =
        keySlots (ps ++ [p]) ++ List.replicate (left + 1) none := by
      simp [keySlots, List.replicate_succ]
    rw [hset]
    have hnext := ih hkeys (ps ++ [p]) (front ++ [k])
    rw [List.append_assoc, List.length_append] at hnext
    exact hnext.weaken (mul_le_mul' le_rfl (stringsAt_append ps front p k))

/-- All the strings behind a new array. -/
lemma decodeAllKeys_triple {left : ℕ} {msgBuf rest : List UInt8} {ks : List CString}
    (h : getKeys left msgBuf = .ok (ks, rest)) :
    Triple (cell a (.keys (List.replicate (left + 1) none))) (decodeKeys (some a) left 0 msgBuf)
      fun _ => keysAt a ks := by
  have hloop := decodeKeys_triple (a := a) left h [] []
  rw [stringsAt, mul_one] at hloop
  exact hloop

lemma decodeKeyList_triple {content : Option Content} (h : getContent ctKeys msgBuf = .ok content) :
    Triple (blankMessage p opcode ctKeys) (decodeContent (some p) ctKeys msgBuf)
      (decodedAt (content.map (MessageT.mk opcode))) := by
  rw [getContent_ctKeys] at h
  obtain ⟨⟨nkeys, rest⟩, hcount, h⟩ := bind_eq_ok h
  by_cases hneg : toInt nkeys < 0
  · simp only [if_pos hneg] at h
    cases h
  simp only [if_neg hneg] at h
  obtain ⟨⟨ks, rest'⟩, hkeys, h⟩ := bind_eq_ok h
  cases h
  have hslots : (toInt nkeys + 1).toNat = (toInt nkeys).toNat + 1 :=
    Int.toNat_add (not_lt.mp hneg) Int.one_nonneg
  rw [decodeContent, if_neg (by decide), if_neg (by decide), if_neg (by decide),
    if_neg (by decide), if_pos rfl]
  refine (reads_parse hcount).bind ?_
  simp only [hslots]
  refine triple_malloc_step fun q => ?_
  refine (setContent_triple p _ _ _ (.keys (some q))).step _ (mul_comm _ _) fun _ => ?_
  refine (decodeAllKeys_triple hkeys).step (headAt p opcode ctKeys (.keys (some q)))
    (mul_comm _ _) fun _ => ?_
  apply triple_pure
  rw [mul_comm]
  exact (le_ex (fun q => headAt p opcode ctKeys (.keys (some q)) * keysAt q ks) q).trans
    (le_returned (fun p => messageAt p ⟨opcode, .keys ks⟩) p)

lemma decodeContent_triple (hknown : KnownType cType) {content : Option Content}
    (h : getContent cType msgBuf = .ok content) :
    Triple (blankMessage p opcode cType) (decodeContent (some p) cType msgBuf)
      (decodedAt (content.map (MessageT.mk opcode))) := by
  rcases hknown with rfl | rfl | rfl | rfl | rfl
  · exact decodeEntry_triple h
  · exact decodeKey_triple h
  · exact decodeKeyList_triple h
  · exact decodeResult_triple h
  · exact decodeValue_triple h

/-- A message of no known type owns no more than its own block. -/
lemma freeUnknown_triple (hunknown : ¬KnownType cType) :
    Triple (blankMessage p opcode cType) (freeMessage (some p)) fun _ => 1 := by
  simp only [KnownType, not_or] at hunknown
  obtain ⟨hentry, hkey, hkeys, -, hvalue⟩ := hunknown
  have hread : Reads (blankMessage p opcode cType) (cTypeOf (some p)) cType :=
    (readMessage_reads p _ _ _).bind (reads_pure _ cType)
  refine hread.bind ?_
  rw [if_neg hvalue, if_neg hentry, if_neg hkeys, if_neg hkey]
  exact triple_free p _

/-- The decoder over the blocks does what it does over bytes. -/
theorem bufferToMessage_triple (b : ℕ) {bytes : List UInt8} {size : ℤ} {msg : Option MessageT}
    (h : RemoteTable.bufferToMessage bytes size = .ok msg) :
    Triple (cell b (bytesCell bytes)) (bufferToMessage (some b) size) fun r =>
      decodedAt msg r * cell b (bytesCell bytes) := by
  unfold RemoteTable.bufferToMessage at h
  by_cases hsize : size < 0
  · rw [if_pos hsize] at h
    cases h
    rw [bufferToMessage, if_pos (Or.inr hsize)]
    exact triple_pure (only_mul_of rfl _).ge
  rw [if_neg hsize] at h
  obtain ⟨⟨opcode, bytes₁⟩, hopcode, h⟩ := bind_eq_ok h
  obtain ⟨⟨cType, bytes₂⟩, hcType, h⟩ := bind_eq_ok h
  have hargs : ¬(some b = none ∨ size < 0) := by simp [hsize]
  rw [bufferToMessage, if_neg hargs]
  refine triple_malloc_step fun p => ?_
  refine (readBytes_heap b bytes).step _ (mul_comm _ _) ?_
  refine (reads_parse hopcode).bind ((reads_parse hcType).bind ?_)
  refine (setHeader_triple p none none none _ _).step _ rfl fun _ => ?_
  by_cases hknown : KnownType (Int16.ofNat cType)
  · have hvalid : ¬valid (Int16.ofNat opcode) (Int16.ofNat cType) ≠ 0 :=
      not_not.mpr (valid_of_known hknown)
    simp only [if_neg hvalid] at h ⊢
    obtain ⟨content, hcontent, h⟩ := bind_eq_ok h
    refine (decodeContent_triple hknown hcontent).last _ rfl fun r => ?_
    cases content with
    | none =>
      cases h
      exact le_rfl
    | some content =>
      cases h
      exact le_rfl
  · have hvalid : valid (Int16.ofNat opcode) (Int16.ofNat cType) ≠ 0 := valid_of_unknown hknown
    simp only [if_pos hvalid] at h ⊢
    cases h
    refine (freeUnknown_triple hknown).step _ rfl fun _ => ?_
    exact triple_pure (mul_le_mul_left (only_of rfl).ge _)

end

end RemoteTable.Pointers
