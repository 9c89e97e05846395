import RemoteTable.Sentences
import RemoteTable.Requests
import RemoteTable.UnsetReplies

/-!
# What is allocated and released for a request

The decoder and the dispatcher with the blocks that they take from `malloc` and give back.
`free_message` chooses what it releases by `c_type` and the union, so that a message that is
given up half built has to have both assigned.
-/

namespace RemoteTable
open Bytes

/-- The calls of `malloc` on the way of a request. -/
inductive Block
  | msg
  | resposta
  | key
  | data
  | dataBytes
  | auxKey
  | tempData
  | tempBytes
  | entry
  | entryKey
  | entryValue
  | entryBytes
  | keys
  | keysAt (i : ℕ)
  deriving DecidableEq

/-- The blocks taken and given back, in order. -/
structure HeapLog where
  allocated : List Block
  freed : List Block
  deriving DecidableEq

def HeapLog.malloc (log : HeapLog) (blocks : List Block) : HeapLog :=
  ⟨log.allocated ++ blocks, log.freed⟩

def HeapLog.free (log : HeapLog) (blocks : List Block) : HeapLog :=
  ⟨log.allocated, log.freed ++ blocks⟩

/-- Everything taken was given back, once. -/
def HeapLog.Balanced (log : HeapLog) : Prop := log.freed.Perm log.allocated

/-- A `struct message_t` as `free_message` sees it: fields that were never assigned are `none`,
and a member is the blocks that its destructor releases. -/
structure HeapMessage where
  block : Block
  cType : Option Int16
  member : Option (List Block)

def freeMessage (msg : HeapMessage) (log : HeapLog) : Except Fault HeapLog :=
  match msg.cType with
  | none => .error .uninitialised
  | some cType =>
    if cType = ctValue ∨ cType = ctEntry ∨ cType = ctKeys ∨ cType = ctKey then
      match msg.member with
      | none => .error .uninitialised
      | some blocks => .ok (log.free (blocks ++ [msg.block]))
    else .ok (log.free [msg.block])

/-- `getContent` with its blocks, and those of the member that it assigns. -/
def getContentHeap (cType : Int16) (msgBuf : List UInt8) (log : HeapLog) :
    Except Fault (Option (Content × List Block) × HeapLog) := do
  if cType = ctResult then
    let (result, _) ← getInt msgBuf
    return (some (.result (Int32.ofNat result), []), log)
  else if cType = ctKey then
    let (key, _) ← getKey msgBuf
    return (some (.key key, [.key]), log.malloc [.key])
  else if cType = ctValue then
    let (n, msgBuf) ← getInt msgBuf
    if toInt n ≤ 0 then
      -- `free(msg)`
      return (none, log.free [.msg])
    let (data, _) ← getData (toInt n) msgBuf
    return (some (.data data, [.dataBytes, .data]), log.malloc [.data, .dataBytes])
  else if cType = ctEntry then
    let (key, msgBuf) ← getKey msgBuf
    let (n, msgBuf) ← getInt msgBuf
    if toInt n ≤ 0 then
      -- `content.entry` is assigned by `entry_create` only, further down
      let log ← freeMessage ⟨.msg, some cType, none⟩ ((log.malloc [.auxKey]).free [.auxKey])
      return (none, log)
    let (data, _) ← getData (toInt n) msgBuf
    return (some (.entry ⟨key, data⟩, [.entryBytes, .entryValue, .entryKey, .entry]),
      (log.malloc [.auxKey, .tempData, .tempBytes, .entry, .entryKey, .entryValue,
        .entryBytes]).free [.auxKey, .tempBytes, .tempData])
  else if cType = ctKeys then
    let (n, msgBuf) ← getInt msgBuf
    if toInt n < 0 then
      throw .outOfBounds
    let (keys, _) ← getKeys (toInt n).toNat msgBuf
    return (some (.keys keys, (List.range keys.length).map .keysAt ++ [.keys]),
      log.malloc (.keys :: (List.range keys.length).map .keysAt))
  else return (none, log)

/-- `buffer_to_message` with its blocks, and those of the member of the message. -/
def decodeHeap (msgBuf : List UInt8) (msgSize : ℤ) :
    Except Fault (Option (MessageT × List Block) × HeapLog) := do
  if msgSize < 0 then
    return (none, ⟨[], []⟩)
  let (opcode, msgBuf) ← getShort msgBuf
  let (cType, msgBuf) ← getShort msgBuf
  if valid (Int16.ofNat opcode) (Int16.ofNat cType) ≠ 0 then
    let log ← freeMessage ⟨.msg, some (Int16.ofNat cType), none⟩ ⟨[.msg], []⟩
    return (none, log)
  match ← getContentHeap (Int16.ofNat cType) msgBuf ⟨[.msg], []⟩ with
  | (none, log) => return (none, log)
  | (some (content, blocks), log) => return (some (⟨Int16.ofNat opcode, content⟩, blocks), log)

/-- `invoke` with the block of its reply, where `NULL` parameters are refused too. -/
def invokeHeap (tabela : Option TableT) (msgIn : Option MessageT) :
    Except Fault (Option (Reply × TableT) × HeapLog) :=
  match msgIn, tabela with
  | some msgIn, some tabela =>
    if msgIn.opcode < 0 ∨ msgIn.cType < 0 then do
      let log ← freeMessage ⟨.resposta, none, none⟩ ⟨[.resposta], []⟩
      return (none, log)
    else do
      let answer ← invoke tabela msgIn
      return (some answer, ⟨[.resposta], []⟩)
  | _, _ => do
    let log ← freeMessage ⟨.resposta, none, none⟩ ⟨[.resposta], []⟩
    return (none, log)

/-! ### The contents -/

variable {buf : List UInt8} {cType : Int16} {log : HeapLog}

/-- How the blocks go with what the decoder makes of the fields. -/
inductive ContentHeap (log : HeapLog) : Except Fault (Option Content) →
    Except Fault (Option (Content × List Block) × HeapLog) → Prop
  | outside : ContentHeap log (.error .outOfBounds) (.error .outOfBounds)
  | freedUnset : ContentHeap log (.error .uninitialised) (.error .uninitialised)
  | refused : ContentHeap log (.ok none) (.ok (none, log.free [.msg]))
  | built (content : Content) (blocks made freed : List Block)
      (h : (freed ++ blocks).Perm made) (hresult : content.cType = ctResult → blocks = []) :
      ContentHeap log (.ok (some content))
        (.ok (some (content, blocks), (log.malloc made).free freed))

/-- The content has a member to follow, which was not assigned. -/
lemma freeMessage_unset (h : cType = ctValue ∨ cType = ctEntry ∨ cType = ctKeys ∨ cType = ctKey)
    (block : Block) (log : HeapLog) :
    freeMessage ⟨block, some cType, none⟩ log = .error .uninitialised := by
  simp only [freeMessage, if_pos h]

/-- A type outside the five has no member to release. -/
lemma freeMessage_of_unknown (h : ¬KnownType cType) (member : Option (List Block))
    (block : Block) (log : HeapLog) :
    freeMessage ⟨block, some cType, member⟩ log = .ok (log.free [block]) := by
  have hmember : ¬(cType = ctValue ∨ cType = ctEntry ∨ cType = ctKeys ∨ cType = ctKey) := by
    unfold KnownType at h
    tauto
  simp only [freeMessage, if_neg hmember]

lemma freeMessage_assigned (h : KnownType cType) {blocks : List Block}
    (hresult : cType = ctResult → blocks = []) (block : Block) (log : HeapLog) :
    freeMessage ⟨block, some cType, some blocks⟩ log = .ok (log.free (blocks ++ [block])) := by
  by_cases hmember : cType = ctValue ∨ cType = ctEntry ∨ cType = ctKeys ∨ cType = ctKey
  · simp only [freeMessage, if_pos hmember]
  · have hnil : blocks = [] := by
      apply hresult
      unfold KnownType at h
      tauto
    simp only [freeMessage, if_neg hmember, hnil, List.nil_append]

lemma malloc_nil (log : HeapLog) : log.malloc [] = log := by
  rw [HeapLog.malloc, List.append_nil]

lemma free_nil (log : HeapLog) : log.free [] = log := by
  rw [HeapLog.free, List.append_nil]

/-- A case that keeps all the blocks it makes. -/
lemma ContentHeap.kept (content : Content) {blocks made : List Block} (h : blocks.Perm made)
    (hresult : content.cType = ctResult → blocks = []) :
    ContentHeap log (.ok (some content)) (.ok (some (content, blocks), log.malloc made)) := by
  have hbuilt : ContentHeap log _ _ := .built content blocks made [] h hresult
  rwa [free_nil] at hbuilt

lemma contentHeap_ctResult (buf : List UInt8) (log : HeapLog) :
    ContentHeap log (getContent ctResult buf) (getContentHeap ctResult buf log) := by
  rw [getContent_ctResult, getContentHeap, if_pos rfl]
  by_cases h4 : 4 ≤ buf.length
  · rw [getInt_of_le h4, ok_bind, ok_bind]
    have hkept : ContentHeap log _ _ :=
      .kept (.result (Int32.ofNat (beValue (buf.take 4)))) List.Perm.nil (fun _ => rfl)
    rwa [malloc_nil] at hkept
  · rw [getInt_of_lt h4, error_bind, error_bind]
    exact .outside

lemma contentHeap_ctKey (buf : List UInt8) (log : HeapLog) :
    ContentHeap log (getContent ctKey buf) (getContentHeap ctKey buf log) := by
  rw [getContent_ctKey, getContentHeap, if_neg (by decide), if_pos rfl]
  by_cases hin : KeyInside buf
  · rw [getKey_of_inside hin, ok_bind, ok_bind]
    exact .kept _ (List.Perm.refl _) (fun h => absurd h (by rw [Content.cType]; decide))
  · rw [getKey_of_not_inside hin, error_bind, error_bind]
    exact .outside

lemma contentHeap_ctValue (buf : List UInt8) (log : HeapLog) :
    ContentHeap log (getContent ctValue buf) (getContentHeap ctValue buf log) := by
  rw [getContent_ctValue, getContentHeap, if_neg (by decide), if_neg (by decide), if_pos rfl]
  by_cases h4 : 4 ≤ buf.length
  · simp only [getInt_of_le h4, ok_bind]
    by_cases hneg : toInt (beValue (buf.take 4)) ≤ 0
    · rw [if_pos hneg, if_pos hneg]
      exact .refused
    · rw [if_neg hneg, if_neg hneg]
      by_cases hle : toInt (beValue (buf.take 4)) ≤ (buf.drop 4).length
      · obtain ⟨d, rest, hd⟩ := getData_of_le (not_le.mp hneg) hle
        rw [hd, ok_bind, ok_bind]
        exact .kept _ (List.Perm.swap _ _ _) (fun h => absurd h (by rw [Content.cType]; decide))
      · rw [getData_of_lt (not_le.mp hle), error_bind, error_bind]
        exact .outside
  · rw [getInt_of_lt h4, error_bind, error_bind]
    exact .outside

lemma contentHeap_ctEntry (buf : List UInt8) (log : HeapLog) :
    ContentHeap log (getContent ctEntry buf) (getContentHeap ctEntry buf log) := by
  rw [getContent_ctEntry, getContentHeap, if_neg (by decide), if_neg (by decide),
    if_neg (by decide), if_pos rfl]
  by_cases hkey : KeyInside buf
  · simp only [getKey_of_inside hkey, ok_bind]
    generalize buf.drop (2 + keySizeAt buf) = rest
    by_cases h4 : 4 ≤ rest.length
    · simp only [getInt_of_le h4, ok_bind]
      by_cases hneg : toInt (beValue (rest.take 4)) ≤ 0
      · rw [if_pos hneg, if_pos hneg, throw_eq_error, freeMessage_unset (Or.inr (Or.inl rfl)),
          error_bind, error_bind]
        exact .freedUnset
      · rw [if_neg hneg, if_neg hneg]
        by_cases hle : toInt (beValue (rest.take 4)) ≤ (rest.drop 4).length
        · obtain ⟨d, rest', hd⟩ := getData_of_le (not_le.mp hneg) hle
          rw [hd]
          exact .built _ _ _ _ (by decide) (fun h => absurd h (by rw [Content.cType]; decide))
        · rw [getData_of_lt (not_le.mp hle)]
          exact .outside
    · simp only [getInt_of_lt h4, error_bind]
      exact .outside
  · rw [getKey_of_not_inside hkey, error_bind, error_bind]
    exact .outside

lemma contentHeap_ctKeys (buf : List UInt8) (log : HeapLog) :
    ContentHeap log (getContent ctKeys buf) (getContentHeap ctKeys buf log) := by
  rw [getContent_ctKeys, getContentHeap, if_neg (by decide), if_neg (by decide),
    if_neg (by decide), if_neg (by decide), if_pos rfl]
  by_cases h4 : 4 ≤ buf.length
  · simp only [getInt_of_le h4, ok_bind]
    generalize toInt (beValue (buf.take 4)) = n
    by_cases hneg : n < 0
    · rw [if_pos hneg, if_pos hneg]
      exact .outside
    · rw [if_neg hneg, if_neg hneg]
      by_cases hkeys : KeysInside n.toNat (buf.drop 4)
      · obtain ⟨ks, rest, hks⟩ := getKeys_of_inside hkeys
        simp only [hks, ok_bind]
        exact .kept _ (List.perm_append_singleton _ _)
          (fun h => absurd h (by rw [Content.cType]; decide))
      · simp only [getKeys_of_not_inside hkeys, error_bind]
        exact .outside
  · rw [getInt_of_lt h4, error_bind, error_bind]
    exact .outside

theorem contentHeap_of_known (h : KnownType cType) (buf : List UInt8) (log : HeapLog) :
    ContentHeap log (getContent cType buf) (getContentHeap cType buf log) := by
  rcases h with rfl | rfl | rfl | rfl | rfl
  · exact contentHeap_ctEntry buf log
  · exact contentHeap_ctKey buf log
  · exact contentHeap_ctKeys buf log
  · exact contentHeap_ctResult buf log
  · exact contentHeap_ctValue buf log

/-! ### Whole buffers -/

lemma decodeHeap_of_lt (h : ¬4 ≤ buf.length) :
    decodeHeap buf buf.length = .error .outOfBounds := by
  have hneg : ¬(buf.length : ℤ) < 0 := by omega
  rw [decodeHeap, if_neg hneg]
  by_cases h2 : 2 ≤ buf.length
  · have h2' : ¬2 ≤ (buf.drop 2).length := by
      rw [List.length_drop]
      omega
    simp only [getShort_of_le h2, ok_bind, getShort_of_lt h2', error_bind]
  · rw [getShort_of_lt h2, error_bind]

/-- The decoder behind a header that lies in the buffer. -/
lemma decodeHeap_of_le (h : 4 ≤ buf.length) :
    decodeHeap buf buf.length =
      if valid (opcodeAt buf) (cTypeAt buf) ≠ 0 then
        freeMessage ⟨.msg, some (cTypeAt buf), none⟩ ⟨[.msg], []⟩ >>= fun log => .ok (none, log)
      else getContentHeap (cTypeAt buf) (buf.drop 4) ⟨[.msg], []⟩ >>= fun r =>
        .ok (r.1.map (fun c => (⟨opcodeAt buf, c.1⟩, c.2)), r.2) := by
  have hneg : ¬(buf.length : ℤ) < 0 := by omega
  have h2 : 2 ≤ buf.length := by omega
  have h2' : 2 ≤ (buf.drop 2).length := by
    rw [List.length_drop]
    omega
  rw [decodeHeap, if_neg hneg]
  simp only [getShort_of_le h2, getShort_of_le h2', ok_bind, pure_eq_ok, List.drop_drop]
  rw [← cTypeAt, ← opcodeAt]
  by_cases hvalid : valid (opcodeAt buf) (cTypeAt buf) ≠ 0
  · rw [if_pos hvalid, if_pos hvalid]
  · rw [if_neg hvalid, if_neg hvalid]
    congr 1
    funext r
    obtain ⟨content, log⟩ := r
    cases content <;> rfl

/-- The four ends of the decoder with the blocks that each leaves. -/
inductive BufferHeap (buf : List UInt8) : Except Fault (Option MessageT) →
    Except Fault (Option (MessageT × List Block) × HeapLog) → Prop
  | outside (he : ¬RefusedEntry (cTypeAt buf) (buf.drop 4)) :
      BufferHeap buf (.error .outOfBounds) (.error .outOfBounds)
  | freedUnset (he : RefusedEntry (cTypeAt buf) (buf.drop 4)) :
      BufferHeap buf (.error .uninitialised) (.error .uninitialised)
  | refused (he : ¬RefusedEntry (cTypeAt buf) (buf.drop 4)) (log : HeapLog)
      (h : log.Balanced) : BufferHeap buf (.ok none) (.ok (none, log))
  | built (he : ¬RefusedEntry (cTypeAt buf) (buf.drop 4)) (content : Content)
      (blocks : List Block) (log : HeapLog)
      (h : (log.freed ++ (blocks ++ [Block.msg])).Perm log.allocated)
      (hresult : content.cType = ctResult → blocks = []) :
      BufferHeap buf (.ok (some ⟨opcodeAt buf, content⟩))
        (.ok (some (⟨opcodeAt buf, content⟩, blocks), log))

lemma perm_built {blocks made freed : List Block} (h : (freed ++ blocks).Perm made) :
    (freed ++ (blocks ++ [Block.msg])).Perm (Block.msg :: made) := by
  rw [← List.append_assoc]
  exact (List.perm_append_singleton _ _).trans (h.cons _)

theorem bufferHeap (buf : List UInt8) :
    BufferHeap buf (bufferToMessage buf buf.length) (decodeHeap buf buf.length) := by
  by_cases h4 : 4 ≤ buf.length
  · by_cases hknown : KnownType (cTypeAt buf)
    · have hresult := contentResult_of_known hknown (buf.drop 4)
      have hheap := contentHeap_of_known hknown (buf.drop 4) ⟨[.msg], []⟩
      rw [bufferToMessage_of_known h4 hknown, decodeHeap_of_le h4, valid_of_known hknown,
        if_neg (by simp)]
      generalize getContent (cTypeAt buf) (buf.drop 4) = decoded at hresult hheap
      generalize getContentHeap (cTypeAt buf) (buf.drop 4) ⟨[.msg], []⟩ = blocks at hheap
      cases hheap with
      | outside =>
        cases hresult with
        | outside h hv he => exact .outside he
      | freedUnset =>
        cases hresult with
        | refusedEntry he => exact .freedUnset he
      | refused =>
        cases hresult with
        | refusedValue hv =>
          have he : ¬RefusedEntry (cTypeAt buf) (buf.drop 4) :=
            not_refusedEntry (by rw [hv.1]; decide)
          exact .refused he _ (List.Perm.refl [Block.msg])
      | built content blocks made freed h hnone =>
        cases hresult with
        | content _ hin hv he => exact .built he content blocks _ (perm_built h) hnone
    · have he : ¬RefusedEntry (cTypeAt buf) (buf.drop 4) :=
        fun he => hknown (he.1 ▸ Or.inl rfl)
      rw [bufferToMessage_of_unknown h4 hknown, decodeHeap_of_le h4,
        if_pos (valid_of_unknown hknown), freeMessage_of_unknown hknown, ok_bind]
      exact .refused he _ (List.Perm.refl [Block.msg])
  · have he : ¬RefusedEntry (cTypeAt buf) (buf.drop 4) := by
      intro he
      have hlen := he.2.1.1
      rw [List.length_drop] at hlen
      omega
    rw [bufferToMessage_of_lt h4, decodeHeap_of_lt h4]
    exact .outside he

/-- Without the blocks it is `bufferToMessage`. -/
theorem decodeHeap_erases (buf : List UInt8) :
    (decodeHeap buf buf.length).map (fun r => r.1.map Prod.fst) =
      bufferToMessage buf buf.length := by
  have hheap := bufferHeap buf
  generalize decodeHeap buf buf.length = blocks at hheap
  generalize bufferToMessage buf buf.length = decoded at hheap
  cases hheap <;> rfl

/-- `free_message` gives back what `buffer_to_message` took. -/
theorem freeMessage_decoded {msg : MessageT} {blocks : List Block}
    (h : decodeHeap buf buf.length = .ok (some (msg, blocks), log)) :
    ∃ log', freeMessage ⟨.msg, some msg.cType, some blocks⟩ log = .ok log' ∧ log'.Balanced := by
  have hheap := bufferHeap buf
  have hdecoded : bufferToMessage buf buf.length = .ok (some msg) := by
    rw [← decodeHeap_erases, h]
    rfl
  rw [h, hdecoded] at hheap
  cases hheap with
  | built he content blocks log hperm hresult =>
    have hknown : KnownType content.cType := by
      unfold KnownType
      cases content <;> simp [Content.cType]
    exact ⟨_, freeMessage_assigned hknown hresult .msg log, hperm⟩

/-! ### The dispatcher -/

variable {tabela : TableT} {msg : MessageT}

lemma entryMember_ne_uninitialised (content : Content) :
    content.entryMember ≠ .error .uninitialised := by
  cases content <;> simp [Content.entryMember]

lemma keyMember_ne_uninitialised (content : Content) :
    content.keyMember ≠ .error .uninitialised := by
  cases content <;> simp [Content.keyMember]

/-- Past its first tests `invoke` uses nothing that was never assigned. -/
lemma invoke_ne_uninitialised (h : ¬msg.opcode < 0) :
    invoke tabela msg ≠ .error .uninitialised := by
  obtain ⟨opcode, content⟩ := msg
  have hout : Fault.uninitialised ≠ .outOfBounds := by decide
  have hentry := entryMember_ne_uninitialised content
  have hkey := keyMember_ne_uninitialised content
  by_cases hop : opcode ∈ tableOpcodes
  · simp only [tableOpcodes, List.mem_cons, List.not_mem_nil, or_false] at hop
    rcases hop with rfl | rfl | rfl | rfl | rfl
    · exact invoke_size ▸ invokeSize_ne_error tabela
    · exact invoke_put ▸ invokePut_ne_error hout hentry tabela
    · exact invoke_get ▸ invokeGet_ne_error hout (by decide) hkey tabela
    · exact invoke_update ▸ invokeUpdate_ne_error hout hentry tabela
    · exact invoke_del ▸ invokeDel_ne_error hout hkey tabela
  · rw [invoke_default h hop]
    simp

lemma invokeHeap_of_neg (h : msg.opcode < 0) :
    invokeHeap (some tabela) (some msg) = .error .uninitialised := by
  rw [invokeHeap, if_pos (Or.inl h)]
  rfl

lemma invokeHeap_of_not_neg (h : ¬msg.opcode < 0) :
    invokeHeap (some tabela) (some msg) =
      invoke tabela msg >>= fun answer => .ok (some answer, ⟨[.resposta], []⟩) := by
  have hc : ¬msg.cType < 0 := cType_not_neg msg.content
  rw [invokeHeap, if_neg (not_or.mpr ⟨h, hc⟩)]
  rfl

/-- Without the blocks it is `invoke`. -/
theorem invokeHeap_erases (tabela : TableT) (msg : MessageT) :
    (invokeHeap (some tabela) (some msg)).map Prod.fst = (invoke tabela msg).map some := by
  by_cases h : msg.opcode < 0
  · rw [invokeHeap_of_neg h, invoke_of_neg h]
    rfl
  · rw [invokeHeap_of_not_neg h]
    cases invoke tabela msg <;> rfl

/-! ### Requests that are given up -/

/-- On the way of a request nothing unassigned is handed to `free_message`, and what is refused
leaves no block behind. -/
structure FreesAssigned (buf : List UInt8) : Prop where
  decoder : decodeHeap buf buf.length ≠ .error .uninitialised
  refused : ∀ log, decodeHeap buf buf.length = .ok (none, log) → log.Balanced
  dispatcher : ∀ tabela msg blocks log,
    decodeHeap buf buf.length = .ok (some (msg, blocks), log) →
      invokeHeap (some tabela) (some msg) ≠ .error .uninitialised
  rejected : ∀ tabela msg blocks log log',
    decodeHeap buf buf.length = .ok (some (msg, blocks), log) →
      invokeHeap (some tabela) (some msg) = .ok (none, log') → log'.Balanced

lemma invokeHeap_answers {answer : Option (Reply × TableT)}
    (h : invokeHeap (some tabela) (some msg) = .ok (answer, log)) : answer ≠ none := by
  by_cases hneg : msg.opcode < 0
  · rw [invokeHeap_of_neg hneg] at h
    cases h
  · rw [invokeHeap_of_not_neg hneg] at h
    obtain ⟨answer', -, h⟩ := bind_eq_ok h
    simp only [Except.ok.injEq, Prod.mk.injEq] at h
    rw [← h.1]
    simp

/-- The exact buffers on which that holds. -/
theorem freesAssigned_iff (buf : List UInt8) :
    FreesAssigned buf ↔ ¬RefusedEntry (cTypeAt buf) (buf.drop 4) ∧
      ¬(Decodable buf ∧ opcodeAt buf < 0) := by
  have hheap := bufferHeap buf
  rw [← decodable_iff]
  generalize hblocks : decodeHeap buf buf.length = blocks at hheap
  generalize bufferToMessage buf buf.length = decoded at hheap
  cases hheap with
  | outside he =>
    refine iff_of_true ?_ ⟨he, by simp⟩
    constructor <;> simp [hblocks]
  | freedUnset he => exact iff_of_false (fun h => h.decoder hblocks) (fun h => h.1 he)
  | refused he log hlog =>
    refine iff_of_true ?_ ⟨he, by simp⟩
    refine ⟨by simp [hblocks], ?_, by simp [hblocks], by simp [hblocks]⟩
    intro log' h
    rw [hblocks] at h
    simp only [Except.ok.injEq, Prod.mk.injEq, true_and] at h
    exact h ▸ hlog
  | built he content blocks log hperm hresult =>
    have hdecoded : ∃ msg, (Except.ok (some ⟨opcodeAt buf, content⟩) :
        Except Fault (Option MessageT)) = .ok (some msg) := ⟨_, rfl⟩
    rw [and_iff_right he, and_iff_right hdecoded]
    constructor
    · intro h hneg
      have hop : (MessageT.mk (opcodeAt buf) content).opcode < 0 := hneg
      exact h.dispatcher emptyServer.tabela _ _ _ hblocks (invokeHeap_of_neg hop)
    · intro hneg
      have hop : ¬(MessageT.mk (opcodeAt buf) content).opcode < 0 := hneg
      refine ⟨by simp [hblocks], by simp [hblocks], ?_, ?_⟩
      · intro tabela msg blocks' log' h
        rw [hblocks] at h
        simp only [Except.ok.injEq, Prod.mk.injEq, Option.some.injEq] at h
        rw [← h.1.1, invokeHeap_of_not_neg hop]
        exact bind_ne_error (invoke_ne_uninitialised hop) (by simp)
      · intro tabela msg blocks' log' log'' _ h
        exact absurd rfl (invokeHeap_answers h)

/-- A put of the key `a` with DATASIZE 0. -/
def emptyPut : List UInt8 := [0, 50, 0, 50, 0, 1, 97, 0, 0, 0, 0]

/-- The decoder destroys the entry that it did not build. -/
theorem not_freesAssigned_entry : ¬∀ buf : List UInt8, FreesAssigned buf := by
  intro h
  have hentry : decodeHeap emptyPut emptyPut.length = .error .uninitialised := by decide +kernel
  exact (h emptyPut).decoder hentry

end RemoteTable
