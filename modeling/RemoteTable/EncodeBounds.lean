import RemoteTable.DecodeBounds

/-!
# Bounds of the encoder

`message_to_buffer` decides on a size and writes in two case distinctions of their own. For
which messages the two passes agree, and what becomes of a key that KEYSIZE cannot count.
-/

namespace RemoteTable
open Bytes

/-! ### The two passes -/

/-- A `struct message_t` with any `c_type`. One outside the five makes no member live. -/
inductive RawMessage
  | known (msg : MessageT)
  | other (opcode cType : Int16) (h : ¬KnownType cType)

/-- What the first pass adds up. -/
def firstPass : RawMessage → ℕ
  | .known msg => contentSize msg.content
  -- no branch of the chain is taken
  | .other _ _ _ => 0

/-- What the second pass writes. -/
def secondPass : RawMessage → List UInt8
  | .known msg => putShort msg.opcode.toUInt16.toNat ++
      (putShort msg.cType.toUInt16.toNat ++ putContent msg.content)
  -- the header stands before the switch
  | .other opcode cType _ => putShort opcode.toUInt16.toNat ++ putShort cType.toUInt16.toNat

/-- `message_to_buffer` for any `c_type`. -/
def rawToBuffer (raw : RawMessage) : Except Fault (List UInt8 × ℤ) :=
  let bufferSize := toInt (firstPass raw)
  let msgBuf := secondPass raw
  if (msgBuf.length : ℤ) ≤ bufferSize then .ok (msgBuf, bufferSize) else .error .outOfBounds

lemma rawToBuffer_known (msg : MessageT) :
    rawToBuffer (.known msg) = messageToBuffer (some msg) := rfl

/-- The first pass fits an `int` and counts the bytes of the second, which are all in the
buffer and whose number is returned. -/
structure PassesAgree (raw : RawMessage) : Prop where
  noOverflow : firstPass raw < 2 ^ 31
  agree : (secondPass raw).length = firstPass raw
  returned : rawToBuffer raw = .ok (secondPass raw, (secondPass raw).length)

/-- The lengths of the content leave room for the header and the size fields in an `int`. -/
def Content.FitsInt : Content → Prop
  | .result _ => True
  | .data d => d.datasize < 2 ^ 31 - 8
  | .key k => strlen k < 2 ^ 31 - 6
  | .keys ks => (ks.map (fun k => 2 + strlen k)).sum < 2 ^ 31 - 8
  | .entry e => strlen e.key + e.value.datasize < 2 ^ 31 - 10

def RawMessage.FitsInt : RawMessage → Prop
  | .known msg => msg.content.FitsInt
  | .other _ _ _ => False

lemma sum_two_add (ks : List CString) :
    (ks.map (fun k => 2 + strlen k)).sum = (ks.map strlen).sum + 2 * ks.length := by
  induction ks with
  | nil => rfl
  | cons k ks ih =>
    simp only [List.map_cons, List.sum_cons, List.length_cons, ih]
    omega

lemma contentSize_lt_iff (content : Content) : contentSize content < 2 ^ 31 ↔ content.FitsInt := by
  cases content with
  | result r => simp [contentSize, Content.FitsInt]
  | data d =>
    simp only [contentSize, Content.FitsInt]
    omega
  | key k =>
    simp only [contentSize, Content.FitsInt]
    omega
  | keys ks =>
    simp only [contentSize, Content.FitsInt, sum_two_add]
    omega
  | entry e =>
    simp only [contentSize, Content.FitsInt]
    omega

lemma secondPass_known (msg : MessageT) : secondPass (.known msg) = wireFormat msg := by
  rw [secondPass, putShort_eq, putShort_eq, putContent_eq, wireFormat]

/-- The exact messages that fill the buffer made for them. -/
theorem passesAgree_iff (raw : RawMessage) : PassesAgree raw ↔ raw.FitsInt := by
  cases raw with
  | known msg =>
    rw [RawMessage.FitsInt, ← contentSize_lt_iff]
    constructor
    · exact fun h => h.noOverflow
    · intro hsize
      have hlen := contentSize_eq msg
      refine ⟨hsize, by rw [secondPass_known, firstPass, hlen], ?_⟩
      rw [rawToBuffer_known, secondPass_known]
      exact messageToBuffer_eq (hlen ▸ hsize)
  | other opcode cType h =>
    refine iff_of_false (fun hagree => ?_) id
    have hlen := hagree.agree
    simp only [secondPass, firstPass, List.length_append, putShort_eq, length_beBytes] at hlen
    omega

/-- Four header bytes go into a block of no bytes. -/
theorem not_passesAgree_other : ¬∀ raw : RawMessage, PassesAgree raw := by
  intro h
  have hother : ¬KnownType 0 := by
    unfold KnownType
    decide
  have hlen := (h (.other 0 0 hother)).agree
  simp [secondPass, firstPass] at hlen

/-! ### Keys that KEYSIZE cannot count -/

/-- Some key of the message is longer than two bytes can say. -/
def MessageT.HasLongKey (msg : MessageT) : Prop :=
  ∃ key ∈ msg.content.strings, 65535 < strlen key

/-- The encoder reports an error, or sends a frame that still stands for the message. -/
def ReportsLongKey (msg : MessageT) : Prop :=
  ∃ frame size, messageToBuffer (some msg) = .ok (frame, size) ∧
    (size = -1 ∨ bufferToMessage frame frame.length = .ok (some msg))

/-- What the encoder returns is the frame and its length. -/
lemma messageToBuffer_ok {msg : MessageT} {frame : List UInt8} {size : ℤ}
    (h : messageToBuffer (some msg) = .ok (frame, size)) :
    frame = wireFormat msg ∧ size = (wireFormat msg).length ∧ (wireFormat msg).length < 2 ^ 31 := by
  by_cases hlt : (wireFormat msg).length < 2 ^ 31
  · rw [messageToBuffer_eq hlt] at h
    simp only [Except.ok.injEq, Prod.mk.injEq] at h
    exact ⟨h.1.symm, h.2.symm, hlt⟩
  · rw [messageToBuffer_of_ge (not_lt.mp hlt)] at h
    cases h

/-- No buffer decodes to a message with such a key. -/
lemma decode_ne_of_longKey {msg : MessageT} (hlong : msg.HasLongKey) {buf : List UInt8}
    (hlen : buf.length < 2 ^ 31) : bufferToMessage buf buf.length ≠ .ok (some msg) := by
  intro h
  obtain ⟨key, hkey, hlong⟩ := hlong
  have := (encodable_of_decoded hlen h).keys key hkey
  omega

/-- The encoder never reports a long key, and what it sends never stands for the message. -/
theorem not_reportsLongKey {msg : MessageT} (hlong : msg.HasLongKey) : ¬ReportsLongKey msg := by
  rintro ⟨frame, size, hok, hsize | hdecode⟩
  · have hlength := (messageToBuffer_ok hok).2.1
    omega
  · obtain ⟨rfl, -, hlt⟩ := messageToBuffer_ok hok
    exact decode_ne_of_longKey hlong hlt hdecode

/-- A long key alone arrives as the bytes that the low half of its length counts. -/
theorem decode_truncated (opcode : Int16) {key : CString}
    (hsize : (wireFormat ⟨opcode, .key key⟩).length < 2 ^ 31) :
    ∃ frame, messageToBuffer (some ⟨opcode, .key key⟩) = .ok (frame, frame.length) ∧
      bufferToMessage frame frame.length =
        .ok (some ⟨opcode, .key (.ofBytes (key.bytes.take (strlen key % 65536)))⟩) := by
  refine ⟨_, messageToBuffer_eq hsize, ?_⟩
  have hneg : ¬((wireFormat ⟨opcode, .key key⟩).length : ℤ) < 0 := by omega
  have hle : strlen key % 65536 ≤ key.bytes.length := Nat.mod_le _ _
  rw [bufferToMessage, if_neg hneg]
  simp only [wireFormat, getShort_append, ok_bind, pure_eq_ok, ofNat_toNat_toUInt16,
    MessageT.cType, valid_cType, ne_eq, not_true_eq_false, if_false]
  simp only [Content.cType, getContent_ctKey, contentFormat, keyField, getKey, getShort_append,
    ok_bind, pure_eq_ok, memcpyFrom, if_pos hle]

/-- The letter `a`, one time more often than KEYSIZE counts. -/
def longKey : CString :=
  ⟨List.replicate 65536 97, fun _ hb => List.eq_of_mem_replicate hb ▸ by decide⟩

lemma strlen_longKey : strlen longKey = 65536 := List.length_replicate

lemma longKey_hasLongKey : MessageT.HasLongKey ⟨ocDel, .key longKey⟩ :=
  ⟨longKey, List.mem_cons_self, by rw [strlen_longKey]; norm_num⟩

theorem not_reportsLongKey_letter : ¬ReportsLongKey ⟨ocDel, .key longKey⟩ :=
  not_reportsLongKey longKey_hasLongKey

/-- The frame of a delete of that key says KEYSIZE 0 and decodes to the empty key. -/
theorem not_reportsLongKey_all : ¬∀ msg : MessageT, msg.HasLongKey → ReportsLongKey msg := by
  intro h
  have hreports := h _ longKey_hasLongKey
  have hlen := strlen_longKey
  -- the proof needs the length of the key only
  generalize longKey = key at hreports hlen
  obtain ⟨frame, size, hok, hsize | hdecode⟩ := hreports
  · have hlength := (messageToBuffer_ok hok).2.1
    omega
  · obtain ⟨rfl, -, hlt⟩ := messageToBuffer_ok hok
    obtain ⟨frame, hframe, htrunc⟩ := decode_truncated ocDel hlt
    obtain ⟨rfl, -, -⟩ := messageToBuffer_ok hframe
    rw [htrunc, hlen, List.take_zero] at hdecode
    simp only [Except.ok.injEq, Option.some.injEq, MessageT.mk.injEq, Content.key.injEq,
      true_and] at hdecode
    rw [← hdecode] at hlen
    cases hlen

end RemoteTable
