import RemoteTable.Message

/-!
# The wire format and its round trip

`wireFormat` is the layout of the comment in `message.h`, in network byte order. The
encoder produces it and the decoder inverts it for keys whose length fits KEYSIZE.
-/

namespace RemoteTable
open Bytes

/-- KEYSIZE and KEY -/
def keyField (key : CString) : List UInt8 := beBytes 2 (strlen key) ++ key.bytes

/-- DATASIZE and DATA -/
def dataField (data : DataT) : List UInt8 := beBytes 4 data.datasize ++ data.bytes

/-- What follows OPCODE and C_TYPE. -/
def contentFormat : Content → List UInt8
  | .entry e => keyField e.key ++ dataField e.value
  | .key k => keyField k
  | .keys ks => beBytes 4 ks.length ++ ks.flatMap keyField
  | .data d => dataField d
  | .result r => beBytes 4 r.toUInt32.toNat

def wireFormat (msg : MessageT) : List UInt8 :=
  beBytes 2 msg.opcode.toUInt16.toNat ++
    (beBytes 2 msg.cType.toUInt16.toNat ++ contentFormat msg.content)

/-- The strings of a content that travel behind a KEYSIZE. -/
def Content.strings : Content → List CString
  | .entry e => [e.key]
  | .key k => [k]
  | .keys ks => ks
  | .data _ | .result _ => []

/-- Messages that the wire format can carry: KEYSIZE has two bytes, sizes are `int`s. -/
structure MessageT.Encodable (msg : MessageT) : Prop where
  keys : ∀ key ∈ msg.content.strings, strlen key ≤ 65535
  size : (wireFormat msg).length < 2 ^ 31

/-! ### The encoder writes the format -/

@[simp] lemma putShort_eq (v : ℕ) : putShort v = beBytes 2 v := leBytes_byteSwap 2 v

@[simp] lemma putInt_eq (v : ℕ) : putInt v = beBytes 4 v := leBytes_byteSwap 4 v

lemma putKey_eq (key : CString) : putKey key = keyField key := by
  rw [putKey, putShort_eq, keyField]

lemma putContent_eq (content : Content) : putContent content = contentFormat content := by
  cases content with
  | result r => simp only [putContent, contentFormat, putInt_eq]
  | data d => simp only [putContent, contentFormat, putInt_eq, dataField]
  | key k => simp only [putContent, contentFormat, putKey_eq]
  | keys ks =>
    have hfun : putKey = keyField := funext putKey_eq
    simp only [putContent, contentFormat, putInt_eq, hfun]
  | entry e => simp only [putContent, contentFormat, putInt_eq, putKey_eq, dataField]

@[simp] lemma length_keyField (key : CString) : (keyField key).length = 2 + strlen key := by
  simp [keyField, strlen]

@[simp] lemma length_dataField (data : DataT) : (dataField data).length = 4 + data.datasize := by
  simp [dataField, DataT.datasize]

lemma length_keyFields (ks : List CString) :
    (ks.flatMap keyField).length = (ks.map strlen).sum + 2 * ks.length := by
  induction ks with
  | nil => rfl
  | cons k ks ih =>
    simp only [List.flatMap_cons, List.length_append, length_keyField, ih, List.map_cons,
      List.sum_cons, List.length_cons]
    omega

/-- The first pass adds up exactly what the second pass writes. -/
lemma contentSize_eq (msg : MessageT) : contentSize msg.content = (wireFormat msg).length := by
  simp only [wireFormat, List.length_append, length_beBytes]
  cases msg.content with
  | result r => simp [contentSize, contentFormat]
  | data d =>
    simp only [contentSize, contentFormat, length_dataField]
    omega
  | key k =>
    simp only [contentSize, contentFormat, length_keyField]
    omega
  | keys ks =>
    simp only [contentSize, contentFormat, List.length_append, length_beBytes, length_keyFields]
    omega
  | entry e =>
    simp only [contentSize, contentFormat, List.length_append, length_keyField, length_dataField]
    omega

lemma toInt_of_lt {n : ℕ} (h : n < 2 ^ 31) : toInt n = n := by
  rw [toInt, Int.bmod_eq_of_le (by omega) (by omega)]

theorem messageToBuffer_eq {msg : MessageT} (h : (wireFormat msg).length < 2 ^ 31) :
    messageToBuffer (some msg) = .ok (wireFormat msg, (wireFormat msg).length) := by
  have hbytes : putShort msg.opcode.toUInt16.toNat ++
      (putShort msg.cType.toUInt16.toNat ++ putContent msg.content) = wireFormat msg := by
    rw [putShort_eq, putShort_eq, putContent_eq, wireFormat]
  simp only [messageToBuffer, hbytes, contentSize_eq, toInt_of_lt h, le_refl, if_true]

lemma wireFormat_pos (msg : MessageT) : 0 < (wireFormat msg).length := by
  simp only [wireFormat, List.length_append, length_beBytes]
  omega

lemma toInt_lt (n : ℤ) : toInt n < 2 ^ 31 := by
  have h := Int.bmod_lt (x := n) (m := 2 ^ 32) (by norm_num)
  unfold toInt
  omega

/-- A size that is no `int` makes the second pass leave its buffer. -/
theorem messageToBuffer_of_ge {msg : MessageT} (h : 2 ^ 31 ≤ (wireFormat msg).length) :
    messageToBuffer (some msg) = .error .outOfBounds := by
  have hlen : (putShort msg.opcode.toUInt16.toNat ++
      (putShort msg.cType.toUInt16.toNat ++ putContent msg.content)).length =
        (wireFormat msg).length := by
    rw [putShort_eq, putShort_eq, putContent_eq, wireFormat]
  have hlt := toInt_lt (contentSize msg.content)
  simp only [messageToBuffer, hlen]
  rw [if_neg (by omega)]

/-! ### The decoder reads the format -/

lemma memcpyFrom_append {n : ℕ} {xs : List UInt8} (rest : List UInt8) (h : xs.length = n) :
    memcpyFrom n (xs ++ rest) = .ok (xs, rest) := by
  rw [memcpyFrom, if_pos (by rw [List.length_append]; omega), List.take_left' h,
    List.drop_left' h]

lemma getShort_append (v : ℕ) (rest : List UInt8) :
    getShort (beBytes 2 v ++ rest) = .ok (v % 65536, rest) := by
  have hv : ntohs (leValue (beBytes 2 v)) = v % 65536 := by
    rw [ntohs, byteSwap_leValue (length_beBytes 2 v), beValue_beBytes]
    norm_num
  simp only [getShort, memcpyFrom_append rest (length_beBytes 2 v), ok_bind, pure_eq_ok, hv]

lemma getInt_append (v : ℕ) (rest : List UInt8) :
    getInt (beBytes 4 v ++ rest) = .ok (v % 4294967296, rest) := by
  have hv : ntohl (leValue (beBytes 4 v)) = v % 4294967296 := by
    rw [ntohl, byteSwap_leValue (length_beBytes 4 v), beValue_beBytes]
    norm_num
  simp only [getInt, memcpyFrom_append rest (length_beBytes 4 v), ok_bind, pure_eq_ok, hv]

lemma getKey_append {key : CString} (hk : strlen key ≤ 65535) (rest : List UInt8) :
    getKey (keyField key ++ rest) = .ok (key, rest) := by
  have hmod : strlen key % 65536 = strlen key := Nat.mod_eq_of_lt (by omega)
  rw [keyField, List.append_assoc]
  simp only [getKey, getShort_append, hmod, ok_bind, pure_eq_ok,
    memcpyFrom_append (n := strlen key) rest rfl, ofBytes_of_nulFree]

lemma getData_append (data : DataT) (rest : List UInt8) :
    getData data.datasize (data.bytes ++ rest) = .ok (data, rest) := by
  have hpos := data.positive
  have hfit := data.fits
  have hcond : (0 < (data.datasize : ℤ) ∧ (data.datasize : ℤ) < 2 ^ 31) ∧
      (data.datasize : ℤ).toNat ≤ (data.bytes ++ rest).length := by
    rw [DataT.datasize, List.length_append]
    omega
  rw [getData, dif_pos hcond]
  congr 2
  · apply DataT.ext
    simp [DataT.datasize]
  · simp [DataT.datasize]

lemma getKeys_append {ks : List CString} (hks : ∀ k ∈ ks, strlen k ≤ 65535)
    (rest : List UInt8) : getKeys ks.length (ks.flatMap keyField ++ rest) = .ok (ks, rest) := by
  induction ks with
  | nil => rfl
  | cons k ks ih =>
    have htail := ih (fun x hx => hks x (List.mem_cons_of_mem k hx))
    rw [List.flatMap_cons, List.append_assoc, List.length_cons, getKeys]
    simp only [getKey_append (hks k List.mem_cons_self), htail, ok_bind, pure_eq_ok]

lemma ofNat_toNat_toUInt16 (v : Int16) : Int16.ofNat (v.toUInt16.toNat % 65536) = v := by
  have hlt : v.toUInt16.toNat < 65536 := v.toUInt16.toNat_lt
  rw [Nat.mod_eq_of_lt hlt]
  exact Int16.ofNat_bitVecToNat v.toBitVec

lemma ofNat_toNat_toUInt32 (v : Int32) : Int32.ofNat (v.toUInt32.toNat % 4294967296) = v := by
  rw [Nat.mod_eq_of_lt v.toUInt32.toNat_lt]
  exact Int32.ofNat_bitVecToNat v.toBitVec

lemma toInt_datasize (data : DataT) :
    toInt ((data.datasize % 4294967296 : ℕ) : ℤ) = data.datasize ∧ 0 < (data.datasize : ℤ) := by
  have hpos := data.positive
  have hfit := data.fits
  rw [DataT.datasize, Nat.mod_eq_of_lt (by omega), toInt_of_lt hfit]
  exact ⟨rfl, by omega⟩

/-! One equation for each `case` of the decoder's switch. -/

lemma getContent_ctResult (msgBuf : List UInt8) :
    getContent ctResult msgBuf = (do
      let (result, _) ← getInt msgBuf
      return some (.result (Int32.ofNat result))) := by
  rw [getContent, if_pos rfl]

lemma getContent_ctKey (msgBuf : List UInt8) :
    getContent ctKey msgBuf = (do
      let (key, _) ← getKey msgBuf
      return some (.key key)) := by
  rw [getContent, if_neg (by decide), if_pos rfl]

lemma getContent_ctValue (msgBuf : List UInt8) :
    getContent ctValue msgBuf = (do
      let (n, msgBuf) ← getInt msgBuf
      if toInt n ≤ 0 then
        return none
      let (data, _) ← getData (toInt n) msgBuf
      return some (.data data)) := by
  rw [getContent, if_neg (by decide), if_neg (by decide), if_pos rfl]

lemma getContent_ctEntry (msgBuf : List UInt8) :
    getContent ctEntry msgBuf = (do
      let (key, msgBuf) ← getKey msgBuf
      let (n, msgBuf) ← getInt msgBuf
      if toInt n ≤ 0 then
        throw .uninitialised
      let (data, _) ← getData (toInt n) msgBuf
      return some (.entry ⟨key, data⟩)) := by
  rw [getContent, if_neg (by decide), if_neg (by decide), if_neg (by decide), if_pos rfl]

lemma getContent_ctKeys (msgBuf : List UInt8) :
    getContent ctKeys msgBuf = (do
      let (n, msgBuf) ← getInt msgBuf
      if toInt n < 0 then
        throw .outOfBounds
      let (keys, _) ← getKeys (toInt n).toNat msgBuf
      return some (.keys keys)) := by
  rw [getContent, if_neg (by decide), if_neg (by decide), if_neg (by decide),
    if_neg (by decide), if_pos rfl]

lemma getContent_result (r : Int32) :
    getContent ctResult (beBytes 4 r.toUInt32.toNat) = .ok (some (.result r)) := by
  have h := getInt_append r.toUInt32.toNat []
  rw [List.append_nil] at h
  rw [getContent_ctResult, h]
  simp only [ok_bind, pure_eq_ok, ofNat_toNat_toUInt32]

lemma getContent_key {k : CString} (hk : strlen k ≤ 65535) :
    getContent ctKey (keyField k) = .ok (some (.key k)) := by
  have h := getKey_append hk []
  rw [List.append_nil] at h
  rw [getContent_ctKey, h]
  rfl

lemma getContent_value_of_ok {n : ℕ} {msgBuf rest rest' : List UInt8} {d : DataT}
    (hn : getInt msgBuf = .ok (n, rest)) (hpos : 0 < toInt n)
    (hd : getData (toInt n) rest = .ok (d, rest')) :
    getContent ctValue msgBuf = .ok (some (.data d)) := by
  simp only [getContent_ctValue, hn, ok_bind, pure_eq_ok, if_neg (not_le.mpr hpos), hd]

lemma getContent_entry_of_ok {n : ℕ} {msgBuf rest rest' rest'' : List UInt8} {k : CString}
    {d : DataT} (hk : getKey msgBuf = .ok (k, rest)) (hn : getInt rest = .ok (n, rest'))
    (hpos : 0 < toInt n) (hd : getData (toInt n) rest' = .ok (d, rest'')) :
    getContent ctEntry msgBuf = .ok (some (.entry ⟨k, d⟩)) := by
  simp only [getContent_ctEntry, hk, hn, ok_bind, pure_eq_ok, if_neg (not_le.mpr hpos), hd]

lemma getContent_keys_of_ok {n : ℕ} {msgBuf rest rest' : List UInt8} {ks : List CString}
    (hn : getInt msgBuf = .ok (n, rest)) (hpos : 0 ≤ toInt n)
    (hks : getKeys (toInt n).toNat rest = .ok (ks, rest')) :
    getContent ctKeys msgBuf = .ok (some (.keys ks)) := by
  simp only [getContent_ctKeys, hn, ok_bind, pure_eq_ok, if_neg (not_lt.mpr hpos), hks]

lemma getContent_data (d : DataT) :
    getContent ctValue (dataField d) = .ok (some (.data d)) := by
  obtain ⟨hd, hpos⟩ := toInt_datasize d
  have h := getData_append d []
  rw [List.append_nil, ← hd] at h
  exact getContent_value_of_ok (getInt_append _ _) (hd ▸ hpos) h

lemma getContent_entry {e : EntryT} (hk : strlen e.key ≤ 65535) :
    getContent ctEntry (keyField e.key ++ dataField e.value) = .ok (some (.entry e)) := by
  obtain ⟨hd, hpos⟩ := toInt_datasize e.value
  have h := getData_append e.value []
  rw [List.append_nil, ← hd] at h
  exact getContent_entry_of_ok (getKey_append hk _) (getInt_append _ _) (hd ▸ hpos) h

lemma getContent_keys {ks : List CString} (hks : ∀ k ∈ ks, strlen k ≤ 65535)
    (hlen : ks.length < 2 ^ 31) :
    getContent ctKeys (beBytes 4 ks.length ++ ks.flatMap keyField) =
      .ok (some (.keys ks)) := by
  have hn : toInt ((ks.length % 4294967296 : ℕ) : ℤ) = ks.length := by
    rw [Nat.mod_eq_of_lt (by omega), toInt_of_lt hlen]
  have h := getKeys_append hks []
  rw [List.append_nil] at h
  apply getContent_keys_of_ok (getInt_append _ _)
  · rw [hn]
    omega
  · rw [hn, Int.toNat_natCast]
    exact h

theorem getContent_contentFormat (content : Content)
    (hkeys : ∀ key ∈ content.strings, strlen key ≤ 65535)
    (hsize : (contentFormat content).length < 2 ^ 31) :
    getContent content.cType (contentFormat content) = .ok (some content) := by
  cases content with
  | result r => exact getContent_result r
  | key k => exact getContent_key (hkeys k (by simp [Content.strings]))
  | data d => exact getContent_data d
  | entry e => exact getContent_entry (hkeys e.key (by simp [Content.strings]))
  | keys ks =>
    have hlen : ks.length < 2 ^ 31 := by
      simp only [contentFormat, List.length_append, length_beBytes, length_keyFields] at hsize
      omega
    exact getContent_keys hkeys hlen

lemma encodable_result (opcode : Int16) (result : Int32) :
    MessageT.Encodable ⟨opcode, .result result⟩ := by
  refine ⟨by simp [Content.strings], ?_⟩
  simp only [wireFormat, contentFormat, List.length_append, Bytes.length_beBytes]
  omega

lemma valid_cType (opcode : Int16) (content : Content) : valid opcode content.cType = 0 := by
  have hst : ocStatus ≠ 0 := by decide
  rw [valid, if_pos]
  refine ⟨Or.inl hst, ?_⟩
  cases content <;> simp [Content.cType]

/-- A message that fits is decoded from its layout. -/
lemma bufferToMessage_wireFormat {msg : MessageT} (h : msg.Encodable) :
    bufferToMessage (wireFormat msg) (wireFormat msg).length = .ok (some msg) := by
  have hcontent : (contentFormat msg.content).length < 2 ^ 31 := by
    have := h.size
    simp only [wireFormat, List.length_append] at this
    omega
  have hneg : ¬((wireFormat msg).length : ℤ) < 0 := by omega
  rw [bufferToMessage, if_neg hneg]
  simp only [wireFormat, getShort_append, ok_bind, pure_eq_ok, ofNat_toNat_toUInt16,
    MessageT.cType, valid_cType, ne_eq, not_true_eq_false, if_false,
    getContent_contentFormat msg.content h.keys hcontent]

/-- Every message that fits is laid out as documented and decoded to itself. -/
theorem message_roundTrip {msg : MessageT} (h : msg.Encodable) :
    messageToBuffer (some msg) = .ok (wireFormat msg, (wireFormat msg).length) ∧
      bufferToMessage (wireFormat msg) (wireFormat msg).length = .ok (some msg) :=
  ⟨messageToBuffer_eq h.size, bufferToMessage_wireFormat h⟩

theorem message_roundTrip_listing :
    let msg : MessageT := ⟨ocGet + 1, .keys [.ofBytes [33], .ofBytes [], .ofBytes [255, 97]]⟩
    messageToBuffer (some msg) = .ok (wireFormat msg, (wireFormat msg).length) ∧
      bufferToMessage (wireFormat msg) (wireFormat msg).length = .ok (some msg) :=
  message_roundTrip ⟨by decide, by decide⟩

end RemoteTable
