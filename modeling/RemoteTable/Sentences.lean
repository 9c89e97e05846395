import RemoteTable.DecodeBounds

/-!
# Sentences of the wire format

The format of `message.h` as a grammar over bytes, what the decoder makes of any buffer, and
the buffers on which it accepts nothing but a sentence.
-/

namespace RemoteTable
open Bytes

/-! ### The grammar -/

/-- KEYSIZE and KEY, whatever bytes KEY has. -/
def rawKey (key : List UInt8) : List UInt8 := beBytes 2 key.length ++ key

/-- DATASIZE and DATA -/
def rawData (data : List UInt8) : List UInt8 := beBytes 4 data.length ++ data

/-- The fields of each `c_type`, with nothing behind them. -/
inductive Fields : Int16 → List UInt8 → Prop
  | result (result : List UInt8) (h : result.length = 4) : Fields ctResult result
  | key (key : List UInt8) (h : key.length ≤ 65535) : Fields ctKey (rawKey key)
  | value (data : List UInt8) (h : data.length < 2 ^ 31) : Fields ctValue (rawData data)
  | entry (key data : List UInt8) (hk : key.length ≤ 65535) (hd : data.length < 2 ^ 31) :
      Fields ctEntry (rawKey key ++ rawData data)
  | keys (keys : List (List UInt8)) (h : keys.length < 2 ^ 31)
      (hk : ∀ key ∈ keys, key.length ≤ 65535) :
      Fields ctKeys (beBytes 4 keys.length ++ keys.flatMap rawKey)

/-- The opcodes that `valid` enumerates. -/
def listedOpcodes : List Int16 :=
  [ocStatus, ocUp, ocDown, ocDel, ocSize, ocPut, ocUpdate, ocGet, ocRtError, ocDel + 1,
    ocSize + 1, ocPut + 1, ocUpdate + 1, ocGet + 1, ocDel + 1]

/-- OPCODE, C_TYPE and the fields of that type. -/
def Sentence (buf : List UInt8) : Prop :=
  ∃ opcode ∈ listedOpcodes, ∃ cType fields, Fields cType fields ∧
    buf = beBytes 2 opcode.toUInt16.toNat ++ (beBytes 2 cType.toUInt16.toNat ++ fields)

lemma fields_contentFormat {content : Content}
    (hkeys : ∀ key ∈ content.strings, strlen key ≤ 65535)
    (hsize : (contentFormat content).length < 2 ^ 31) :
    Fields content.cType (contentFormat content) := by
  cases content with
  | result r => exact .result _ (length_beBytes 4 _)
  | data d => exact .value d.bytes d.fits
  | key k => exact .key k.bytes (hkeys k (by simp [Content.strings]))
  | entry e =>
    have hkey := hkeys e.key (by simp [Content.strings])
    exact .entry e.key.bytes e.value.bytes hkey e.value.fits
  | keys ks =>
    have hformat : contentFormat (.keys ks) =
        beBytes 4 (ks.map CString.bytes).length ++ (ks.map CString.bytes).flatMap rawKey := by
      rw [List.length_map, List.flatMap_map]
      rfl
    rw [hformat]
    apply Fields.keys
    · simp only [contentFormat, List.length_append, length_beBytes, length_keyFields] at hsize
      rw [List.length_map]
      omega
    · intro key hkey
      obtain ⟨k, hk, rfl⟩ := List.mem_map.mp hkey
      exact hkeys k hk

/-- What the encoder writes for a listed opcode is a sentence. -/
theorem sentence_wireFormat {msg : MessageT} (hop : msg.opcode ∈ listedOpcodes)
    (h : msg.Encodable) : Sentence (wireFormat msg) := by
  have hsize := h.size
  simp only [wireFormat, List.length_append] at hsize
  exact ⟨msg.opcode, hop, msg.cType, _, fields_contentFormat h.keys (by omega), rfl⟩

variable {buf : List UInt8}

/-! ### Sentences as walks -/

def DataExact (buf : List UInt8) : Prop := 4 ≤ buf.length ∧ 4 + countAt buf = buf.length

def KeysExact : ℕ → List UInt8 → Prop
  | 0, buf => buf = []
  | n + 1, buf => KeyInside buf ∧ KeysExact n (buf.drop (2 + keySizeAt buf))

/-- The fields that `c_type` announces end where `buf` ends. -/
def ContentExact (cType : Int16) (buf : List UInt8) : Prop :=
  cType = ctResult ∧ buf.length = 4 ∨
  cType = ctKey ∧ 2 ≤ buf.length ∧ 2 + keySizeAt buf = buf.length ∨
  cType = ctValue ∧ DataExact buf ∨
  cType = ctEntry ∧ KeyInside buf ∧ DataExact (buf.drop (2 + keySizeAt buf)) ∨
  cType = ctKeys ∧ 4 ≤ buf.length ∧ 0 ≤ countAt buf ∧ KeysExact (countAt buf).toNat (buf.drop 4)

def opcodeAt (buf : List UInt8) : Int16 := Int16.ofNat (beValue (buf.take 2))

/-- The first `w` bytes as a number. -/
lemma beBytes_take {w : ℕ} (h : w ≤ buf.length) : beBytes w (beValue (buf.take w)) = buf.take w :=
  beBytes_beValue (by rw [List.length_take]; omega)

lemma beValue_take_append (w v : ℕ) (rest : List UInt8) :
    beValue ((beBytes w v ++ rest).take w) = v % 256 ^ w := by
  rw [List.take_left' (length_beBytes w v), beValue_beBytes]

lemma toInt_of_nonneg {v : ℕ} (hv : v < 2 ^ 32) (h : 0 ≤ toInt v) : toInt v = v := by
  by_cases hlt : v < 2 ^ 31
  · exact toInt_of_lt hlt
  · have hneg : toInt v = (v : ℤ) - 2 ^ 32 := by
      rw [toInt, ← Int.sub_bmod_right, Int.bmod_eq_of_le (by omega) (by omega)]
      norm_num
    omega

lemma countAt_of_nonneg (h : 0 ≤ countAt buf) : countAt buf = beValue (buf.take 4) := by
  have hlt := beValue_lt (buf.take 4)
  have hlen : (buf.take 4).length ≤ 4 := List.length_take_le 4 buf
  have hpow : 256 ^ (buf.take 4).length ≤ 256 ^ 4 := Nat.pow_le_pow_right (by decide) hlen
  exact toInt_of_nonneg (by omega) h

lemma countAt_append {n : ℕ} (hn : n < 2 ^ 31) (rest : List UInt8) :
    countAt (beBytes 4 n ++ rest) = n := by
  rw [countAt, beValue_take_append, Nat.mod_eq_of_lt (by omega), toInt_of_lt hn]

lemma keySizeAt_rawKey {key : List UInt8} (hk : key.length ≤ 65535) (rest : List UInt8) :
    keySizeAt (rawKey key ++ rest) = key.length := by
  rw [keySizeAt, rawKey, List.append_assoc, beValue_take_append, Nat.mod_eq_of_lt (by omega)]

lemma keyInside_rawKey {key : List UInt8} (hk : key.length ≤ 65535) (rest : List UInt8) :
    KeyInside (rawKey key ++ rest) ∧
      (rawKey key ++ rest).drop (2 + keySizeAt (rawKey key ++ rest)) = rest := by
  have hlen : (rawKey key).length = 2 + key.length := by
    rw [rawKey, List.length_append, length_beBytes]
  refine ⟨?_, ?_⟩
  · rw [KeyInside, keySizeAt_rawKey hk, List.length_append, hlen]
    omega
  · rw [keySizeAt_rawKey hk, ← hlen, List.drop_left]

lemma exists_rawKey (h : KeyInside buf) :
    ∃ key, key.length ≤ 65535 ∧ buf = rawKey key ++ buf.drop (2 + keySizeAt buf) := by
  obtain ⟨h2, hkey⟩ := h
  have hlt := beValue_lt (buf.take 2)
  have htake : (buf.take 2).length = 2 := by
    rw [List.length_take]
    omega
  rw [htake] at hlt
  have hlen : ((buf.drop 2).take (keySizeAt buf)).length = keySizeAt buf := by
    rw [List.length_take, List.length_drop]
    omega
  refine ⟨(buf.drop 2).take (keySizeAt buf), by rw [hlen]; exact Nat.le_of_lt_succ hlt, ?_⟩
  rw [rawKey, hlen, keySizeAt, beBytes_take h2, List.append_assoc, ← List.drop_drop,
    List.take_append_drop, List.take_append_drop]

lemma dataExact_iff : DataExact buf ↔ ∃ data, data.length < 2 ^ 31 ∧ buf = rawData data := by
  constructor
  · rintro ⟨h4, hlen⟩
    have hnonneg : 0 ≤ countAt buf := by omega
    have hcount := countAt_of_nonneg hnonneg
    have hlt := toInt_lt (beValue (buf.take 4))
    rw [← countAt] at hlt
    refine ⟨buf.drop 4, by rw [List.length_drop]; omega, ?_⟩
    have hsize : (buf.drop 4).length = beValue (buf.take 4) := by
      rw [List.length_drop]
      omega
    rw [rawData, hsize, beBytes_take h4, List.take_append_drop]
  · rintro ⟨data, hdata, rfl⟩
    have hcount := countAt_append hdata data
    rw [← rawData] at hcount
    rw [DataExact, hcount, rawData, List.length_append, length_beBytes]
    omega

lemma keysExact_iff {n : ℕ} :
    KeysExact n buf ↔ ∃ keys : List (List UInt8), keys.length = n ∧
      (∀ key ∈ keys, key.length ≤ 65535) ∧ buf = keys.flatMap rawKey := by
  induction n generalizing buf with
  | zero =>
    rw [KeysExact]
    constructor
    · rintro rfl
      exact ⟨[], rfl, by simp, rfl⟩
    · rintro ⟨keys, hlen, -, rfl⟩
      rw [List.length_eq_zero_iff.mp hlen]
      rfl
  | succ n ih =>
    rw [KeysExact, ih]
    constructor
    · rintro ⟨hin, keys, hlen, hkeys, hrest⟩
      obtain ⟨key, hk, hbuf⟩ := exists_rawKey hin
      refine ⟨key :: keys, by rw [List.length_cons, hlen], ?_, ?_⟩
      · exact List.forall_mem_cons.mpr ⟨hk, hkeys⟩
      · rw [List.flatMap_cons, ← hrest]
        exact hbuf
    · rintro ⟨keys, hlen, hkeys, rfl⟩
      cases keys with
      | nil => cases hlen
      | cons key keys =>
        obtain ⟨hk, hkeys⟩ := List.forall_mem_cons.mp hkeys
        obtain ⟨hin, hrest⟩ := keyInside_rawKey hk (keys.flatMap rawKey)
        rw [List.flatMap_cons, hrest]
        exact ⟨hin, keys, Nat.succ.inj hlen, hkeys, rfl⟩

/-- The grammar and the walk agree. -/
theorem fields_iff (cType : Int16) (buf : List UInt8) :
    Fields cType buf ↔ ContentExact cType buf := by
  constructor
  · intro h
    unfold ContentExact
    cases h with
    | result result h => exact Or.inl ⟨rfl, h⟩
    | key key h =>
      have hsize := keySizeAt_rawKey h []
      rw [List.append_nil] at hsize
      refine Or.inr (Or.inl ⟨rfl, ?_⟩)
      rw [hsize, rawKey, List.length_append, length_beBytes]
      omega
    | value data h => exact Or.inr (Or.inr (Or.inl ⟨rfl, dataExact_iff.mpr ⟨data, h, rfl⟩⟩))
    | entry key data hk hd =>
      obtain ⟨hin, hrest⟩ := keyInside_rawKey hk (rawData data)
      rw [hrest]
      exact Or.inr (Or.inr (Or.inr (Or.inl ⟨rfl, hin, dataExact_iff.mpr ⟨data, hd, rfl⟩⟩)))
    | keys keys h hk =>
      refine Or.inr (Or.inr (Or.inr (Or.inr ⟨rfl, ?_, ?_, ?_⟩)))
      · rw [List.length_append, length_beBytes]
        omega
      · rw [countAt_append h]
        omega
      · rw [countAt_append h, List.drop_left' (length_beBytes 4 _), Int.toNat_natCast,
          keysExact_iff]
        exact ⟨keys, rfl, hk, rfl⟩
  · rintro (⟨rfl, h⟩ | ⟨rfl, h2, h⟩ | ⟨rfl, h⟩ | ⟨rfl, hin, h⟩ | ⟨rfl, h⟩)
    · exact .result buf h
    · obtain ⟨key, hk, hbuf⟩ := exists_rawKey ⟨h2, h.le⟩
      rw [List.drop_eq_nil_of_le h.ge, List.append_nil] at hbuf
      exact hbuf ▸ .key key hk
    · obtain ⟨data, hd, rfl⟩ := dataExact_iff.mp h
      exact .value data hd
    · obtain ⟨key, hk, hbuf⟩ := exists_rawKey hin
      obtain ⟨data, hd, hrest⟩ := dataExact_iff.mp h
      rw [hrest] at hbuf
      exact hbuf ▸ .entry key data hk hd
    · obtain ⟨n, hn⟩ := Int.eq_ofNat_of_zero_le h.2.1
      have hcount := countAt_of_nonneg h.2.1
      have hlt := toInt_lt (beValue (buf.take 4))
      rw [← countAt, hn] at hlt
      rw [hn, Int.toNat_natCast] at h
      obtain ⟨h4, -, hkeys⟩ := h
      obtain ⟨keys, hlen, hk, hrest⟩ := keysExact_iff.mp hkeys
      have hkeys : keys.length = beValue (buf.take 4) := by omega
      have hbuf : buf = beBytes 4 keys.length ++ keys.flatMap rawKey := by
        rw [hkeys, beBytes_take h4, ← hrest, List.take_append_drop]
      rw [hbuf]
      exact .keys keys (by omega) hk

lemma ofNat_beValue_take (v : Int16) (rest : List UInt8) :
    Int16.ofNat (beValue ((beBytes 2 v.toUInt16.toNat ++ rest).take 2)) = v := by
  rw [beValue_take_append]
  exact ofNat_toNat_toUInt16 v

lemma beBytes_ofNat_take (h : 2 ≤ buf.length) :
    beBytes 2 (Int16.ofNat (beValue (buf.take 2))).toUInt16.toNat = buf.take 2 := by
  have hlt := beValue_lt (buf.take 2)
  have htake : (buf.take 2).length = 2 := by
    rw [List.length_take]
    omega
  rw [htake] at hlt
  have hval : (Int16.ofNat (beValue (buf.take 2))).toUInt16.toNat = beValue (buf.take 2) :=
    Nat.mod_eq_of_lt hlt
  rw [hval, beBytes_take h]

/-- A sentence has a listed opcode, and fields that end with the buffer. -/
theorem sentence_iff (buf : List UInt8) :
    Sentence buf ↔ 4 ≤ buf.length ∧ opcodeAt buf ∈ listedOpcodes ∧
      ContentExact (cTypeAt buf) (buf.drop 4) := by
  constructor
  · rintro ⟨opcode, hop, cType, fields, hfields, rfl⟩
    have hdrop : (beBytes 2 opcode.toUInt16.toNat ++
        (beBytes 2 cType.toUInt16.toNat ++ fields)).drop 2 =
        beBytes 2 cType.toUInt16.toNat ++ fields := List.drop_left' (length_beBytes 2 _)
    refine ⟨?_, ?_, ?_⟩
    · simp only [List.length_append, length_beBytes]
      omega
    · rw [opcodeAt, ofNat_beValue_take]
      exact hop
    · rw [cTypeAt, hdrop, ofNat_beValue_take, ← fields_iff, ← List.drop_drop (i := 2) (j := 2),
        hdrop, List.drop_left' (length_beBytes 2 _)]
      exact hfields
  · rintro ⟨h4, hop, hexact⟩
    have h2 : 2 ≤ (buf.drop 2).length := by
      rw [List.length_drop]
      omega
    refine ⟨opcodeAt buf, hop, cTypeAt buf, buf.drop 4, (fields_iff _ _).mpr hexact, ?_⟩
    rw [opcodeAt, cTypeAt, beBytes_ofNat_take (by omega), beBytes_ofNat_take h2,
      ← List.drop_drop (i := 2) (j := 2), List.take_append_drop, List.take_append_drop]

/-! ### What the decoder accepts -/

/-- The buffers that are decoded to a message. Nothing is asked of the opcode, nor of the bytes
behind the fields. -/
structure Decodable (buf : List UInt8) : Prop where
  header : 4 ≤ buf.length
  known : KnownType (cTypeAt buf)
  inside : ContentInside (cTypeAt buf) (buf.drop 4)
  value : ¬RefusedValue (cTypeAt buf) (buf.drop 4)
  entry : ¬RefusedEntry (cTypeAt buf) (buf.drop 4)

lemma bufferToMessage_of_unknown (h4 : 4 ≤ buf.length) (h : ¬KnownType (cTypeAt buf)) :
    bufferToMessage buf buf.length = .ok none := by
  rw [bufferToMessage_of_le h4, if_pos (valid_of_unknown h)]

lemma bufferToMessage_of_known (h4 : 4 ≤ buf.length) (h : KnownType (cTypeAt buf)) :
    bufferToMessage buf buf.length = getContent (cTypeAt buf) (buf.drop 4) >>= fun content =>
      .ok (content.map (MessageT.mk (opcodeAt buf))) := by
  rw [bufferToMessage_of_le h4, valid_of_known h, if_neg (by simp)]
  rfl

/-- The buffers that are refused with `NULL`. -/
theorem bufferToMessage_eq_none_iff (buf : List UInt8) :
    bufferToMessage buf buf.length = .ok none ↔ 4 ≤ buf.length ∧
      (¬KnownType (cTypeAt buf) ∨ RefusedValue (cTypeAt buf) (buf.drop 4)) := by
  by_cases h4 : 4 ≤ buf.length
  · rw [and_iff_right h4]
    by_cases hknown : KnownType (cTypeAt buf)
    · have hresult := contentResult_of_known hknown (buf.drop 4)
      rw [bufferToMessage_of_known h4 hknown, or_iff_right (not_not.mpr hknown)]
      generalize getContent (cTypeAt buf) (buf.drop 4) = result at hresult
      cases hresult with
      | outside h hv he => simp [error_bind, hv]
      | refusedValue h => simp [ok_bind, h]
      | refusedEntry h =>
        have hv : ¬RefusedValue (cTypeAt buf) (buf.drop 4) :=
          not_refusedValue (by rw [h.1]; decide)
        simp [error_bind, hv]
      | content content h hv he => simp [ok_bind, hv]
    · exact iff_of_true (bufferToMessage_of_unknown h4 hknown) (Or.inl hknown)
  · rw [bufferToMessage_of_lt h4]
    simp [h4]

theorem decodable_iff (buf : List UInt8) :
    (∃ msg, bufferToMessage buf buf.length = .ok (some msg)) ↔ Decodable buf := by
  by_cases h4 : 4 ≤ buf.length
  · by_cases hknown : KnownType (cTypeAt buf)
    · have hresult := contentResult_of_known hknown (buf.drop 4)
      have hdecodable : Decodable buf ↔ ContentInside (cTypeAt buf) (buf.drop 4) ∧
          ¬RefusedValue (cTypeAt buf) (buf.drop 4) ∧ ¬RefusedEntry (cTypeAt buf) (buf.drop 4) :=
        ⟨fun h => ⟨h.inside, h.value, h.entry⟩, fun h => ⟨h4, hknown, h.1, h.2.1, h.2.2⟩⟩
      rw [bufferToMessage_of_known h4 hknown, hdecodable]
      generalize getContent (cTypeAt buf) (buf.drop 4) = result at hresult
      cases hresult with
      | outside h hv he => simp [error_bind, h]
      | refusedValue h => simp [ok_bind, h]
      | refusedEntry h => simp [error_bind, h]
      | content content h hv he => simp [ok_bind, h, hv, he]
    · rw [bufferToMessage_of_unknown h4 hknown]
      exact iff_of_false (by simp) (fun h => hknown h.known)
  · rw [bufferToMessage_of_lt h4]
    exact iff_of_false (by simp) (fun h => h4 h.header)

/-- A message comes from a sentence only, and everything else is answered with `NULL`. -/
structure AcceptsSentences (buf : List UInt8) : Prop where
  accepted : ∀ msg, bufferToMessage buf buf.length = .ok (some msg) → Sentence buf
  refused : ¬Sentence buf → bufferToMessage buf buf.length = .ok none

/-- The exact buffers on which the decoder keeps to the grammar. -/
theorem acceptsSentences_iff (buf : List UInt8) :
    AcceptsSentences buf ↔
      (4 ≤ buf.length ∧ opcodeAt buf ∈ listedOpcodes ∧
        ContentExact (cTypeAt buf) (buf.drop 4)) ∨
      4 ≤ buf.length ∧ (¬KnownType (cTypeAt buf) ∨ RefusedValue (cTypeAt buf) (buf.drop 4)) := by
  rw [← sentence_iff, ← bufferToMessage_eq_none_iff]
  constructor
  · intro h
    by_cases hs : Sentence buf
    · exact Or.inl hs
    · exact Or.inr (h.refused hs)
  · rintro (hs | hnone)
    · exact ⟨fun _ _ => hs, fun hnot => absurd hs hnot⟩
    · refine ⟨?_, fun _ => hnone⟩
      intro msg hmsg
      rw [hnone] at hmsg
      cases hmsg

/-- A CT_RESULT with opcode 60, which `valid` does not enumerate. -/
theorem not_acceptsSentences_opcode : ¬∀ buf : List UInt8, AcceptsSentences buf := by
  intro h
  have hdecode : bufferToMessage [0, 60, 0, 10, 0, 0, 0, 0] 8 = .ok (some ⟨60, .result 0⟩) := by
    decide
  have hs := (sentence_iff _).mp ((h [0, 60, 0, 10, 0, 0, 0, 0]).accepted _ hdecode)
  exact absurd hs.2.1 (by decide)

end RemoteTable
