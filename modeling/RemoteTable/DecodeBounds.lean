import RemoteTable.WireFormat

/-!
# Reads of the decoder and the size of its buffer

`buffer_to_message` compares `msg_size` with zero only. It stays inside the buffer exactly
for the buffers that hold every field they announce.
-/

namespace RemoteTable
open Bytes

/-! ### Announced fields -/

def keySizeAt (buf : List UInt8) : ℕ := beValue (buf.take 2)

/-- NKEYS or DATASIZE as the `int` that the decoder stores. -/
def countAt (buf : List UInt8) : ℤ := toInt (beValue (buf.take 4))

def KeyInside (buf : List UInt8) : Prop := 2 ≤ buf.length ∧ 2 + keySizeAt buf ≤ buf.length

def DataInside (buf : List UInt8) : Prop :=
  4 ≤ buf.length ∧ 0 ≤ countAt buf ∧ 4 + countAt buf ≤ buf.length

def KeysInside : ℕ → List UInt8 → Prop
  | 0, _ => True
  | n + 1, buf => KeyInside buf ∧ KeysInside n (buf.drop (2 + keySizeAt buf))

/-- The fields that `c_type` announces lie in `buf`, and no count is negative. -/
def ContentInside (cType : Int16) (buf : List UInt8) : Prop :=
  (cType = ctResult → 4 ≤ buf.length) ∧
  (cType = ctKey → KeyInside buf) ∧
  (cType = ctValue → DataInside buf) ∧
  (cType = ctEntry → KeyInside buf ∧ DataInside (buf.drop (2 + keySizeAt buf))) ∧
  (cType = ctKeys → 4 ≤ buf.length ∧ 0 ≤ countAt buf ∧
    KeysInside (countAt buf).toNat (buf.drop 4))

def cTypeAt (buf : List UInt8) : Int16 := Int16.ofNat (beValue ((buf.drop 2).take 2))

/-- The header and every field that the buffer announces lie inside it. -/
def FieldsInside (buf : List UInt8) : Prop :=
  4 ≤ buf.length ∧ ContentInside (cTypeAt buf) (buf.drop 4)

/-- A CT_VALUE buffer with a negative DATASIZE, which `data_create` refuses. -/
def NegativeValueSize (buf : List UInt8) : Prop :=
  8 ≤ buf.length ∧ cTypeAt buf = ctValue ∧ countAt (buf.drop 4) < 0

/-- The decoder reads inside the buffer and answers `NULL` when a field is not. -/
def ReadsInside (buf : List UInt8) : Prop :=
  bufferToMessage buf buf.length ≠ .error .outOfBounds ∧
    (¬FieldsInside buf → bufferToMessage buf buf.length = .ok none)

/-! ### What each read does -/

variable {buf : List UInt8}

lemma getShort_of_le (h : 2 ≤ buf.length) :
    getShort buf = .ok (beValue (buf.take 2), buf.drop 2) := by
  have hlen : (buf.take 2).length = 2 := by rw [List.length_take]; omega
  simp only [getShort, memcpyFrom, if_pos h, ok_bind, pure_eq_ok, ntohs, byteSwap_leValue hlen]

lemma getShort_of_lt (h : ¬2 ≤ buf.length) : getShort buf = .error .outOfBounds := by
  simp only [getShort, memcpyFrom, if_neg h, error_bind]

lemma getInt_of_le (h : 4 ≤ buf.length) :
    getInt buf = .ok (beValue (buf.take 4), buf.drop 4) := by
  have hlen : (buf.take 4).length = 4 := by rw [List.length_take]; omega
  simp only [getInt, memcpyFrom, if_pos h, ok_bind, pure_eq_ok, ntohl, byteSwap_leValue hlen]

lemma getInt_of_lt (h : ¬4 ≤ buf.length) : getInt buf = .error .outOfBounds := by
  simp only [getInt, memcpyFrom, if_neg h, error_bind]

lemma getKey_of_inside (h : KeyInside buf) :
    getKey buf = .ok (CString.ofBytes ((buf.drop 2).take (keySizeAt buf)),
      buf.drop (2 + keySizeAt buf)) := by
  obtain ⟨h2, hkey⟩ := h
  have hle : beValue (buf.take 2) ≤ (buf.drop 2).length := by
    rw [List.length_drop]
    unfold keySizeAt at hkey
    omega
  simp only [getKey, getShort_of_le h2, ok_bind, pure_eq_ok, memcpyFrom, if_pos hle, keySizeAt,
    List.drop_drop]

lemma getKey_of_not_inside (h : ¬KeyInside buf) : getKey buf = .error .outOfBounds := by
  by_cases h2 : 2 ≤ buf.length
  · have hgt : ¬beValue (buf.take 2) ≤ (buf.drop 2).length := by
      rw [List.length_drop]
      unfold KeyInside keySizeAt at h
      omega
    simp only [getKey, getShort_of_le h2, ok_bind, memcpyFrom, if_neg hgt, error_bind]
  · simp only [getKey, getShort_of_lt h2, error_bind]

lemma getKeys_of_inside {n : ℕ} (h : KeysInside n buf) :
    ∃ ks rest, getKeys n buf = .ok (ks, rest) := by
  induction n generalizing buf with
  | zero => exact ⟨[], buf, rfl⟩
  | succ n ih =>
    obtain ⟨hk, hrest⟩ := h
    obtain ⟨ks, rest, hks⟩ := ih hrest
    exact ⟨_, rest, by simp only [getKeys, getKey_of_inside hk, ok_bind, hks, pure_eq_ok]; rfl⟩

lemma getKeys_of_not_inside {n : ℕ} (h : ¬KeysInside n buf) :
    getKeys n buf = .error .outOfBounds := by
  induction n generalizing buf with
  | zero => exact absurd trivial h
  | succ n ih =>
    by_cases hk : KeyInside buf
    · have hrest : ¬KeysInside n (buf.drop (2 + keySizeAt buf)) := fun hr => h ⟨hk, hr⟩
      simp only [getKeys, getKey_of_inside hk, ok_bind, ih hrest, error_bind]
    · simp only [getKeys, getKey_of_not_inside hk, error_bind]

lemma getData_of_le {n : ℤ} (hpos : 0 < toInt n) (h : toInt n ≤ buf.length) :
    ∃ d rest, getData (toInt n) buf = .ok (d, rest) := by
  have hlt := toInt_lt n
  have hcond : (0 < toInt n ∧ toInt n < 2 ^ 31) ∧ (toInt n).toNat ≤ buf.length := by omega
  rw [getData, dif_pos hcond]
  exact ⟨_, _, rfl⟩

lemma getData_of_lt {n : ℤ} (h : (buf.length : ℤ) < toInt n) :
    getData (toInt n) buf = .error .outOfBounds := by
  have hcond : ¬((0 < toInt n ∧ toInt n < 2 ^ 31) ∧ (toInt n).toNat ≤ buf.length) := by omega
  rw [getData, dif_neg hcond]

/-! ### What the decoder makes of the fields -/

variable {cType : Int16}

/-- A CT_VALUE with a DATASIZE that `data_create` refuses. -/
def RefusedValue (cType : Int16) (buf : List UInt8) : Prop :=
  cType = ctValue ∧ 4 ≤ buf.length ∧ countAt buf ≤ 0

/-- A CT_ENTRY with a DATASIZE that `data_create` refuses. -/
def RefusedEntry (cType : Int16) (buf : List UInt8) : Prop :=
  cType = ctEntry ∧ KeyInside buf ∧ 4 ≤ (buf.drop (2 + keySizeAt buf)).length ∧
    countAt (buf.drop (2 + keySizeAt buf)) ≤ 0

/-- The four ends of the walk over the fields, and the bytes that lead to each. -/
inductive ContentResult (cType : Int16) (buf : List UInt8) : Except Fault (Option Content) → Prop
  | outside (h : ¬ContentInside cType buf) (hv : ¬RefusedValue cType buf)
      (he : ¬RefusedEntry cType buf) : ContentResult cType buf (.error .outOfBounds)
  | refusedValue (h : RefusedValue cType buf) : ContentResult cType buf (.ok none)
  | refusedEntry (h : RefusedEntry cType buf) : ContentResult cType buf (.error .uninitialised)
  | content (content : Content) (h : ContentInside cType buf) (hv : ¬RefusedValue cType buf)
      (he : ¬RefusedEntry cType buf) : ContentResult cType buf (.ok (some content))

lemma not_refusedValue (h : cType ≠ ctValue) : ¬RefusedValue cType buf := fun hv => h hv.1

lemma not_refusedEntry (h : cType ≠ ctEntry) : ¬RefusedEntry cType buf := fun he => h he.1

lemma contentInside_ctResult : ContentInside ctResult buf ↔ 4 ≤ buf.length := by
  have h : ctResult ≠ ctKey ∧ ctResult ≠ ctValue ∧ ctResult ≠ ctEntry ∧ ctResult ≠ ctKeys := by
    decide
  simp [ContentInside, h]

lemma contentInside_ctKey : ContentInside ctKey buf ↔ KeyInside buf := by
  have h : ctKey ≠ ctResult ∧ ctKey ≠ ctValue ∧ ctKey ≠ ctEntry ∧ ctKey ≠ ctKeys := by decide
  simp [ContentInside, h]

lemma contentInside_ctValue : ContentInside ctValue buf ↔ DataInside buf := by
  have h : ctValue ≠ ctResult ∧ ctValue ≠ ctKey ∧ ctValue ≠ ctEntry ∧ ctValue ≠ ctKeys := by
    decide
  simp [ContentInside, h]

lemma contentInside_ctEntry (buf : List UInt8) :
    ContentInside ctEntry buf ↔
      KeyInside buf ∧ DataInside (buf.drop (2 + keySizeAt buf)) := by
  have h : ctEntry ≠ ctResult ∧ ctEntry ≠ ctKey ∧ ctEntry ≠ ctValue ∧ ctEntry ≠ ctKeys := by
    decide
  simp [ContentInside, h]

lemma contentInside_ctKeys (buf : List UInt8) :
    ContentInside ctKeys buf ↔
      4 ≤ buf.length ∧ 0 ≤ countAt buf ∧ KeysInside (countAt buf).toNat (buf.drop 4) := by
  have h : ctKeys ≠ ctResult ∧ ctKeys ≠ ctKey ∧ ctKeys ≠ ctValue ∧ ctKeys ≠ ctEntry := by decide
  simp [ContentInside, h]

/-- The c_types that `valid` lets through. -/
def KnownType (cType : Int16) : Prop :=
  cType = ctEntry ∨ cType = ctKey ∨ cType = ctKeys ∨ cType = ctResult ∨ cType = ctValue

lemma contentResult_ctResult (buf : List UInt8) :
    ContentResult ctResult buf (getContent ctResult buf) := by
  have hv : ¬RefusedValue ctResult buf := not_refusedValue (by decide)
  have he : ¬RefusedEntry ctResult buf := not_refusedEntry (by decide)
  rw [getContent_ctResult]
  by_cases h4 : 4 ≤ buf.length
  · rw [getInt_of_le h4, ok_bind]
    exact .content _ (contentInside_ctResult.mpr h4) hv he
  · rw [getInt_of_lt h4, error_bind]
    exact .outside (fun h => h4 (contentInside_ctResult.mp h)) hv he

lemma contentResult_ctKey (buf : List UInt8) :
    ContentResult ctKey buf (getContent ctKey buf) := by
  have hv : ¬RefusedValue ctKey buf := not_refusedValue (by decide)
  have he : ¬RefusedEntry ctKey buf := not_refusedEntry (by decide)
  rw [getContent_ctKey]
  by_cases hin : KeyInside buf
  · rw [getKey_of_inside hin, ok_bind]
    exact .content _ (contentInside_ctKey.mpr hin) hv he
  · rw [getKey_of_not_inside hin, error_bind]
    exact .outside (fun h => hin (contentInside_ctKey.mp h)) hv he

lemma contentResult_ctValue (buf : List UInt8) :
    ContentResult ctValue buf (getContent ctValue buf) := by
  have he : ¬RefusedEntry ctValue buf := not_refusedEntry (by decide)
  rw [getContent_ctValue]
  by_cases h4 : 4 ≤ buf.length
  · simp only [getInt_of_le h4, ok_bind]
    have hcount : toInt (beValue (buf.take 4)) = countAt buf := rfl
    by_cases hneg : countAt buf ≤ 0
    · rw [hcount, if_pos hneg]
      exact .refusedValue ⟨rfl, h4, hneg⟩
    · have hv : ¬RefusedValue ctValue buf := fun hv => hneg hv.2.2
      rw [hcount, if_neg hneg, ← hcount]
      rw [← hcount] at hneg
      by_cases hle : toInt (beValue (buf.take 4)) ≤ (buf.drop 4).length
      · obtain ⟨d, rest, hd⟩ := getData_of_le (not_le.mp hneg) hle
        rw [hd, ok_bind]
        refine .content _ (contentInside_ctValue.mpr ?_) hv he
        rw [List.length_drop] at hle
        unfold DataInside countAt
        omega
      · rw [getData_of_lt (not_le.mp hle), error_bind]
        refine .outside (fun h => hle ?_) hv he
        have hin := contentInside_ctValue.mp h
        rw [List.length_drop]
        unfold DataInside countAt at hin
        omega
  · rw [getInt_of_lt h4, error_bind]
    exact .outside (fun h => h4 (contentInside_ctValue.mp h).1) (fun hv => h4 hv.2.1) he

lemma contentResult_ctEntry (buf : List UInt8) :
    ContentResult ctEntry buf (getContent ctEntry buf) := by
  have hv : ¬RefusedValue ctEntry buf := not_refusedValue (by decide)
  rw [getContent_ctEntry]
  by_cases hkey : KeyInside buf
  · have hinside := contentInside_ctEntry buf
    have hrefused : RefusedEntry ctEntry buf ↔ 4 ≤ (buf.drop (2 + keySizeAt buf)).length ∧
        countAt (buf.drop (2 + keySizeAt buf)) ≤ 0 :=
      ⟨fun h => h.2.2, fun h => ⟨rfl, hkey, h⟩⟩
    simp only [getKey_of_inside hkey, ok_bind]
    generalize buf.drop (2 + keySizeAt buf) = rest at hinside hrefused
    rw [and_iff_right hkey] at hinside
    by_cases h4 : 4 ≤ rest.length
    · simp only [getInt_of_le h4, ok_bind]
      have hcount : toInt (beValue (rest.take 4)) = countAt rest := rfl
      by_cases hneg : countAt rest ≤ 0
      · rw [hcount, if_pos hneg, throw_eq_error, error_bind]
        exact .refusedEntry (hrefused.mpr ⟨h4, hneg⟩)
      · have he : ¬RefusedEntry ctEntry buf := fun he => hneg (hrefused.mp he).2
        rw [hcount, if_neg hneg, ← hcount]
        rw [← hcount] at hneg
        by_cases hle : toInt (beValue (rest.take 4)) ≤ (rest.drop 4).length
        · obtain ⟨d, rest', hd⟩ := getData_of_le (not_le.mp hneg) hle
          rw [hd]
          refine .content _ (hinside.mpr ?_) hv he
          rw [List.length_drop] at hle
          unfold DataInside countAt
          omega
        · rw [getData_of_lt (not_le.mp hle)]
          refine .outside (fun h => hle ?_) hv he
          have hin := hinside.mp h
          rw [List.length_drop]
          unfold DataInside countAt at hin
          omega
    · simp only [getInt_of_lt h4, error_bind]
      exact .outside (fun h => h4 (hinside.mp h).1) hv (fun he => h4 (hrefused.mp he).1)
  · rw [getKey_of_not_inside hkey, error_bind]
    exact .outside (fun h => hkey ((contentInside_ctEntry buf).mp h).1) hv (fun he => hkey he.2.1)

lemma contentResult_ctKeys (buf : List UInt8) :
    ContentResult ctKeys buf (getContent ctKeys buf) := by
  have hv : ¬RefusedValue ctKeys buf := not_refusedValue (by decide)
  have he : ¬RefusedEntry ctKeys buf := not_refusedEntry (by decide)
  have hinside := contentInside_ctKeys buf
  have hcount : countAt buf = toInt (beValue (buf.take 4)) := by rw [countAt]
  rw [getContent_ctKeys]
  by_cases h4 : 4 ≤ buf.length
  · simp only [getInt_of_le h4, ok_bind, ← hcount]
    generalize countAt buf = n at hinside
    by_cases hneg : n < 0
    · rw [if_pos hneg, throw_eq_error, error_bind]
      exact .outside (fun h => absurd (hinside.mp h).2.1 (not_le.mpr hneg)) hv he
    · rw [if_neg hneg]
      by_cases hkeys : KeysInside n.toNat (buf.drop 4)
      · obtain ⟨ks, rest, hks⟩ := getKeys_of_inside hkeys
        rw [hks, ok_bind]
        exact .content _ (hinside.mpr ⟨h4, not_lt.mp hneg, hkeys⟩) hv he
      · rw [getKeys_of_not_inside hkeys, error_bind]
        exact .outside (fun h => hkeys (hinside.mp h).2.2) hv he
  · rw [getInt_of_lt h4, error_bind]
    exact .outside (fun h => h4 (hinside.mp h).1) hv he

/-- The decoder's switch, as a function of the bytes that its cases look at. -/
theorem contentResult_of_known (h : KnownType cType) (buf : List UInt8) :
    ContentResult cType buf (getContent cType buf) := by
  rcases h with rfl | rfl | rfl | rfl | rfl
  · exact contentResult_ctEntry buf
  · exact contentResult_ctKey buf
  · exact contentResult_ctKeys buf
  · exact contentResult_ctResult buf
  · exact contentResult_ctValue buf

/-! ### The whole buffer -/

/-- The decoder's verdict on the bytes after the header. -/
def ContentReadsInside (cType : Int16) (buf : List UInt8) : Prop :=
  getContent cType buf ≠ .error .outOfBounds ∧
    (¬ContentInside cType buf → getContent cType buf = .ok none)

lemma contentReadsInside_iff (h : KnownType cType) :
    ContentReadsInside cType buf ↔
      ContentInside cType buf ∨ cType = ctValue ∧ 4 ≤ buf.length ∧ countAt buf < 0 := by
  have hresult := contentResult_of_known h buf
  unfold ContentReadsInside
  generalize getContent cType buf = result at hresult
  cases hresult with
  | outside hout hv he =>
    have hnot : ¬(cType = ctValue ∧ 4 ≤ buf.length ∧ countAt buf < 0) :=
      fun hneg => hv ⟨hneg.1, hneg.2.1, hneg.2.2.le⟩
    simp [hout, hnot]
  | refusedValue hv =>
    -- DATASIZE 0 lies in the buffer
    have hin : ContentInside cType buf ∨ cType = ctValue ∧ 4 ≤ buf.length ∧ countAt buf < 0 := by
      obtain ⟨rfl, h4, hcount⟩ := hv
      by_cases hneg : countAt buf < 0
      · exact Or.inr ⟨rfl, h4, hneg⟩
      · refine Or.inl (contentInside_ctValue.mpr ?_)
        unfold DataInside
        omega
    exact iff_of_true ⟨by simp, fun _ => rfl⟩ hin
  | refusedEntry he =>
    have hne : cType ≠ ctValue := by
      rw [he.1]
      decide
    simp [hne]
  | content content hin hv he => simp [hin]

lemma valid_of_known {opcode cType : Int16} (h : KnownType cType) : valid opcode cType = 0 := by
  have hst : ocStatus ≠ 0 := by decide
  rw [valid, if_pos ⟨Or.inl hst, h⟩]

lemma valid_of_unknown {opcode cType : Int16} (h : ¬KnownType cType) :
    valid opcode cType ≠ 0 := by
  rw [valid, if_neg (fun hv => h hv.2)]
  decide

lemma contentInside_of_unknown {cType : Int16} (h : ¬KnownType cType) :
    ContentInside cType buf := by
  simp only [KnownType, not_or] at h
  exact ⟨fun hc => absurd hc h.2.2.2.1, fun hc => absurd hc h.2.1, fun hc => absurd hc h.2.2.2.2,
    fun hc => absurd hc h.1, fun hc => absurd hc h.2.2.1⟩

lemma bufferToMessage_of_lt (h : ¬4 ≤ buf.length) :
    bufferToMessage buf buf.length = .error .outOfBounds := by
  have hneg : ¬(buf.length : ℤ) < 0 := by omega
  rw [bufferToMessage, if_neg hneg]
  by_cases h2 : 2 ≤ buf.length
  · have h2' : ¬2 ≤ (buf.drop 2).length := by
      rw [List.length_drop]
      omega
    simp only [getShort_of_le h2, ok_bind, getShort_of_lt h2', error_bind]
  · rw [getShort_of_lt h2, error_bind]

lemma bufferToMessage_of_le (h : 4 ≤ buf.length) :
    bufferToMessage buf buf.length =
      if valid (Int16.ofNat (beValue (buf.take 2))) (cTypeAt buf) ≠ 0 then .ok none
      else getContent (cTypeAt buf) (buf.drop 4) >>= fun content =>
        .ok (content.map (MessageT.mk (Int16.ofNat (beValue (buf.take 2))))) := by
  have hneg : ¬(buf.length : ℤ) < 0 := by omega
  have h2 : 2 ≤ buf.length := by omega
  have h2' : 2 ≤ (buf.drop 2).length := by
    rw [List.length_drop]
    omega
  rw [bufferToMessage, if_neg hneg]
  simp only [getShort_of_le h2, getShort_of_le h2', ok_bind, pure_eq_ok, List.drop_drop]
  rw [← cTypeAt]
  by_cases hvalid : valid (Int16.ofNat (beValue (buf.take 2))) (cTypeAt buf) ≠ 0
  · rw [if_pos hvalid, if_pos hvalid]
  · rw [if_neg hvalid, if_neg hvalid]
    congr 1
    funext content
    cases content <;> rfl

/-- `msg_size` is looked at for its sign only. -/
lemma bufferToMessage_of_nonneg {n : ℤ} (hn : 0 ≤ n) :
    bufferToMessage buf n = bufferToMessage buf buf.length := by
  have hlen : ¬(buf.length : ℤ) < 0 := by omega
  rw [bufferToMessage, if_neg (not_lt.mpr hn), bufferToMessage, if_neg hlen]

/-- A `c_type` that `valid` does not know, or a DATASIZE that `data_create` refuses. -/
def Refused (buf : List UInt8) : Prop :=
  4 ≤ buf.length ∧ (¬KnownType (cTypeAt buf) ∨ RefusedValue (cTypeAt buf) (buf.drop 4))

/-- The exact bytes that the decoder answers with `NULL`. -/
theorem bufferToMessage_none_iff : bufferToMessage buf buf.length = .ok none ↔ Refused buf := by
  by_cases h4 : 4 ≤ buf.length
  · rw [bufferToMessage_of_le h4, Refused, and_iff_right h4]
    by_cases hknown : KnownType (cTypeAt buf)
    · have hresult := contentResult_of_known hknown (buf.drop 4)
      rw [valid_of_known hknown, if_neg (by simp), or_iff_right (not_not.mpr hknown)]
      generalize getContent (cTypeAt buf) (buf.drop 4) = result at hresult
      cases hresult with
      | outside hout hv he => simp [error_bind, hv]
      | refusedValue hv => simp [ok_bind, hv]
      | refusedEntry he =>
        have hv : ¬RefusedValue (cTypeAt buf) (buf.drop 4) := by
          rw [he.1]
          exact not_refusedValue (by decide)
        simp [error_bind, hv]
      | content content hin hv he => simp [ok_bind, hv]
    · rw [if_pos (valid_of_unknown hknown)]
      exact iff_of_true rfl (.inl hknown)
  · rw [bufferToMessage_of_lt h4, Refused]
    simp [h4]

/-- The exact buffers on which the decoder keeps to `msg_size`. -/
theorem readsInside_iff (buf : List UInt8) :
    ReadsInside buf ↔ FieldsInside buf ∨ NegativeValueSize buf := by
  by_cases h4 : 4 ≤ buf.length
  · have hlen : (buf.drop 4).length = buf.length - 4 := List.length_drop
    by_cases hknown : KnownType (cTypeAt buf)
    · have hstep := bufferToMessage_of_le h4
      rw [valid_of_known hknown, if_neg (by simp)] at hstep
      have hcontent : ReadsInside buf ↔ ContentReadsInside (cTypeAt buf) (buf.drop 4) := by
        unfold ReadsInside ContentReadsInside FieldsInside
        rw [hstep, and_iff_right h4]
        cases getContent (cTypeAt buf) (buf.drop 4) with
        | error e => simp [error_bind]
        | ok content => cases content <;> simp [ok_bind]
      rw [hcontent, contentReadsInside_iff hknown, FieldsInside, and_iff_right h4,
        NegativeValueSize]
      have h8 : 8 ≤ buf.length ↔ 4 ≤ (buf.drop 4).length := by omega
      rw [h8, and_left_comm]
    · have hstep := bufferToMessage_of_le h4
      rw [if_pos (valid_of_unknown hknown)] at hstep
      have hin : FieldsInside buf := ⟨h4, contentInside_of_unknown hknown⟩
      exact iff_of_true ⟨by simp [hstep], fun _ => hstep⟩ (Or.inl hin)
  · have hstep := bufferToMessage_of_lt h4
    apply iff_of_false (fun h => h.1 hstep)
    unfold FieldsInside NegativeValueSize
    omega

/-- A CT_KEY buffer that announces 65535 bytes and ends there. -/
theorem not_readsInside_keySize : ¬∀ buf : List UInt8, ReadsInside buf := by
  intro h
  exact (h [0, 20, 0, 30, 255, 255]).1 rfl

/-! ### Decoded messages can be encoded -/

lemma getKey_ok {key : CString} {rest : List UInt8} (h : getKey buf = .ok (key, rest)) :
    strlen key ≤ 65535 ∧ 2 + strlen key + rest.length ≤ buf.length := by
  by_cases hin : KeyInside buf
  · rw [getKey_of_inside hin] at h
    simp only [Except.ok.injEq, Prod.mk.injEq] at h
    have hsize : keySizeAt buf < 256 ^ (buf.take 2).length := beValue_lt (buf.take 2)
    have htake : (buf.take 2).length = 2 := by
      rw [List.length_take]
      have := hin.1
      omega
    have hlen := strlen_ofBytes_le ((buf.drop 2).take (keySizeAt buf))
    have hkey := hin.2
    rw [htake] at hsize
    rw [List.length_take] at hlen
    rw [← h.1, ← h.2, List.length_drop]
    omega
  · rw [getKey_of_not_inside hin] at h
    cases h

lemma getInt_ok {n : ℕ} {rest : List UInt8} (h : getInt buf = .ok (n, rest)) :
    4 + rest.length = buf.length := by
  by_cases h4 : 4 ≤ buf.length
  · rw [getInt_of_le h4] at h
    simp only [Except.ok.injEq, Prod.mk.injEq] at h
    rw [← h.2, List.length_drop]
    omega
  · rw [getInt_of_lt h4] at h
    cases h

lemma getData_ok {n : ℤ} {data : DataT} {rest : List UInt8} (h : getData n buf = .ok (data, rest)) :
    data.datasize + rest.length = buf.length := by
  unfold getData at h
  split at h
  · simp only [Except.ok.injEq, Prod.mk.injEq] at h
    rw [← h.1, ← h.2, DataT.datasize, List.length_take, List.length_drop]
    omega
  · cases h

lemma getKeys_ok {n : ℕ} {ks : List CString} {rest : List UInt8}
    (h : getKeys n buf = .ok (ks, rest)) :
    (∀ key ∈ ks, strlen key ≤ 65535) ∧ (ks.flatMap keyField).length + rest.length ≤ buf.length := by
  induction n generalizing buf ks rest with
  | zero =>
    simp only [getKeys, Except.ok.injEq, Prod.mk.injEq] at h
    rw [← h.1, ← h.2]
    simp
  | succ n ih =>
    obtain ⟨⟨key, rest₁⟩, hkey, h⟩ := bind_eq_ok h
    obtain ⟨⟨keys, rest₂⟩, hkeys, h⟩ := bind_eq_ok h
    simp only [pure_eq_ok, Except.ok.injEq, Prod.mk.injEq] at h
    obtain ⟨hlen, hsize⟩ := getKey_ok hkey
    obtain ⟨hlens, hsizes⟩ := ih hkeys
    rw [← h.1, ← h.2]
    refine ⟨?_, ?_⟩
    · intro k hk
      rcases List.mem_cons.mp hk with rfl | hk
      · exact hlen
      · exact hlens k hk
    · rw [List.flatMap_cons, List.length_append, length_keyField]
      omega

lemma getContent_value_ok {content : Content} (h : getContent ctValue buf = .ok (some content)) :
    ∃ data, content = .data data ∧ 4 + data.datasize ≤ buf.length := by
  rw [getContent_ctValue] at h
  obtain ⟨⟨n, rest⟩, hn, h⟩ := bind_eq_ok h
  by_cases hneg : toInt n ≤ 0
  · simp only [if_pos hneg, pure_eq_ok, Except.ok.injEq] at h
    cases h
  · simp only [if_neg hneg] at h
    obtain ⟨⟨data, rest'⟩, hdata, h⟩ := bind_eq_ok h
    simp only [pure_eq_ok, Except.ok.injEq, Option.some.injEq] at h
    have hlen := getInt_ok hn
    have hsize := getData_ok hdata
    exact ⟨data, h.symm, by omega⟩

lemma getContent_entry_ok {content : Content} (h : getContent ctEntry buf = .ok (some content)) :
    ∃ entry, content = .entry entry ∧ strlen entry.key ≤ 65535 ∧
      2 + strlen entry.key + (4 + entry.value.datasize) ≤ buf.length := by
  rw [getContent_ctEntry] at h
  obtain ⟨⟨key, rest⟩, hkey, h⟩ := bind_eq_ok h
  obtain ⟨⟨n, rest'⟩, hn, h⟩ := bind_eq_ok h
  by_cases hneg : toInt n ≤ 0
  · simp only [if_pos hneg, throw_eq_error, error_bind] at h
    cases h
  · simp only [if_neg hneg] at h
    obtain ⟨⟨data, rest''⟩, hdata, h⟩ := bind_eq_ok h
    simp only [pure_eq_ok, Except.ok.injEq, Option.some.injEq] at h
    obtain ⟨hshort, hsize⟩ := getKey_ok hkey
    have hlen := getInt_ok hn
    have hdatasize := getData_ok hdata
    exact ⟨⟨key, data⟩, h.symm, hshort, by simp only; omega⟩

lemma getContent_keys_ok {content : Content} (h : getContent ctKeys buf = .ok (some content)) :
    ∃ ks, content = .keys ks ∧ (∀ key ∈ ks, strlen key ≤ 65535) ∧
      4 + (ks.flatMap keyField).length ≤ buf.length := by
  rw [getContent_ctKeys] at h
  obtain ⟨⟨n, rest⟩, hn, h⟩ := bind_eq_ok h
  by_cases hneg : toInt n < 0
  · simp only [if_pos hneg, throw_eq_error, error_bind] at h
    cases h
  · simp only [if_neg hneg] at h
    obtain ⟨⟨ks, rest'⟩, hks, h⟩ := bind_eq_ok h
    simp only [pure_eq_ok, Except.ok.injEq, Option.some.injEq] at h
    have hlen := getInt_ok hn
    obtain ⟨hshort, hsize⟩ := getKeys_ok hks
    exact ⟨ks, h.symm, hshort, by omega⟩

lemma getContent_of_unknown {cType : Int16} (h : ¬KnownType cType) :
    getContent cType buf = .ok none := by
  simp only [KnownType, not_or] at h
  rw [getContent, if_neg h.2.2.2.1, if_neg h.2.1, if_neg h.2.2.2.2, if_neg h.1, if_neg h.2.2.1]
  rfl

/-- The fields of a decoded content are no longer than the bytes it came from. -/
lemma getContent_ok {cType : Int16} {content : Content}
    (h : getContent cType buf = .ok (some content)) :
    (∀ key ∈ content.strings, strlen key ≤ 65535) ∧
      (contentFormat content).length ≤ buf.length := by
  by_cases hknown : KnownType cType
  · rcases hknown with rfl | rfl | rfl | rfl | rfl
    · obtain ⟨entry, rfl, hshort, hsize⟩ := getContent_entry_ok h
      simp only [Content.strings, contentFormat, List.mem_singleton, forall_eq,
        List.length_append, length_keyField, length_dataField]
      exact ⟨hshort, hsize⟩
    · rw [getContent_ctKey] at h
      obtain ⟨⟨key, rest⟩, hkey, h⟩ := bind_eq_ok h
      simp only [pure_eq_ok, Except.ok.injEq, Option.some.injEq] at h
      obtain ⟨hshort, hsize⟩ := getKey_ok hkey
      rw [← h]
      simp only [Content.strings, contentFormat, List.mem_singleton, forall_eq, length_keyField]
      exact ⟨hshort, by omega⟩
    · obtain ⟨ks, rfl, hshort, hsize⟩ := getContent_keys_ok h
      simp only [Content.strings, contentFormat, List.length_append, length_beBytes]
      exact ⟨hshort, hsize⟩
    · rw [getContent_ctResult] at h
      obtain ⟨⟨n, rest⟩, hn, h⟩ := bind_eq_ok h
      simp only [pure_eq_ok, Except.ok.injEq, Option.some.injEq] at h
      have hlen := getInt_ok hn
      rw [← h]
      simp only [Content.strings, contentFormat, length_beBytes, List.not_mem_nil, false_imp_iff,
        implies_true, true_and]
      omega
    · obtain ⟨data, rfl, hsize⟩ := getContent_value_ok h
      simp only [Content.strings, contentFormat, length_dataField, List.not_mem_nil,
        false_imp_iff, implies_true, true_and]
      exact hsize
  · rw [getContent_of_unknown hknown] at h
    cases h

/-- What was decoded from a buffer fits the wire format again. -/
theorem encodable_of_decoded {msg : MessageT} (hlen : buf.length < 2 ^ 31)
    (h : bufferToMessage buf buf.length = .ok (some msg)) : msg.Encodable := by
  have h4 : 4 ≤ buf.length := by
    by_contra hlt
    rw [bufferToMessage_of_lt hlt] at h
    cases h
  rw [bufferToMessage_of_le h4] at h
  by_cases hvalid : valid (Int16.ofNat (beValue (buf.take 2))) (cTypeAt buf) ≠ 0
  · rw [if_pos hvalid] at h
    cases h
  · rw [if_neg hvalid] at h
    obtain ⟨content, hcontent, h⟩ := bind_eq_ok h
    cases content with
    | none => cases h
    | some content =>
      simp only [Option.map_some, Except.ok.injEq, Option.some.injEq] at h
      obtain ⟨hkeys, hsize⟩ := getContent_ok hcontent
      rw [List.length_drop] at hsize
      rw [← h]
      refine ⟨hkeys, ?_⟩
      simp only [wireFormat, List.length_append, length_beBytes]
      omega

end RemoteTable
