import RemoteTable.TableRefinement

/-!
# Hashes and the bucket array

`key_hash` adds signed characters and reduces the sum with a remainder that keeps its sign.
Which keys have a hash that is an index, and what the calls on a table do with the others.
-/

namespace RemoteTable

/-! ### The bytes that are added -/

/-- All bytes of a key with a length up to five, else the first three and the last three. The
length is what an `int` holds of it. -/
def hashedBytes (key : CString) : List UInt8 :=
  if toInt (strlen key) ≤ 5 then key.bytes.take (toInt (strlen key)).toNat
  else key.bytes.take 3 ++ (key.bytes.drop ((toInt (strlen key)).toNat - 3)).take 3

def byteSum (bs : List UInt8) : ℕ := (bs.map UInt8.toNat).sum

/-- The bytes that a `char` reads as negative. -/
def highBytes (bs : List UInt8) : ℕ := bs.countP (fun b => 128 ≤ b.toNat)

/-- The bytes add up to 256 for each high byte among them, or differ from that by a multiple
of `l`. -/
def BytesOutweigh (bs : List UInt8) (l : ℤ) : Prop :=
  256 * highBytes bs ≤ byteSum bs ∨ l ∣ 256 * highBytes bs - byteSum bs

lemma charValue_eq (c : UInt8) :
    charValue c = c.toNat - 256 * (if 128 ≤ c.toNat then 1 else 0) := by
  unfold charValue
  by_cases hc : c.toNat < 128
  · rw [if_pos hc, if_neg (not_le.mpr hc)]
    omega
  · rw [if_neg hc, if_pos (not_lt.mp hc)]
    omega

/-- A sum of signed characters, read off the unsigned bytes. -/
lemma addChars_eq (h : ℤ) (bs : List UInt8) :
    addChars h bs = h + (byteSum bs - 256 * highBytes bs) := by
  induction bs generalizing h with
  | nil => simp [addChars, byteSum, highBytes]
  | cons b bs ih =>
    have hstep : addChars h (b :: bs) = addChars (h + charValue b) bs := rfl
    have hsum : byteSum (b :: bs) = b.toNat + byteSum bs := by
      rw [byteSum, List.map_cons, List.sum_cons, byteSum]
    have hcount : highBytes (b :: bs) = highBytes bs + if 128 ≤ b.toNat then 1 else 0 := by
      simp only [highBytes, List.countP_cons, decide_eq_true_eq]
    rw [hstep, ih, hsum, hcount, charValue_eq]
    push_cast
    ring

lemma addChars_append (h : ℤ) (as bs : List UInt8) :
    addChars h (as ++ bs) = addChars (addChars h as) bs := by
  rw [addChars, List.foldl_append]
  rfl

lemma keyHash_eq (key : CString) {l : ℤ} (hl : 0 < l) :
    keyHash key l =
      ((byteSum (hashedBytes key) : ℤ) - 256 * highBytes (hashedBytes key)).tmod l := by
  have hcode : (if toInt (strlen key) ≤ 5 then
      addChars 0 (key.bytes.take (toInt (strlen key)).toNat)
      else addChars (addChars 0 (key.bytes.take 3))
        ((key.bytes.drop ((toInt (strlen key)).toNat - 3)).take 3)) =
      (byteSum (hashedBytes key) : ℤ) - 256 * highBytes (hashedBytes key) := by
    rw [← addChars_append, ← zero_add ((byteSum (hashedBytes key) : ℤ) - _), ← addChars_eq,
      hashedBytes]
    split <;> rfl
  rw [keyHash, if_neg (not_le.mpr hl)]
  exact congrArg (fun code => code.tmod l) hcode

/-- A truncated remainder is negative for the negative numbers that leave a remainder. -/
lemma tmod_nonneg_iff (a : ℤ) {l : ℤ} (hl : 0 < l) : 0 ≤ a.tmod l ↔ 0 ≤ a ∨ l ∣ a := by
  by_cases ha : 0 ≤ a
  · exact iff_of_true (Int.tmod_nonneg l ha) (Or.inl ha)
  · have hneg : a.tmod l = -(-a % l) := by
      rw [← Int.tmod_eq_emod_of_nonneg (by omega), Int.neg_tmod, neg_neg]
    have hrem := Int.emod_nonneg (-a) hl.ne'
    rw [hneg, or_iff_right ha, ← Int.dvd_neg, Int.dvd_iff_emod_eq_zero]
    omega

/-- The keys whose hash for `l` rows is an index. -/
theorem keyHash_nonneg_iff (key : CString) {l : ℤ} (hl : 0 < l) :
    0 ≤ keyHash key l ↔ BytesOutweigh (hashedBytes key) l := by
  rw [keyHash_eq key hl, tmod_nonneg_iff _ hl, BytesOutweigh, ← Int.dvd_neg]
  apply or_congr
  · omega
  · rw [neg_sub]

/-- A bucket for each of the `n` rows. -/
structure TableT.HasRows (table : TableT) (n : ℤ) : Prop where
  size : table.size = n
  rows : n = table.buckets.length

/-- The tables that `table_create` and calls with any keys lead to. -/
def TableT.Made (table : TableT) (n : ℤ) : Prop :=
  ∃ created calls returns, tableCreate n = some created ∧
    Machine.run tableCall created calls = .ok (returns, table)

variable {table table' : TableT} {n : ℤ}

lemma setBucket_hasRows (hr : table.HasRows n) (i : ℤ) (list : ListT) (quantity : ℤ) :
    (setBucket table i list quantity).HasRows n :=
  ⟨hr.size, by simpa [setBucket] using hr.rows⟩

lemma tablePut_hasRows (hr : table.HasRows n) {key : CString} {value : DataT} {result : ℤ}
    (h : tablePut table key value = .ok (result, table')) : table'.HasRows n := by
  obtain ⟨found, -, h⟩ := bind_eq_ok h
  by_cases hfound : found ≠ none
  · simp only [if_pos hfound, pure_eq_ok, Except.ok.injEq, Prod.mk.injEq] at h
    exact h.2 ▸ hr
  · simp only [if_neg hfound] at h
    obtain ⟨list, -, h⟩ := bind_eq_ok h
    by_cases hadd : (listAdd list ⟨key, value⟩).1 = 0
    · simp only [if_pos hadd, pure_eq_ok, Except.ok.injEq, Prod.mk.injEq] at h
      exact h.2 ▸ setBucket_hasRows hr _ _ _
    · simp only [if_neg hadd, pure_eq_ok, Except.ok.injEq, Prod.mk.injEq] at h
      exact h.2 ▸ setBucket_hasRows hr _ _ _

lemma tableUpdate_hasRows (hr : table.HasRows n) {key : CString} {value : DataT} {result : ℤ}
    (h : tableUpdate table key value = .ok (result, table')) : table'.HasRows n := by
  obtain ⟨list, -, h⟩ := bind_eq_ok h
  cases hget : listGet list key with
  | none =>
    simp only [hget, pure_eq_ok, Except.ok.injEq, Prod.mk.injEq] at h
    exact h.2 ▸ hr
  | some e =>
    simp only [hget, pure_eq_ok, Except.ok.injEq, Prod.mk.injEq] at h
    exact h.2 ▸ setBucket_hasRows hr _ _ _

lemma tableDel_hasRows (hr : table.HasRows n) {key : CString} {result : ℤ}
    (h : tableDel table key = .ok (result, table')) : table'.HasRows n := by
  obtain ⟨list, -, h⟩ := bind_eq_ok h
  by_cases hrem : (listRemove list key).1 = 0
  · simp only [if_pos hrem, pure_eq_ok, Except.ok.injEq, Prod.mk.injEq] at h
    exact h.2 ▸ setBucket_hasRows hr _ _ _
  · simp only [if_neg hrem, pure_eq_ok, Except.ok.injEq, Prod.mk.injEq] at h
    exact h.2 ▸ setBucket_hasRows hr _ _ _

lemma tableCall_hasRows (hr : table.HasRows n) {call : TableCall} {answer : TableReturn}
    (h : tableCall table call = .ok (answer, table')) : table'.HasRows n := by
  cases call with
  | put key value =>
    obtain ⟨⟨result, table₁⟩, hput, h⟩ := bind_eq_ok h
    simp only [pure_eq_ok, Except.ok.injEq, Prod.mk.injEq] at h
    exact h.2 ▸ tablePut_hasRows hr hput
  | update key value =>
    obtain ⟨⟨result, table₁⟩, hupdate, h⟩ := bind_eq_ok h
    simp only [pure_eq_ok, Except.ok.injEq, Prod.mk.injEq] at h
    exact h.2 ▸ tableUpdate_hasRows hr hupdate
  | get key =>
    obtain ⟨value, -, h⟩ := bind_eq_ok h
    simp only [pure_eq_ok, Except.ok.injEq, Prod.mk.injEq] at h
    exact h.2 ▸ hr
  | del key =>
    obtain ⟨⟨result, table₁⟩, hdel, h⟩ := bind_eq_ok h
    simp only [pure_eq_ok, Except.ok.injEq, Prod.mk.injEq] at h
    exact h.2 ▸ tableDel_hasRows hr hdel
  | size =>
    simp only [tableCall, pure_eq_ok, Except.ok.injEq, Prod.mk.injEq] at h
    exact h.2 ▸ hr

theorem TableT.Made.hasRows (h : table.Made n) : 0 < n ∧ table.HasRows n := by
  obtain ⟨created, calls, returns, hc, hrun⟩ := h
  have hn := pos_of_tableCreate hc
  have hr : created.HasRows n := by
    rw [tableCreate, if_neg (not_le.mpr hn)] at hc
    rw [← Option.some.inj hc]
    refine ⟨rfl, ?_⟩
    rw [List.length_replicate]
    omega
  exact ⟨hn, Machine.run_invariant (fun t => t.HasRows n)
    (fun t i o t' hr h => tableCall_hasRows hr h) hr hrun⟩

/-- `key_hash` gives one of the `n` rows, which the array has. -/
lemma TableT.HasRows.exists_bucketAt (hr : table.HasRows n) (hn : 0 < n) {key : CString}
    (hk : 0 ≤ keyHash key n) : ∃ list, bucketAt table (keyHash key table.size) = .ok list := by
  have hlt := keyHash_lt key hn
  have hrows := hr.rows
  rw [hr.size]
  have hidx : (keyHash key n).toNat < table.buckets.length := by omega
  exact ⟨_, bucketAt_eq_ok.mpr ⟨hk, List.getElem?_eq_getElem hidx⟩⟩

lemma tableGet_ok {key : CString} {list : ListT}
    (hb : bucketAt table (keyHash key table.size) = .ok list) :
    ∃ value, tableGet table key = .ok value := by
  simp only [tableGet, hb, ok_bind]
  cases listGet list key with
  | none => exact ⟨_, rfl⟩
  | some e => exact ⟨_, rfl⟩

lemma tablePut_ok {key : CString} (value : DataT) {list : ListT}
    (hb : bucketAt table (keyHash key table.size) = .ok list) :
    ∃ result, tablePut table key value = .ok result := by
  obtain ⟨found, hget⟩ := tableGet_ok hb
  simp only [tablePut, hget, hb, ok_bind]
  split
  · exact ⟨_, rfl⟩
  · split
    · exact ⟨_, rfl⟩
    · exact ⟨_, rfl⟩

/-- A call whose key has a row does not fault. -/
lemma tableCall_ok {key : CString} {list : ListT}
    (hb : bucketAt table (keyHash key table.size) = .ok list) {call : TableCall}
    (hkey : key ∈ call.keys) : ∃ result, tableCall table call = .ok result := by
  cases call with
  | put key' value =>
    obtain rfl := List.mem_singleton.mp hkey
    obtain ⟨result, h⟩ := tablePut_ok value hb
    exact ⟨_, by simp only [tableCall, h, ok_bind]; rfl⟩
  | update key' value =>
    obtain rfl := List.mem_singleton.mp hkey
    simp only [tableCall, tableUpdate, hb, ok_bind]
    cases listGet list key with
    | none => exact ⟨_, rfl⟩
    | some e => exact ⟨_, rfl⟩
  | get key' =>
    obtain rfl := List.mem_singleton.mp hkey
    obtain ⟨value, h⟩ := tableGet_ok hb
    exact ⟨_, by simp only [tableCall, h, ok_bind]; rfl⟩
  | del key' =>
    obtain rfl := List.mem_singleton.mp hkey
    simp only [tableCall, tableDel, hb, ok_bind]
    split
    · exact ⟨_, rfl⟩
    · exact ⟨_, rfl⟩
  | size => cases hkey

/-- A negative index is followed outside the array. -/
theorem tableCall_of_neg {key : CString} (hk : keyHash key table.size < 0) {call : TableCall}
    (hkey : key ∈ call.keys) : tableCall table call = .error .outOfBounds := by
  have hb : bucketAt table (keyHash key table.size) = .error .outOfBounds := by
    rw [bucketAt, if_pos hk]
  cases call with
  | put key' value =>
    obtain rfl := List.mem_singleton.mp hkey
    simp only [tableCall, tablePut, tableGet, hb, error_bind]
  | update key' value =>
    obtain rfl := List.mem_singleton.mp hkey
    simp only [tableCall, tableUpdate, hb, error_bind]
  | get key' =>
    obtain rfl := List.mem_singleton.mp hkey
    simp only [tableCall, tableGet, hb, error_bind]
  | del key' =>
    obtain rfl := List.mem_singleton.mp hkey
    simp only [tableCall, tableDel, hb, error_bind]
  | size => cases hkey

/-- The hash for `l` rows is a row, and no call with the key leaves the array of a table of
`l` rows. -/
structure HashInRange (key : CString) (l : ℤ) : Prop where
  range : 0 ≤ keyHash key l ∧ keyHash key l < l
  inside : ∀ table call, table.Made l → key ∈ call.keys →
    tableCall table call ≠ .error .outOfBounds

/-- The exact keys and row numbers for which the hash is an index. -/
theorem hashInRange_iff (key : CString) {l : ℤ} (hl : 0 < l) :
    HashInRange key l ↔ BytesOutweigh (hashedBytes key) l := by
  rw [← keyHash_nonneg_iff key hl]
  constructor
  · intro h
    exact h.range.1
  · intro hk
    refine ⟨⟨hk, keyHash_lt key hl⟩, ?_⟩
    intro table call hmade hkey
    obtain ⟨list, hb⟩ := hmade.hasRows.2.exists_bucketAt hl hk
    obtain ⟨result, hok⟩ := tableCall_ok hb hkey
    simp [hok]

theorem hashInRange_iff_accented :
    HashInRange (.ofBytes [195, 169]) 4 ↔ BytesOutweigh (hashedBytes (.ofBytes [195, 169])) 4 :=
  hashInRange_iff (.ofBytes [195, 169]) (by decide)

/-- The two bytes of an accented letter add up to -148, which leaves -1 for three rows. -/
theorem not_hashInRange_accented : ¬∀ (key : CString) (l : ℤ), 0 < l → HashInRange key l := by
  intro h
  have hneg : keyHash (.ofBytes [195, 169]) 3 = -1 := by decide
  have hrange := (h (.ofBytes [195, 169]) 3 (by decide)).range.1
  rw [hneg] at hrange
  omega

end RemoteTable
