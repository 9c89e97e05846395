import Mathlib.Data.Nat.Digits.Lemmas
import Mathlib.Data.List.TakeWhile

/-!
# Decimal numerals

Texts of decimal digits, the numbers they stand for, and the conversions of the C library that
read them from strings and write them.
-/

namespace Decimal

def isDigit (c : UInt8) : Bool := 48 ≤ c.toNat ∧ c.toNat ≤ 57

/-- The number that digits stand for, most significant first. -/
def value (ds : List UInt8) : ℕ := ds.foldl (fun n c => 10 * n + (c.toNat - 48)) 0

/-- A text of one or more digits for a number up to `limit`. -/
structure Numeral (limit : ℕ) (ds : List UInt8) : Prop where
  nonempty : ds ≠ []
  digits : ∀ c ∈ ds, isDigit c = true
  le : value ds ≤ limit

/-- The digits of a number without leading zeros, as `%d` prints them. -/
def digits (n : ℕ) : List UInt8 :=
  if n = 0 then [48] else (Nat.digits 10 n).reverse.map (fun d => UInt8.ofNat (48 + d))

/-- `isspace` in the C locale. -/
def isSpace (c : UInt8) : Bool := c = 32 ∨ 9 ≤ c.toNat ∧ c.toNat ≤ 13

/-- The value of `strtol` in base ten, of 64 bits, converted to an `int` of 32 bits. -/
def atoi (text : List UInt8) : ℤ :=
  let (negative, ds) := match text.dropWhile isSpace with
    | [] => (false, [])
    | c :: cs => if c = 45 then (true, cs) else if c = 43 then (false, cs) else (false, c :: cs)
  let n : ℤ := value (ds.takeWhile isDigit)
  Int.bmod (if negative then max (-n) (-2 ^ 63) else min n (2 ^ 63 - 1)) (2 ^ 32)

/-! ### Numerals are read back -/

variable {ds : List UInt8} {limit n : ℕ}

lemma isDigit_ofNat {d : ℕ} (hd : d < 10) : isDigit (UInt8.ofNat (48 + d)) = true := by
  have htoNat : (UInt8.ofNat (48 + d)).toNat = 48 + d := by
    rw [UInt8.toNat_ofNat', Nat.mod_eq_of_lt (by omega)]
  simp only [isDigit, htoNat, decide_eq_true_eq]
  omega

theorem atoi_numeral (h : Numeral limit ds) (hlimit : limit < 2 ^ 31) : atoi ds = value ds := by
  obtain ⟨c, cs, rfl⟩ := List.exists_cons_of_ne_nil h.nonempty
  have hc := h.digits c List.mem_cons_self
  have htake : (c :: cs).takeWhile isDigit = c :: cs := List.takeWhile_eq_self_iff.mpr h.digits
  have hle := h.le
  simp only [isDigit, decide_eq_true_eq] at hc
  have hspace : isSpace c = false := by
    have hne : c ≠ 32 := by
      rintro rfl
      exact absurd hc (by decide)
    simp only [isSpace, hne, false_or, decide_eq_false_iff_not]
    omega
  have hminus : c ≠ 45 := by
    rintro rfl
    exact absurd hc (by decide)
  have hplus : c ≠ 43 := by
    rintro rfl
    exact absurd hc (by decide)
  simp only [atoi, List.dropWhile_cons, hspace, Bool.false_eq_true, if_false, if_neg hminus,
    if_neg hplus, htake]
  rw [min_eq_left (by omega), Int.bmod_eq_of_le (by omega) (by omega)]

lemma value_append (ds : List UInt8) (c : UInt8) :
    value (ds ++ [c]) = 10 * value ds + (c.toNat - 48) := by
  rw [value, List.foldl_append]
  rfl

lemma value_reverse_map (l : List ℕ) (hl : ∀ d ∈ l, d < 10) :
    value (l.reverse.map (fun d => UInt8.ofNat (48 + d))) = Nat.ofDigits 10 l := by
  induction l with
  | nil => rfl
  | cons d l ih =>
    have hd := hl d List.mem_cons_self
    have htoNat : (UInt8.ofNat (48 + d)).toNat = 48 + d := by
      rw [UInt8.toNat_ofNat', Nat.mod_eq_of_lt (by omega)]
    rw [List.reverse_cons, List.map_append, List.map_singleton, value_append,
      ih (fun x hx => hl x (List.mem_cons_of_mem d hx)), htoNat, Nat.ofDigits_cons]
    omega

theorem value_digits (n : ℕ) : value (digits n) = n := by
  unfold digits
  by_cases hn : n = 0
  · rw [if_pos hn, hn]
    rfl
  · rw [if_neg hn, value_reverse_map _ (fun d hd => Nat.digits_lt_base (by decide) hd),
      Nat.ofDigits_digits]

theorem digits_numeral (h : n ≤ limit) : Numeral limit (digits n) := by
  refine ⟨?_, ?_, (value_digits n).symm ▸ h⟩
  · unfold digits
    by_cases hn : n = 0
    · simp [hn]
    · rw [if_neg hn]
      simp [Nat.digits_ne_nil_iff_ne_zero.mpr hn]
  · unfold digits
    by_cases hn : n = 0
    · simp [hn, isDigit]
    · rw [if_neg hn]
      intro c hc
      obtain ⟨d, hd, rfl⟩ := List.mem_map.mp hc
      exact isDigit_ofNat (Nat.digits_lt_base (by decide) (List.mem_reverse.mp hd))

/-- The first digit of a number with several digits is no zero. -/
lemma head_digits_ne (h : 1 < (digits n).length) : (digits n).head? ≠ some 48 := by
  by_cases hn : n = 0
  · rw [digits, if_pos hn] at h
    exact absurd h (by decide)
  · have hne : Nat.digits 10 n ≠ [] := Nat.digits_ne_nil_iff_ne_zero.mpr hn
    have hlast := Nat.getLast_digit_ne_zero 10 hn
    have hlt : (Nat.digits 10 n).getLast hne < 10 :=
      Nat.digits_lt_base (by decide) (List.getLast_mem hne)
    rw [digits, if_neg hn, List.head?_map, List.head?_reverse, List.getLast?_eq_some_getLast hne]
    intro heq
    have hbyte := congrArg UInt8.toNat (Option.some.inj heq)
    rw [UInt8.toNat_ofNat', Nat.mod_eq_of_lt (by omega)] at hbyte
    exact hlast (by simpa using hbyte)

lemma length_digits_le {k : ℕ} (h : n < 10 ^ (k + 1)) : (digits n).length ≤ k + 1 := by
  unfold digits
  by_cases hn : n = 0
  · simp [hn]
  · rw [if_neg hn, List.length_map, List.length_reverse]
    exact (Nat.digits_length_le_iff (by decide) n).mpr h

end Decimal
