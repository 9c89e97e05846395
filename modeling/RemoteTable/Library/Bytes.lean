import Mathlib.Algebra.Order.Group.Nat
import Mathlib.Tactic.Ring
import Mathlib.Tactic.NormNum

/-!
# Byte orders

A number of `w` bytes in memory order, least significant byte first, and the byte swap
that turns it into network order.
-/

namespace Bytes

/-- The `w` low bytes of `n`, least significant first. -/
def leBytes : ℕ → ℕ → List UInt8
  | 0, _ => []
  | w + 1, n => UInt8.ofNat (n % 256) :: leBytes w (n / 256)

/-- The number that bytes stand for, least significant first. -/
def leValue : List UInt8 → ℕ
  | [] => 0
  | b :: bs => b.toNat + 256 * leValue bs

/-- The same with the most significant byte first. -/
def beBytes (w n : ℕ) : List UInt8 := (leBytes w n).reverse

def beValue (bs : List UInt8) : ℕ := leValue bs.reverse

/-- Reversal of the `w` bytes of a number. -/
def byteSwap (w n : ℕ) : ℕ := leValue (leBytes w n).reverse

@[simp] lemma length_leBytes (w n : ℕ) : (leBytes w n).length = w := by
  induction w generalizing n with
  | zero => rfl
  | succ w ih => simp only [leBytes, List.length_cons, ih]

@[simp] lemma length_beBytes (w n : ℕ) : (beBytes w n).length = w := by
  rw [beBytes, List.length_reverse, length_leBytes]

lemma leValue_leBytes (w n : ℕ) : leValue (leBytes w n) = n % 256 ^ w := by
  induction w generalizing n with
  | zero => simp only [leBytes, leValue, pow_zero, Nat.mod_one]
  | succ w ih =>
    have hbyte : (UInt8.ofNat (n % 256)).toNat = n % 256 := by
      rw [UInt8.toNat_ofNat', Nat.mod_eq_of_lt (by omega)]
    rw [leBytes, leValue, ih, hbyte, pow_succ', Nat.mod_mul]

lemma leValue_lt (bs : List UInt8) : leValue bs < 256 ^ bs.length := by
  induction bs with
  | nil => simp only [leValue, List.length_nil, pow_zero, Nat.lt_one_iff]
  | cons b bs ih =>
    have hb : b.toNat < 256 := b.toNat_lt
    rw [leValue, List.length_cons, pow_succ]
    omega

lemma leBytes_leValue (bs : List UInt8) : leBytes bs.length (leValue bs) = bs := by
  induction bs with
  | nil => rfl
  | cons b bs ih =>
    have hb : b.toNat < 256 := b.toNat_lt
    have hmod : (b.toNat + 256 * leValue bs) % 256 = b.toNat := by omega
    have hdiv : (b.toNat + 256 * leValue bs) / 256 = leValue bs := by omega
    rw [List.length_cons, leBytes, leValue, hmod, hdiv, ih, UInt8.ofNat_toNat]

lemma leBytes_byteSwap (w n : ℕ) : leBytes w (byteSwap w n) = beBytes w n := by
  have h := leBytes_leValue (leBytes w n).reverse
  rw [List.length_reverse, length_leBytes] at h
  exact h

lemma byteSwap_leValue {w : ℕ} {bs : List UInt8} (h : bs.length = w) :
    byteSwap w (leValue bs) = beValue bs := by
  rw [byteSwap, ← h, leBytes_leValue, beValue]

lemma beValue_beBytes (w n : ℕ) : beValue (beBytes w n) = n % 256 ^ w := by
  rw [beValue, beBytes, List.reverse_reverse, leValue_leBytes]

lemma beBytes_beValue {w : ℕ} {bs : List UInt8} (h : bs.length = w) :
    beBytes w (beValue bs) = bs := by
  have h' := leBytes_leValue bs.reverse
  rw [List.length_reverse, h] at h'
  rw [beBytes, beValue, h', List.reverse_reverse]

lemma beValue_lt (bs : List UInt8) : beValue bs < 256 ^ bs.length := by
  have h := leValue_lt bs.reverse
  rwa [List.length_reverse] at h

end Bytes
