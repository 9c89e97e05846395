import Mathlib.Data.Nat.Notation
import Mathlib.Tactic.Common

/-!
# Transfers in chunks

A stream of units is transferred in chunks. `cut p` says that a chunk ends after the first
`p` units of the stream, so a transfer that starts at `pos` moves the units up to the next
cut or as many as it was asked for.
-/

namespace Chunks

/-- The size of the chunk that starts at `pos` when at most `n` units are asked for. -/
def next (cut : ℕ → Bool) (pos : ℕ) : ℕ → ℕ
  | 0 => 0
  | n + 1 => if cut (pos + 1) then 1 else next cut (pos + 1) n + 1

/-- No chunk ends strictly inside the `n` units from `pos`. -/
def Whole (cut : ℕ → Bool) (pos n : ℕ) : Prop :=
  ∀ k, 0 < k → k < n → cut (pos + k) = false

variable {cut : ℕ → Bool} {pos n : ℕ}

lemma next_le (cut : ℕ → Bool) (pos n : ℕ) : next cut pos n ≤ n := by
  induction n generalizing pos with
  | zero => exact Nat.le_refl 0
  | succ n ih =>
    rw [next]
    have := ih (pos + 1)
    split <;> omega

lemma next_pos (cut : ℕ → Bool) (pos : ℕ) (h : 0 < n) : 0 < next cut pos n := by
  obtain ⟨n, rfl⟩ := Nat.exists_eq_succ_of_ne_zero (Nat.ne_of_gt h)
  rw [next]
  split <;> omega

lemma whole_succ : Whole cut pos (n + 2) ↔ cut (pos + 1) = false ∧ Whole cut (pos + 1) (n + 1) := by
  constructor
  · intro h
    refine ⟨h 1 (by omega) (by omega), ?_⟩
    intro k hk hkn
    have := h (k + 1) (by omega) (by omega)
    rwa [← Nat.add_assoc, Nat.add_right_comm] at this
  · rintro ⟨hcut, h⟩ k hk hkn
    obtain ⟨k, rfl⟩ := Nat.exists_eq_succ_of_ne_zero (Nat.ne_of_gt hk)
    by_cases hzero : k = 0
    · rw [hzero]
      exact hcut
    · have := h k (by omega) (by omega)
      rwa [Nat.add_assoc, Nat.add_comm 1 k] at this

lemma next_succ_eq_iff : next cut pos (n + 1) = n + 1 ↔ Whole cut pos (n + 1) := by
  induction n generalizing pos with
  | zero =>
    apply iff_of_true
    · rw [next, next]
      split <;> rfl
    · intro k hk hk'
      omega
  | succ n ih =>
    rw [next, whole_succ, ← ih]
    by_cases h : cut (pos + 1) = true
    · simp [h]
    · simp [h]

/-- A transfer moves all its units at once exactly when it meets no cut. -/
theorem next_eq_iff (h : 0 < n) : next cut pos n = n ↔ Whole cut pos n := by
  obtain ⟨n, rfl⟩ := Nat.exists_eq_succ_of_ne_zero (Nat.ne_of_gt h)
  exact next_succ_eq_iff

lemma whole_never (pos n : ℕ) : Whole (fun _ => false) pos n := fun _ _ _ => rfl

/-- A chunk has no cut inside. -/
lemma next_whole (cut : ℕ → Bool) (pos n : ℕ) : Whole cut pos (next cut pos n) := by
  induction n generalizing pos with
  | zero =>
    intro k hk hkn
    rw [next] at hkn
    omega
  | succ n ih =>
    intro k hk hkn
    rw [next] at hkn
    by_cases hcut : cut (pos + 1) = true
    · rw [if_pos hcut] at hkn
      omega
    · rw [if_neg hcut] at hkn
      obtain ⟨k, rfl⟩ := Nat.exists_eq_succ_of_ne_zero (Nat.ne_of_gt hk)
      by_cases hzero : k = 0
      · rw [hzero]
        exact Bool.not_eq_true _ ▸ hcut
      · have hrest := ih (pos + 1) k (by omega) (by omega)
        rwa [Nat.add_assoc, Nat.add_comm 1 k] at hrest

/-- A chunk that is smaller than what was asked for ends at a cut. -/
lemma cut_next (pos : ℕ) (h : next cut pos n < n) : cut (pos + next cut pos n) = true := by
  induction n generalizing pos with
  | zero => omega
  | succ n ih =>
    rw [next] at h ⊢
    by_cases hcut : cut (pos + 1) = true
    · rw [if_pos hcut]
      exact hcut
    · rw [if_neg hcut] at h ⊢
      have hrest := ih (pos + 1) (by omega)
      rwa [Nat.add_assoc, Nat.add_comm 1] at hrest

/-! ### Units that are refused -/

/-- Every chunk of the `n` units from `pos` starts at a unit that is not refused. -/
def Accepted (cut refused : ℕ → Bool) (pos n : ℕ) : Prop :=
  ∀ k < n, k = 0 ∨ cut (pos + k) = true → refused (pos + k) = false

variable {refused : ℕ → Bool}

lemma accepted_of_all (h : ∀ p, refused p = false) (cut : ℕ → Bool) (pos n : ℕ) :
    Accepted cut refused pos n := fun k _ _ => h (pos + k)

lemma not_refused_of_accepted (hpos : 0 < n) (h : Accepted cut refused pos n) :
    refused pos = false := h 0 hpos (.inl rfl)

/-- Once the first chunk is through, the others decide. -/
lemma accepted_iff_next (h : refused pos = false) :
    Accepted cut refused pos n ↔
      Accepted cut refused (pos + next cut pos n) (n - next cut pos n) := by
  have hle := next_le cut pos n
  constructor
  · intro hall k hk hstart
    rw [Nat.add_assoc]
    apply hall (next cut pos n + k) (by omega)
    right
    rcases hstart with rfl | hcut
    · exact cut_next pos (by omega)
    · rwa [← Nat.add_assoc]
  · intro hall k hk hstart
    by_cases hzero : k = 0
    · rw [hzero]
      exact h
    · have hcut : cut (pos + k) = true := hstart.resolve_left hzero
      -- a cut inside the first chunk is none
      have hge : next cut pos n ≤ k := by
        by_contra hlt
        rw [next_whole cut pos n k (by omega) (by omega)] at hcut
        exact Bool.false_ne_true hcut
      have hsplit : pos + next cut pos n + (k - next cut pos n) = pos + k := by omega
      have hrest := hall (k - next cut pos n) (by omega) (.inr (hsplit.symm ▸ hcut))
      rwa [hsplit] at hrest

end Chunks
