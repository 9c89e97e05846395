import Mathlib.Data.List.Pairwise
import Mathlib.Data.List.Count
import Mathlib.Tactic.Common

/-!
# Histories of resources

Resources are opened, used and closed. A history is lawful when everything that was opened has
been closed exactly once, and nothing was used or closed again after that.
-/

namespace Ledger

inductive Event (ρ : Type*)
  | opened (r : ρ)
  | used (r : ρ)
  | closed (r : ρ)
  deriving DecidableEq

variable {ρ : Type*} {es : List (Event ρ)} {r r' : ρ}

/-- The second event is not one of a resource that the first has closed. -/
def MayFollow (a b : Event ρ) : Prop := ∀ r, a = .closed r → b ≠ .used r ∧ b ≠ .closed r

/-- Nothing is used or closed after it was closed. -/
def Careful (es : List (Event ρ)) : Prop := es.Pairwise MayFollow

structure Lawful [DecidableEq ρ] (es : List (Event ρ)) : Prop where
  once : ∀ r, .opened r ∈ es → es.count (.closed r) = 1
  careful : Careful es

lemma careful_concat {e : Event ρ} :
    Careful (es ++ [e]) ↔ Careful es ∧ ∀ a ∈ es, MayFollow a e := by
  simp only [Careful, List.pairwise_append, List.pairwise_singleton, List.mem_singleton,
    forall_eq, true_and]

@[simp] lemma careful_opened : Careful (es ++ [.opened r]) ↔ Careful es := by
  rw [careful_concat, and_iff_left]
  intro a _ r' _
  exact ⟨by simp, by simp⟩

lemma mayFollow_used {a : Event ρ} : MayFollow a (.used r) ↔ a ≠ .closed r := by
  refine ⟨fun hfollow ha => (hfollow r ha).1 rfl, fun hne r' ha => ⟨?_, by simp⟩⟩
  rintro ⟨⟩
  exact hne ha

lemma mayFollow_closed {a : Event ρ} : MayFollow a (.closed r) ↔ a ≠ .closed r := by
  refine ⟨fun hfollow ha => (hfollow r ha).2 rfl, fun hne r' ha => ⟨by simp, ?_⟩⟩
  rintro ⟨⟩
  exact hne ha

lemma Careful.of_append {fs : List (Event ρ)} (hc : Careful (es ++ fs)) : Careful es :=
  (List.pairwise_append.mp hc).1

/-- Calls on one resource that was opened before. -/
structure CallsOn (r : ρ) (fs : List (Event ρ)) : Prop where
  nonempty : fs ≠ []
  of : ∀ e ∈ fs, e = .used r ∨ e = .closed r
  careful : Careful fs

variable {fs : List (Event ρ)}

lemma callsOn_closed (r : ρ) : CallsOn r [.closed r] :=
  ⟨by simp, by simp, List.pairwise_singleton _ _⟩

lemma CallsOn.opened_notMem (h : CallsOn r fs) (r' : ρ) : .opened r' ∉ fs := fun hmem => by
  rcases h.of _ hmem with heq | heq <;> cases heq

lemma CallsOn.eq_of_closed (h : CallsOn r fs) (hmem : .closed r' ∈ fs) : r' = r := by
  rcases h.of _ hmem with heq | heq
  · cases heq
  · cases heq
    rfl

lemma CallsOn.careful_append (h : CallsOn r fs) :
    Careful (es ++ fs) ↔ Careful es ∧ .closed r ∉ es := by
  have hfollow : ∀ {a b}, b ∈ fs → (MayFollow a b ↔ a ≠ .closed r) := by
    intro a b hb
    rcases h.of b hb with rfl | rfl
    · exact mayFollow_used
    · exact mayFollow_closed
  rw [Careful, List.pairwise_append]
  constructor
  · rintro ⟨hes, -, hacross⟩
    obtain ⟨b, hb⟩ := List.exists_mem_of_ne_nil fs h.nonempty
    exact ⟨hes, fun hmem => (hfollow hb).mp (hacross _ hmem b hb) rfl⟩
  · rintro ⟨hes, hnot⟩
    refine ⟨hes, h.careful, fun a ha b hb => (hfollow hb).mpr ?_⟩
    rintro rfl
    exact hnot ha

variable [DecidableEq ρ]

/-- What is closed is closed once. -/
lemma Careful.count_le_one (hc : Careful es) (r : ρ) : es.count (.closed r) ≤ 1 := by
  induction es with
  | nil => simp
  | cons e es ih =>
    obtain ⟨hfirst, hrest⟩ := List.pairwise_cons.mp hc
    by_cases he : e = .closed r
    · have hnot : .closed r ∉ es := fun hmem => (hfirst _ hmem r he).2 rfl
      have hnone : es.count (.closed r) = 0 := List.count_eq_zero_of_not_mem hnot
      rw [he, List.count_cons_self]
      omega
    · rw [List.count_cons_of_ne he]
      exact ih hrest

lemma lawful_iff : Lawful es ↔ Careful es ∧ ∀ r, .opened r ∈ es → .closed r ∈ es := by
  constructor
  · rintro ⟨honce, hcareful⟩
    exact ⟨hcareful, fun r hr => List.count_pos_iff.mp (by rw [honce r hr]; decide)⟩
  · rintro ⟨hcareful, hclosed⟩
    refine ⟨fun r hr => Nat.le_antisymm (hcareful.count_le_one r) ?_, hcareful⟩
    exact List.count_pos_iff.mpr (hclosed r hr)

/-! ### Numbers -/

/-- The lowest number that is not taken. -/
def lowestFree (taken : List ℕ) : ℕ :=
  ((List.range (taken.length + 1)).find? (· ∉ taken)).getD taken.length

lemma exists_free (taken : List ℕ) : ∃ n ∈ List.range (taken.length + 1), n ∉ taken := by
  by_contra hall
  push Not at hall
  have hle := List.nodup_range.length_le_of_subset hall
  rw [List.length_range] at hle
  omega

lemma lowestFree_spec (taken : List ℕ) :
    lowestFree taken ∉ taken ∧ ∀ k < lowestFree taken, k ∈ taken := by
  rw [lowestFree]
  cases hfind : (List.range (taken.length + 1)).find? (· ∉ taken) with
  | none =>
    obtain ⟨n, hn, hfree⟩ := exists_free taken
    have htaken := List.find?_eq_none.mp hfind n hn
    exact absurd (by simpa using hfree) htaken
  | some n =>
    rw [List.find?_range_eq_some] at hfind
    simpa using And.intro hfind.1 hfind.2.2

lemma lowestFree_notMem (taken : List ℕ) : lowestFree taken ∉ taken := (lowestFree_spec taken).1

/-- A free number below which every number is taken is the lowest. -/
lemma eq_lowestFree {taken : List ℕ} {n : ℕ} (hn : n ∉ taken) (hlow : ∀ k < n, k ∈ taken) :
    n = lowestFree taken := by
  obtain ⟨hfree, hbelow⟩ := lowestFree_spec taken
  rcases Nat.lt_trichotomy n (lowestFree taken) with hlt | heq | hgt
  · exact absurd (hbelow n hlt) hn
  · exact heq
  · exact absurd (hlow _ hgt) hfree

end Ledger
