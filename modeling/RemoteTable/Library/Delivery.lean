import Mathlib.Data.List.Basic

/-!
# Operations that are delivered more than once

Operations on two replicas. One sent to the first is passed on to the second, one sent to the
second stays there, and each may be sent several times before it is answered or given up. Where
doing an operation again changes nothing, it takes effect at most once at each replica.
-/

namespace Delivery

/-- How far an operation has got. -/
inductive Reach
  | nowhere
  | second
  | both
  deriving DecidableEq

variable {τ ι ο : Type} (act : τ → ι → τ) (reply : τ → ι → ο)

/-- The two replicas after an operation. -/
def Reach.after (i : ι) : Reach → τ × τ → τ × τ
  | .nowhere, c => c
  | .second, c => (c.1, act c.2 i)
  | .both, c => (act c.1 i, act c.2 i)

/-- One more execution at the second replica. -/
def Reach.again : Reach → Reach
  | .both => .both
  | _ => .second

/-- An answer comes from a replica that the operation has got to, before or after its effect
there. -/
def Reach.Answers (i : ι) (c : τ × τ) (reach : Reach) (answer : ο) : Prop :=
  reach = .both ∧ (answer = reply c.1 i ∨ answer = reply (act c.1 i) i) ∨
    reach ≠ .nowhere ∧ (answer = reply c.2 i ∨ answer = reply (act c.2 i) i)

/-- A log of operations with their answers, from the contents of the replicas to those after
it. -/
inductive Delivered : τ × τ → List (ι × Option ο) → τ × τ → Prop
  | nil (c : τ × τ) : Delivered c [] c
  | cons {c c' : τ × τ} {i : ι} {answer : Option ο} {log : List (ι × Option ο)} (reach : Reach)
      (hanswer : ∀ r ∈ answer, reach.Answers act reply i c r)
      (hlog : Delivered (reach.after act i c) log c') : Delivered c ((i, answer) :: log) c'

/-- The operations that were answered. -/
def answered (log : List (ι × Option ο)) : List ι := (log.filter fun e => e.2.isSome).map Prod.fst

variable {act reply} {i : ι} {c c' : τ × τ} {log : List (ι × Option ο)}

/-- An execution at the first replica, which passes it on. -/
lemma after_both (hidem : ∀ s, act (act s i) i = act s i) (reach : Reach) :
    Reach.both.after act i (reach.after act i c) = Reach.both.after act i c := by
  cases reach with
  | nowhere => rfl
  | second => simp only [Reach.after, hidem]
  | both => simp only [Reach.after, hidem]

lemma after_again (hidem : ∀ s, act (act s i) i = act s i) (reach : Reach) :
    Reach.second.after act i (reach.after act i c) = reach.again.after act i c := by
  cases reach with
  | nowhere => rfl
  | second => simp only [Reach.after, Reach.again, hidem]
  | both => simp only [Reach.after, Reach.again, hidem]

lemma answers_second (reach : Reach) :
    reach.again.Answers act reply i c (reply (reach.after act i c).2 i) := by
  cases reach with
  | nowhere => exact .inr ⟨by decide, .inl rfl⟩
  | second => exact .inr ⟨by decide, .inr rfl⟩
  | both => exact .inr ⟨by decide, .inr rfl⟩

lemma answers_both (reach : Reach) :
    Reach.both.Answers act reply i c (reply (reach.after act i c).1 i) := by
  cases reach with
  | nowhere => exact .inl ⟨rfl, .inl rfl⟩
  | second => exact .inl ⟨rfl, .inl rfl⟩
  | both => exact .inl ⟨rfl, .inr rfl⟩

lemma answered_cons_le (i : ι) (answer : Option ο) (log : List (ι × Option ο)) :
    (answered ((i, answer) :: log)).Sublist (i :: answered log) := by
  cases answer with
  | none => exact (List.Sublist.refl _).cons i
  | some r => exact List.Sublist.refl _

/-- Each operation takes effect at most once at each replica, in the order in which they were
sent, at the second if at the first, and at the second if it was answered. -/
theorem Delivered.once (h : Delivered act reply c log c') :
    ∃ first second : List ι, first.Sublist second ∧ second.Sublist (log.map Prod.fst) ∧
      (answered log).Sublist second ∧ c'.1 = first.foldl act c.1 ∧
      c'.2 = second.foldl act c.2 := by
  induction h with
  | nil c => exact ⟨[], [], .slnil, .slnil, .slnil, rfl, rfl⟩
  | @cons c c' i answer log reach hanswer _ ih =>
    obtain ⟨first, second, hsub, hlog, hanswered, hfirst, hsecond⟩ := ih
    cases reach with
    | nowhere =>
      have hnone : answer = none := by
        cases answer with
        | none => rfl
        | some r =>
          rcases hanswer r rfl with ⟨hreach, -⟩ | ⟨hreach, -⟩
          · cases hreach
          · exact absurd rfl hreach
      subst hnone
      exact ⟨first, second, hsub, hlog.cons i, hanswered, hfirst, hsecond⟩
    | second =>
      exact ⟨first, i :: second, hsub.cons i, hlog.cons_cons i,
        (answered_cons_le i answer log).trans (hanswered.cons_cons i), hfirst, hsecond⟩
    | both =>
      exact ⟨i :: first, i :: second, hsub.cons_cons i, hlog.cons_cons i,
        (answered_cons_le i answer log).trans (hanswered.cons_cons i), hfirst, hsecond⟩

/-- What all contents have, their answers have too. -/
theorem Delivered.answers {inv : τ → Prop} {good : ο → Prop}
    (hreply : ∀ s i, inv s → good (reply s i)) (h : Delivered act reply c log c')
    (hact : ∀ i ∈ log.map Prod.fst, ∀ s, inv s → inv (act s i)) (hinv : inv c.1 ∧ inv c.2) :
    ∀ e ∈ log, ∀ r ∈ e.2, good r := by
  induction h with
  | nil c =>
    intro e he
    cases he
  | @cons c c' i answer log reach hanswer _ ih =>
    have hi := hact i List.mem_cons_self
    have hafter : inv (reach.after act i c).1 ∧ inv (reach.after act i c).2 := by
      cases reach with
      | nowhere => exact hinv
      | second => exact ⟨hinv.1, hi _ hinv.2⟩
      | both => exact ⟨hi _ hinv.1, hi _ hinv.2⟩
    intro e he r hr
    rcases List.mem_cons.mp he with rfl | he
    · rcases hanswer r hr with ⟨-, rfl | rfl⟩ | ⟨-, rfl | rfl⟩
      · exact hreply _ _ hinv.1
      · exact hreply _ _ (hi _ hinv.1)
      · exact hreply _ _ hinv.2
      · exact hreply _ _ (hi _ hinv.2)
    · exact ih (fun j hj => hact j (List.mem_cons_of_mem _ hj)) hafter e he r hr

end Delivery
