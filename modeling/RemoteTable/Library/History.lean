import Mathlib.Data.List.Basic

/-!
# Histories of requests

Requests in the order in which they took effect, each with the reply that was given, if one was.
A history is explained by a sequential object when every reply is one that the object allows in
the state that the requests before it have made.
-/

namespace History

variable {τ ι ο : Type*} {apply : τ → ι → τ} {allows : τ → ι → ο → Prop} {t : τ}
  {events more : List (ι × Option ο)} {i : ι} {answer : Option ο}

/-- The state after a history. -/
def after (apply : τ → ι → τ) (t : τ) (events : List (ι × Option ο)) : τ :=
  events.foldl (fun t event => apply t event.1) t

def Explained (apply : τ → ι → τ) (allows : τ → ι → ο → Prop) :
    τ → List (ι × Option ο) → Prop
  | _, [] => True
  | t, (i, answer) :: events =>
    (∀ reply, answer = some reply → allows t i reply) ∧ Explained apply allows (apply t i) events

@[simp] lemma after_nil : after (ο := ο) apply t [] = t := rfl

lemma after_append : after apply t (events ++ more) = after apply (after apply t events) more :=
  List.foldl_append

lemma after_concat : after apply t (events ++ [(i, answer)]) = apply (after apply t events) i :=
  after_append

lemma explained_append :
    Explained apply allows t (events ++ more) ↔
      Explained apply allows t events ∧ Explained apply allows (after apply t events) more := by
  induction events generalizing t with
  | nil => simp [Explained]
  | cons event events ih =>
    rw [List.cons_append, Explained, ih, Explained, and_assoc]
    rfl

/-- One more request that took effect. -/
lemma Explained.concat (h : Explained apply allows t events)
    (hreply : ∀ reply, answer = some reply → allows (after apply t events) i reply) :
    Explained apply allows t (events ++ [(i, answer)]) :=
  explained_append.mpr ⟨h, hreply, trivial⟩

end History
