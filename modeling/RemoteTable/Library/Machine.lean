import Mathlib.Logic.Relation

/-!
# Runs of state machines

A machine either fails or answers each input with an output and a new state. A run of a
faulting machine follows an abstract machine when a relation between their states is kept
by every input, and an invariant kept by every step of a relation holds along its runs.
-/

namespace Machine

variable {σ τ ι ο ε : Type*}

/-- Outputs and final state of a machine that may fail. -/
def run (step : σ → ι → Except ε (ο × σ)) : σ → List ι → Except ε (List ο × σ)
  | s, [] => .ok ([], s)
  | s, i :: is =>
    match step s i with
    | .error e => .error e
    | .ok (o, s') =>
      match run step s' is with
      | .error e => .error e
      | .ok (os, s'') => .ok (o :: os, s'')

/-- Outputs and final state of a machine that always answers. -/
def answers (step : τ → ι → ο × τ) : τ → List ι → List ο × τ
  | t, [] => ([], t)
  | t, i :: is =>
    let (o, t') := step t i
    let (os, t'') := answers step t' is
    (o :: os, t'')

variable {step : σ → ι → Except ε (ο × σ)} {astep : τ → ι → ο × τ}

@[simp] lemma run_nil (s : σ) : run step s [] = .ok ([], s) := rfl

lemma run_cons_of_ok {s s' s'' : σ} {i : ι} {is : List ι} {o : ο} {os : List ο}
    (h : step s i = .ok (o, s')) (hs : run step s' is = .ok (os, s'')) :
    run step s (i :: is) = .ok (o :: os, s'') := by
  simp only [run, h, hs]

lemma run_cons_inv {s s' : σ} {i : ι} {is : List ι} {os : List ο}
    (h : run step s (i :: is) = .ok (os, s')) :
    ∃ o os' s₁, step s i = .ok (o, s₁) ∧ run step s₁ is = .ok (os', s') ∧ os = o :: os' := by
  simp only [run] at h
  split at h
  · cases h
  · rename_i o s₁ hi
    split at h
    · cases h
    · rename_i os' s₂ his
      simp only [Except.ok.injEq, Prod.mk.injEq] at h
      obtain ⟨rfl, rfl⟩ := h
      exact ⟨o, os', s₁, hi, his, rfl⟩

/-- A property kept by every step that succeeds holds at the end of every run. -/
theorem run_invariant (I : σ → Prop)
    (hstep : ∀ s i o s', I s → step s i = .ok (o, s') → I s') {s s' : σ} {is : List ι}
    {os : List ο} (hs : I s) (h : run step s is = .ok (os, s')) : I s' := by
  induction is generalizing s os with
  | nil =>
    simp only [run_nil, Except.ok.injEq, Prod.mk.injEq] at h
    exact h.2 ▸ hs
  | cons i is ih =>
    obtain ⟨o, os', s₁, h₁, h₂, -⟩ := run_cons_inv h
    exact ih (hstep s i o s₁ hs h₁) h₂

/-- Inputs that leave one state alone leave it at the end of their run. -/
theorem run_fixed {s s' : σ} {is : List ι} {os : List ο}
    (hfix : ∀ i ∈ is, ∀ o t, step s i = .ok (o, t) → t = s) (h : run step s is = .ok (os, s')) :
    s' = s := by
  induction is generalizing os with
  | nil =>
    cases h
    rfl
  | cons i is ih =>
    obtain ⟨o, os', s₁, hi, his, -⟩ := run_cons_inv h
    rw [hfix i List.mem_cons_self o s₁ hi] at his
    exact ih (fun j hj => hfix j (List.mem_cons_of_mem i hj)) his

/-- An input that leaves the state it made has no effect when it is repeated, among inputs
that never change the state. -/
theorem run_repeated {s once s' : σ} {w : ι} {o o' : ο} {is : List ι} {os : List ο}
    (hw : step s w = .ok (o, once)) (hagain : step once w = .ok (o', once))
    (hothers : ∀ i ∈ is, i = w ∨ ∀ t o t', step t i = .ok (o, t') → t' = t)
    (hmem : w ∈ is) (h : run step s is = .ok (os, s')) : s' = once := by
  induction is generalizing os with
  | nil => cases hmem
  | cons i is ih =>
    obtain ⟨o₁, os₁, s₁, hi, his, -⟩ := run_cons_inv h
    have hothers' := fun j hj => hothers j (List.mem_cons_of_mem i hj)
    by_cases hiw : i = w
    · -- the first `w`: from here on every input finds the state that it made
      rw [hiw, hw, Except.ok.injEq, Prod.mk.injEq] at hi
      rw [← hi.2] at his
      apply run_fixed _ his
      intro j hj o₂ t ht
      rcases hothers' j hj with rfl | hread
      · rw [hagain, Except.ok.injEq, Prod.mk.injEq] at ht
        exact ht.2.symm
      · exact hread _ _ _ ht
    · have hread := (hothers i List.mem_cons_self).resolve_left hiw
      rw [hread _ _ _ hi] at his
      have hmem' := (List.mem_cons.mp hmem).resolve_left (Ne.symm hiw)
      exact ih hothers' hmem' his

/-- Simulation, one input at a time: the machine never fails on admissible inputs and
answers as the abstract machine does. -/
theorem run_refines (R : σ → τ → Prop) (admissible : ι → Prop)
    (hstep : ∀ s t i, R s t → admissible i →
      ∃ s', step s i = .ok ((astep t i).1, s') ∧ R s' (astep t i).2)
    (is : List ι) (hadm : ∀ i ∈ is, admissible i) {s : σ} {t : τ} (hR : R s t) :
    ∃ s', run step s is = .ok ((answers astep t is).1, s') ∧ R s' (answers astep t is).2 := by
  induction is generalizing s t with
  | nil => exact ⟨s, rfl, hR⟩
  | cons i is ih =>
    obtain ⟨s₁, h₁, hR₁⟩ := hstep s t i hR (hadm i List.mem_cons_self)
    obtain ⟨s₂, h₂, hR₂⟩ := ih (fun j hj => hadm j (List.mem_cons_of_mem i hj)) hR₁
    exact ⟨s₂, run_cons_of_ok h₁ h₂, hR₂⟩

/-- Simulation of the states alone: the machine never fails on admissible inputs. -/
theorem run_follows (R : σ → τ → Prop) (admissible : ι → Prop) (next : τ → ι → τ)
    (hstep : ∀ s t i, R s t → admissible i →
      ∃ o s', step s i = .ok (o, s') ∧ R s' (next t i))
    (is : List ι) (hadm : ∀ i ∈ is, admissible i) {s : σ} {t : τ} (hR : R s t) :
    ∃ os s', run step s is = .ok (os, s') ∧ R s' (is.foldl next t) := by
  induction is generalizing s t with
  | nil => exact ⟨[], s, rfl, hR⟩
  | cons i is ih =>
    obtain ⟨o, s₁, h₁, hR₁⟩ := hstep s t i hR (hadm i List.mem_cons_self)
    obtain ⟨os, s₂, h₂, hR₂⟩ := ih (fun j hj => hadm j (List.mem_cons_of_mem i hj)) hR₁
    exact ⟨o :: os, s₂, run_cons_of_ok h₁ h₂, hR₂⟩

/-- Simulation of two machines that always answer. -/
theorem answers_refine {step' : σ → ι → ο × σ} (R : σ → τ → Prop)
    (hstep : ∀ s t i, R s t → (step' s i).1 = (astep t i).1 ∧ R (step' s i).2 (astep t i).2)
    (is : List ι) {s : σ} {t : τ} (hR : R s t) :
    (answers step' s is).1 = (answers astep t is).1 ∧
      R (answers step' s is).2 (answers astep t is).2 := by
  induction is generalizing s t with
  | nil => exact ⟨rfl, hR⟩
  | cons i is ih =>
    obtain ⟨hout, hR₁⟩ := hstep s t i hR
    obtain ⟨houts, hR₂⟩ := ih hR₁
    refine ⟨?_, hR₂⟩
    simp only [answers, hout, houts]

/-- Two machines answer alike: the same failure, or the same output and related states. -/
inductive Alike {ω : Type*} (R : σ → τ → Prop) : Except ε (ω × σ) → Except ε (ω × τ) → Prop
  | error (e : ε) : Alike R (.error e) (.error e)
  | ok {o : ω} {s : σ} {t : τ} (h : R s t) : Alike R (.ok (o, s)) (.ok (o, t))

lemma Alike.outputs_eq {ω : Type*} {R : σ → τ → Prop} {x : Except ε (ω × σ)}
    {y : Except ε (ω × τ)} (h : Alike R x y) : x.map Prod.fst = y.map Prod.fst := by
  cases h with
  | error e => rfl
  | ok h => rfl

/-- Two machines that answer every admissible input alike from related states have runs that
are alike. -/
theorem run_alike {step' : τ → ι → Except ε (ο × τ)} (R : σ → τ → Prop) (admissible : ι → Prop)
    (hstep : ∀ s t i, R s t → admissible i → Alike R (step s i) (step' t i))
    (is : List ι) (hadm : ∀ i ∈ is, admissible i) {s : σ} {t : τ} (hR : R s t) :
    Alike R (run step s is) (run step' t is) := by
  induction is generalizing s t with
  | nil => exact .ok hR
  | cons i is ih =>
    have hi := hstep s t i hR (hadm i List.mem_cons_self)
    rw [run, run]
    generalize step s i = x at hi
    generalize step' t i = y at hi
    cases hi with
    | error e => exact .error e
    | ok hR₁ =>
      rename_i s₁ t₁
      have hrest := ih (fun j hj => hadm j (List.mem_cons_of_mem i hj)) hR₁
      simp only
      generalize run step s₁ is = x' at hrest
      generalize run step' t₁ is = y' at hrest
      cases hrest with
      | error e => exact .error e
      | ok hR₂ => exact .ok hR₂

/-- A property of the first state kept by every step holds in every state reached. -/
theorem reachable_invariant {r : σ → σ → Prop} (I : σ → Prop)
    (hstep : ∀ s s', I s → r s s' → I s') {s s' : σ} (hs : I s)
    (h : Relation.ReflTransGen r s s') : I s' := by
  induction h with
  | refl => exact hs
  | tail _ h ih => exact hstep _ _ ih h

/-! ### Runs with the states that they visit -/

/-- Labelled steps one after another, each with the state that it leads to. -/
inductive Trace (r : σ → ι → σ → Prop) : σ → List (ι × σ) → Prop
  | nil (s : σ) : Trace r s []
  | cons {s s' : σ} {i : ι} {steps : List (ι × σ)} (h : r s i s') (hrest : Trace r s' steps) :
      Trace r s ((i, s') :: steps)

/-- No step of the run is `bad` in the state in which it is taken. -/
def Avoids (bad : σ → ι → Prop) : σ → List (ι × σ) → Prop
  | _, [] => True
  | s, (i, s') :: steps => ¬bad s i ∧ Avoids bad s' steps

/-- When the bad steps are those that end a property, the property holds in every state of a
run exactly if it holds at the start and no step is bad. Every state has what `J` says. -/
theorem trace_invariant_iff_of {r : σ → ι → σ → Prop} {bad : σ → ι → Prop} (J I : σ → Prop)
    (hstep : ∀ s i s', J s → r s i s' → J s' ∧ (I s → (I s' ↔ ¬bad s i))) {s : σ}
    {steps : List (ι × σ)} (hJ : J s) (h : Trace r s steps) :
    (I s ∧ ∀ x ∈ steps, I x.2) ↔ I s ∧ Avoids bad s steps := by
  apply and_congr_right
  intro hs
  induction h with
  | nil s => simp [Avoids]
  | cons h hrest ih =>
    rename_i s s' i steps
    obtain ⟨hJ', hiff⟩ := hstep s i s' hJ h
    rw [List.forall_mem_cons, Avoids, ← hiff hs]
    constructor
    · rintro ⟨hs', hsteps⟩
      exact ⟨hs', (ih hJ' hs').mp hsteps⟩
    · rintro ⟨hs', havoids⟩
      exact ⟨hs', (ih hJ' hs').mpr havoids⟩

theorem trace_invariant_iff {r : σ → ι → σ → Prop} {bad : σ → ι → Prop} (I : σ → Prop)
    (hstep : ∀ s i s', I s → r s i s' → (I s' ↔ ¬bad s i)) {s : σ} {steps : List (ι × σ)}
    (h : Trace r s steps) :
    (I s ∧ ∀ x ∈ steps, I x.2) ↔ I s ∧ Avoids bad s steps :=
  trace_invariant_iff_of (fun _ => True) I
    (fun s i s' _ hr => ⟨trivial, fun hs => hstep s i s' hs hr⟩) trivial h

end Machine
