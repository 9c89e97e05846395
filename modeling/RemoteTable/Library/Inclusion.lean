import RemoteTable.Library.Separation

/-!
# Programs on some of the blocks of a heap

A heap holds blocks of several kinds, and a program uses one kind. It runs in the larger heap
as in the part of it that has its kind, and its triples hold there too.
-/

namespace Memory

/-- The blocks of one kind among all blocks. -/
structure Inclusion (α κ : Type) where
  embed : α → κ
  project : κ → Option α
  project_embed : ∀ a, project (embed a) = some a
  embed_project : ∀ b a, project b = some a → b = embed a

variable {α β κ : Type} (i : Inclusion α κ)

def Heap.narrow (h : Heap κ) : Heap α where
  cells p := (h.cells p).bind i.project
  next := h.next
  grants := h.grants
  fresh p hp := by rw [h.fresh p hp, Option.bind_none]

/-- The cells of the kind are those of `h'`, and the others are as they were. -/
def Heap.widen (h : Heap κ) (h' : Heap α) : Heap κ where
  cells p :=
    match h'.cells p with
    | some a => some (i.embed a)
    | none => (h.cells p).filter fun b => (i.project b).isNone
  next := max h.next h'.next
  grants := h'.grants
  fresh p hp := by
    rw [h'.fresh p (le_trans (le_max_right _ _) hp), h.fresh p (le_trans (le_max_left _ _) hp)]
    rfl

def lift (x : Mem α β) : Mem κ β := fun h =>
  match x (h.narrow i) with
  | .error e => .error e
  | .ok (b, h') => .ok (b, h.widen i h')

/-- Parts that have one kind of cells, as parts of the larger heap. -/
def Assertion.embed (P : Assertion α) : Assertion κ :=
  {c | ∃ c₀ ∈ P, c = fun p => (c₀ p).map i.embed}

namespace Assertion

variable {P Q : Assertion α} {ι : Type} {φ : Prop} {p : ℕ} {a : α} {c : ℕ → Option κ}

@[simp] lemma embed_one : (1 : Assertion α).embed i = 1 := by
  refine ext fun c => ⟨?_, ?_⟩
  · rintro ⟨_, rfl, rfl⟩
    rfl
  · rintro rfl
    exact ⟨noCells, rfl, rfl⟩

@[simp] lemma embed_mul : (P * Q).embed i = P.embed i * Q.embed i := by
  refine ext fun c => ⟨?_, ?_⟩
  · rintro ⟨_, ⟨c₁, hp, c₂, hq, hapart, rfl⟩, rfl⟩
    refine ⟨_, ⟨c₁, hp, rfl⟩, _, ⟨c₂, hq, rfl⟩, ?_, ?_⟩
    · intro p
      simpa using hapart p
    · funext p
      simp only [join]
      cases c₁ p with
      | none => rfl
      | some a => rfl
  · rintro ⟨_, ⟨c₁, hp, rfl⟩, _, ⟨c₂, hq, rfl⟩, hapart, rfl⟩
    refine ⟨join c₁ c₂, ⟨c₁, hp, c₂, hq, ?_, rfl⟩, ?_⟩
    · intro p
      simpa using hapart p
    · funext p
      simp only [join]
      cases c₁ p with
      | none => rfl
      | some a => rfl

@[simp] lemma embed_cell : (cell p a).embed i = cell p (i.embed a) := by
  have hmap : (fun q => ((Function.update noCells p (some a) : ℕ → Option α) q).map i.embed) =
      Function.update noCells p (some (i.embed a)) := by
    funext q
    by_cases hq : q = p
    · rw [hq, Function.update_self, Function.update_self]
      rfl
    · rw [Function.update_of_ne hq, Function.update_of_ne hq]
      rfl
  refine ext fun c => ⟨?_, ?_⟩
  · rintro ⟨_, rfl, rfl⟩
    exact hmap
  · rintro rfl
    exact ⟨_, rfl, hmap.symm⟩

@[simp] lemma embed_only : (only φ : Assertion α).embed i = only φ := by
  refine ext fun c => ⟨?_, ?_⟩
  · rintro ⟨_, ⟨hφ, rfl⟩, rfl⟩
    exact ⟨hφ, rfl⟩
  · rintro ⟨hφ, rfl⟩
    exact ⟨noCells, ⟨hφ, rfl⟩, rfl⟩

@[simp] lemma embed_ex (P : ι → Assertion α) : (ex P).embed i = ex fun k => (P k).embed i := by
  refine ext fun c => ⟨?_, ?_⟩
  · rintro ⟨c₀, ⟨k, hp⟩, rfl⟩
    exact ⟨k, c₀, hp, rfl⟩
  · rintro ⟨k, c₀, hp, rfl⟩
    exact ⟨c₀, ⟨k, hp⟩, rfl⟩

@[simp] lemma embed_returned (P : ℕ → Assertion α) (r : Option ℕ) :
    (returned P r).embed i = returned (fun p => (P p).embed i) r := by
  simp only [returned, embed_ex, embed_mul, embed_only]

lemma embed_mono (h : P ≤ Q) : P.embed i ≤ Q.embed i := fun _ ⟨c₀, hp, hc⟩ => ⟨c₀, h hp, hc⟩

lemma embed_held_le (k : ℕ) : (held k : Assertion α).embed i ≤ held k := by
  rintro _ ⟨c₀, ⟨ps, hnodup, hlen, hlive⟩, rfl⟩
  refine ⟨ps, hnodup, hlen, fun p => ?_⟩
  rw [← hlive, Ne, Option.map_eq_none_iff]

end Assertion

/-- The rest of the larger heap has cells of the kind too, which the frame keeps, and cells of
other kinds, whose addresses are not given out again. -/
theorem triple_lift {P : Assertion α} {x : Mem α β} {Q : β → Assertion α} (hx : Triple P x Q) :
    Triple (P.embed i) (lift i x) fun b => (Q b).embed i := by
  rintro R h hg ⟨_, ⟨c₀, hp, rfl⟩, r, hr, hapart, hcells⟩
  -- the part of the rest that the program could see
  set r₀ : ℕ → Option α := fun p => (r p).bind i.project with hr₀
  have hnarrow : (h.narrow i).cells = join c₀ r₀ := by
    funext p
    simp only [Heap.narrow, hcells, join, hr₀]
    cases hp : c₀ p with
    | none => rfl
    | some a => simp [i.project_embed]
  have hapart₀ : Apart c₀ r₀ := by
    intro p
    rcases hapart p with hnone | hnone
    · exact .inl (by simpa using hnone)
    · exact .inr (by simp [hr₀, hnone])
  obtain ⟨b, h', hrun, hg', hk, c₁, hq, _, rfl, hapart₁, hcells'⟩ :=
    hx (Assertion.exactly r₀) (h.narrow i) hg ⟨c₀, hp, r₀, rfl, hapart₀, hnarrow⟩
  have hbefore : ∀ p b', r p = some b' → c₀ p = none ∧ h.cells p = some b' := by
    intro p b' hb
    have hnone : c₀ p = none := by
      rcases hapart p with hnone | hnone
      · simpa using hnone
      · rw [hnone] at hb
        cases hb
    exact ⟨hnone, by simp [hcells, join, hnone, hb]⟩
  have hout : ∀ p b', r p = some b' → c₁ p = none := by
    intro p b' hb
    obtain ⟨hnone₀, hcell⟩ := hbefore p b' hb
    cases hproj : i.project b' with
    | some a =>
      rcases hapart₁ p with hnone | hnone
      · exact hnone
      · simp [hr₀, hb, hproj] at hnone
    | none =>
      have hdead : (h.narrow i).cells p = none := by simp [Heap.narrow, hcell, hproj]
      have hlt : p < h.next := Heap.lt_next (by simp [hcell])
      have hstill := hk.dead p hlt hdead
      rw [hcells'] at hstill
      exact (join_eq_none.mp hstill).1
  refine ⟨b, h.widen i h', ?_, hg', ⟨le_max_left _ _, ?_⟩, _, ⟨c₁, hq, rfl⟩, r, hr, ?_, ?_⟩
  · rw [lift, hrun]
  · intro p hlt hdead
    have hnone : h'.cells p = none := hk.dead p hlt (by simp [Heap.narrow, hdead])
    simp [Heap.widen, hnone, hdead]
  · intro p
    cases hb : r p with
    | none => exact .inr rfl
    | some b' => exact .inl (by simp [hout p b' hb])
  · funext p
    simp only [Heap.widen, hcells', join]
    cases hb : r p with
    | none =>
      cases hc : c₁ p with
      | some a => simp [hr₀, hb]
      | none =>
        have hcell : h.cells p = (c₀ p).map i.embed := by
          rw [hcells, join, hb, Option.or_none]
        simp only [hr₀, hb, Option.bind_none, Option.or_none, Option.map_none, hcell]
        cases c₀ p with
        | none => rfl
        | some a => simp [Option.filter, i.project_embed]
    | some b' =>
      have hc := hout p b' hb
      have hcell := (hbefore p b' hb).2
      cases hproj : i.project b' with
      | some a => simp [hr₀, hb, hc, hproj, ← i.embed_project b' a hproj]
      | none => simp [hr₀, hb, hc, hproj, hcell, Option.filter]

lemma Reads.lift {P : Assertion α} {x : Mem α β} {b : β} (hx : Reads P x b) :
    Reads (P.embed i) (lift i x) b := by
  apply (triple_lift i hx).mono le_rfl
  intro r
  simp only [Assertion.embed_mul, Assertion.embed_only, le_refl]

end Memory
