import Mathlib.Algebra.Order.Monoid.Defs
import Mathlib.Data.List.Nodup
import Mathlib.Data.List.Perm.Subperm
import Mathlib.Data.Set.Card
import Mathlib.Order.BooleanAlgebra.Set
import RemoteTable.Library.Memory

/-!
# Parts of a heap

Assertions about a part of the heap form a commutative monoid under the separating product. A
triple says that a program, started in a heap that has a part as its precondition says, ends
without a fault, replaces this part by one as its postcondition says, and leaves the rest
alone. Every allocation is granted.
-/

namespace Memory

variable {α β γ ι : Type}

/-! ### Parts -/

/-- No address is live in both parts. -/
def Apart (c c' : ℕ → Option α) : Prop := ∀ p, c p = none ∨ c' p = none

def join (c c' : ℕ → Option α) : ℕ → Option α := fun p => (c p).or (c' p)

def noCells : ℕ → Option α := fun _ => none

section
variable {c c' c'' : ℕ → Option α} {p : ℕ}

lemma Apart.symm (h : Apart c c') : Apart c' c := fun p => (h p).symm

lemma join_comm (h : Apart c c') : join c c' = join c' c := by
  funext p
  rcases h p with hp | hp
  · simp [join, hp]
  · simp [join, hp]

lemma join_assoc : join (join c c') c'' = join c (join c' c'') := by
  funext p
  exact Option.or_assoc

lemma join_eq_none : join c c' p = none ↔ c p = none ∧ c' p = none := Option.or_eq_none_iff

lemma join_noCells (c : ℕ → Option α) : join c noCells = c := by
  funext p
  exact Option.or_none

lemma apart_noCells (c : ℕ → Option α) : Apart c noCells := fun _ => .inr rfl

lemma apart_join : Apart c (join c' c'') ↔ Apart c c' ∧ Apart c c'' := by
  simp only [Apart, join_eq_none]
  constructor
  · exact fun h => ⟨fun p => (h p).imp_right And.left, fun p => (h p).imp_right And.right⟩
  · rintro ⟨h, h'⟩ p
    rcases h p with hp | hp
    · exact .inl hp
    · exact (h' p).imp_right fun hp' => ⟨hp, hp'⟩

end

/-! ### Assertions -/

/-- The parts with a property. -/
def Assertion (α : Type) := Set (ℕ → Option α)

namespace Assertion

instance : Membership (ℕ → Option α) (Assertion α) :=
  inferInstanceAs (Membership _ (Set (ℕ → Option α)))

instance : PartialOrder (Assertion α) := inferInstanceAs (PartialOrder (Set (ℕ → Option α)))

/-- The separating product. -/
instance : Mul (Assertion α) :=
  ⟨fun P Q => {c | ∃ c₁ ∈ P, ∃ c₂ ∈ Q, Apart c₁ c₂ ∧ c = join c₁ c₂}⟩

instance : One (Assertion α) := ⟨{c | c = noCells}⟩

/-- One live cell. -/
def cell (p : ℕ) (b : α) : Assertion α := {c | c = Function.update noCells p (some b)}

/-- A fact about no cells. -/
def only (φ : Prop) : Assertion α := {c | φ ∧ c = noCells}

/-- One part. -/
def exactly (c : ℕ → Option α) : Assertion α := {c' | c' = c}

def ex (P : ι → Assertion α) : Assertion α := {c | ∃ i, c ∈ P i}

variable {P P' Q Q' R : Assertion α} {φ : Prop} {p : ℕ} {b : α} {c : ℕ → Option α}

lemma ext (h : ∀ c, c ∈ P ↔ c ∈ Q) : P = Q := Set.ext h

lemma mul_comm_le (P Q : Assertion α) : P * Q ≤ Q * P := by
  rintro c ⟨c₁, hp, c₂, hq, hapart, rfl⟩
  exact ⟨c₂, hq, c₁, hp, hapart.symm, join_comm hapart⟩

instance : CommMonoid (Assertion α) where
  mul_comm P Q := le_antisymm (mul_comm_le P Q) (mul_comm_le Q P)
  mul_assoc P Q R := by
    refine ext fun c => ⟨?_, ?_⟩
    · rintro ⟨_, ⟨c₁, hp, c₂, hq, hapart', rfl⟩, c₃, hr, hapart, rfl⟩
      have hall := apart_join.mp hapart.symm
      exact ⟨c₁, hp, join c₂ c₃, ⟨c₂, hq, c₃, hr, hall.2.symm, rfl⟩,
        apart_join.mpr ⟨hapart', hall.1.symm⟩, join_assoc⟩
    · rintro ⟨c₁, hp, _, ⟨c₂, hq, c₃, hr, hapart', rfl⟩, hapart, rfl⟩
      have hall := apart_join.mp hapart
      exact ⟨join c₁ c₂, ⟨c₁, hp, c₂, hq, hall.1, rfl⟩, c₃, hr,
        (apart_join.mpr ⟨hall.2.symm, hapart'.symm⟩).symm, join_assoc.symm⟩
  mul_one P := by
    refine ext fun c => ⟨?_, fun hp => ⟨c, hp, noCells, rfl, apart_noCells c, ?_⟩⟩
    · rintro ⟨c₁, hp, _, rfl, -, rfl⟩
      rwa [join_noCells]
    · exact (join_noCells c).symm
  one_mul P := by
    refine ext fun c => ⟨?_, fun hp => ⟨noCells, rfl, c, hp, (apart_noCells c).symm, rfl⟩⟩
    rintro ⟨_, rfl, c₂, hp, -, rfl⟩
    exact hp

instance : MulLeftMono (Assertion α) where
  elim := by
    rintro P Q R h c ⟨c₁, hp, c₂, hq, hapart, rfl⟩
    exact ⟨c₁, hp, c₂, h hq, hapart, rfl⟩

lemma ex_mul (P : ι → Assertion α) (Q : Assertion α) : ex P * Q = ex fun i => P i * Q := by
  refine ext fun c => ⟨?_, ?_⟩
  · rintro ⟨c₁, ⟨i, hp⟩, c₂, hq, hapart, rfl⟩
    exact ⟨i, c₁, hp, c₂, hq, hapart, rfl⟩
  · rintro ⟨i, c₁, hp, c₂, hq, hapart, rfl⟩
    exact ⟨c₁, ⟨i, hp⟩, c₂, hq, hapart, rfl⟩

lemma mem_only_mul : c ∈ only φ * P ↔ φ ∧ c ∈ P := by
  constructor
  · rintro ⟨_, ⟨hφ, rfl⟩, c₂, hp, -, rfl⟩
    exact ⟨hφ, hp⟩
  · rintro ⟨hφ, hp⟩
    exact ⟨noCells, ⟨hφ, rfl⟩, c, hp, (apart_noCells c).symm, rfl⟩

lemma only_of (h : φ) : (only φ : Assertion α) = 1 := ext fun _ => and_iff_right h

lemma only_mul_of (h : φ) (P : Assertion α) : only φ * P = P := by rw [only_of h, one_mul]

lemma le_ex (P : ι → Assertion α) (i : ι) : P i ≤ ex P := fun _ hp => ⟨i, hp⟩

lemma ex_le {P : ι → Assertion α} (h : ∀ i, P i ≤ Q) : ex P ≤ Q := fun _ ⟨i, hp⟩ => h i hp

lemma only_mul_le (h : φ → P ≤ Q) : only φ * P ≤ Q := fun _ hp =>
  h (mem_only_mul.mp hp).1 (mem_only_mul.mp hp).2

/-- What a result points to. -/
def returned (P : ℕ → Assertion α) (r : Option ℕ) : Assertion α :=
  ex fun p => only (r = some p) * P p

lemma le_returned (P : ℕ → Assertion α) (p : ℕ) : P p ≤ returned P (some p) :=
  (only_mul_of rfl (P p)).ge.trans (le_ex (fun q => only (some p = some q) * P q) p)

lemma returned_mono {P Q : ℕ → Assertion α} (h : ∀ p, P p ≤ Q p) (r : Option ℕ) :
    returned P r ≤ returned Q r :=
  ex_le fun p => (mul_le_mul' le_rfl (h p)).trans (le_ex (fun p => only (r = some p) * Q p) p)

/-- What is left of the parts `Q i` when the part `P i` is taken out, whichever comes back. -/
def remainder (P Q : ι → Assertion α) : Assertion α :=
  ex fun R => only (∀ i, P i * R ≤ Q i) * R

lemma le_remainder {P Q : ι → Assertion α} (h : ∀ i, P i * R ≤ Q i) : R ≤ remainder P Q :=
  (only_mul_of h R).ge.trans (le_ex (fun R => only (∀ i, P i * R ≤ Q i) * R) R)

lemma mul_remainder_le (P Q : ι → Assertion α) (i : ι) : P i * remainder P Q ≤ Q i := by
  rw [remainder, mul_comm, ex_mul]
  refine ex_le fun R => ?_
  rw [mul_assoc]
  refine only_mul_le fun h => ?_
  rw [mul_comm]
  exact h i

/-- A part that was taken out of a larger one. -/
lemma remainder_mul_le {P Q Q' : ι → Assertion α} (h : ∀ i, Q i * R ≤ Q' i) :
    remainder P Q * R ≤ remainder P Q' := by
  refine le_remainder fun i => ?_
  rw [← mul_assoc]
  exact (mul_le_mul_left (mul_remainder_le P Q i) R).trans (h i)

/-- The parts with as many live cells. -/
def held (k : ℕ) : Assertion α :=
  {c | ∃ ps : List ℕ, ps.Nodup ∧ ps.length = k ∧ ∀ p, c p ≠ none ↔ p ∈ ps}

lemma one_le_held : (1 : Assertion α) ≤ held 0 := by
  rintro _ rfl
  exact ⟨[], List.nodup_nil, rfl, fun _ => by simp [noCells]⟩

lemma le_held_zero_mul (P : Assertion α) : P ≤ held 0 * P :=
  (one_mul P).ge.trans (mul_le_mul_left one_le_held P)

lemma cell_le_held (p : ℕ) (b : α) : cell p b ≤ held 1 := by
  rintro _ rfl
  refine ⟨[p], List.nodup_singleton p, rfl, fun q => ?_⟩
  simp [Function.update_apply, noCells]

lemma held_mul_le (j k : ℕ) : (held j * held k : Assertion α) ≤ held (j + k) := by
  rintro _ ⟨c₁, ⟨ps, hnodup, hlen, hlive⟩, c₂, ⟨qs, hnodup', hlen', hlive'⟩, hapart, rfl⟩
  have hdisjoint : ps.Disjoint qs := by
    intro q hmem hmem'
    rcases hapart q with hnone | hnone
    · exact (hlive q).mpr hmem hnone
    · exact (hlive' q).mpr hmem' hnone
  refine ⟨ps ++ qs, hnodup.append hnodup' hdisjoint, ?_, fun q => ?_⟩
  · rw [List.length_append, hlen, hlen']
  · rw [Ne, join_eq_none, List.mem_append, ← hlive, ← hlive']
    exact not_and_or

lemma live_of_cell (h : c ∈ cell p b * R) : c p = some b := by
  obtain ⟨_, rfl, c₂, -, -, rfl⟩ := h
  simp [join]

end Assertion

/-! ### Triples -/

open Assertion

/-- Every allocation succeeds. -/
def Heap.Granted (h : Heap α) : Prop := ∀ k, h.grants k = true

/-- Addresses that were given out and are not live stay so. -/
structure Keeps (h h' : Heap α) : Prop where
  next_le : h.next ≤ h'.next
  dead : ∀ p < h.next, h.cells p = none → h'.cells p = none

lemma Keeps.refl (h : Heap α) : Keeps h h := ⟨le_rfl, fun _ _ hp => hp⟩

lemma Keeps.trans {h h' h'' : Heap α} (hk : Keeps h h') (hk' : Keeps h' h'') : Keeps h h'' :=
  ⟨hk.next_le.trans hk'.next_le,
    fun p hp hdead => hk'.dead p (hp.trans_le hk.next_le) (hk.dead p hp hdead)⟩

/-- The rest `R` of the heap is part of the definition. -/
def Triple (P : Assertion α) (x : Mem α β) (Q : β → Assertion α) : Prop :=
  ∀ (R : Assertion α) (h : Heap α), h.Granted → h.cells ∈ P * R →
    ∃ b h', x h = .ok (b, h') ∧ h'.Granted ∧ Keeps h h' ∧ h'.cells ∈ Q b * R

/-- The program returns `b` and leaves the part as it is. -/
def Reads (P : Assertion α) (x : Mem α β) (b : β) : Prop := Triple P x fun r => only (r = b) * P

section
variable {P P' F : Assertion α} {Q Q' : β → Assertion α} {S : γ → Assertion α} {x : Mem α β}
  {f : β → Mem α γ} {φ : Prop} {p : ℕ} {b : α} {d : β}

/-- The end of a program. -/
lemma triple_pure (h : P ≤ Q d) : Triple P (pure d) Q := fun R heap hg hp =>
  ⟨d, heap, rfl, hg, Keeps.refl heap, mul_le_mul_left h R hp⟩

lemma Triple.bind (hx : Triple P x Q) (hf : ∀ b, Triple (Q b) (f b) S) :
    Triple P (x >>= f) S := by
  intro R h hg hp
  obtain ⟨b, h₁, hrun, hg₁, hk₁, hq⟩ := hx R h hg hp
  obtain ⟨d, h₂, hrun', hg₂, hk₂, hs⟩ := hf b R h₁ hg₁ hq
  exact ⟨d, h₂, (bind_of_ok hrun).trans hrun', hg₂, hk₁.trans hk₂, hs⟩

lemma Triple.frame (hx : Triple P x Q) (F : Assertion α) :
    Triple (P * F) x fun b => Q b * F := by
  intro R h hg hp
  rw [mul_assoc] at hp
  obtain ⟨b, h', hrun, hg', hk, hq⟩ := hx (F * R) h hg hp
  rw [← mul_assoc] at hq
  exact ⟨b, h', hrun, hg', hk, hq⟩

lemma Triple.mono (hx : Triple P x Q) (hpre : P' ≤ P) (hpost : ∀ b, Q b ≤ Q' b) :
    Triple P' x Q' := by
  intro R h hg hp
  obtain ⟨b, h', hrun, hg', hk, hq⟩ := hx R h hg (mul_le_mul_left hpre R hp)
  exact ⟨b, h', hrun, hg', hk, mul_le_mul_left (hpost b) R hq⟩

lemma Triple.weaken (hx : Triple P x Q) (hpre : P' ≤ P) : Triple P' x Q :=
  hx.mono hpre fun _ => le_rfl

/-- One call in a program: the part that it does not use is `F`. -/
lemma Triple.step (hx : Triple P x Q) (F : Assertion α) (hpre : P' = P * F)
    (hf : ∀ b, Triple (Q b * F) (f b) S) : Triple P' (x >>= f) S :=
  hpre ▸ (hx.frame F).bind hf

/-- The last call in a program. -/
lemma Triple.last (hx : Triple P x Q) (F : Assertion α) (hpre : P' = P * F)
    (hpost : ∀ b, Q b * F ≤ Q' b) : Triple P' x Q' :=
  (hx.frame F).mono hpre.le hpost

lemma triple_ex {P : ι → Assertion α} (h : ∀ i, Triple (P i) x Q) : Triple (ex P) x Q := by
  intro R heap hg hp
  rw [ex_mul] at hp
  obtain ⟨i, hp⟩ := hp
  exact h i R heap hg hp

lemma triple_only (h : φ → Triple P x Q) : Triple (only φ * P) x Q := by
  intro R heap hg hp
  rw [mul_assoc, mem_only_mul] at hp
  exact h hp.1 R heap hg hp.2

/-! ### Single calls -/

lemma triple_malloc (b : α) :
    Triple 1 (malloc b) (returned fun p => cell p b) := by
  intro R h hg hp
  rw [one_mul] at hp
  have hnext : h.cells h.next = none := h.fresh h.next le_rfl
  refine ⟨some h.next, h.allocate b, malloc_granted (hg 0) b, fun k => hg (k + 1), ?_, ?_⟩
  · refine ⟨Nat.le_succ _, fun p hlt hdead => ?_⟩
    rwa [allocate_cells_of_ne h b hlt.ne]
  · rw [returned, ex_mul]
    refine ⟨h.next, ?_⟩
    beta_reduce
    rw [only_mul_of rfl]
    refine ⟨_, rfl, h.cells, hp, ?_, ?_⟩
    · intro p
      by_cases hne : p = h.next
      · exact .inr (hne ▸ hnext)
      · exact .inl (Function.update_of_ne hne _ _)
    · funext p
      by_cases hne : p = h.next
      · rw [hne, allocate_next_cell, join, Function.update_self]
        rfl
      · rw [allocate_cells_of_ne h b hne, join, Function.update_of_ne hne]
        rfl

lemma reads_cell (p : ℕ) (b : α) : Reads (cell p b) (read (some p)) b := by
  intro R h hg hp
  refine ⟨b, h, read_of_cell (live_of_cell hp), hg, Keeps.refl h, ?_⟩
  beta_reduce
  rw [only_mul_of rfl]
  exact hp

/-- A cell, or what is left of it once it is released. -/
def cellOr (p : ℕ) : Option α → Assertion α
  | none => 1
  | some b => cell p b

/-- The content of a live cell is replaced, or the cell is released. -/
lemma assign_cell {R : Assertion α} {h : Heap α} {content : Option α}
    (hp : h.cells ∈ cell p b * R) (hlive : h.cells p ≠ none) :
    (h.assign p hlive content).cells ∈ cellOr p content * R := by
  obtain ⟨_, rfl, c₂, hr, hapart, hcells⟩ := hp
  have hfree : c₂ p = none := by
    rcases hapart p with hnone | hnone
    · simp at hnone
    · exact hnone
  have hrest : ∀ q, q ≠ p → h.cells q = c₂ q := by
    intro q hq
    rw [hcells, join, Function.update_of_ne hq]
    rfl
  cases content with
  | none =>
    refine ⟨noCells, rfl, c₂, hr, (apart_noCells c₂).symm, ?_⟩
    funext q
    by_cases hq : q = p
    · rw [hq, assign_self, join, hfree]
      rfl
    · rw [assign_cells_of_ne hlive none hq, hrest q hq]
      rfl
  | some b' =>
    refine ⟨_, rfl, c₂, hr, ?_, ?_⟩
    · intro q
      by_cases hq : q = p
      · exact .inr (hq ▸ hfree)
      · exact .inl (Function.update_of_ne hq _ _)
    · funext q
      by_cases hq : q = p
      · rw [hq, assign_self, join, Function.update_self]
        rfl
      · rw [assign_cells_of_ne hlive _ hq, hrest q hq, join, Function.update_of_ne hq]
        rfl

lemma keeps_assign {h : Heap α} (hlive : h.cells p ≠ none) (content : Option α) :
    Keeps h (h.assign p hlive content) := by
  refine ⟨le_rfl, fun q _ hdead => ?_⟩
  rw [assign_cells_of_ne hlive content, hdead]
  rintro rfl
  exact hlive hdead

lemma triple_write (p : ℕ) (b b' : α) :
    Triple (cell p b) (write (some p) b') fun _ => cell p b' := by
  intro R h hg hp
  have hlive : h.cells p ≠ none := by simp [live_of_cell hp]
  have hcells : (h.assign p hlive (some b')).cells ∈ cellOr p (some b') * R :=
    assign_cell hp hlive
  exact ⟨(), _, write_of_cell hlive b', hg, keeps_assign hlive _, hcells⟩

lemma triple_free (p : ℕ) (b : α) : Triple (cell p b) (free (some p)) fun _ => 1 := by
  intro R h hg hp
  have hlive : h.cells p ≠ none := by simp [live_of_cell hp]
  have hcells : (h.assign p hlive none).cells ∈ cellOr p none * R := assign_cell hp hlive
  exact ⟨(), _, free_of_cell hlive, hg, keeps_assign hlive _, hcells⟩

/-! ### Sequences -/

lemma reads_pure (P : Assertion α) (b : β) : Reads P (pure b) b :=
  triple_pure (only_mul_of rfl P).ge

lemma reads_whenNull (P : Assertion α) (p : ℕ) (action : Mem α Unit) :
    Reads P (whenNull (some p) action) () := reads_pure P ()

lemma reads_ex {P : ι → Assertion α} (h : ∀ i, Reads (P i) x d) : Reads (ex P) x d := by
  refine triple_ex fun i => Triple.mono (h i) le_rfl fun r => ?_
  exact mul_le_mul' le_rfl (le_ex P i)

lemma reads_only (h : φ → Reads P x d) : Reads (only φ * P) x d := by
  refine triple_only fun hφ => ?_
  rw [only_mul_of hφ]
  exact h hφ

lemma Reads.bind (hx : Reads P x d) (hf : Triple P (f d) S) : Triple P (x >>= f) S := by
  refine Triple.bind hx fun r => triple_only ?_
  rintro rfl
  exact hf

lemma Reads.step (hx : Reads P x d) (F : Assertion α) (hpre : P' = P * F)
    (hf : Triple P' (f d) S) : Triple P' (x >>= f) S := by
  refine Triple.step hx F hpre fun r => ?_
  rw [mul_assoc]
  apply triple_only
  rintro rfl
  rwa [← hpre]

lemma Reads.frame (hx : Reads P x d) (F : Assertion α) : Reads (P * F) x d := by
  apply (Triple.frame hx F).mono le_rfl
  intro r
  rw [mul_assoc]

lemma Reads.last (hx : Reads P x d) (F : Assertion α) (hpre : P' = P * F) : Reads P' x d :=
  hpre ▸ hx.frame F

/-- A call that adds something to which its result points. -/
lemma triple_returned {T : ℕ → Assertion α} {r : Option ℕ} {y : Mem α γ}
    (h : ∀ p, r = some p → Triple (T p * P) y S) : Triple (returned T r * P) y S := by
  rw [returned, ex_mul]
  refine triple_ex fun p => ?_
  rw [mul_assoc]
  exact triple_only (h p)

lemma Triple.adds {T : ℕ → Assertion α} {x : Mem α (Option ℕ)} {f : Option ℕ → Mem α γ}
    (hx : Triple P x fun r => returned T r * P) (F : Assertion α) (hpre : P' = P * F)
    (hf : ∀ p, Triple (T p * P') (f (some p)) S) : Triple P' (x >>= f) S := by
  refine hx.step F hpre fun r => ?_
  rw [mul_assoc, ← hpre]
  apply triple_returned
  rintro p rfl
  exact hf p

lemma triple_malloc_step {f : Option ℕ → Mem α γ}
    (hf : ∀ p, Triple (cell p b * P) (f (some p)) S) : Triple P (malloc b >>= f) S := by
  refine (triple_malloc b).step P (one_mul P).symm fun r => triple_returned ?_
  rintro p rfl
  exact hf p

/-! ### How much is live -/

/-- How many addresses have been given out. -/
def allocated : Mem α ℕ := fun h => .ok (h.next, h)

/-- The part has at least `k` live cells. -/
def AtLeast (P : Assertion α) (k : ℕ) : Prop :=
  ∀ c ∈ P, ∃ ps : List ℕ, ps.Nodup ∧ (∀ p ∈ ps, c p ≠ none) ∧ k ≤ ps.length

lemma AtLeast.zero (P : Assertion α) : AtLeast P 0 :=
  fun _ _ => ⟨[], List.nodup_nil, fun _ h => absurd h List.not_mem_nil, le_rfl⟩

lemma AtLeast.cell (p : ℕ) (b : α) : AtLeast (cell p b) 1 := by
  rintro _ rfl
  refine ⟨[p], List.nodup_singleton p, ?_, le_rfl⟩
  simp

lemma AtLeast.mul {Q : Assertion α} {j k : ℕ} (hj : AtLeast P j) (hk : AtLeast Q k) :
    AtLeast (P * Q) (j + k) := by
  rintro _ ⟨c₁, hp, c₂, hq, hapart, rfl⟩
  obtain ⟨ps, hnodup, hlive, hlen⟩ := hj c₁ hp
  obtain ⟨qs, hnodup', hlive', hlen'⟩ := hk c₂ hq
  have hdisjoint : ps.Disjoint qs := by
    intro q hmem hmem'
    rcases hapart q with hnone | hnone
    · exact hlive q hmem hnone
    · exact hlive' q hmem' hnone
  refine ⟨ps ++ qs, hnodup.append hnodup' hdisjoint, ?_, ?_⟩
  · intro q hmem hnone
    rcases List.mem_append.mp hmem with hmem | hmem
    · exact hlive q hmem (join_eq_none.mp hnone).1
    · exact hlive' q hmem (join_eq_none.mp hnone).2
  · rw [List.length_append]
    exact Nat.add_le_add hlen hlen'

lemma AtLeast.ex {P : ι → Assertion α} {k : ℕ} (h : ∀ i, AtLeast (P i) k) :
    AtLeast (ex P) k := fun c ⟨i, hp⟩ => h i c hp

lemma AtLeast.only_mul {k : ℕ} (h : φ → AtLeast P k) : AtLeast (only φ * P) k := fun c hp =>
  h (mem_only_mul.mp hp).1 c (mem_only_mul.mp hp).2

lemma triple_allocated {k : ℕ} (hk : AtLeast P k) :
    Triple P allocated fun n => only (k ≤ n) * P := by
  intro R h hg hp
  refine ⟨h.next, h, rfl, hg, Keeps.refl h, ?_⟩
  obtain ⟨c₁, hc, c₂, -, -, hcells⟩ := id hp
  obtain ⟨ps, hnodup, hlive, hlen⟩ := hk c₁ hc
  have hlt : ∀ p ∈ ps, p < h.next := by
    intro p hmem
    apply Heap.lt_next
    rw [hcells]
    intro hnone
    exact hlive p hmem (join_eq_none.mp hnone).1
  have hcard : ps.length ≤ h.next := by
    rw [← List.length_range (n := h.next)]
    exact (hnodup.subperm fun p hmem => List.mem_range.mpr (hlt p hmem)).length_le
  beta_reduce
  rw [only_mul_of (hlen.trans hcard)]
  exact hp

/-- What a program leaves behind, beside the part of the heap that is not its own. -/
theorem Triple.leaves_beside {φ : β → Prop} {k : ℕ} {others : ℕ → Option α}
    (hx : Triple P x fun r => only (φ r) * held k) (h : Heap α) (hg : h.Granted)
    (hown : h.cells ∈ P * exactly others) :
    ∃ r h', x h = .ok (r, h') ∧ φ r ∧ (∀ p, others p ≠ none → h'.cells p = others p) ∧
      {p | h'.cells p ≠ none ∧ others p = none}.ncard = k := by
  obtain ⟨r, h', hrun, -, -, hq⟩ := hx (exactly others) h hg hown
  beta_reduce at hq
  rw [mul_assoc, mem_only_mul] at hq
  obtain ⟨hr, c, ⟨ps, hnodup, hlen, hlive⟩, c', hrest, hapart, hcells⟩ := hq
  obtain rfl : others = c' := hrest.symm
  refine ⟨r, h', hrun, hr, fun p hp => ?_, ?_⟩
  · rw [hcells, join, (hapart p).resolve_right hp]
    rfl
  · have hset : {p | h'.cells p ≠ none ∧ others p = none} = ↑ps.toFinset := by
      ext p
      rw [Set.mem_ofPred_eq, List.coe_toFinset, Set.mem_ofPred_eq, ← hlive, hcells, Ne,
        join_eq_none]
      constructor
      · rintro ⟨hnot, hdead⟩ hnone
        exact hnot ⟨hnone, hdead⟩
      · intro hp
        exact ⟨fun hnone => hp hnone.1, (hapart p).resolve_left hp⟩
    rw [hset, Set.ncard_coe_finset, List.toFinset_card_of_nodup hnodup, hlen]

/-- A program that starts with nothing of its own. -/
theorem Triple.leaves {φ : β → Prop} {k : ℕ} (hx : Triple 1 x fun r => only (φ r) * held k)
    (h : Heap α) (hg : h.Granted) :
    ∃ r h', x h = .ok (r, h') ∧ φ r ∧ (∀ p, h.cells p ≠ none → h'.cells p = h.cells p) ∧
      {p | h'.cells p ≠ none ∧ h.cells p = none}.ncard = k := by
  apply hx.leaves_beside h hg
  rw [one_mul]
  rfl

end

end Memory
