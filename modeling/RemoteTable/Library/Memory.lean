import Mathlib.Logic.Function.Basic
import Mathlib.Data.Nat.Notation
import Mathlib.Tactic.Common
import Mathlib.Order.Nat

/-!
# Memory that is allocated and released

A heap of blocks by address. Every allocation may fail, an address is given out once, and a
block that was released can neither be used nor be released again.
-/

namespace Memory

/-- What ends an execution: the use of `NULL`, of a released block, of a part that a block does
not have, or of one that was never assigned. -/
inductive Fault
  | null
  | released
  | outside
  | unset
  deriving DecidableEq

/-- The live blocks. `grants k` tells whether the allocation after `k` others succeeds. -/
@[ext] structure Heap (α : Type*) where
  cells : ℕ → Option α
  next : ℕ
  grants : ℕ → Bool
  fresh : ∀ p, next ≤ p → cells p = none

abbrev Mem (α β : Type) := StateT (Heap α) (Except Fault) β

variable {α β γ : Type}

/-- The heap after an allocation that failed. -/
def Heap.refuse (h : Heap α) : Heap α := ⟨h.cells, h.next, fun k => h.grants (k + 1), h.fresh⟩

def Heap.allocate (h : Heap α) (block : α) : Heap α where
  cells := Function.update h.cells h.next (some block)
  next := h.next + 1
  grants := fun k => h.grants (k + 1)
  fresh p hp := by
    rw [Function.update_of_ne (by omega)]
    exact h.fresh p (by omega)

lemma Heap.lt_next {h : Heap α} {p : ℕ} (hp : h.cells p ≠ none) : p < h.next := by
  by_contra hle
  exact hp (h.fresh p (by omega))

/-- The heap with another content in a live block. -/
def Heap.assign (h : Heap α) (p : ℕ) (hp : h.cells p ≠ none) (block : Option α) : Heap α where
  cells := Function.update h.cells p block
  next := h.next
  grants := h.grants
  fresh q hq := by
    have hlt := Heap.lt_next hp
    rw [Function.update_of_ne (by omega)]
    exact h.fresh q hq

/-- A new block, or `NULL`. -/
def malloc (block : α) : Mem α (Option ℕ) := fun h =>
  if h.grants 0 then .ok (some h.next, h.allocate block) else .ok (none, h.refuse)

def read : Option ℕ → Mem α α
  | none => fun _ => .error .null
  | some p => fun h =>
    match h.cells p with
    | none => .error .released
    | some block => .ok (block, h)

def write : Option ℕ → α → Mem α Unit
  | none, _ => fun _ => .error .null
  | some p, block => fun h =>
    if hp : h.cells p = none then .error .released else .ok ((), h.assign p hp (some block))

/-- Releases a block; `NULL` is left alone. -/
def free : Option ℕ → Mem α Unit
  | none => fun h => .ok ((), h)
  | some p => fun h =>
    if hp : h.cells p = none then .error .released else .ok ((), h.assign p hp none)

/-- `if (p == NULL) { .. }` -/
def whenNull (p : Option ℕ) (action : Mem α Unit) : Mem α Unit :=
  if p = none then action else pure ()

/-! ### Sequences -/

variable {h h' h'' : Heap α} {x : Mem α β} {f : β → Mem α γ} {b : β} {p q : ℕ} {block : α}

lemma bind_of_ok (hx : x h = .ok (b, h')) : (x >>= f) h = f b h' := by
  change (x h >>= fun s => f s.1 s.2) = f b h'
  rw [hx]
  rfl

lemma bind_of_error {e : Fault} (hx : x h = .error e) : (x >>= f) h = .error e := by
  change (x h >>= fun s => f s.1 s.2) = .error e
  rw [hx]
  rfl

lemma bind_inv {s : γ × Heap α} (hrun : (x >>= f) h = .ok s) :
    ∃ b h', x h = .ok (b, h') ∧ f b h' = .ok s := by
  cases hx : x h with
  | error e =>
    rw [bind_of_error hx] at hrun
    cases hrun
  | ok t =>
    rw [bind_of_ok hx] at hrun
    exact ⟨t.1, t.2, rfl, hrun⟩

/-- Two first parts with the same outcome. -/
lemma bind_congr {y : Mem α β} (hxy : x h = y h') : (x >>= f) h = (y >>= f) h' := by
  change (x h >>= fun s => f s.1 s.2) = (y h' >>= fun s => f s.1 s.2)
  rw [hxy]

lemma pure_run (b : β) (h : Heap α) : (pure b : Mem α β) h = .ok (b, h) := rfl

/-- The execution has no end. -/
def Faults (x : Mem α β) (h : Heap α) : Prop := ∃ e, x h = .error e

lemma Faults.bind (hx : Faults x h) : Faults (x >>= f) h := by
  obtain ⟨e, he⟩ := hx
  exact ⟨e, bind_of_error he⟩

lemma faults_of_ok (hx : x h = .ok (b, h')) (hf : Faults (f b) h') : Faults (x >>= f) h := by
  obtain ⟨e, he⟩ := hf
  exact ⟨e, (bind_of_ok hx).trans he⟩

/-- A sequence faults when its second part does after every result of the first. -/
lemma faults_bind (hf : ∀ b h', x h = .ok (b, h') → Faults (f b) h') : Faults (x >>= f) h := by
  cases hx : x h with
  | error e => exact ⟨e, bind_of_error hx⟩
  | ok s => exact faults_of_ok hx (hf s.1 s.2 hx)

lemma Faults.ne_ok (hx : Faults x h) {s : β × Heap α} : x h ≠ .ok s := by
  obtain ⟨e, he⟩ := hx
  rw [he]
  exact fun hs => by cases hs

/-! ### Single calls -/

lemma malloc_granted (hg : h.grants 0 = true) (block : α) :
    malloc block h = .ok (some h.next, h.allocate block) := if_pos hg

lemma malloc_refused (hg : h.grants 0 = false) (block : α) :
    malloc block h = .ok (none, h.refuse) := if_neg (by simp [hg])

lemma read_of_cell (hp : h.cells p = some block) : read (some p) h = .ok (block, h) := by
  simp only [read, hp]

lemma read_released (hp : h.cells p = none) : read (α := α) (some p) h = .error .released := by
  simp only [read, hp]

lemma write_of_cell (hp : h.cells p ≠ none) (block : α) :
    write (some p) block h = .ok ((), h.assign p hp (some block)) := by
  simp only [write, dif_neg hp]

lemma free_of_cell (hp : h.cells p ≠ none) :
    free (α := α) (some p) h = .ok ((), h.assign p hp none) := by
  simp only [free, dif_neg hp]

lemma free_released (hp : h.cells p = none) : free (α := α) (some p) h = .error .released := by
  simp only [free, dif_pos hp]

@[simp] lemma allocate_next_cell (h : Heap α) (block : α) :
    (h.allocate block).cells h.next = some block := Function.update_self _ _ _

lemma allocate_cells_of_ne (h : Heap α) (block : α) (hp : p ≠ h.next) :
    (h.allocate block).cells p = h.cells p := Function.update_of_ne hp _ _

lemma free_null (h : Heap α) : free (α := α) none h = .ok ((), h) := rfl

@[simp] lemma assign_self (hp : h.cells p ≠ none) (content : Option α) :
    (h.assign p hp content).cells p = content := Function.update_self _ _ _

lemma assign_cells_of_ne (hp : h.cells p ≠ none) (content : Option α) (hq : q ≠ p) :
    (h.assign p hp content).cells q = h.cells q := Function.update_of_ne hq _ _

/-- What was released is not live. -/
lemma free_dead (hrun : free (α := α) (some p) h = .ok ((), h')) : h'.cells p = none := by
  by_cases hp : h.cells p = none
  · rw [free_released hp] at hrun
    cases hrun
  · rw [free_of_cell hp] at hrun
    cases hrun
    exact assign_self hp none

lemma ne_of_cells {block' : α} (hp : h.cells p = some block) (hq : h.cells q = some block')
    (hne : block ≠ block') : p ≠ q := by
  rintro rfl
  rw [hp, Option.some.injEq] at hq
  exact hne hq

lemma whenNull_some (p : ℕ) (action : Mem α Unit) (h : Heap α) :
    whenNull (some p) action h = .ok ((), h) := rfl

lemma whenNull_none (action : Mem α Unit) : whenNull none action = action := rfl

/-! ### What a call leaves alone -/

/-- After `k` allocations the blocks that were there before are as they were. -/
structure Extends (k : ℕ) (h h' : Heap α) : Prop where
  kept : ∀ p < h.next, h'.cells p = h.cells p
  next_le : h.next ≤ h'.next
  grants : ∀ m, h'.grants m = h.grants (m + k)

lemma Extends.refl (h : Heap α) : Extends 0 h h := ⟨fun _ _ => rfl, le_refl _, fun _ => rfl⟩

lemma Extends.trans {k l : ℕ} (h₁ : Extends k h h') (h₂ : Extends l h' h'') :
    Extends (k + l) h h'' := by
  refine ⟨?_, h₁.next_le.trans h₂.next_le, ?_⟩
  · intro p hp
    rw [h₂.kept p (lt_of_lt_of_le hp h₁.next_le), h₁.kept p hp]
  · intro m
    rw [h₂.grants, h₁.grants]
    exact congrArg h.grants (by omega)

lemma extends_refuse (h : Heap α) : Extends 1 h h.refuse :=
  ⟨fun _ _ => rfl, le_refl _, fun _ => rfl⟩

lemma extends_allocate (h : Heap α) (block : α) : Extends 1 h (h.allocate block) := by
  refine ⟨?_, Nat.le_succ _, fun _ => rfl⟩
  intro p hp
  exact allocate_cells_of_ne h block (Nat.ne_of_lt hp)

/-- A change of a block that is new. -/
lemma Extends.assign {k : ℕ} (he : Extends k h h') (hp : h'.cells p ≠ none)
    (hnew : h.next ≤ p) (content : Option α) : Extends k h (h'.assign p hp content) := by
  refine ⟨?_, he.next_le, he.grants⟩
  intro q hq
  rw [assign_cells_of_ne hp content (by omega), he.kept q hq]

lemma Extends.cell {k : ℕ} (he : Extends k h h') (hp : h.cells p = some block) :
    h'.cells p = some block := by
  rw [he.kept p (Heap.lt_next (by simp [hp])), hp]

/-- What has been given out and is not live stays so. -/
lemma Extends.dead {k : ℕ} (he : Extends k h h') (hp : h.cells p = none) (hlt : p < h.next) :
    h'.cells p = none := by
  rw [he.kept p hlt, hp]

end Memory
