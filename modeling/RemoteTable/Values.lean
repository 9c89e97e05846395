import Mathlib

/-!
# Strings, data blocks and entries

Copies made by `strdup`, `data_dup` and `entry_dup` are values here. A `CString` is what
`strlen` and `strcmp` see of a `char *`, and a `DataT` is a block that `data_create` accepted.
-/

namespace RemoteTable

/-- What an execution can run into when the C standard gives it no meaning. -/
inductive Fault
  /-- A read or write outside the object that the pointer refers to. -/
  | outOfBounds
  /-- Use of a variable or of allocated memory that was never assigned. -/
  | uninitialised
  /-- Access to a member of `content_u` other than the one `c_type` makes live. -/
  | deadMember
  /-- A dereference of `NULL`. -/
  | nullDeref
  deriving DecidableEq, Repr

section Outcomes

variable {α β : Type}

-- stated away from `rfl`: a rewrite then leaves the branches of `f` folded
lemma ok_bind (a : α) (f : α → Except Fault β) : (Except.ok a >>= f) = f a := id rfl

lemma error_bind (e : Fault) (f : α → Except Fault β) :
    ((Except.error e : Except Fault α) >>= f) = .error e := id rfl

lemma pure_eq_ok (a : α) : (pure a : Except Fault α) = .ok a := rfl

lemma throw_eq_error (e : Fault) : (throw e : Except Fault α) = .error e := rfl

/-- The first of two computations in a sequence that ends normally. -/
lemma bind_eq_ok {x : Except Fault α} {f : α → Except Fault β} {b : β}
    (h : (x >>= f) = .ok b) : ∃ a, x = .ok a ∧ f a = .ok b := by
  cases x with
  | error e => cases h
  | ok a => exact ⟨a, rfl, h⟩

end Outcomes

/-- A NUL-terminated string, without its terminator. -/
@[ext] structure CString where
  bytes : List UInt8
  nulFree : ∀ b ∈ bytes, b ≠ 0

/-- The string that starts at the first of `bytes`, when a NUL follows the last. -/
def CString.ofBytes (bytes : List UInt8) : CString :=
  ⟨bytes.takeWhile (· ≠ 0), fun b hb => by simpa using List.mem_takeWhile_imp hb⟩

def strlen (s : CString) : ℕ := s.bytes.length

/-- `struct data_t`: a block of `datasize` bytes, where `data_create` refuses sizes below one. -/
@[ext] structure DataT where
  bytes : List UInt8
  positive : 0 < bytes.length
  fits : bytes.length < 2 ^ 31
  deriving DecidableEq

def DataT.datasize (d : DataT) : ℕ := d.bytes.length

lemma ofBytes_of_nulFree (s : CString) : CString.ofBytes s.bytes = s := by
  apply CString.ext
  exact List.takeWhile_eq_self_iff.mpr (fun b hb => by simpa using s.nulFree b hb)

lemma strlen_ofBytes_le (bytes : List UInt8) : strlen (CString.ofBytes bytes) ≤ bytes.length :=
  (List.takeWhile_prefix _).length_le

/-! ### Comparison of strings -/

/-- The byte comparison loop of `strcmp`, where the terminator is below every other byte. -/
def strcmpBytes : List UInt8 → List UInt8 → ℤ
  | [], [] => 0
  | [], b :: _ => -(b.toNat : ℤ)
  | a :: _, [] => a.toNat
  | a :: as, b :: bs => if a = b then strcmpBytes as bs else (a.toNat : ℤ) - b.toNat

def strcmp (s t : CString) : ℤ := strcmpBytes s.bytes t.bytes

/-- The characters of a string as unsigned values. -/
def CString.codes (s : CString) : List ℕ := s.bytes.map UInt8.toNat

lemma codes_injective : Function.Injective CString.codes := by
  intro s t h
  exact CString.ext (List.map_injective_iff.mpr (fun _ _ => UInt8.toNat_inj.mp) h)

/-- Strings are ordered as `strcmp` orders them. -/
instance : LinearOrder CString := LinearOrder.lift' CString.codes codes_injective

lemma toNat_pos_of_ne_zero {b : UInt8} (h : b ≠ 0) : 0 < b.toNat :=
  Nat.pos_of_ne_zero (fun h0 => h (UInt8.toNat_inj.mp h0))

lemma strcmpBytes_neg_iff (as bs : List UInt8) (hb : ∀ b ∈ bs, b ≠ 0) :
    strcmpBytes as bs < 0 ↔ as.map UInt8.toNat < bs.map UInt8.toNat := by
  induction as generalizing bs with
  | nil =>
    cases bs with
    | nil => simp [strcmpBytes]
    | cons b bs =>
      have := toNat_pos_of_ne_zero (hb b List.mem_cons_self)
      simp only [strcmpBytes, List.map_nil, List.map_cons, List.nil_lt_cons, iff_true]
      omega
  | cons a as ih =>
    cases bs with
    | nil => simp [strcmpBytes]
    | cons b bs =>
      have hbs : ∀ x ∈ bs, x ≠ 0 := fun x hx => hb x (List.mem_cons_of_mem _ hx)
      simp only [strcmpBytes, List.map_cons, List.cons_lt_cons_iff]
      by_cases hab : a = b
      · subst hab
        simp [ih bs hbs]
      · have hne : a.toNat ≠ b.toNat := fun h => hab (UInt8.toNat_inj.mp h)
        simp only [if_neg hab, hne, false_and, or_false]
        omega

lemma strcmpBytes_pos_iff (as bs : List UInt8) (ha : ∀ a ∈ as, a ≠ 0) :
    0 < strcmpBytes as bs ↔ bs.map UInt8.toNat < as.map UInt8.toNat := by
  induction as generalizing bs with
  | nil =>
    cases bs <;> simp [strcmpBytes]
  | cons a as ih =>
    have hapos := toNat_pos_of_ne_zero (ha a List.mem_cons_self)
    cases bs with
    | nil =>
      simp only [strcmpBytes, List.map_nil, List.map_cons, List.nil_lt_cons, iff_true]
      omega
    | cons b bs =>
      have has : ∀ x ∈ as, x ≠ 0 := fun x hx => ha x (List.mem_cons_of_mem _ hx)
      simp only [strcmpBytes, List.map_cons, List.cons_lt_cons_iff]
      by_cases hab : a = b
      · subst hab
        simp [ih bs has]
      · have hne : b.toNat ≠ a.toNat := fun h => hab (UInt8.toNat_inj.mp h.symm)
        simp only [if_neg hab, hne, false_and, or_false]
        omega

@[simp] lemma strcmp_neg_iff (s t : CString) : strcmp s t < 0 ↔ s < t :=
  strcmpBytes_neg_iff s.bytes t.bytes t.nulFree

@[simp] lemma strcmp_pos_iff (s t : CString) : 0 < strcmp s t ↔ t < s :=
  strcmpBytes_pos_iff s.bytes t.bytes s.nulFree

@[simp] lemma strcmp_eq_zero_iff (s t : CString) : strcmp s t = 0 ↔ s = t := by
  have hn := strcmp_neg_iff s t
  have hp := strcmp_pos_iff s t
  constructor
  · intro h
    rw [h] at hn hp
    exact le_antisymm (not_lt.mp (by simpa using hp)) (not_lt.mp (by simpa using hn))
  · rintro rfl
    have h1 : ¬strcmp s s < 0 := by simp
    have h2 : ¬0 < strcmp s s := by simp
    omega

/-! ### Entries -/

/-- `struct entry_t` -/
@[ext] structure EntryT where
  key : CString
  value : DataT
  deriving DecidableEq

/-! ### Arrays of characters -/

/-- A `char` array of `size` bytes with a string in it. -/
structure CharBuffer (size : ℕ) where
  string : CString
  fits : strlen string < size

/-- `strcpy` into a new array -/
def strcpy (size : ℕ) (s : CString) : Except Fault (CharBuffer size) :=
  if h : strlen s < size then .ok ⟨s, h⟩ else .error .outOfBounds

/-- `strcat(buffer, s)` -/
def strcat {size : ℕ} (buffer : CharBuffer size) (s : CString) :
    Except Fault (CharBuffer size) :=
  if h : strlen buffer.string + strlen s < size then
    .ok ⟨⟨buffer.string.bytes ++ s.bytes, fun b hb => (List.mem_append.mp hb).elim
      (buffer.string.nulFree b) (s.nulFree b)⟩, by simpa [strlen] using h⟩
  else .error .outOfBounds

lemma strcpy_of_lt {size : ℕ} {s : CString} (h : strlen s < size) :
    ∃ buffer, strcpy size s = .ok buffer ∧ buffer.string = s := by
  rw [strcpy, dif_pos h]
  exact ⟨_, rfl, rfl⟩

lemma strcat_of_lt {size : ℕ} {buffer : CharBuffer size} {s : CString}
    (h : strlen buffer.string + strlen s < size) :
    ∃ buffer', strcat buffer s = .ok buffer' ∧
      buffer'.string.bytes = buffer.string.bytes ++ s.bytes := by
  rw [strcat, dif_pos h]
  exact ⟨_, rfl, rfl⟩

lemma strcat_of_le {size : ℕ} {buffer : CharBuffer size} {s : CString}
    (h : size ≤ strlen buffer.string + strlen s) : strcat buffer s = .error .outOfBounds :=
  dif_neg (by omega)

end RemoteTable
