import RemoteTable.Values
import RemoteTable.Library.Tokens
import RemoteTable.Library.Decimal

/-!
# The arguments of the client

`testArgs` takes an address apart at dots and colons alike and looks at the numbers one after
the other. When its verdict is that of the form `a.b.c.d:port`.
-/

namespace RemoteTable
open Tokens Decimal

/-! ### The check -/

/-- The delimiters `".:"` -/
def dotOrColon (c : UInt8) : Bool := c = 46 ∨ c = 58

/-- `atoi(token)` -/
def atoiToken (buf : List UInt8) : Option ℕ → Except Fault ℤ
  | none => .error .nullDeref
  | some token => .ok (atoi (stringAt buf token))

/-- The rounds of the loop over the address that are left: `n` is checked, then the next number
read. `none` is the return of -1. -/
def ipLoop : ℕ → ℤ → List UInt8 → ℕ → Except Fault (Option ℤ)
  | 0, n, _, _ => .ok (some n)
  | rounds + 1, n, buf, pos => do
    if n < 0 ∨ n > 255 then
      return none
    let (token, buf, pos) := strtok dotOrColon buf pos
    let n ← atoiToken buf token
    ipLoop rounds n buf pos

/-- One turn of the outer loop; `false` where it returns -1. -/
def testArg (arg : CString) : Except Fault Bool := do
  let (token, buf, pos) := strtok dotOrColon (arg.bytes ++ [0]) 0
  let n ← atoiToken buf token
  match ← ipLoop 4 n buf pos with
  | none => return false
  | some n => return !(n < 0 ∨ n > 65535)

def testArgs (argv : List CString) : Except Fault ℤ := do
  match argv with
  | [_, serverOne, serverTwo] =>
    if ← testArg serverOne then
      if ← testArg serverTwo then
        return 0
      return -1
    return -1
  | _ => return -1

/-! ### The form of an address -/

/-- Four numbers up to 255 with dots between them, a colon and a port. -/
def ServerText (text : List UInt8) : Prop :=
  ∃ a b c d port, Numeral 255 a ∧ Numeral 255 b ∧ Numeral 255 c ∧ Numeral 255 d ∧
    Numeral 65535 port ∧ text = a ++ 46 :: (b ++ 46 :: (c ++ 46 :: (d ++ 58 :: port)))

/-- The bounds that the numbers are compared with. -/
def argLimits : List ℤ := [255, 255, 255, 255, 65535]

def InRange (limit : ℤ) (token : List UInt8) : Prop := 0 ≤ atoi token ∧ atoi token ≤ limit

instance (limit : ℤ) (token : List UInt8) : Decidable (InRange limit token) :=
  inferInstanceAs (Decidable (_ ∧ _))

/-- There are as many numbers as bounds, each in its own. -/
def AllInRange : List ℤ → List (List UInt8) → Prop
  | [], _ => True
  | _ :: _, [] => False
  | limit :: limits, token :: tokens => InRange limit token ∧ AllInRange limits tokens

/-- Among the first numbers, as many as there are bounds, one is out of its own. -/
def SomeOutOfRange : List ℤ → List (List UInt8) → Prop
  | [], _ => False
  | _ :: _, [] => False
  | limit :: limits, token :: tokens => ¬InRange limit token ∨ SomeOutOfRange limits tokens

/-- The numbers of an argument, as `atoi` reads them between dots and colons. -/
def Accepted (arg : CString) : Prop := AllInRange argLimits (tokens dotOrColon arg.bytes)

def Rejected (arg : CString) : Prop := SomeOutOfRange argLimits (tokens dotOrColon arg.bytes)

lemma not_allInRange {limits : List ℤ} {ts : List (List UInt8)} (h : SomeOutOfRange limits ts) :
    ¬AllInRange limits ts := by
  induction limits generalizing ts with
  | nil => exact absurd h id
  | cons limit limits ih =>
    cases ts with
    | nil => exact id
    | cons token ts =>
      rintro ⟨hin, hall⟩
      rcases h with hout | h
      · exact hout hin
      · exact ih h hall

/-! ### The check of one argument -/

/-- What the loop makes of the tokens: too few of them end in a `NULL` for `atoi`. -/
inductive ArgResult (limits : List ℤ) (ts : List (List UInt8)) : Except Fault Bool → Prop
  | accepted (h : AllInRange limits ts) : ArgResult limits ts (.ok true)
  | rejected (h : SomeOutOfRange limits ts) : ArgResult limits ts (.ok false)
  | missing (ha : ¬AllInRange limits ts) (hr : ¬SomeOutOfRange limits ts) :
      ArgResult limits ts (.error .nullDeref)

lemma ipLoop_result (rounds : ℕ) (token : List UInt8) {text buf : List UInt8} {pos : ℕ}
    (h : Holds buf pos text) :
    ArgResult (List.replicate rounds 255 ++ [65535]) (token :: tokens dotOrColon text)
      (ipLoop rounds (atoi token) buf pos >>= fun
        | none => .ok false
        | some n => .ok (!(n < 0 ∨ n > 65535))) := by
  induction rounds generalizing token text buf pos with
  | zero =>
    rw [ipLoop, ok_bind]
    by_cases hin : InRange 65535 token
    · have hcheck : ¬(atoi token < 0 ∨ atoi token > 65535) := by
        unfold InRange at hin
        omega
      simp only [hcheck, decide_false, Bool.not_false]
      exact .accepted ⟨hin, trivial⟩
    · have hcheck : atoi token < 0 ∨ atoi token > 65535 := by
        unfold InRange at hin
        omega
      simp only [hcheck, decide_true, Bool.not_true]
      exact .rejected (Or.inl hin)
  | succ rounds ih =>
    rw [List.replicate_succ, List.cons_append, ipLoop]
    by_cases hin : InRange 255 token
    · have hcheck : ¬(atoi token < 0 ∨ atoi token > 255) := by
        unfold InRange at hin
        omega
      rw [if_neg hcheck]
      rcases strtok_cases dotOrColon h with ⟨hnil, hcall⟩ | ⟨next, rest, i, buf', pos', hcons,
        hcall, hstr, hrest⟩
      · -- `atoi(NULL)`
        simp only [hcall, atoiToken, error_bind, hnil]
        have hlimits : List.replicate rounds (255 : ℤ) ++ [65535] ≠ [] := by simp
        obtain ⟨limit, limits, hcons⟩ := List.exists_cons_of_ne_nil hlimits
        rw [hcons]
        exact .missing (fun ha => ha.2) (fun hr => hr.elim (fun hout => hout hin) id)
      · simp only [hcall, atoiToken, hstr, ok_bind, hcons]
        have hnext := ih next hrest
        generalize (ipLoop rounds (atoi next) buf' pos' >>= _) = result at hnext
        cases hnext with
        | accepted ha => exact .accepted ⟨hin, ha⟩
        | rejected hr => exact .rejected (Or.inr hr)
        | missing ha hr =>
          exact .missing (fun h => ha h.2) (fun h => h.elim (fun hout => hout hin) hr)
    · have hcheck : atoi token < 0 ∨ atoi token > 255 := by
        unfold InRange at hin
        omega
      rw [if_pos hcheck, pure_eq_ok, ok_bind]
      exact .rejected (Or.inl hin)

theorem testArg_result (arg : CString) :
    ArgResult argLimits (tokens dotOrColon arg.bytes) (testArg arg) := by
  have hstart : Holds (arg.bytes ++ [0]) 0 arg.bytes := holds_zero arg.nulFree []
  rcases strtok_cases dotOrColon hstart with ⟨hnil, hcall⟩ | ⟨token, rest, i, buf, pos, hcons,
    hcall, hstr, hrest⟩
  · simp only [testArg, hcall, atoiToken, error_bind, hnil]
    exact .missing id id
  · have hresult := ipLoop_result 4 token hrest
    simp only [testArg, hcall, atoiToken, hstr, ok_bind, hcons]
    exact hresult

/-! ### Both arguments -/

lemma not_dotOrColon {limit : ℕ} {ds : List UInt8} (h : Numeral limit ds) :
    ∀ c ∈ ds, dotOrColon c = false := by
  intro c hc
  have hdigit := h.digits c hc
  have hdot : c ≠ 46 := by
    rintro rfl
    exact absurd hdigit (by decide)
  have hcolon : c ≠ 58 := by
    rintro rfl
    exact absurd hdigit (by decide)
  simp [dotOrColon, hdot, hcolon]

lemma inRange_numeral {limit : ℕ} (hlimit : limit < 2 ^ 31) {ds : List UInt8}
    (h : Numeral limit ds) : InRange limit ds := by
  have hle := h.le
  rw [InRange, atoi_numeral h hlimit]
  omega

/-- An address is taken apart into its five numbers. -/
theorem accepted_of_serverText {arg : CString} (h : ServerText arg.bytes) : Accepted arg := by
  obtain ⟨a, b, c, d, port, ha, hb, hc, hd, hport, htext⟩ := h
  have hdot : dotOrColon 46 = true := by decide
  have hcolon : dotOrColon 58 = true := by decide
  rw [Accepted, htext, tokens_append_cons (not_dotOrColon ha) ha.nonempty hdot,
    tokens_append_cons (not_dotOrColon hb) hb.nonempty hdot,
    tokens_append_cons (not_dotOrColon hc) hc.nonempty hdot,
    tokens_append_cons (not_dotOrColon hd) hd.nonempty hcolon,
    tokens_single (not_dotOrColon hport) hport.nonempty]
  have h255 : 255 < 2 ^ 31 := by norm_num
  exact ⟨inRange_numeral h255 ha, inRange_numeral h255 hb, inRange_numeral h255 hc,
    inRange_numeral h255 hd, inRange_numeral (by norm_num) hport, trivial⟩

variable {name serverOne serverTwo : CString}

lemma testArgs_eq :
    testArgs [name, serverOne, serverTwo] = testArg serverOne >>= fun one =>
      if one then testArg serverTwo >>= fun two => if two then .ok 0 else .ok (-1)
      else .ok (-1) := rfl

lemma testArgs_eq_zero_iff :
    testArgs [name, serverOne, serverTwo] = .ok 0 ↔ Accepted serverOne ∧ Accepted serverTwo := by
  have h1 := testArg_result serverOne
  have h2 := testArg_result serverTwo
  rw [testArgs_eq]
  unfold Accepted
  generalize testArg serverOne = result at h1
  generalize testArg serverTwo = result' at h2
  cases h1 with
  | accepted ha =>
    cases h2 with
    | accepted ha' => exact iff_of_true rfl ⟨ha, ha'⟩
    | rejected hr => exact iff_of_false (by simp [ok_bind]) (fun h => not_allInRange hr h.2)
    | missing hn hr => exact iff_of_false (by simp [ok_bind, error_bind]) (fun h => hn h.2)
  | rejected hr => exact iff_of_false (by simp [ok_bind]) (fun h => not_allInRange hr h.1)
  | missing hn hr => exact iff_of_false (by simp [error_bind]) (fun h => hn h.1)

lemma testArgs_eq_minus_one_iff :
    testArgs [name, serverOne, serverTwo] = .ok (-1) ↔
      Rejected serverOne ∨ Accepted serverOne ∧ Rejected serverTwo := by
  have h1 := testArg_result serverOne
  have h2 := testArg_result serverTwo
  rw [testArgs_eq]
  unfold Accepted Rejected
  generalize testArg serverOne = result at h1
  generalize testArg serverTwo = result' at h2
  cases h1 with
  | accepted ha =>
    have hr1 : ¬SomeOutOfRange argLimits (tokens dotOrColon serverOne.bytes) :=
      fun hr => not_allInRange hr ha
    cases h2 with
    | accepted ha' =>
      refine iff_of_false (by simp [ok_bind]) (not_or.mpr ⟨hr1, fun h => not_allInRange h.2 ha'⟩)
    | rejected hr => exact iff_of_true rfl (Or.inr ⟨ha, hr⟩)
    | missing hn hr =>
      exact iff_of_false (by simp [ok_bind, error_bind]) (not_or.mpr ⟨hr1, fun h => hr h.2⟩)
  | rejected hr => exact iff_of_true rfl (Or.inl hr)
  | missing hn hr => exact iff_of_false (by simp [error_bind]) (not_or.mpr ⟨hr, fun h => hn h.1⟩)

/-- The verdict is that of the form `a.b.c.d:port`, and no `NULL` reaches `atoi`. -/
structure DecidesArgs (serverOne serverTwo : CString) : Prop where
  accepts : ∀ name, testArgs [name, serverOne, serverTwo] = .ok 0 ↔
    ServerText serverOne.bytes ∧ ServerText serverTwo.bytes
  refuses : ∀ name, ¬(ServerText serverOne.bytes ∧ ServerText serverTwo.bytes) →
    testArgs [name, serverOne, serverTwo] = .ok (-1)
  noNull : ∀ name, testArgs [name, serverOne, serverTwo] ≠ .error .nullDeref

/-- The exact arguments on which the check decides the form. -/
theorem decidesArgs_iff (serverOne serverTwo : CString) :
    DecidesArgs serverOne serverTwo ↔
      ServerText serverOne.bytes ∧ ServerText serverTwo.bytes ∨
        Rejected serverOne ∨ Accepted serverOne ∧ Rejected serverTwo := by
  constructor
  · intro h
    by_cases hform : ServerText serverOne.bytes ∧ ServerText serverTwo.bytes
    · exact Or.inl hform
    · exact Or.inr (testArgs_eq_minus_one_iff.mp (h.refuses serverOne hform))
  · rintro (hform | hrefused)
    · have hok : ∀ name, testArgs [name, serverOne, serverTwo] = .ok 0 := fun name =>
        testArgs_eq_zero_iff.mpr
          ⟨accepted_of_serverText hform.1, accepted_of_serverText hform.2⟩
      exact ⟨fun name => iff_of_true (hok name) hform, fun name hnot => absurd hform hnot,
        fun name => by simp [hok name]⟩
    · have hok : ∀ name, testArgs [name, serverOne, serverTwo] = .ok (-1) := fun name =>
        testArgs_eq_minus_one_iff.mpr hrefused
      have hform : ¬(ServerText serverOne.bytes ∧ ServerText serverTwo.bytes) := by
        rintro ⟨h1, h2⟩
        rcases hrefused with hr | ⟨-, hr⟩
        · exact not_allInRange hr (accepted_of_serverText h1)
        · exact not_allInRange hr (accepted_of_serverText h2)
      exact ⟨fun name => iff_of_false (by simp [hok name]) hform, fun name _ => hok name,
        fun name => by simp [hok name]⟩

/-- Five numbers with dots between them, and no port. -/
def dotsOnly : CString := ⟨[49, 46, 50, 46, 51, 46, 52, 46, 53], by simp⟩

/-- `1.2.3.4.5` passes for an address with a port. -/
theorem not_decidesArgs_dots :
    ¬∀ serverOne serverTwo : CString, DecidesArgs serverOne serverTwo := by
  intro h
  have haccepted : Accepted dotsOnly := by
    refine ⟨by decide, by decide, by decide, by decide, by decide, trivial⟩
  have hform := ((h dotsOnly dotsOnly).accepts dotsOnly).mp
    (testArgs_eq_zero_iff.mpr ⟨haccepted, haccepted⟩)
  obtain ⟨a, b, c, d, port, -, -, -, -, -, htext⟩ := hform.1
  have hmem : (58 : UInt8) ∈ dotsOnly.bytes := by
    rw [htext]
    simp
  exact absurd hmem (by decide)

end RemoteTable
