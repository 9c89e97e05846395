import Mathlib

/-!
# Tokens of strings in arrays

A string is the part of an array in front of a terminator. Tokens are taken from it in place,
one call after the other, and every call writes a terminator over the delimiter that it met.
-/

namespace Tokens

variable {α : Type*}

/-- The string at an index of an array. -/
def stringAt [DecidableEq α] [Zero α] (buf : List α) (pos : ℕ) : List α :=
  (buf.drop pos).takeWhile (· ≠ 0)

/-- The index of the first token from `pos` on, the array after the call and the index at which
the next call goes on. -/
def strtok [DecidableEq α] [Zero α] (isDelim : α → Bool) (buf : List α) (pos : ℕ) :
    Option ℕ × List α × ℕ :=
  let text := stringAt buf pos
  let start := pos + (text.takeWhile isDelim).length
  let token := (text.dropWhile isDelim).takeWhile (!isDelim ·)
  let stop := start + token.length
  if token = [] then (none, buf, stop)
  else if (text.dropWhile isDelim).dropWhile (!isDelim ·) = [] then (some start, buf, stop)
  else (some start, buf.set stop 0, stop + 1)

/-- All tokens of a string. -/
def tokens [DecidableEq α] (isDelim : α → Bool) (text : List α) : List (List α) :=
  (text.splitOnP isDelim).filter (· ≠ [])

/-- A string with its terminator at an index of an array. -/
def Holds [Zero α] (buf : List α) (pos : ℕ) (text : List α) : Prop :=
  ∃ front tail, buf = front ++ (text ++ 0 :: tail) ∧ front.length = pos ∧ ∀ c ∈ text, c ≠ 0

variable {isDelim : α → Bool} {buf buf' text : List α} {pos : ℕ}

section Strings

variable [Zero α]

lemma holds_zero (h : ∀ c ∈ text, c ≠ 0) (tail : List α) : Holds (text ++ 0 :: tail) 0 text :=
  ⟨[], tail, rfl, rfl, h⟩

lemma Holds.ne_zero (h : Holds buf pos text) : ∀ c ∈ text, c ≠ 0 := by
  obtain ⟨front, tail, rfl, rfl, hne⟩ := h
  exact hne

lemma Holds.stringAt_eq [DecidableEq α] (h : Holds buf pos text) : stringAt buf pos = text := by
  obtain ⟨front, tail, rfl, rfl, hne⟩ := h
  have hall : ∀ c ∈ text, decide (c ≠ 0) = true := fun c hc => by simpa using hne c hc
  rw [stringAt, List.drop_left, List.takeWhile_append_of_pos hall]
  simp

/-- The string at an index depends on the array up to its terminator only. -/
lemma Holds.congr (h : Holds buf pos text)
    (htake : buf'.take (pos + text.length + 1) = buf.take (pos + text.length + 1)) :
    Holds buf' pos text := by
  obtain ⟨front, tail, rfl, rfl, hne⟩ := h
  have hlen : front.length + text.length + 1 = (front ++ (text ++ [0])).length := by
    simp only [List.length_append, List.length_singleton]
    omega
  have hsplit : front ++ (text ++ 0 :: tail) = (front ++ (text ++ [0])) ++ tail := by simp
  refine ⟨front, buf'.drop (front.length + text.length + 1), ?_, rfl, hne⟩
  calc buf' = buf'.take (front.length + text.length + 1) ++
        buf'.drop (front.length + text.length + 1) := (List.take_append_drop _ _).symm
    _ = (front ++ (text ++ [0])) ++ buf'.drop (front.length + text.length + 1) := by
      rw [htake, hsplit, hlen, List.take_left]
    _ = front ++ (text ++ 0 :: buf'.drop (front.length + text.length + 1)) := by simp

end Strings

/-! ### The first token -/

/-- The first token of a string, what is skipped in front of it and what follows. -/
structure First (isDelim : α → Bool) (text skipped token rest : List α) : Prop where
  eq : text = skipped ++ (token ++ rest)
  skips : ∀ c ∈ skipped, isDelim c = true
  inside : ∀ c ∈ token, isDelim c = false
  nonempty : token ≠ []
  stops : rest = [] ∨ ∃ c cs, rest = c :: cs ∧ isDelim c = true

/-- A string has a first token unless it has delimiters only. -/
lemma exists_first (isDelim : α → Bool) (text : List α) :
    (∀ c ∈ text, isDelim c = true) ∨
      ∃ skipped token rest, First isDelim text skipped token rest := by
  by_cases hall : ∀ c ∈ text, isDelim c = true
  · exact Or.inl hall
  · refine Or.inr ⟨text.takeWhile isDelim, (text.dropWhile isDelim).takeWhile (!isDelim ·),
      (text.dropWhile isDelim).dropWhile (!isDelim ·), ?_, ?_, ?_, ?_, ?_⟩
    · rw [List.takeWhile_append_dropWhile, List.takeWhile_append_dropWhile]
    · exact fun c hc => List.mem_takeWhile_imp hc
    · intro c hc
      simpa using List.mem_takeWhile_imp hc
    · intro hnil
      have hdrop : text.dropWhile isDelim ≠ [] := fun h => hall (List.dropWhile_eq_nil_iff.mp h)
      have hhead := List.head_dropWhile_not isDelim hdrop
      obtain ⟨c, cs, hc⟩ := List.exists_cons_of_ne_nil hdrop
      simp only [hc, List.head_cons] at hhead
      simp [hc, hhead] at hnil
    · generalize text.dropWhile isDelim = after
      cases hrest : after.dropWhile (!isDelim ·) with
      | nil => exact Or.inl rfl
      | cons c cs =>
        have hne : after.dropWhile (!isDelim ·) ≠ [] := by simp [hrest]
        have hhead := List.head_dropWhile_not (!isDelim ·) hne
        simp only [hrest, List.head_cons] at hhead
        exact Or.inr ⟨c, cs, rfl, by simpa using hhead⟩

variable {skipped token rest : List α}

lemma First.takeWhile_eq (h : First isDelim text skipped token rest) :
    text.takeWhile isDelim = skipped := by
  obtain ⟨c, cs, rfl⟩ := List.exists_cons_of_ne_nil h.nonempty
  rw [h.eq, List.takeWhile_append_of_pos h.skips]
  simp [h.inside c List.mem_cons_self]

lemma First.dropWhile_eq (h : First isDelim text skipped token rest) :
    text.dropWhile isDelim = token ++ rest := by
  obtain ⟨c, cs, rfl⟩ := List.exists_cons_of_ne_nil h.nonempty
  rw [h.eq, List.dropWhile_append_of_pos h.skips]
  simp [h.inside c List.mem_cons_self]

lemma First.token_eq (h : First isDelim text skipped token rest) :
    (token ++ rest).takeWhile (!isDelim ·) = token := by
  have hall : ∀ c ∈ token, (!isDelim c) = true := fun c hc => by simp [h.inside c hc]
  rw [List.takeWhile_append_of_pos hall]
  rcases h.stops with hnil | ⟨c, cs, hcons, hc⟩
  · simp [hnil]
  · simp [hcons, hc]

lemma First.rest_eq (h : First isDelim text skipped token rest) :
    (token ++ rest).dropWhile (!isDelim ·) = rest := by
  have hall : ∀ c ∈ token, (!isDelim c) = true := fun c hc => by simp [h.inside c hc]
  rw [List.dropWhile_append_of_pos hall]
  rcases h.stops with hnil | ⟨c, cs, hcons, hc⟩
  · simp [hnil]
  · simp [hcons, hc]

section Calls

variable [Zero α]

/-- Without a token nothing is written. -/
theorem strtok_of_all [DecidableEq α] (h : Holds buf pos text)
    (hall : ∀ c ∈ text, isDelim c = true) :
    strtok isDelim buf pos = (none, buf, pos + text.length) := by
  have htake : text.takeWhile isDelim = text := List.takeWhile_eq_self_iff.mpr hall
  have hdrop : text.dropWhile isDelim = [] := List.dropWhile_eq_nil_iff.mpr hall
  simp only [strtok, h.stringAt_eq, htake, hdrop, List.takeWhile_nil, if_true, List.length_nil,
    Nat.add_zero]

/-- What a call that finds a token leaves: the token and the rest are strings of the array, and
nothing changes up to the place that the call started from. -/
structure Taken (buf : List α) (pos : ℕ) (skipped token rest : List α) (buf' : List α)
    (pos' : ℕ) : Prop where
  tokenAt : Holds buf' (pos + skipped.length) token
  frontAt : Holds buf' pos (skipped ++ token)
  restAt : Holds buf' pos' rest.tail
  next : pos + (skipped ++ token).length ≤ pos'
  kept : buf'.take (pos + 1) = buf.take (pos + 1)
  length : buf'.length = buf.length

theorem strtok_of_first [DecidableEq α] (h : Holds buf pos text)
    (hf : First isDelim text skipped token rest) :
    ∃ buf' pos', strtok isDelim buf pos = (some (pos + skipped.length), buf', pos') ∧
      Taken buf pos skipped token rest buf' pos' := by
  have hne := h.ne_zero
  have hstr := h.stringAt_eq
  obtain ⟨front, tail, rfl, rfl, -⟩ := h
  have hpos : 0 < token.length := List.length_pos_iff.mpr hf.nonempty
  simp only [strtok, hstr, hf.takeWhile_eq, hf.dropWhile_eq, hf.token_eq, hf.rest_eq,
    if_neg hf.nonempty]
  rw [hf.eq] at hne ⊢
  have hfront : ∀ c ∈ skipped ++ token, c ≠ 0 := by
    intro c hc
    rw [← List.append_assoc] at hne
    exact hne c (List.mem_append_left _ hc)
  have htoken : ∀ c ∈ token, c ≠ 0 := fun c hc => hfront c (List.mem_append_right _ hc)
  rcases hf.stops with rfl | ⟨c, cs, rfl, hc⟩
  · refine ⟨_, _, if_pos rfl, ?_, ?_, ?_, ?_, rfl, rfl⟩
    · exact ⟨front ++ skipped, tail, by simp, by simp, htoken⟩
    · exact ⟨front, tail, by simp, rfl, hfront⟩
    · exact ⟨front ++ (skipped ++ token), tail, by simp, by simp [Nat.add_assoc], by simp⟩
    · simp only [List.length_append]
      omega
  · have hcs : ∀ x ∈ cs, x ≠ 0 := fun x hx => hne x (by simp [hx])
    have hset : (front ++ (skipped ++ (token ++ c :: cs) ++ 0 :: tail)).set
        (front.length + skipped.length + token.length) 0 =
          front ++ (skipped ++ (token ++ 0 :: (cs ++ 0 :: tail))) := by
      have hassoc : front ++ (skipped ++ (token ++ c :: cs) ++ 0 :: tail) =
          (front ++ (skipped ++ token)) ++ c :: (cs ++ 0 :: tail) := by simp
      have hlen : front.length + skipped.length + token.length =
          (front ++ (skipped ++ token)).length := by
        simp only [List.length_append]
        omega
      rw [hassoc, hlen, List.set_append_right _ _ (le_refl _), Nat.sub_self]
      simp
    refine ⟨_, _, if_neg (by simp), ?_, ?_, ?_, ?_, ?_, ?_⟩
    · rw [hset]
      exact ⟨front ++ skipped, cs ++ 0 :: tail, by simp, by simp, htoken⟩
    · rw [hset]
      exact ⟨front, cs ++ 0 :: tail, by simp, rfl, hfront⟩
    · rw [hset]
      refine ⟨front ++ (skipped ++ (token ++ [0])), tail, by simp, ?_, hcs⟩
      simp only [List.length_append, List.length_singleton]
      omega
    · simp only [List.length_append]
      omega
    · rw [List.take_set_of_le (by omega)]
    · rw [List.length_set]

/-- A string that ends in front of the place of the call is kept. -/
lemma Taken.keeps {pos' p : ℕ} {w : List α} (ht : Taken buf pos skipped token rest buf' pos')
    (hw : Holds buf p w) (hle : p + w.length ≤ pos) : Holds buf' p w := by
  apply hw.congr
  have h := congrArg (List.take (p + w.length + 1)) ht.kept
  rwa [List.take_take, List.take_take, Nat.min_eq_left (by omega)] at h

end Calls

/-! ### All tokens -/

section All

variable [DecidableEq α]

@[simp] lemma tokens_nil : tokens isDelim [] = [] := by
  simp [tokens]

lemma tokens_cons_of_delim {c : α} (hc : isDelim c = true) (text : List α) :
    tokens isDelim (c :: text) = tokens isDelim text := by
  simp [tokens, List.splitOnP_cons_eq_if_modifyHead, hc]

lemma tokens_skip (h : ∀ c ∈ skipped, isDelim c = true) (text : List α) :
    tokens isDelim (skipped ++ text) = tokens isDelim text := by
  induction skipped with
  | nil => rfl
  | cons c cs ih =>
    rw [List.cons_append, tokens_cons_of_delim (h c List.mem_cons_self),
      ih (fun x hx => h x (List.mem_cons_of_mem c hx))]

lemma tokens_of_all (h : ∀ c ∈ text, isDelim c = true) : tokens isDelim text = [] := by
  rw [← List.append_nil text, tokens_skip h, tokens_nil]

/-- The first token and the tokens of what follows. -/
theorem First.tokens_eq (h : First isDelim text skipped token rest) :
    tokens isDelim text = token :: tokens isDelim rest.tail := by
  rw [h.eq, tokens_skip h.skips]
  rcases h.stops with rfl | ⟨c, cs, rfl, hc⟩
  · simp [tokens, List.splitOnP_eq_singleton h.inside, h.nonempty]
  · simp [tokens, List.splitOnP_append_cons_of_forall_mem h.inside c hc, h.nonempty]

/-- A token in front of a delimiter. -/
lemma tokens_append_cons {c : α} (htoken : ∀ x ∈ token, isDelim x = false) (hne : token ≠ [])
    (hc : isDelim c = true) (text : List α) :
    tokens isDelim (token ++ c :: text) = token :: tokens isDelim text := by
  have hf : First isDelim (token ++ c :: text) [] token (c :: text) :=
    ⟨rfl, by simp, htoken, hne, Or.inr ⟨c, text, rfl, hc⟩⟩
  exact hf.tokens_eq

lemma tokens_single (htoken : ∀ x ∈ token, isDelim x = false) (hne : token ≠ []) :
    tokens isDelim token = [token] := by
  simp [tokens, List.splitOnP_eq_singleton htoken, hne]

/-- Tokens with a place for a separator behind each are no longer than the string with one. -/
theorem sum_tokens_le (isDelim : α → Bool) (text : List α) :
    ((tokens isDelim text).map (fun token => token.length + 1)).sum ≤ text.length + 1 := by
  induction hlen : text.length using Nat.strong_induction_on generalizing text with
  | h n ih =>
    rcases exists_first isDelim text with hall | ⟨skipped, token, rest, hf⟩
    · rw [tokens_of_all hall]
      exact Nat.zero_le _
    · have htext := congrArg List.length hf.eq
      have hpos : 0 < token.length := List.length_pos_iff.mpr hf.nonempty
      simp only [List.length_append] at htext
      rw [hf.tokens_eq, List.map_cons, List.sum_cons]
      rcases hf.stops with rfl | ⟨c, cs, rfl, -⟩
      · rw [List.tail_nil, tokens_nil, List.map_nil, List.sum_nil]
        omega
      · rw [List.length_cons] at htext
        have hrest := ih cs.length (by omega) cs rfl
        rw [List.tail_cons]
        omega

/-- What a call makes of the tokens that are left. -/
theorem strtok_cases [Zero α] (isDelim : α → Bool) (h : Holds buf pos text) :
    (tokens isDelim text = [] ∧ strtok isDelim buf pos = (none, buf, pos + text.length)) ∨
      ∃ token rest i buf' pos', tokens isDelim text = token :: tokens isDelim rest ∧
        strtok isDelim buf pos = (some i, buf', pos') ∧ stringAt buf' i = token ∧
        Holds buf' pos' rest := by
  rcases exists_first isDelim text with hall | ⟨skipped, token, rest, hf⟩
  · exact Or.inl ⟨tokens_of_all hall, strtok_of_all h hall⟩
  · obtain ⟨buf', pos', hcall, htaken⟩ := strtok_of_first h hf
    exact Or.inr ⟨token, rest.tail, _, buf', pos', hf.tokens_eq, hcall,
      htaken.tokenAt.stringAt_eq, htaken.restAt⟩

end All

end Tokens
