import RemoteTable.StubReplies
import RemoteTable.Library.Tokens

/-!
# The command loop of the client

`main` of `table-client.c` reads a line into `input`, takes words out of it in place and calls
the stub. The loop goes on while `input` is not `quit`, whatever the words have made of it.
-/

namespace RemoteTable
open Tokens

/-! ### One turn -/

/-- `data_create2(strlen(datastr) + 1, datastr)`, whose size is never refused. -/
def CharBuffer.data (datastr : CharBuffer 81) : DataT :=
  ⟨datastr.string.bytes ++ [0], by simp, by
    have h := datastr.fits
    simp only [strlen] at h
    simp only [List.length_append, List.length_singleton]
    omega⟩

/-- `fgets(input, sizeof(input), stdin)`: a line with its newline, or 80 characters of it. -/
def fgets (input stdin : List UInt8) : List UInt8 × List UInt8 :=
  let line := stdin.take (min 80 ((stdin.takeWhile (· ≠ 10)).length + 1))
  if line = [] then (input, stdin)
  else (line ++ 0 :: input.drop (line.length + 1), stdin.drop line.length)

def quit : CString := .ofBytes [113, 117, 105, 116]
def sizeCommand : CString := .ofBytes [115, 105, 122, 101]
def getCommand : CString := .ofBytes [103, 101, 116]
def delCommand : CString := .ofBytes [100, 101, 108]
def putCommand : CString := .ofBytes [112, 117, 116]
def updateCommand : CString := .ofBytes [117, 112, 100, 97, 116, 101]
def blank : CString := .ofBytes [32]

/-- The delimiters `" "` -/
def isBlank (c : UInt8) : Bool := c = 32

/-- The string at a pointer into an array. -/
def charsAt (buf : List UInt8) (i : ℕ) : CString := .ofBytes (buf.drop i)

/-- The loop that joins the words that are left; every turn takes a word, so `input` has enough
of them for its length. -/
def appendWords : ℕ → List UInt8 → ℕ → CharBuffer 81 →
    Except Fault (CharBuffer 81 × List UInt8)
  | 0, input, _, datastr => .ok (datastr, input)
  | turns + 1, input, pos, datastr =>
    match strtok isBlank input pos with
    | (none, input, _) => .ok (datastr, input)
    | (some token, input, pos) => do
      let datastr ← strcat datastr blank
      let datastr ← strcat datastr (charsAt input token)
      appendWords turns input pos datastr

/-- `get` and `del`: a key, without which the usage is printed. -/
def keyCommand (call : CString → StubCall) (input : List UInt8) (pos : ℕ) :
    Except Fault (Option StubCall × List UInt8) :=
  match strtok isBlank input pos with
  | (none, input, _) => .ok (none, input)
  | (some token, input, _) => .ok (some (call (charsAt input token)), input)

/-- `put` and `update`: a key and the words of the value. -/
def entryCommand (call : CString → DataT → StubCall) (input : List UInt8) (pos : ℕ) :
    Except Fault (Option StubCall × List UInt8) :=
  match strtok isBlank input pos with
  | (none, input, _) => .ok (none, input)
  | (some token, input, pos) => do
    let key ← strcpy 81 (charsAt input token)
    match strtok isBlank input pos with
    | (none, input, _) => .ok (none, input)
    | (some token, input, pos) => do
      let datastr ← strcpy 81 (charsAt input token)
      let (datastr, input) ← appendWords input.length input pos datastr
      return (some (call key.string datastr.data), input)

/-- The chain of comparisons with the first word. -/
def runCommand (token : CString) (input : List UInt8) (pos : ℕ) :
    Except Fault (Option StubCall × List UInt8) :=
  if strcmp token quit = 0 then .ok (none, input)
  else if strcmp token sizeCommand = 0 then .ok (some .size, input)
  else if strcmp token getCommand = 0 then
    keyCommand (fun key => if strcmp key bang = 0 then .getKeys else .get key) input pos
  else if strcmp token delCommand = 0 then keyCommand .del input pos
  else if strcmp token putCommand = 0 then entryCommand .put input pos
  else if strcmp token updateCommand = 0 then entryCommand .update input pos
  else .ok (none, input)

/-- The body of the loop: the call that is made, `input` and what is left of `stdin`. -/
def loopTurn (input stdin : List UInt8) :
    Except Fault (Option StubCall × List UInt8 × List UInt8) := do
  let (input, stdin) := fgets input stdin
  if input[0]? = some 10 then
    return (none, input, stdin)
  let len := strlen (charsAt input 0)
  if len = 0 then
    throw .outOfBounds
  match strtok isBlank (input.set (len - 1) 0) 0 with
  | (none, _, _) => throw .nullDeref
  | (some token, input, pos) =>
    let (call, input) ← runCommand (charsAt input token) input pos
    return (call, input, stdin)

/-- `strcmp(input, "quit") != 0` -/
def loopGoesOn (input : List UInt8) : Bool := strcmp (charsAt input 0) quit ≠ 0

def words (line : CString) : List (List UInt8) := tokens isBlank line.bytes

/-- A key after the command, if there is one. -/
def KeyDecided (make : CString → StubCall) (args : List (List UInt8))
    (call : Option StubCall) : Prop :=
  match args with
  | [] => call = none
  | key :: _ => ∃ k, k.bytes = key ∧ call = some (make k)

/-- A key and at least one word more, joined by single blanks in front of a NUL. -/
def EntryDecided (make : CString → DataT → StubCall) (args : List (List UInt8))
    (call : Option StubCall) : Prop :=
  match args with
  | key :: word :: rest => ∃ k value, k.bytes = key ∧
      value.bytes = [32].intercalate (word :: rest) ++ [0] ∧ call = some (make k value)
  | _ => call = none

/-- What the words of a line send. -/
def Decided (words : List (List UInt8)) (call : Option StubCall) : Prop :=
  match words with
  | [] => call = none
  | command :: args =>
    if command = sizeCommand.bytes then call = some .size
    else if command = getCommand.bytes then
      KeyDecided (fun key => if key = bang then .getKeys else .get key) args call
    else if command = delCommand.bytes then KeyDecided .del args call
    else if command = putCommand.bytes then EntryDecided .put args call
    else if command = updateCommand.bytes then EntryDecided .update args call
    else call = none

/-- A line as it is typed, without its newline. -/
structure Line where
  text : CString
  noNewline : 10 ∉ text.bytes
  short : strlen text ≤ 79

/-- The line is answered as its words say, and ends the loop when the first of them is `quit`. -/
def HandlesLine (line : Line) : Prop :=
  ∀ input rest : List UInt8, input.length = 81 →
    ∃ call input', loopTurn input (line.text.bytes ++ 10 :: rest) = .ok (call, input', rest) ∧
      input'.length = 81 ∧ Decided (words line.text) call ∧
      (loopGoesOn input' = false ↔ (words line.text).head? = some quit.bytes)

/-! ### Words in the array -/

lemma charsAt_bytes {buf text : List UInt8} {i : ℕ} (h : Holds buf i text) :
    (charsAt buf i).bytes = text := h.stringAt_eq

/-- A string at the start of `input` that the words still to be read stand behind. -/
structure Reading (input : List UInt8) (pos : ℕ) (front text : List UInt8) : Prop where
  size : input.length = 81
  frontAt : Holds input 0 front
  behind : front.length ≤ pos
  textAt : Holds input pos text

/-- What is left of that when no more words are taken. -/
structure Settled (input front : List UInt8) : Prop where
  size : input.length = 81
  frontAt : Holds input 0 front

variable {input front text : List UInt8} {pos : ℕ}

lemma Reading.settled (h : Reading input pos front text) : Settled input front :=
  ⟨h.size, h.frontAt⟩

/-- The first word leaves the string that the loop condition sees. -/
lemma reading_of_first {skipped token rest : List UInt8} (hsize : input.length = 81)
    (h : Holds input 0 text) (hf : First isBlank text skipped token rest) :
    ∃ i input' pos', strtok isBlank input 0 = (some i, input', pos') ∧
      (charsAt input' i).bytes = token ∧ Reading input' pos' (skipped ++ token) rest.tail := by
  obtain ⟨input', pos', hcall, ht⟩ := strtok_of_first h hf
  have hnext := ht.next
  rw [Nat.zero_add] at hnext
  exact ⟨_, input', pos', hcall, charsAt_bytes ht.tokenAt,
    ⟨ht.length.trans hsize, ht.frontAt, hnext, ht.restAt⟩⟩

lemma Reading.next (h : Reading input pos front text) :
    (tokens isBlank text = [] ∧ ∃ pos', strtok isBlank input pos = (none, input, pos')) ∨
      ∃ token rest i input' pos', tokens isBlank text = token :: tokens isBlank rest ∧
        strtok isBlank input pos = (some i, input', pos') ∧
        (charsAt input' i).bytes = token ∧ Reading input' pos' front rest := by
  rcases exists_first isBlank text with hall | ⟨skipped, token, rest, hf⟩
  · exact Or.inl ⟨tokens_of_all hall, _, strtok_of_all h.textAt hall⟩
  · obtain ⟨input', pos', hcall, ht⟩ := strtok_of_first h.textAt hf
    have hbehind := h.behind
    have hnext := ht.next
    have hfront : Holds input' 0 front := ht.keeps h.frontAt (by omega)
    exact Or.inr ⟨token, rest.tail, _, input', pos', hf.tokens_eq, hcall,
      charsAt_bytes ht.tokenAt, ⟨ht.length.trans h.size, hfront, by omega, ht.restAt⟩⟩

/-! ### The value -/

/-- Every word that is left is appended behind a blank, as long as there is room for them. -/
lemma appendWords_eq (turns : ℕ) (datastr : CharBuffer 81) (h : Reading input pos front text)
    (hturns : (tokens isBlank text).length ≤ turns)
    (hroom : strlen datastr.string +
      ((tokens isBlank text).map (fun token => token.length + 1)).sum < 81) :
    ∃ datastr' input', appendWords turns input pos datastr = .ok (datastr', input') ∧
      datastr'.string.bytes =
        datastr.string.bytes ++ (tokens isBlank text).flatMap (fun word => 32 :: word) ∧
      Settled input' front := by
  induction turns generalizing input pos text datastr with
  | zero =>
    have hnil : tokens isBlank text = [] := List.length_eq_zero_iff.mp (by omega)
    exact ⟨datastr, input, rfl, by simp [hnil], h.settled⟩
  | succ turns ih =>
    rcases h.next with ⟨hnil, pos', hcall⟩ | ⟨token, rest, i, input', pos', hcons, hcall, hchars,
      hnext⟩
    · refine ⟨datastr, input, ?_, by simp [hnil], h.settled⟩
      rw [appendWords, hcall]
    · rw [hcons, List.map_cons, List.sum_cons] at hroom
      rw [hcons, List.length_cons] at hturns
      have hblank : strlen blank = 1 := by decide
      have hlen : strlen (charsAt input' i) = token.length := by rw [strlen, hchars]
      obtain ⟨spaced, hspaced, hbytes⟩ : ∃ buffer, strcat datastr blank = .ok buffer ∧
          buffer.string.bytes = datastr.string.bytes ++ blank.bytes :=
        strcat_of_lt (by omega)
      have hspacedLen : strlen spaced.string = strlen datastr.string + 1 := by
        rw [strlen, hbytes, List.length_append, ← strlen, ← strlen, hblank]
      obtain ⟨joined, hjoined, hbytes'⟩ : ∃ buffer, strcat spaced (charsAt input' i) = .ok buffer ∧
          buffer.string.bytes = spaced.string.bytes ++ (charsAt input' i).bytes :=
        strcat_of_lt (by omega)
      have hjoinedLen : strlen joined.string = strlen spaced.string + token.length := by
        rw [strlen, hbytes', List.length_append, ← strlen, hchars]
      obtain ⟨datastr', input'', hrun, hresult, hsettled⟩ := ih joined hnext
        (by omega) (by omega)
      refine ⟨datastr', input'', ?_, ?_, hsettled⟩
      · rw [appendWords, hcall]
        simp only [hspaced, hjoined, ok_bind]
        exact hrun
      · rw [hresult, hbytes', hbytes, hchars, hcons, List.flatMap_cons]
        have hbytesBlank : blank.bytes = [32] := by decide
        rw [hbytesBlank]
        simp

lemma intercalate_eq (word : List UInt8) (rest : List (List UInt8)) :
    [32].intercalate (word :: rest) = word ++ rest.flatMap (fun w => 32 :: w) := by
  induction rest generalizing word with
  | nil => simp [List.intercalate]
  | cons next rest ih =>
    have hstep : [32].intercalate (word :: next :: rest) =
        word ++ 32 :: [32].intercalate (next :: rest) := by
      simp [List.intercalate, List.intersperse]
    rw [hstep, ih, List.flatMap_cons]
    simp

/-! ### The commands -/

lemma keyCommand_eq (make : CString → StubCall) (h : Reading input pos front text) :
    ∃ call input', keyCommand make input pos = .ok (call, input') ∧ Settled input' front ∧
      KeyDecided make (tokens isBlank text) call := by
  rcases h.next with ⟨hnil, pos', hcall⟩ | ⟨token, rest, i, input', pos', hcons, hcall, hchars,
    hnext⟩
  · refine ⟨none, input, ?_, h.settled, ?_⟩
    · rw [keyCommand, hcall]
    · rw [hnil]
      rfl
  · refine ⟨some (make (charsAt input' i)), input', ?_, hnext.settled, ?_⟩
    · rw [keyCommand, hcall]
    · rw [hcons]
      exact ⟨_, hchars, rfl⟩

lemma entryCommand_eq (make : CString → DataT → StubCall) (h : Reading input pos front text)
    (hlen : text.length ≤ 79) :
    ∃ call input', entryCommand make input pos = .ok (call, input') ∧ Settled input' front ∧
      EntryDecided make (tokens isBlank text) call := by
  have hsum := sum_tokens_le isBlank text
  rcases h.next with ⟨hnil, pos', hcall⟩ | ⟨key, rest, i, input₁, pos₁, hcons, hcall, hkey, h₁⟩
  · refine ⟨none, input, ?_, h.settled, ?_⟩
    · rw [entryCommand, hcall]
    · rw [hnil]
      rfl
  · rw [hcons, List.map_cons, List.sum_cons] at hsum
    have hkeyLen : strlen (charsAt input₁ i) = key.length := by rw [strlen, hkey]
    obtain ⟨k, hk, hkstring⟩ : ∃ buffer, strcpy 81 (charsAt input₁ i) = .ok buffer ∧
        buffer.string = charsAt input₁ i := strcpy_of_lt (by omega)
    rcases h₁.next with ⟨hnil, pos', hcall₁⟩ | ⟨word, rest', j, input₂, pos₂, hcons₁, hcall₁, hword,
      h₂⟩
    · refine ⟨none, input₁, ?_, h₁.settled, ?_⟩
      · rw [entryCommand, hcall]
        simp only [hk, ok_bind, hcall₁]
      · rw [hcons, hnil]
        rfl
    · rw [hcons₁, List.map_cons, List.sum_cons] at hsum
      have hwordLen : strlen (charsAt input₂ j) = word.length := by rw [strlen, hword]
      obtain ⟨first, hfirst, hfstring⟩ : ∃ buffer, strcpy 81 (charsAt input₂ j) = .ok buffer ∧
          buffer.string = charsAt input₂ j := strcpy_of_lt (by omega)
      have hcount : (tokens isBlank rest').length ≤ input₂.length := by
        have hle : (tokens isBlank rest').length ≤
            ((tokens isBlank rest').map (fun token => token.length + 1)).sum := by
          rw [← List.length_map (fun token : List UInt8 => token.length + 1)]
          apply List.length_le_sum_of_one_le
          intro n hn
          obtain ⟨token, -, rfl⟩ := List.mem_map.mp hn
          omega
        rw [h₂.size]
        omega
      obtain ⟨datastr, input₃, hrun, hbytes, hsettled⟩ := appendWords_eq input₂.length first
        h₂ hcount (by rw [hfstring]; omega)
      refine ⟨some (make k.string datastr.data), input₃, ?_, hsettled, ?_⟩
      · rw [entryCommand, hcall]
        simp only [hk, ok_bind, hcall₁, hfirst, hrun, pure_eq_ok]
      · rw [hcons, hcons₁]
        refine ⟨k.string, datastr.data, by rw [hkstring, hkey], ?_, rfl⟩
        rw [intercalate_eq, CharBuffer.data]
        simp only [hbytes, hfstring, hword]

lemma strcmp_token_iff {token command : CString} :
    strcmp token command = 0 ↔ token.bytes = command.bytes := by
  rw [strcmp_eq_zero_iff, CString.ext_iff]

/-- The comparisons decide on the first word, and leave what the loop condition sees. -/
lemma runCommand_eq (token : CString) (h : Reading input pos front text)
    (hlen : text.length ≤ 79) :
    ∃ call input', runCommand token input pos = .ok (call, input') ∧ Settled input' front ∧
      Decided (token.bytes :: tokens isBlank text) call := by
  have hquit : quit.bytes ≠ sizeCommand.bytes ∧ quit.bytes ≠ getCommand.bytes ∧
      quit.bytes ≠ delCommand.bytes ∧ quit.bytes ≠ putCommand.bytes ∧
      quit.bytes ≠ updateCommand.bytes := by decide
  unfold runCommand Decided
  simp only [strcmp_token_iff]
  by_cases h1 : token.bytes = quit.bytes
  · refine ⟨none, input, if_pos h1, h.settled, ?_⟩
    rw [h1, if_neg hquit.1, if_neg hquit.2.1, if_neg hquit.2.2.1, if_neg hquit.2.2.2.1,
      if_neg hquit.2.2.2.2]
  simp only [if_neg h1]
  by_cases h2 : token.bytes = sizeCommand.bytes
  · exact ⟨some .size, input, if_pos h2, h.settled, by rw [if_pos h2]⟩
  simp only [if_neg h2]
  by_cases h3 : token.bytes = getCommand.bytes
  · obtain ⟨call, input', hrun, hsettled, hdecided⟩ := keyCommand_eq
      (fun key => if key = bang then StubCall.getKeys else .get key) h
    simp only [CString.ext_iff] at hrun
    exact ⟨call, input', by rwa [if_pos h3], hsettled, by rwa [if_pos h3]⟩
  simp only [if_neg h3]
  by_cases h4 : token.bytes = delCommand.bytes
  · simp only [if_pos h4]
    exact keyCommand_eq StubCall.del h
  simp only [if_neg h4]
  by_cases h5 : token.bytes = putCommand.bytes
  · simp only [if_pos h5]
    exact entryCommand_eq StubCall.put h hlen
  simp only [if_neg h5]
  by_cases h6 : token.bytes = updateCommand.bytes
  · simp only [if_pos h6]
    exact entryCommand_eq StubCall.update h hlen
  simp only [if_neg h6]
  exact ⟨none, input, rfl, h.settled, rfl⟩

/-! ### Lines -/

/-- The array after a line was read into it. -/
lemma fgets_line (line : Line) (input rest : List UInt8) :
    fgets input (line.text.bytes ++ 10 :: rest) =
      (line.text.bytes ++ 10 :: 0 :: input.drop (strlen line.text + 2), rest) := by
  have hall : ∀ c ∈ line.text.bytes, decide (c ≠ 10) = true := by
    intro c hc
    have hne : c ≠ 10 := fun h => line.noNewline (h ▸ hc)
    simpa using hne
  have hshort := line.short
  have htake : (line.text.bytes ++ 10 :: rest).takeWhile (· ≠ 10) = line.text.bytes := by
    rw [List.takeWhile_append_of_pos hall]
    simp
  have hmin : min 80 (line.text.bytes.length + 1) = (line.text.bytes ++ [10]).length := by
    rw [List.length_append, List.length_singleton]
    exact Nat.min_eq_right (Nat.succ_le_succ hshort)
  have hsplit : line.text.bytes ++ 10 :: rest = (line.text.bytes ++ [10]) ++ rest := by simp
  simp only [fgets, htake, hmin]
  rw [hsplit, List.take_left, List.drop_left, if_neg (by simp)]
  simp [strlen]

variable {line : Line} {rest : List UInt8}

lemma loopTurn_empty (h : line.text.bytes = []) (input rest : List UInt8) :
    loopTurn input (line.text.bytes ++ 10 :: rest) =
      .ok (none, 10 :: 0 :: input.drop (strlen line.text + 2), rest) := by
  rw [loopTurn, fgets_line, h]
  rfl

/-- Past the newline test the terminator replaces the newline. -/
lemma loopTurn_of_ne (h : line.text.bytes ≠ []) (input rest : List UInt8) :
    loopTurn input (line.text.bytes ++ 10 :: rest) =
      match strtok isBlank (line.text.bytes ++ 0 :: 0 :: input.drop (strlen line.text + 2)) 0 with
      | (none, _, _) => .error .nullDeref
      | (some token, input, pos) => runCommand (charsAt input token) input pos >>= fun r =>
          .ok (r.1, r.2, rest) := by
  have hten : ∀ c ∈ line.text.bytes ++ [10], c ≠ 0 := by
    intro c hc
    rcases List.mem_append.mp hc with hc | hc
    · exact line.text.nulFree c hc
    · rw [List.mem_singleton.mp hc]
      decide
  have hhead : (line.text.bytes ++ 10 :: 0 :: input.drop (strlen line.text + 2))[0]? ≠ some 10 := by
    obtain ⟨c, cs, hcons⟩ := List.exists_cons_of_ne_nil h
    have hc : c ≠ 10 := fun heq => line.noNewline (by simp [hcons, heq])
    simpa [hcons] using hc
  have hstring : Holds (line.text.bytes ++ 10 :: 0 :: input.drop (strlen line.text + 2)) 0
      (line.text.bytes ++ [10]) :=
    ⟨[], input.drop (strlen line.text + 2), by simp, rfl, hten⟩
  have hlen : strlen (charsAt (line.text.bytes ++ 10 :: 0 :: input.drop (strlen line.text + 2)) 0) =
      line.text.bytes.length + 1 := by
    rw [strlen, charsAt_bytes hstring, List.length_append, List.length_singleton]
  have hset : (line.text.bytes ++ 10 :: 0 :: input.drop (strlen line.text + 2)).set
      (line.text.bytes.length + 1 - 1) 0 =
        line.text.bytes ++ 0 :: 0 :: input.drop (strlen line.text + 2) := by
    rw [Nat.add_sub_cancel, List.set_append_right _ _ (le_refl _), Nat.sub_self]
    rfl
  rw [loopTurn, fgets_line]
  simp only [if_neg hhead, hlen, hset]
  rfl

lemma loopTurn_blanks (h : line.text.bytes ≠ []) (hall : ∀ c ∈ line.text.bytes, isBlank c = true)
    (input rest : List UInt8) :
    loopTurn input (line.text.bytes ++ 10 :: rest) = .error .nullDeref := by
  have hstring : Holds (line.text.bytes ++ 0 :: 0 :: input.drop (strlen line.text + 2)) 0
      line.text.bytes := holds_zero line.text.nulFree _
  rw [loopTurn_of_ne h, strtok_of_all hstring hall]

lemma loopTurn_words {skipped token tail : List UInt8}
    (hf : First isBlank line.text.bytes skipped token tail) (input rest : List UInt8)
    (hsize : input.length = 81) :
    ∃ call input', loopTurn input (line.text.bytes ++ 10 :: rest) = .ok (call, input', rest) ∧
      Decided (words line.text) call ∧ Settled input' (skipped ++ token) := by
  have hne : line.text.bytes ≠ [] := by
    intro hnil
    have htext := hf.eq
    rw [hnil] at htext
    simp [hf.nonempty] at htext
  have hshort := line.short
  have htext := congrArg List.length hf.eq
  have hstring : Holds (line.text.bytes ++ 0 :: 0 :: input.drop (strlen line.text + 2)) 0
      line.text.bytes := holds_zero line.text.nulFree _
  have harray : (line.text.bytes ++ 0 :: 0 :: input.drop (strlen line.text + 2)).length = 81 := by
    simp only [strlen, List.length_append, List.length_cons, List.length_drop] at hshort ⊢
    omega
  obtain ⟨i, buf, pos, hcall, htoken, hreading⟩ := reading_of_first harray hstring hf
  have hrest : tail.tail.length ≤ 79 := by
    simp only [List.length_append] at htext
    rw [List.length_tail]
    rw [strlen] at hshort
    omega
  obtain ⟨call, input', hrun, hsettled, hdecided⟩ := runCommand_eq (charsAt buf i) hreading hrest
  refine ⟨call, input', ?_, ?_, hsettled⟩
  · rw [loopTurn_of_ne hne, hcall]
    simp only [hrun, ok_bind]
  · rwa [words, hf.tokens_eq, ← htoken]

/-- On an empty line the newline that is left ends neither the loop nor a command. -/
lemma handlesLine_empty (hempty : line.text.bytes = []) : HandlesLine line := by
  have hwords : words line.text = [] := by rw [words, hempty, tokens_nil]
  intro input rest hsize
  have hlen : (10 :: 0 :: input.drop (strlen line.text + 2)).length = 81 := by
    simp only [strlen, hempty, List.length_nil, List.length_cons, List.length_drop, hsize]
  refine ⟨none, _, loopTurn_empty hempty input rest, hlen, by rw [hwords]; rfl, ?_⟩
  have hchars : charsAt (10 :: 0 :: input.drop (strlen line.text + 2)) 0 = .ofBytes [10] := by
    apply CString.ext
    simp [charsAt, CString.ofBytes]
  have hgoes : strcmp (.ofBytes [10]) quit ≠ 0 := by decide
  simp [loopGoesOn, hchars, hgoes, hwords]

lemma not_handlesLine_of_blanks (h : line.text.bytes ≠ [])
    (hall : ∀ c ∈ line.text.bytes, isBlank c = true) : ¬HandlesLine line := by
  intro hline
  obtain ⟨call, input', hturn, -⟩ := hline (List.replicate 81 0) [] (by simp)
  rw [loopTurn_blanks h hall] at hturn
  cases hturn

lemma loopGoesOn_settled (h : Settled input front) :
    loopGoesOn input = false ↔ front = quit.bytes := by
  rw [← charsAt_bytes h.frontAt, ← strcmp_token_iff]
  simp [loopGoesOn]

/-- The loop compares the line from its start, and a command from its first word. -/
lemma handlesLine_words {skipped token tail : List UInt8}
    (hf : First isBlank line.text.bytes skipped token tail) :
    HandlesLine line ↔ (skipped ++ token = quit.bytes ↔ token = quit.bytes) := by
  have hwords : words line.text = token :: tokens isBlank tail.tail := hf.tokens_eq
  constructor
  · intro h
    have hsize : (List.replicate 81 (0 : UInt8)).length = 81 := by simp
    obtain ⟨call, input', hturn, -, hsettled⟩ := loopTurn_words hf _ [] hsize
    obtain ⟨call', input'', hturn', -, -, hquit⟩ := h _ [] hsize
    rw [hturn] at hturn'
    simp only [Except.ok.injEq, Prod.mk.injEq, and_true] at hturn'
    rw [← hturn'.2, loopGoesOn_settled hsettled, hwords] at hquit
    simpa using hquit
  · intro hiff input rest hsize
    obtain ⟨call, input', hturn, hdecided, hsettled⟩ := loopTurn_words hf input rest hsize
    refine ⟨call, input', hturn, hsettled.size, hdecided, ?_⟩
    rw [loopGoesOn_settled hsettled, hiff, hwords]
    simp

/-- Blanks in front of `quit` hide it from the comparison with the whole line. -/
lemma quits_alike_iff {skipped token tail : List UInt8}
    (hf : First isBlank text skipped token tail) :
    (skipped ++ token = quit.bytes ↔ token = quit.bytes) ↔
      ¬(text.head? = some 32 ∧ token = quit.bytes) := by
  rw [hf.eq]
  cases skipped with
  | nil =>
    obtain ⟨c, cs, rfl⟩ := List.exists_cons_of_ne_nil hf.nonempty
    have hc := hf.inside c List.mem_cons_self
    simp only [isBlank, decide_eq_false_iff_not] at hc
    simp [hc]
  | cons b bs =>
    have hb := hf.skips b List.mem_cons_self
    simp only [isBlank, decide_eq_true_eq] at hb
    subst hb
    have hquit : 32 :: (bs ++ token) ≠ quit.bytes := by
      intro heq
      have hhead := congrArg List.head? heq
      rw [List.head?_cons] at hhead
      exact absurd hhead (by decide)
    simp [hquit]

/-- The exact lines on which the loop does what the words say. -/
theorem handlesLine_iff (line : Line) :
    HandlesLine line ↔ (line.text.bytes = [] ∨ words line.text ≠ []) ∧
      ¬(line.text.bytes.head? = some 32 ∧ (words line.text).head? = some quit.bytes) := by
  by_cases hempty : line.text.bytes = []
  · exact iff_of_true (handlesLine_empty hempty) ⟨Or.inl hempty, by simp [hempty]⟩
  · rcases exists_first isBlank line.text.bytes with hall | ⟨skipped, token, tail, hf⟩
    · have hwords : words line.text = [] := tokens_of_all hall
      exact iff_of_false (not_handlesLine_of_blanks hempty hall)
        (fun h => h.1.elim hempty (fun hne => hne hwords))
    · have hwords : words line.text = token :: tokens isBlank tail.tail := hf.tokens_eq
      rw [handlesLine_words hf, quits_alike_iff hf, hwords, List.head?_cons, Option.some.injEq]
      simp

/-- A line of one blank: its first word is a `NULL` for `strcmp`. -/
theorem not_handlesLine_blank : ¬∀ line : Line, HandlesLine line := by
  intro h
  let line : Line := ⟨blank, by decide, by decide⟩
  have hne : line.text.bytes ≠ [] := by decide
  have hall : ∀ c ∈ line.text.bytes, isBlank c = true := List.all_eq_true.mp (by decide)
  exact not_handlesLine_of_blanks hne hall (h line)

/-! ### Sessions -/

/-- The text of typed lines. -/
def typed (lines : List Line) : List UInt8 := lines.flatMap (fun line => line.text.bytes ++ [10])

end RemoteTable
