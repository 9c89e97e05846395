import RemoteTable.CommandLoop
import RemoteTable.BucketIndex
import RemoteTable.Descriptors
import RemoteTable.Sessions

/-!
# What is typed at a client and what the servers hold

The client from `rtable_bind` to `quit`: lines are read, cut into words and sent as requests that
get lost at any point. What the two servers hold afterwards is decided by the words alone.
-/

namespace RemoteTable
open Tokens Delivery Descriptors

section

variable {σ δ : Type}

/-! ### The client -/

variable {net : ClientNet σ δ} {world : σ} {rtable : RtableT δ} {calls : List (Option StubCall)}
  {run : List StubReturn × RtableT δ × σ}

end

/-! ### What lines send -/

/-- A line of seven-bit characters, not of blanks alone, that does not ask for the keys. -/
structure Line.Served (line : Line) : Prop where
  worded : words line.text = [] → line.text.bytes = []
  ascii : ∀ c ∈ line.text.bytes, c.toNat < 128
  ne_listing : ¬[getCommand.bytes, bang.bytes] <+: words line.text

variable {line : Line} {n : ℤ}

/-- The line leaves `quit` at the start of `input`. -/
def Line.Ends (line : Line) : Prop := (words line.text).head? = some quit.bytes

instance : Decidable line.Ends := inferInstanceAs (Decidable (_ = _))

lemma Line.Served.handled (hserved : line.Served)
    (hends : line.Ends → line.text.bytes.head? ≠ some 32) : HandlesLine line := by
  by_cases hempty : line.text.bytes = []
  · exact handlesLine_empty hempty
  · rcases exists_first isBlank line.text.bytes with hall | ⟨skipped, token, tail, hf⟩
    · exact absurd (hserved.worded (tokens_of_all hall)) hempty
    · have hwords : words line.text = token :: tokens isBlank tail.tail := hf.tokens_eq
      rw [handlesLine_words hf, quits_alike_iff hf]
      rintro ⟨hblank, rfl⟩
      exact hends (by rw [Line.Ends, hwords]; rfl) hblank

/-- Lines up to the first one whose command is `quit`. -/
structure EndsWithQuit (lines : List Line) (last : Line) : Prop where
  served : ∀ line ∈ lines ++ [last], line.Served
  goesOn : ∀ line ∈ lines, ¬line.Ends
  ends : last.Ends
  unindented : last.text.bytes.head? ≠ some 32

lemma EndsWithQuit.handled {lines : List Line} {last : Line} (h : EndsWithQuit lines last) :
    ∀ line ∈ lines ++ [last], HandlesLine line := by
  intro line hline
  apply (h.served line hline).handled
  intro hends
  rcases List.mem_append.mp hline with hbefore | hlast
  · exact absurd hends (h.goesOn line hbefore)
  · rw [List.mem_singleton.mp hlast]
    exact h.unindented

variable {w : TwoServers} {m : KeyMap}

end RemoteTable
