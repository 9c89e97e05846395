import RemoteTable.EncodeBounds
import RemoteTable.StubReplies
import RemoteTable.Library.Ledger

/-!
# Descriptors of a client session

`rtable_bind`, `complete_remote_table`, any operations of the stub and `rtable_unbind`, with
every descriptor that `network_connect` returns and every call on it. The kernel gives out the
lowest number that is free. A number that is given out again stands for a new descriptor, and
a pointer that still holds the number leads to the new one.
-/

namespace RemoteTable.Descriptors
open Ledger

/-! ### The session -/

section
variable {σ δ : Type}

/-- The members of `struct rtable_t` that `rtable_bind` assigns. -/
structure BoundT (δ : Type) where
  serverOne : Option δ
  currentServer : ℤ

/-- The test after `network_connect` is one of `remote_table`, which is not `NULL`. -/
def rtableBind (net : ClientNet σ δ) (world : σ) (addressPort : CString) : BoundT δ × σ :=
  let (server, world) := net.networkConnect world addressPort
  (⟨server, serverOne⟩, world)

def completeRemoteTable (remoteTable : BoundT δ) (serverOne serverTwo : CString) : RtableT δ :=
  ⟨remoteTable.serverOne, none, serverOne, serverTwo, remoteTable.currentServer⟩

/-- The request of an operation. -/
def msgOut : StubCall → MessageT
  | .put key value => ⟨ocPut, .entry ⟨key, value⟩⟩
  | .update key value => ⟨ocUpdate, .entry ⟨key, value⟩⟩
  | .get key => ⟨ocGet, .key key⟩
  | .del key => ⟨ocDel, .key key⟩
  | .size => ⟨ocSize, .result 0⟩
  | .getKeys => ⟨ocGet, .key bang⟩

/-- The second request of a put that is answered with an error. -/
def again (net : ClientNet σ δ) (world : σ) (rtable : RtableT δ) (call : StubCall)
    (msgResposta : Option MessageT) : Except Fault σ :=
  match call, msgResposta with
  | .put _ _, some msgResposta => do
    let (_, world) ← resend net world rtable (msgOut call) msgResposta
    return world
  | _, _ => return world

/-- An operation up to what it makes of the reply. -/
def stubRequest (net : ClientNet σ δ) (world : σ) (rtable : RtableT δ) (call : StubCall) :
    Except Fault (RtableT δ × σ) := do
  let (msgResposta, rtable, world) ← retryServers net world rtable (msgOut call)
  let world ← again net world rtable call msgResposta
  return (rtable, world)

def stubRequests (net : ClientNet σ δ) (world : σ) (rtable : RtableT δ) :
    List StubCall → Except Fault (RtableT δ × σ)
  | [] => return (rtable, world)
  | call :: calls => do
    let (rtable, world) ← stubRequest net world rtable call
    stubRequests net world rtable calls

/-- What is made of a reply leaves the pointers and the world. -/
def Keeps {α : Type} (x : Except Fault (α × RtableT δ × σ)) (rtable : RtableT δ) (world : σ) :
    Prop :=
  ∀ a rtable' world', x = .ok (a, rtable', world') → rtable' = rtable ∧ world' = world

section
variable {α β : Type} {rtable rtable' : RtableT δ} {world world' : σ}

lemma keeps_pure (a : α) : Keeps (pure (a, rtable, world)) rtable world := by
  rintro _ _ _ ⟨⟩
  exact ⟨rfl, rfl⟩

lemma keeps_bind (x : Except Fault β) {f : β → Except Fault (α × RtableT δ × σ)}
    (hf : ∀ b, Keeps (f b) rtable world) : Keeps (x >>= f) rtable world := by
  intro a rtable' world' h
  obtain ⟨b, -, hb⟩ := bind_eq_ok h
  exact hf b a rtable' world' hb

lemma keeps_ite (P : Prop) [Decidable P] {x y : Except Fault (α × RtableT δ × σ)}
    (hx : Keeps x rtable world) (hy : Keeps y rtable world) :
    Keeps (if P then x else y) rtable world := by
  split
  · exact hx
  · exact hy

lemma stubRequest_of_keeps {net : ClientNet σ δ} {call : StubCall} {a : α}
    {f : Option MessageT × RtableT δ × σ → Except Fault (α × RtableT δ × σ)}
    (hagain : ∀ world rtable answer, again net world rtable call answer = .ok world)
    (hf : ∀ answer rtable world, Keeps (f (answer, rtable, world)) rtable world)
    (h : (retryServers net world rtable (msgOut call) >>= f) = .ok (a, rtable', world')) :
    stubRequest net world rtable call = .ok (rtable', world') := by
  obtain ⟨⟨answer, rtable₁, world₁⟩, hretry, hrest⟩ := bind_eq_ok h
  obtain ⟨rfl, rfl⟩ := hf answer rtable₁ world₁ a rtable' world' hrest
  rw [stubRequest, hretry, ok_bind]
  simp only [hagain, ok_bind, pure_eq_ok]

/-- An operation that returns leaves the pointers and the world that its requests lead to. -/
lemma stubRequest_of_call {net : ClientNet σ δ} {call : StubCall} {result : StubReturn}
    (h : stubCall net world rtable call = .ok (result, rtable', world')) :
    stubRequest net world rtable call = .ok (rtable', world') := by
  cases call with
  | put key value =>
    obtain ⟨⟨result', rtable₁, world₁⟩, hput, hend⟩ := bind_eq_ok h
    cases hend
    obtain ⟨⟨answer, rtable₂, world₂⟩, hretry, hrest⟩ := bind_eq_ok hput
    rw [stubRequest, msgOut, hretry, ok_bind]
    cases answer with
    | none =>
      cases hrest
      rfl
    | some reply =>
      obtain ⟨⟨reply', world₃⟩, hresend, hrest⟩ := bind_eq_ok hrest
      have hkeeps : rtable' = rtable₂ ∧ world' = world₃ :=
        keeps_ite _ (keeps_bind _ (fun _ => keeps_pure _)) (keeps_pure _) _ _ _ hrest
      simp only [again, msgOut, hresend, ok_bind, pure_eq_ok, hkeeps]
  | update key value =>
    obtain ⟨⟨result', rtable₁, world₁⟩, hupdate, hend⟩ := bind_eq_ok h
    cases hend
    refine stubRequest_of_keeps (fun _ _ _ => rfl) (fun answer rtable world => ?_) hupdate
    cases answer with
    | none => exact keeps_pure _
    | some reply => exact keeps_ite _ (keeps_bind _ (fun _ => keeps_pure _)) (keeps_pure _)
  | get key =>
    obtain ⟨⟨result', rtable₁, world₁⟩, hget, hend⟩ := bind_eq_ok h
    cases hend
    refine stubRequest_of_keeps (fun _ _ _ => rfl) (fun answer rtable world => ?_) hget
    cases answer with
    | none => exact keeps_pure _
    | some reply => exact keeps_ite _ (keeps_pure _) (keeps_bind _ (fun _ => keeps_pure _))
  | del key =>
    obtain ⟨⟨result', rtable₁, world₁⟩, hdel, hend⟩ := bind_eq_ok h
    cases hend
    refine stubRequest_of_keeps (fun _ _ _ => rfl) (fun answer rtable world => ?_) hdel
    cases answer with
    | none => exact keeps_pure _
    | some reply => exact keeps_ite _ (keeps_pure _) (keeps_bind _ (fun _ => keeps_pure _))
  | size =>
    obtain ⟨⟨result', rtable₁, world₁⟩, hsize, hend⟩ := bind_eq_ok h
    cases hend
    refine stubRequest_of_keeps (fun _ _ _ => rfl) (fun answer rtable world => ?_) hsize
    cases answer with
    | none => exact keeps_pure _
    | some reply => exact keeps_ite _ (keeps_pure _) (keeps_bind _ (fun _ => keeps_pure _))
  | getKeys =>
    obtain ⟨⟨result', rtable₁, world₁⟩, hkeys, hend⟩ := bind_eq_ok h
    cases hend
    refine stubRequest_of_keeps (fun _ _ _ => rfl) (fun answer rtable world => ?_) hkeys
    cases answer with
    | none => exact keeps_pure _
    | some reply =>
      exact keeps_bind _ (fun _ => keeps_ite _ (keeps_pure _)
        (keeps_bind _ (fun _ => keeps_pure _)))

/-- Operations one after another. -/
def stubStep (net : ClientNet σ δ) (state : RtableT δ × σ) (call : StubCall) :
    Except Fault (StubReturn × RtableT δ × σ) :=
  stubCall net state.2 state.1 call

/-- So do operations one after another. -/
theorem stubRequests_of_calls {net : ClientNet σ δ} {calls : List StubCall}
    {returns : List StubReturn}
    (h : Machine.run (stubStep net) (rtable, world) calls = .ok (returns, rtable', world')) :
    stubRequests net world rtable calls = .ok (rtable', world') := by
  induction calls generalizing rtable world returns with
  | nil =>
    cases h
    rfl
  | cons call calls ih =>
    obtain ⟨result, returns', ⟨rtable₁, world₁⟩, hcall, hrest, -⟩ := Machine.run_cons_inv h
    rw [stubRequests, stubRequest_of_call hcall, ok_bind]
    exact ih hrest

end

end

/-! ### The kernel -/

/-- What the calls of `write_all` and `read_all` in one `network_send_receive` return, and what
`buffer_to_message` makes of the reply. -/
structure Transfers where
  headerWritten : ℤ
  bodyWritten : ℤ
  headerRead : ℤ
  reply : Option MessageT

/-- The outcomes of all later connects and transfers. -/
structure Script where
  connects : ℕ → Bool
  transfers : ℕ → Transfers

def Script.connected (script : Script) : Script :=
  ⟨fun k => script.connects (k + 1), script.transfers⟩

def Script.transferred (script : Script) : Script :=
  ⟨script.connects, fun k => script.transfers (k + 1)⟩

/-- A number and how often the kernel has given it out. -/
abbrev Descriptor := ℕ × ℕ

structure World where
  script : Script
  /-- What `close` returns to `network_close` for an open number. -/
  closing : ℤ
  openFds : List ℕ
  /-- How often each number has been given out. -/
  given : ℕ → ℕ
  events : List (Event Descriptor)

/-- The descriptor that a call with a number is about, and the last one it stood for when the
number is free. -/
def World.descriptor (world : World) (fd : ℕ) : Descriptor := (fd, world.given fd)

def World.use (world : World) (fd : ℕ) : World :=
  { world with events := world.events ++ [.used (world.descriptor fd)] }

def World.close (world : World) (fd : ℕ) : World :=
  { world with
    openFds := world.openFds.filter (· ≠ fd)
    events := world.events ++ [.closed (world.descriptor fd)] }

/-- The lowest number that is free is given out. -/
def World.give (world : World) : World :=
  let fd := lowestFree world.openFds
  let given := Function.update world.given fd (world.given fd + 1)
  { world with
    openFds := fd :: world.openFds
    given := given
    events := world.events ++ [.opened (fd, given fd)] }

/-- A number whose connection fails is given back before the call returns. -/
def networkConnect (world : World) (_ : CString) : Option ℕ × World :=
  let established := world.script.connects 0
  let world := { world with script := world.script.connected }
  if established then (some (lowestFree world.openFds), world.give) else (none, world)

/-- What the transfers through a number come to: every write fails if it is not open. -/
def World.transfersOf (world : World) (fd : ℕ) : Transfers :=
  if fd ∈ world.openFds then world.script.transfers 0
  else { world.script.transfers 0 with headerWritten := -1 }

def networkSendReceive (world : World) (server : Option ℕ) (msg : MessageT) :
    Except Fault (Option MessageT × World) :=
  match server with
  | none => return (none, world)
  | some fd => do
    let (_, messageSize) ← messageToBuffer (some msg)
    if messageSize ≤ 0 then
      return (none, world)
    let t := world.transfersOf fd
    let world := { world with script := world.script.transferred }
    let world := world.use fd
    if t.headerWritten ≠ 4 then
      return (none, world.close fd)
    let world := world.use fd
    -- the descriptor stays open
    if t.bodyWritten = -1 then
      return (none, world)
    let world := world.use fd
    if t.headerRead ≠ 4 then
      return (none, world.close fd)
    let world := world.use fd
    return (t.reply, world)

def networkClose (world : World) : Option ℕ → ℤ × World
  | none => (-1, world)
  | some fd => (if fd ∈ world.openFds then world.closing else -1, world.close fd)

def descriptorNet : ClientNet World ℕ := ⟨networkConnect, networkSendReceive⟩

/-- Only the first server is closed. -/
def rtableUnbind (world : World) (rtable : RtableT ℕ) : ℤ × World :=
  networkClose world rtable.serverOne

/-- What `rtable_unbind` returns at the end of a session, and the world then. -/
def session (world : World) (serverOne serverTwo : CString) (calls : List StubCall) :
    Except Fault (ℤ × World) := do
  let (remoteTable, world) := rtableBind descriptorNet world serverOne
  let rtable := completeRemoteTable remoteTable serverOne serverTwo
  let (rtable, world) ← stubRequests descriptorNet world rtable calls
  return rtableUnbind world rtable

/-- `stdin`, `stdout` and `stderr` are open, and nothing has been given out yet. -/
def initialWorld (script : Script) (closing : ℤ) : World :=
  ⟨script, closing, [0, 1, 2], fun _ => 0, []⟩

/-! ### The pointers of the two servers -/

/-- `NULL`, or a server whose number is open or free. -/
inductive Slot
  | absent
  | live
  | dead
  deriving DecidableEq

/-- What `network_send_receive` returns with these transfers. -/
def Transfers.answer (t : Transfers) : Option MessageT :=
  if t.headerWritten ≠ 4 ∨ t.bodyWritten = -1 ∨ t.headerRead ≠ 4 then none else t.reply

/-- The slot of a new connection. -/
def Script.connection (script : Script) : Slot := if script.connects 0 then .live else .absent

/-- A failed transfer of a size closes the descriptor. -/
def Transfers.closes (t : Transfers) : Bool :=
  t.headerWritten ≠ 4 ∨ t.bodyWritten ≠ -1 ∧ t.headerRead ≠ 4

/-- A request through a pointer, unless its number is free. -/
def Slot.request (slot : Slot) (script : Script) : Option (Option MessageT × Slot × Script) :=
  match slot with
  | .absent => some (none, .absent, script)
  | .live =>
    let t := script.transfers 0
    some (t.answer, if t.closes then .dead else .live, script.transferred)
  | .dead => none

/-- The pointer of the current server and the other one. `first` tells whether the current
server is the first one, and `shared` whether both pointers hold the same number. -/
structure Slots where
  current : Slot
  other : Slot
  shared : Bool
  first : Bool
  deriving DecidableEq

def Slots.one (s : Slots) : Slot := if s.first then s.current else s.other
def Slots.two (s : Slots) : Slot := if s.first then s.other else s.current

def Slots.attempt (s : Slots) (script : Script) : Option (Option MessageT × Slots × Script) := do
  let (answer, current, script) ← s.current.request script
  return (answer, ⟨current, if s.shared then current else s.other, s.shared, s.first⟩, script)

def Slots.requestOther (s : Slots) (script : Script) :
    Option (Option MessageT × Slots × Script) := do
  let (answer, other, script) ← s.other.request script
  return (answer, ⟨if s.shared then other else s.current, other, s.shared, s.first⟩, script)

/-- A request through the pointer of the first server. -/
def Slots.requestOne (s : Slots) (script : Script) : Option (Option MessageT × Slots × Script) :=
  if s.first then s.attempt script else s.requestOther script

/-- A switch to the other server, unless its pointer is the only one to an open number. The
number that the current pointer has lost is the lowest free one. -/
def Slots.switch (s : Slots) (script : Script) : Option (Slots × Script) :=
  if s.other = .live ∧ s.shared = false then none
  else
    let shared := script.connects 0 && s.current = .dead
    some (⟨script.connection, if shared then .live else s.current, shared, !s.first⟩,
      script.connected)

def Slots.retry : ℕ → Slots → Script → Option (Option MessageT × Slots × Script)
  | 0, s, script => s.attempt script
  | retries + 1, s, script => do
    match ← s.attempt script with
    | (some answer, s, script) => return (some answer, s, script)
    | (none, s, script) => do
      let (s, script) ← s.switch script
      s.retry retries script

/-- The second request of a put goes to the first server. -/
def Slots.again (s : Slots) (script : Script) (call : StubCall) (answer : Option MessageT) :
    Option (Slots × Script) :=
  match call, answer with
  | .put _ _, some answer =>
    if answer.opcode = ocRtError then do
      let (_, s, script) ← s.requestOne script
      return (s, script)
    else return (s, script)
  | _, _ => return (s, script)

def Slots.call (s : Slots) (script : Script) (call : StubCall) : Option (Slots × Script) := do
  let (answer, s, script) ← s.retry 3 script
  s.again script call answer

def Slots.calls (s : Slots) (script : Script) : List StubCall → Option (Slots × Script)
  | [] => some (s, script)
  | call :: calls => do
    let (s, script) ← s.call script call
    s.calls script calls

/-- The pointers that `rtable_bind` and `complete_remote_table` leave. -/
def Slots.bound (script : Script) : Slots := ⟨script.connection, .absent, false, true⟩

/-- No request goes through a free number, no pointer is replaced that is the only one to an
open number, and at the end the number of the first server is not free and the second server
has no open number of its own. -/
def SessionFits (script : Script) (calls : List StubCall) : Prop :=
  ∃ s script', (Slots.bound script).calls script.connected calls = some (s, script') ∧
    s.one ≠ .dead ∧ (s.two = .live → s.shared = true)

/-! ### The pointers in the session -/

def World.slotOf (world : World) : Option ℕ → Slot
  | none => .absent
  | some fd => if fd ∈ world.openFds then .live else .dead

/-- Every descriptor is closed or behind one of two pointers, whose numbers tell which. -/
structure Held (world : World) (p q : Option ℕ) : Prop where
  careful : Careful world.events
  below : ∀ d : Descriptor, .opened d ∈ world.events → d.2 ≤ world.given d.1
  opened : ∀ d : Descriptor, .closed d ∈ world.events → .opened d ∈ world.events
  owned : ∀ fd, p = some fd ∨ q = some fd → .opened (world.descriptor fd) ∈ world.events ∧
    (fd ∈ world.openFds ↔ .closed (world.descriptor fd) ∉ world.events)
  settled : ∀ d : Descriptor, .opened d ∈ world.events → .closed d ∈ world.events ∨
    d = world.descriptor d.1 ∧ (p = some d.1 ∨ q = some d.1)

/-- The number of the current server is the lowest free one if it is free. -/
structure Sound (world : World) (current other : Option ℕ) : Prop extends
    Held world current other where
  low : ∀ fd, current = some fd → ∀ k < fd, k ∈ world.openFds

/-- A closed descriptor has been used, or an open one is behind neither pointer. -/
def Doomed (world : World) (p q : Option ℕ) : Prop :=
  ¬Careful world.events ∨ ∃ fd ∈ world.openFds,
    .opened (world.descriptor fd) ∈ world.events ∧
      .closed (world.descriptor fd) ∉ world.events ∧ p ≠ some fd ∧ q ≠ some fd

/-- Both pointers hold one number. -/
def sharedBy (p q : Option ℕ) : Bool := p.isSome && p = q

section
variable {world world' : World} {p q : Option ℕ} {fd : ℕ} {msg : MessageT}
  {answer : Option MessageT} {fs : List (Event Descriptor)}

lemma Held.swap (hs : Held world p q) : Held world q p where
  careful := hs.careful
  below := hs.below
  opened := hs.opened
  owned fd hfd := hs.owned fd hfd.symm
  settled d hd := (hs.settled d hd).imp id (And.imp id Or.symm)

lemma Doomed.swap (hd : Doomed world p q) : Doomed world q p :=
  hd.imp id (fun ⟨fd, hopen, hopened, hclosed, hp, hq⟩ => ⟨fd, hopen, hopened, hclosed, hq, hp⟩)

lemma sharedBy_some (q : Option ℕ) : sharedBy (some fd) q = true ↔ q = some fd := by
  simp [sharedBy, eq_comm]

/-! ### Calls on a number -/

/-- What a request does to its descriptor. -/
def Transfers.events (t : Transfers) (d : Descriptor) : List (Event Descriptor) :=
  if t.headerWritten ≠ 4 then [.used d, .closed d]
  else if t.bodyWritten = -1 then [.used d, .used d]
  else if t.headerRead ≠ 4 then [.used d, .used d, .used d, .closed d]
  else [.used d, .used d, .used d, .used d]

lemma callsOn_events (t : Transfers) (d : Descriptor) : CallsOn d (t.events d) := by
  rw [Transfers.events]
  split_ifs
  · exact ⟨by simp, by simp, by simp [Careful, MayFollow]⟩
  · exact ⟨by simp, by simp, by simp [Careful, MayFollow]⟩
  · exact ⟨by simp, by simp, by simp [Careful, MayFollow]⟩
  · exact ⟨by simp, by simp, by simp [Careful, MayFollow]⟩

lemma closed_mem_events (t : Transfers) (d : Descriptor) :
    .closed d ∈ t.events d ↔ t.closes = true := by
  rw [Transfers.events, Transfers.closes]
  split_ifs <;> simp_all

/-- The world after a request through a number. -/
def World.after (world : World) (fd : ℕ) (t : Transfers) : World where
  script := world.script.transferred
  closing := world.closing
  openFds := if t.closes then world.openFds.filter (· ≠ fd) else world.openFds
  given := world.given
  events := world.events ++ t.events (world.descriptor fd)

lemma networkSendReceive_some
    (hrun : networkSendReceive world (some fd) msg = .ok (answer, world')) :
    answer = (world.transfersOf fd).answer ∧
      world' = world.after fd (world.transfersOf fd) := by
  simp only [networkSendReceive] at hrun
  obtain ⟨⟨bytes, messageSize⟩, hbuffer, hrun⟩ := bind_eq_ok hrun
  obtain ⟨-, hsize, -⟩ := messageToBuffer_ok hbuffer
  have hpos := wireFormat_pos msg
  rw [if_neg (by omega)] at hrun
  rw [Transfers.answer]
  generalize world.transfersOf fd = t at hrun
  by_cases hheader : t.headerWritten ≠ 4
  · rw [if_pos hheader] at hrun
    cases hrun
    rw [if_pos (Or.inl hheader)]
    simp [World.after, Transfers.events, Transfers.closes, hheader, World.use, World.close,
      World.descriptor]
  · rw [if_neg hheader] at hrun
    by_cases hbody : t.bodyWritten = -1
    · rw [if_pos hbody] at hrun
      cases hrun
      rw [if_pos (Or.inr (Or.inl hbody))]
      simp [World.after, Transfers.events, Transfers.closes, hheader, hbody, World.use,
        World.descriptor]
    · rw [if_neg hbody] at hrun
      by_cases hread : t.headerRead ≠ 4
      · rw [if_pos hread] at hrun
        cases hrun
        rw [if_pos (Or.inr (Or.inr hread))]
        simp [World.after, Transfers.events, Transfers.closes, hheader, hbody, hread, World.use,
          World.close, World.descriptor]
      · rw [if_neg hread] at hrun
        cases hrun
        rw [if_neg (not_or.mpr ⟨hheader, not_or.mpr ⟨hbody, hread⟩⟩)]
        simp [World.after, Transfers.events, Transfers.closes, hheader, hbody, hread, World.use,
          World.descriptor]

/-- An answer does not close the descriptor. -/
lemma Transfers.closes_of_answer {t : Transfers} {reply : MessageT} (h : t.answer = some reply) :
    t.closes = false := by
  rw [Transfers.answer] at h
  rw [Transfers.closes]
  split at h
  · cases h
  · simp_all

@[simp] lemma descriptor_after (world : World) (fd x : ℕ) (t : Transfers) :
    (world.after fd t).descriptor x = world.descriptor x := rfl

lemma mem_openFds_after {t : Transfers} {x : ℕ} :
    x ∈ (world.after fd t).openFds ↔ x ∈ world.openFds ∧ (t.closes = true → x ≠ fd) := by
  rw [World.after]
  cases t.closes <;> simp

/-- Another number stands for another descriptor. -/
lemma closed_after {t : Transfers} {x : ℕ} :
    .closed (world.descriptor x) ∈ (world.after fd t).events ↔
      .closed (world.descriptor x) ∈ world.events ∨ x = fd ∧ t.closes = true := by
  have hcalls := callsOn_events t (world.descriptor fd)
  rw [World.after, List.mem_append]
  apply or_congr Iff.rfl
  constructor
  · intro hmem
    have hx : x = fd := congrArg Prod.fst (hcalls.eq_of_closed hmem)
    subst hx
    exact ⟨rfl, (closed_mem_events t _).mp hmem⟩
  · rintro ⟨rfl, hcloses⟩
    exact (closed_mem_events t _).mpr hcloses

/-- Calls on an open number. -/
lemma Held.after (hs : Held world p q) (hfd : p = some fd ∨ q = some fd)
    (hopen : fd ∈ world.openFds) (t : Transfers) : Held (world.after fd t) p q where
  careful := (callsOn_events t _).careful_append.mpr ⟨hs.careful, (hs.owned fd hfd).2.mp hopen⟩
  below d hd := by
    rcases List.mem_append.mp hd with hd | hd
    · exact hs.below d hd
    · exact absurd hd ((callsOn_events t _).opened_notMem d)
  opened d hd := by
    refine List.mem_append_left _ ?_
    rcases List.mem_append.mp hd with hd | hd
    · exact hs.opened d hd
    · rw [(callsOn_events t _).eq_of_closed hd]
      exact (hs.owned fd hfd).1
  owned x hx := by
    obtain ⟨hopened, hiff⟩ := hs.owned x hx
    refine ⟨List.mem_append_left _ hopened, ?_⟩
    rw [descriptor_after, mem_openFds_after, closed_after, hiff, not_or, not_and']
  settled d hd := by
    rcases List.mem_append.mp hd with hd | hd
    · exact (hs.settled d hd).imp (List.mem_append_left _) id
    · exact absurd hd ((callsOn_events t _).opened_notMem d)

/-- Calls on a free number. -/
lemma Held.doomed_after (hs : Held world p q) (hfd : p = some fd ∨ q = some fd)
    (hfree : fd ∉ world.openFds) (t : Transfers) : Doomed (world.after fd t) p q := by
  have hclosed : .closed (world.descriptor fd) ∈ world.events := by
    by_contra hnot
    exact hfree ((hs.owned fd hfd).2.mpr hnot)
  exact Or.inl (fun hcareful =>
    ((callsOn_events t _).careful_append.mp hcareful).2 hclosed)

lemma Doomed.request (hd : Doomed world p q)
    (hrun : networkSendReceive world p msg = .ok (answer, world')) : Doomed world' p q := by
  cases p with
  | none =>
    cases hrun
    exact hd
  | some fd =>
    obtain ⟨-, rfl⟩ := networkSendReceive_some hrun
    rcases hd with hcareful | ⟨x, hopen, hopened, hclosed, hp, hq⟩
    · exact Or.inl (fun hafter => hcareful hafter.of_append)
    · have hne : x ≠ fd := fun heq => hp (by rw [heq])
      refine Or.inr ⟨x, mem_openFds_after.mpr ⟨hopen, fun _ => hne⟩,
        List.mem_append_left _ hopened, ?_, hp, hq⟩
      rw [descriptor_after, closed_after, not_or]
      exact ⟨hclosed, fun h => hne h.1⟩

lemma slotOf_after (t : Transfers) (x : Option ℕ) :
    (world.after fd t).slotOf x =
      if x = some fd ∧ t.closes = true then .dead else world.slotOf x := by
  cases x with
  | none => simp [World.slotOf]
  | some x =>
    simp only [World.slotOf, mem_openFds_after, Option.some.injEq]
    by_cases hx : x = fd <;> cases t.closes <;> simp [hx]

/-- A request through one of two pointers. -/
lemma Held.request (hs : Held world p q)
    (hrun : networkSendReceive world p msg = .ok (answer, world')) :
    ((world.slotOf p).request world.script = none ∧ Doomed world' p q) ∨
      ((world.slotOf p).request world.script =
          some (answer, world'.slotOf p, world'.script) ∧
        world'.slotOf q = (if sharedBy p q then world'.slotOf p else world.slotOf q) ∧
        Held world' p q) := by
  cases p with
  | none =>
    cases hrun
    exact Or.inr ⟨rfl, rfl, hs⟩
  | some fd =>
    obtain ⟨rfl, rfl⟩ := networkSendReceive_some hrun
    by_cases hopen : fd ∈ world.openFds
    · have ht : world.transfersOf fd = world.script.transfers 0 := if_pos hopen
      rw [ht]
      refine Or.inr ⟨?_, ?_, hs.after (Or.inl rfl) hopen _⟩
      · rw [slotOf_after, World.slotOf, if_pos hopen]
        simp only [Slot.request, true_and]
        rfl
      · rw [slotOf_after, slotOf_after]
        by_cases hshared : q = some fd
        · rw [if_pos ((sharedBy_some q).mpr hshared), hshared]
        · rw [if_neg (fun h => hshared ((sharedBy_some q).mp h)),
            if_neg (fun h => hshared h.1)]
    · refine Or.inl ⟨?_, hs.doomed_after (Or.inl rfl) hopen _⟩
      rw [World.slotOf, if_neg hopen]
      rfl

/-- A request through the current pointer frees no lower number. -/
lemma low_request (hlow : ∀ fd, p = some fd → ∀ k < fd, k ∈ world.openFds)
    (hrun : networkSendReceive world p msg = .ok (answer, world')) :
    ∀ fd, p = some fd → ∀ k < fd, k ∈ world'.openFds := by
  rintro fd rfl k hk
  obtain ⟨-, rfl⟩ := networkSendReceive_some hrun
  exact mem_openFds_after.mpr ⟨hlow fd rfl k hk, fun _ => Nat.ne_of_lt hk⟩

/-- A request that is answered frees no number. -/
lemma openFds_of_answer {reply : MessageT}
    (hrun : networkSendReceive world p msg = .ok (some reply, world')) :
    world'.openFds = world.openFds := by
  cases p with
  | none => cases hrun
  | some fd =>
    obtain ⟨hanswer, rfl⟩ := networkSendReceive_some hrun
    rw [World.after, Transfers.closes_of_answer hanswer.symm]
    simp

/-! ### Connections -/

lemma networkConnect_cases (world : World) (ipPort : CString) :
    (world.script.connects 0 = true ∧ networkConnect world ipPort =
        (some (lowestFree world.openFds), { world with script := world.script.connected }.give)) ∨
      (world.script.connects 0 = false ∧ networkConnect world ipPort =
        (none, { world with script := world.script.connected })) := by
  rw [networkConnect]
  cases hconnects : world.script.connects 0 with
  | true => exact Or.inl ⟨rfl, rfl⟩
  | false => exact Or.inr ⟨rfl, rfl⟩

lemma given_give (world : World) : world.give.given = Function.update world.given
    (lowestFree world.openFds) (world.given (lowestFree world.openFds) + 1) := rfl

lemma descriptor_give_of_ne {x : ℕ} (h : x ≠ lowestFree world.openFds) :
    world.give.descriptor x = world.descriptor x := by
  rw [World.descriptor, World.descriptor, given_give, Function.update_of_ne h]

/-- The new descriptor of the number that is given out. -/
lemma descriptor_give_lowest (world : World) :
    world.give.descriptor (lowestFree world.openFds) =
      (lowestFree world.openFds, world.given (lowestFree world.openFds) + 1) := by
  rw [World.descriptor, given_give, Function.update_self]

lemma events_give (world : World) :
    world.give.events =
      world.events ++ [.opened (world.give.descriptor (lowestFree world.openFds))] := rfl

lemma closed_give {d : Descriptor} : .closed d ∈ world.give.events ↔ .closed d ∈ world.events := by
  rw [events_give]
  simp

lemma opened_give {d : Descriptor} : .opened d ∈ world.give.events ↔
    .opened d ∈ world.events ∨ d = world.give.descriptor (lowestFree world.openFds) := by
  rw [events_give]
  simp

/-- What `network_connect` gives out is behind the first pointer, and only the second may hold
an open number besides. -/
lemma Held.give (hs : Held world p q) (hq : world.slotOf q = .live → q = p) :
    Held world.give (some (lowestFree world.openFds)) p := by
  have hfree := lowestFree_notMem world.openFds
  have hfresh : ∀ d : Descriptor, .opened d ∈ world.events →
      d ≠ world.give.descriptor (lowestFree world.openFds) := by
    rintro d hd rfl
    have hle := hs.below _ hd
    rw [descriptor_give_lowest] at hle
    exact Nat.not_succ_le_self _ hle
  have hnew : .closed (world.give.descriptor (lowestFree world.openFds)) ∉ world.events :=
    fun hclosed => hfresh _ (hs.opened _ hclosed) rfl
  refine ⟨?_, fun d hd => ?_, fun d hd => ?_, fun x hx => ?_, fun d hd => ?_⟩
  · rw [events_give]
    exact careful_opened.mpr hs.careful
  · rcases opened_give.mp hd with hd | rfl
    · refine (hs.below d hd).trans ?_
      by_cases heq : d.1 = lowestFree world.openFds
      · rw [given_give, heq, Function.update_self]
        exact Nat.le_succ _
      · rw [given_give, Function.update_of_ne heq]
    · exact Nat.le_refl _
  · exact opened_give.mpr (.inl (hs.opened d (closed_give.mp hd)))
  · by_cases heq : x = lowestFree world.openFds
    · subst heq
      rw [closed_give]
      exact ⟨opened_give.mpr (.inr rfl), iff_of_true List.mem_cons_self hnew⟩
    · have hpx : p = some x := hx.resolve_left (fun h => heq (Option.some.inj h).symm)
      obtain ⟨hopened, hiff⟩ := hs.owned x (.inl hpx)
      rw [descriptor_give_of_ne heq, closed_give, ← hiff]
      refine ⟨opened_give.mpr (.inl hopened), ?_⟩
      rw [World.give, List.mem_cons, or_iff_right heq]
  · rcases opened_give.mp hd with hd | rfl
    · rw [closed_give]
      by_cases hclosed : .closed d ∈ world.events
      · exact .inl hclosed
      · obtain ⟨heq, hheld⟩ := (hs.settled d hd).resolve_left hclosed
        have hopen : d.1 ∈ world.openFds := (hs.owned d.1 hheld).2.mpr (heq ▸ hclosed)
        have hp : p = some d.1 := by
          rcases hheld with hp | hqd
          · exact hp
          · rw [← hq (by rw [hqd, World.slotOf, if_pos hopen]), hqd]
        have hne : d.1 ≠ lowestFree world.openFds := fun h => hfree (h ▸ hopen)
        exact .inr ⟨heq.trans (descriptor_give_of_ne hne).symm, .inr hp⟩
    · exact .inr ⟨rfl, .inl rfl⟩

/-- A pointer to a descriptor that is closed or behind the other pointer too may be dropped. -/
lemma Held.drop (hs : Held world p q) (hq : world.slotOf q = .live → q = p) :
    Held world none p where
  careful := hs.careful
  below := hs.below
  opened := hs.opened
  owned fd hfd := hs.owned fd (.inl (hfd.resolve_left (by simp)))
  settled d hd := by
    by_cases hclosed : .closed d ∈ world.events
    · exact .inl hclosed
    · obtain ⟨heq, hheld⟩ := (hs.settled d hd).resolve_left hclosed
      have hopen : d.1 ∈ world.openFds := (hs.owned d.1 hheld).2.mpr (heq ▸ hclosed)
      refine .inr ⟨heq, .inr ?_⟩
      rcases hheld with hp | hqd
      · exact hp
      · rw [← hq (by rw [hqd, World.slotOf, if_pos hopen]), hqd]

lemma Held.script (hs : Held world p q) (script : Script) :
    Held { world with script := script } p q :=
  ⟨hs.careful, hs.below, hs.opened, hs.owned, hs.settled⟩

/-- The other pointer is replaced by a connection, which becomes the current one. -/
lemma Sound.connect (hs : Sound world p q) (hq : world.slotOf q = .live → q = p)
    (ipPort : CString) :
    Sound (networkConnect world ipPort).2 (networkConnect world ipPort).1 p := by
  rcases networkConnect_cases world ipPort with ⟨-, heq⟩ | ⟨-, heq⟩
  · rw [heq]
    refine ⟨(hs.toHeld.script _).give hq, fun fd hfd k hk => ?_⟩
    cases hfd
    exact List.mem_cons_of_mem _ ((lowestFree_spec world.openFds).2 k hk)
  · rw [heq]
    exact ⟨(hs.toHeld.script _).drop hq, fun fd hfd => by cases hfd⟩

/-- A descriptor that no pointer leads to is never closed. -/
lemma doomed_connect (hlost : ∃ fd ∈ world.openFds, .opened (world.descriptor fd) ∈ world.events ∧
    .closed (world.descriptor fd) ∉ world.events ∧ p ≠ some fd) (ipPort : CString) :
    Doomed (networkConnect world ipPort).2 (networkConnect world ipPort).1 p := by
  obtain ⟨fd, hopen, hopened, hclosed, hp⟩ := hlost
  rcases networkConnect_cases world ipPort with ⟨-, heq⟩ | ⟨-, heq⟩
  · have hne : fd ≠ lowestFree world.openFds :=
      fun h => lowestFree_notMem world.openFds (h ▸ hopen)
    have hsame : ({ world with script := world.script.connected } : World).give.descriptor fd =
        world.descriptor fd := descriptor_give_of_ne hne
    rw [heq]
    refine Or.inr ⟨fd, List.mem_cons_of_mem _ hopen, ?_, ?_, ?_, hp⟩
    · rw [hsame]
      exact opened_give.mpr (.inl hopened)
    · rw [hsame, closed_give]
      exact hclosed
    · exact fun h => hne (Option.some.inj h).symm
  · rw [heq]
    exact Or.inr ⟨fd, hopen, hopened, hclosed, by simp, hp⟩

lemma Doomed.switch (hd : Doomed world p q) (ipPort : CString) :
    Doomed (networkConnect world ipPort).2 (networkConnect world ipPort).1 p := by
  rcases hd with hcareful | ⟨fd, hopen, hopened, hclosed, hp, -⟩
  · refine Or.inl (fun hafter => hcareful ?_)
    rcases networkConnect_cases world ipPort with ⟨-, heq⟩ | ⟨-, heq⟩
    · rw [heq, events_give] at hafter
      exact careful_opened.mp hafter
    · rwa [heq] at hafter
  · exact doomed_connect ⟨fd, hopen, hopened, hclosed, hp⟩ ipPort

/-- An open number that only the other pointer holds is lost. -/
lemma Held.lose (hs : Held world p q) (hq : world.slotOf q = .live) (hother : q ≠ p)
    (ipPort : CString) :
    Doomed (networkConnect world ipPort).2 (networkConnect world ipPort).1 p := by
  cases q with
  | none => cases hq
  | some fd =>
    have hopen : fd ∈ world.openFds := by
      by_contra hnot
      rw [World.slotOf, if_neg hnot] at hq
      cases hq
    obtain ⟨hopened, hiff⟩ := hs.owned fd (.inr rfl)
    exact doomed_connect ⟨fd, hopen, hopened, hiff.mp hopen, hother.symm⟩ ipPort

lemma slotOf_connection (world : World) (ipPort : CString) :
    (networkConnect world ipPort).2.slotOf (networkConnect world ipPort).1 =
      world.script.connection := by
  rw [Script.connection]
  rcases networkConnect_cases world ipPort with ⟨hconnects, heq⟩ | ⟨hconnects, heq⟩
  · have hopen : lowestFree world.openFds ∈ world.give.openFds := List.mem_cons_self
    rw [heq, hconnects]
    exact if_pos hopen
  · rw [heq, hconnects]
    rfl

/-- The connection takes the number of the pointer that was current exactly if that number is
free. -/
lemma sharedBy_connect (hs : Sound world p q) (ipPort : CString) :
    sharedBy (networkConnect world ipPort).1 p =
      (world.script.connects 0 && world.slotOf p = .dead) := by
  rcases networkConnect_cases world ipPort with ⟨hconnects, heq⟩ | ⟨hconnects, heq⟩
  · rw [heq, hconnects, Bool.true_and, Bool.eq_iff_iff, sharedBy_some, decide_eq_true_eq]
    cases p with
    | none => simp [World.slotOf]
    | some fd =>
      by_cases hopen : fd ∈ world.openFds
      · have hne : fd ≠ lowestFree world.openFds :=
          fun h => lowestFree_notMem world.openFds (h ▸ hopen)
        simp [World.slotOf, hopen, hne]
      · have hsame := eq_lowestFree hopen (hs.low fd rfl)
        simp [World.slotOf, hopen, ← hsame]
  · rw [heq, hconnects]
    rfl

lemma slotOf_connect (hs : Sound world p q) (ipPort : CString) :
    (networkConnect world ipPort).2.slotOf p =
      if sharedBy (networkConnect world ipPort).1 p then .live else world.slotOf p := by
  rcases networkConnect_cases world ipPort with ⟨-, heq⟩ | ⟨-, heq⟩
  · rw [heq]
    cases p with
    | none => simp [World.slotOf, sharedBy]
    | some fd =>
      by_cases hfd : fd = lowestFree world.openFds
      · simp [World.slotOf, sharedBy, World.give, hfd]
      · simp [World.slotOf, sharedBy, World.give, hfd, Ne.symm hfd]
  · rw [heq]
    rfl

lemma script_connect (ipPort : CString) :
    (networkConnect world ipPort).2.script = world.script.connected := by
  rcases networkConnect_cases world ipPort with ⟨-, heq⟩ | ⟨-, heq⟩
  · rw [heq]
    rfl
  · rw [heq]

end

/-! ### The session follows the pointers -/

def otherServer (rtable : RtableT ℕ) : Option ℕ :=
  if rtable.currentServer = serverOne then rtable.serverTwo else rtable.serverOne

def slotsOf (world : World) (rtable : RtableT ℕ) : Slots where
  current := world.slotOf (currentServer rtable)
  other := world.slotOf (otherServer rtable)
  shared := sharedBy (currentServer rtable) (otherServer rtable)
  first := rtable.currentServer = serverOne

/-- The pointers tell that something has gone wrong, or where the descriptors are. -/
def Follows {α : Type} (outcome : Option (α × Slots × Script)) (x : α) (world : World)
    (rtable : RtableT ℕ) : Prop :=
  (outcome = none ∧ Doomed world (currentServer rtable) (otherServer rtable)) ∨
    (outcome = some (x, slotsOf world rtable, world.script) ∧
      Sound world (currentServer rtable) (otherServer rtable))

section
variable {world world' : World} {rtable rtable' : RtableT ℕ} {msg : MessageT}
  {answer : Option MessageT}

lemma sharedBy_comm (p q : Option ℕ) : sharedBy p q = sharedBy q p := by
  cases p <;> cases q <;> simp [sharedBy, eq_comm]

lemma attempt_follows (hs : Sound world (currentServer rtable) (otherServer rtable))
    (hrun : networkSendReceive world (currentServer rtable) msg = .ok (answer, world')) :
    Follows ((slotsOf world rtable).attempt world.script) answer world' rtable := by
  rcases hs.request hrun with ⟨hnone, hd⟩ | ⟨hsome, hother, hs'⟩
  · refine Or.inl ⟨?_, hd⟩
    simp only [Slots.attempt, slotsOf, hnone]
    rfl
  · refine Or.inr ⟨?_, hs', low_request hs.low hrun⟩
    simp only [Slots.attempt, slotsOf, hsome, hother]
    rfl

/-- An answered request through the pointer that is not current. -/
lemma requestOther_follows (hs : Sound world (currentServer rtable) (otherServer rtable))
    {reply : MessageT}
    (hrun : networkSendReceive world (otherServer rtable) msg = .ok (some reply, world')) :
    Follows ((slotsOf world rtable).requestOther world.script) (some reply) world' rtable := by
  rcases hs.toHeld.swap.request hrun with ⟨hnone, hd⟩ | ⟨hsome, hcurrent, hs'⟩
  · refine Or.inl ⟨?_, hd.swap⟩
    simp only [Slots.requestOther, slotsOf, hnone]
    rfl
  · refine Or.inr ⟨?_, hs'.swap, ?_⟩
    · simp only [Slots.requestOther, slotsOf, hsome, hcurrent, sharedBy_comm (otherServer rtable)]
      rfl
    · rw [openFds_of_answer hrun]
      exact hs.low

/-- Whichever is current, the connection replaces the pointer that is not. -/
lemma switchServer_pointers (world : World) (rtable : RtableT ℕ) :
    ∃ ipPort, (switchServer descriptorNet world rtable).2 = (networkConnect world ipPort).2 ∧
      currentServer (switchServer descriptorNet world rtable).1 =
        (networkConnect world ipPort).1 ∧
      otherServer (switchServer descriptorNet world rtable).1 = currentServer rtable ∧
      ((switchServer descriptorNet world rtable).1.currentServer = serverOne ↔
        ¬rtable.currentServer = serverOne) := by
  have hne : ¬serverTwo = serverOne := by decide
  by_cases hfirst : rtable.currentServer = serverOne
  · have heq : switchServer descriptorNet world rtable =
        ({ rtable with
            currentServer := serverTwo
            serverTwo := (networkConnect world rtable.ipPortServerTwo).1 },
          (networkConnect world rtable.ipPortServerTwo).2) := by
      rw [switchServer, if_pos hfirst]
      rfl
    rw [heq]
    exact ⟨rtable.ipPortServerTwo, rfl, if_neg hne, (if_neg hne).trans (if_pos hfirst).symm,
      iff_of_false hne (not_not.mpr hfirst)⟩
  · have heq : switchServer descriptorNet world rtable =
        ({ rtable with
            currentServer := serverOne
            serverOne := (networkConnect world rtable.ipPortServerOne).1 },
          (networkConnect world rtable.ipPortServerOne).2) := by
      rw [switchServer, if_neg hfirst]
      rfl
    rw [heq]
    exact ⟨rtable.ipPortServerOne, rfl, if_pos rfl, (if_pos rfl).trans (if_neg hfirst).symm,
      iff_of_true rfl hfirst⟩

lemma switch_follows (hs : Sound world (currentServer rtable) (otherServer rtable)) :
    Follows (((slotsOf world rtable).switch world.script).map (Prod.mk ()))
      () (switchServer descriptorNet world rtable).2
        (switchServer descriptorNet world rtable).1 := by
  obtain ⟨ipPort, hworld, hcurrent, hother, hfirst⟩ := switchServer_pointers world rtable
  rw [Follows, hworld, hcurrent, hother]
  by_cases hlost : world.slotOf (otherServer rtable) = .live ∧
      sharedBy (currentServer rtable) (otherServer rtable) = false
  · refine Or.inl ⟨?_, hs.lose hlost.1 (fun heq => ?_) ipPort⟩
    · rw [Slots.switch, slotsOf, if_pos hlost]
      rfl
    · obtain ⟨hlive, hshared⟩ := hlost
      rw [heq] at hlive hshared
      cases hp : currentServer rtable with
      | none => simp [hp, World.slotOf] at hlive
      | some fd => simp [hp, sharedBy] at hshared
  · have hdrop : world.slotOf (otherServer rtable) = .live →
        otherServer rtable = currentServer rtable := by
      intro hlive
      have hshared : sharedBy (currentServer rtable) (otherServer rtable) = true := by
        by_contra hnot
        exact hlost ⟨hlive, Bool.eq_false_iff.mpr hnot⟩
      simp only [sharedBy, Bool.and_eq_true, decide_eq_true_eq] at hshared
      exact hshared.2.symm
    refine Or.inr ⟨?_, hs.connect hdrop ipPort⟩
    have hflip : decide ((switchServer descriptorNet world rtable).1.currentServer = serverOne) =
        !decide (rtable.currentServer = serverOne) := by
      rw [decide_eq_decide.mpr hfirst, decide_not]
    rw [Slots.switch, slotsOf, if_neg hlost, slotsOf, hcurrent, hother, hflip, slotOf_connection,
      slotOf_connect hs, sharedBy_connect hs, script_connect]
    rfl

lemma Doomed.switchServer (hd : Doomed world (currentServer rtable) (otherServer rtable)) :
    Doomed (switchServer descriptorNet world rtable).2
      (currentServer (switchServer descriptorNet world rtable).1)
      (otherServer (switchServer descriptorNet world rtable).1) := by
  obtain ⟨ipPort, hworld, hcurrent, hother, -⟩ := switchServer_pointers world rtable
  rw [hworld, hcurrent, hother]
  exact hd.switch ipPort

lemma Doomed.retry {retries : ℕ} (hd : Doomed world (currentServer rtable) (otherServer rtable))
    (hrun : retryLoop descriptorNet retries world rtable msg = .ok (answer, rtable', world')) :
    Doomed world' (currentServer rtable') (otherServer rtable') :=
  retryLoop_invariant
    (fun world rtable => Doomed world (currentServer rtable) (otherServer rtable))
    (fun hd hsend => hd.request hsend) (fun hd => hd.switchServer) hd hrun

lemma retry_follows {retries : ℕ} (hs : Sound world (currentServer rtable) (otherServer rtable))
    (hrun : retryLoop descriptorNet retries world rtable msg = .ok (answer, rtable', world')) :
    Follows ((slotsOf world rtable).retry retries world.script) answer world' rtable' := by
  induction retries generalizing world rtable with
  | zero =>
    obtain ⟨⟨answer', world₁⟩, hsend, hrest⟩ := bind_eq_ok hrun
    cases hrest
    exact attempt_follows hs hsend
  | succ retries ih =>
    obtain ⟨⟨answer', world₁⟩, hsend, hrest⟩ := bind_eq_ok hrun
    rw [Slots.retry]
    rcases attempt_follows hs hsend with ⟨hnone, hd⟩ | ⟨hsome, hs₁⟩
    · refine Or.inl ⟨by rw [hnone]; rfl, ?_⟩
      cases answer' with
      | some reply =>
        cases hrest
        exact hd
      | none => exact hd.switchServer.retry hrest
    · rw [hsome]
      cases answer' with
      | some reply =>
        cases hrest
        exact Or.inr ⟨rfl, hs₁⟩
      | none =>
        rcases switch_follows hs₁ with ⟨hnone, hd⟩ | ⟨hsome, hs₂⟩
        · rw [Option.map_eq_none_iff] at hnone
          refine Or.inl ⟨?_, hd.retry hrest⟩
          simp only [Option.bind_eq_bind, Option.bind_some, hnone, Option.bind_none]
        · obtain ⟨pair, hswitch, hpair⟩ := Option.map_eq_some_iff.mp hsome
          cases hpair
          simp only [Option.bind_eq_bind, Option.bind_some, hswitch]
          exact ih hs₂ hrest

variable {call : StubCall}

/-- The second request of a put is answered in every operation that returns. -/
lemma again_cases (hrun : again descriptorNet world rtable call answer = .ok world') :
    world' = world ∧ (∀ s script, Slots.again s script call answer = some (s, script)) ∨
      ∃ reply, networkSendReceive world rtable.serverOne (msgOut call) =
          .ok (some reply, world') ∧
        ∀ s script, Slots.again s script call answer =
          (s.requestOne script).map (fun x => (x.2.1, x.2.2)) := by
  cases call with
  | put key value =>
    cases answer with
    | none =>
      cases hrun
      exact Or.inl ⟨rfl, fun _ _ => rfl⟩
    | some reply =>
      obtain ⟨⟨reply', world₁⟩, hresend, hrest⟩ := bind_eq_ok hrun
      cases hrest
      rw [resend] at hresend
      by_cases herror : reply.opcode = ocRtError
      · rw [if_pos herror] at hresend
        obtain ⟨⟨answer', world₂⟩, hsend, hrest⟩ := bind_eq_ok hresend
        cases answer' with
        | none => cases hrest
        | some again =>
          cases hrest
          refine Or.inr ⟨reply', hsend, fun s script => ?_⟩
          rw [Slots.again, if_pos herror]
          cases s.requestOne script <;> rfl
      · rw [if_neg herror] at hresend
        cases hresend
        exact Or.inl ⟨rfl, fun s script => by rw [Slots.again, if_neg herror]; rfl⟩
  | update | get | del | size | getKeys =>
    cases hrun
    exact Or.inl ⟨rfl, fun _ _ => rfl⟩

lemma Doomed.requestOne (hd : Doomed world (currentServer rtable) (otherServer rtable))
    (hrun : networkSendReceive world rtable.serverOne msg = .ok (answer, world')) :
    Doomed world' (currentServer rtable) (otherServer rtable) := by
  by_cases hfirst : rtable.currentServer = serverOne
  · have hone : currentServer rtable = rtable.serverOne := if_pos hfirst
    exact hd.request (hone ▸ hrun)
  · have hone : otherServer rtable = rtable.serverOne := if_neg hfirst
    exact (hd.swap.request (hone ▸ hrun)).swap

lemma requestOne_follows (hs : Sound world (currentServer rtable) (otherServer rtable))
    {reply : MessageT}
    (hrun : networkSendReceive world rtable.serverOne msg = .ok (some reply, world')) :
    Follows ((slotsOf world rtable).requestOne world.script) (some reply) world' rtable := by
  rw [Slots.requestOne]
  by_cases hfirst : rtable.currentServer = serverOne
  · have hone : currentServer rtable = rtable.serverOne := if_pos hfirst
    rw [if_pos (by simpa [slotsOf] using hfirst)]
    exact attempt_follows hs (hone ▸ hrun)
  · have hone : otherServer rtable = rtable.serverOne := if_neg hfirst
    rw [if_neg (by simpa [slotsOf] using hfirst)]
    exact requestOther_follows hs (hone ▸ hrun)

lemma Doomed.stubRequest (hd : Doomed world (currentServer rtable) (otherServer rtable))
    (hrun : stubRequest descriptorNet world rtable call = .ok (rtable', world')) :
    Doomed world' (currentServer rtable') (otherServer rtable') := by
  obtain ⟨⟨answer, rtable₁, world₁⟩, hretry, hrest⟩ := bind_eq_ok hrun
  obtain ⟨world₂, hagain, hend⟩ := bind_eq_ok hrest
  cases hend
  rw [retryServers_eq] at hretry
  have hd₁ := hd.retry hretry
  rcases again_cases hagain with ⟨rfl, -⟩ | ⟨reply, hsend, -⟩
  · exact hd₁
  · exact hd₁.requestOne hsend

lemma stubRequest_follows (hs : Sound world (currentServer rtable) (otherServer rtable))
    (hrun : stubRequest descriptorNet world rtable call = .ok (rtable', world')) :
    Follows (((slotsOf world rtable).call world.script call).map (Prod.mk ())) () world'
      rtable' := by
  obtain ⟨⟨answer, rtable₁, world₁⟩, hretry, hrest⟩ := bind_eq_ok hrun
  obtain ⟨world₂, hagain, hend⟩ := bind_eq_ok hrest
  cases hend
  rw [retryServers_eq] at hretry
  simp only [Slots.call, Option.bind_eq_bind]
  rcases retry_follows hs hretry with ⟨hnone, hd⟩ | ⟨hsome, hs₁⟩
  · refine Or.inl ⟨by rw [hnone]; rfl, ?_⟩
    rcases again_cases hagain with ⟨rfl, -⟩ | ⟨reply, hsend, -⟩
    · exact hd
    · exact hd.requestOne hsend
  · rw [hsome, Option.bind_some]
    rcases again_cases hagain with ⟨rfl, hslots⟩ | ⟨reply, hsend, hslots⟩
    · exact Or.inr ⟨by rw [hslots]; rfl, hs₁⟩
    · rw [hslots, Option.map_map]
      rcases requestOne_follows hs₁ hsend with ⟨hnone, hd⟩ | ⟨hsome', hs₂⟩
      · exact Or.inl ⟨by rw [hnone]; rfl, hd⟩
      · exact Or.inr ⟨by rw [hsome']; rfl, hs₂⟩

lemma Doomed.stubRequests {calls : List StubCall}
    (hd : Doomed world (currentServer rtable) (otherServer rtable))
    (hrun : stubRequests descriptorNet world rtable calls = .ok (rtable', world')) :
    Doomed world' (currentServer rtable') (otherServer rtable') := by
  induction calls generalizing world rtable with
  | nil =>
    cases hrun
    exact hd
  | cons call calls ih =>
    obtain ⟨⟨rtable₁, world₁⟩, hcall, hrest⟩ := bind_eq_ok hrun
    exact ih (hd.stubRequest hcall) hrest

lemma stubRequests_follow {calls : List StubCall}
    (hs : Sound world (currentServer rtable) (otherServer rtable))
    (hrun : stubRequests descriptorNet world rtable calls = .ok (rtable', world')) :
    Follows (((slotsOf world rtable).calls world.script calls).map (Prod.mk ())) () world'
      rtable' := by
  induction calls generalizing world rtable with
  | nil =>
    cases hrun
    exact Or.inr ⟨rfl, hs⟩
  | cons call calls ih =>
    obtain ⟨⟨rtable₁, world₁⟩, hcall, hrest⟩ := bind_eq_ok hrun
    simp only [Slots.calls, Option.bind_eq_bind]
    rcases stubRequest_follows hs hcall with ⟨hnone, hd⟩ | ⟨hsome, hs₁⟩
    · rw [Option.map_eq_none_iff] at hnone
      exact Or.inl ⟨by rw [hnone]; rfl, hd.stubRequests hrest⟩
    · obtain ⟨pair, hslots, hpair⟩ := Option.map_eq_some_iff.mp hsome
      cases hpair
      rw [hslots, Option.bind_some]
      exact ih hs₁ hrest

end

/-! ### The end of the session -/

section
variable {world : World} {p q : Option ℕ}

lemma sound_initial (script : Script) (closing : ℤ) :
    Sound (initialWorld script closing) none none where
  careful := List.Pairwise.nil
  below _ hd := absurd hd List.not_mem_nil
  opened _ hd := absurd hd List.not_mem_nil
  owned _ hfd := by simp at hfd
  settled _ hd := absurd hd List.not_mem_nil
  low _ hfd := by cases hfd

/-- A pointer to an open number that is not the other's stands for a descriptor to be closed. -/
lemma Held.closed_all_iff (hs : Held world p q) (es : List (Event Descriptor))
    (hmore : ∀ d : Descriptor, .closed d ∈ es → p = some d.1)
    (hp : ∀ fd, p = some fd → .closed (world.descriptor fd) ∈ es) :
    (∀ d : Descriptor, .opened d ∈ world.events → .closed d ∈ world.events ++ es) ↔
      (world.slotOf q = .live → q = p) := by
  constructor
  · intro hall hlive
    cases q with
    | none => cases hlive
    | some fd =>
      have hopen : fd ∈ world.openFds := by
        by_contra hnot
        rw [World.slotOf, if_neg hnot] at hlive
        cases hlive
      obtain ⟨hopened, hiff⟩ := hs.owned fd (.inr rfl)
      have hmem := (List.mem_append.mp (hall _ hopened)).resolve_left (hiff.mp hopen)
      exact (hmore _ hmem).symm
  · intro hq d hd
    rw [List.mem_append]
    by_cases hclosed : .closed d ∈ world.events
    · exact .inl hclosed
    · obtain ⟨heq, hheld⟩ := (hs.settled d hd).resolve_left hclosed
      have hopen : d.1 ∈ world.openFds := (hs.owned d.1 hheld).2.mpr (heq ▸ hclosed)
      have hpd : p = some d.1 := by
        rcases hheld with hpd | hqd
        · exact hpd
        · rw [← hq (by rw [hqd, World.slotOf, if_pos hopen]), hqd]
      rw [heq]
      exact .inr (hp d.1 hpd)

/-- Closing the first pointer ends a lawful history when its number is not free and the second
has no open number of its own. -/
lemma Held.close_iff (hs : Held world p q) :
    Lawful (networkClose world p).2.events ↔
      world.slotOf p ≠ .dead ∧ (world.slotOf q = .live → q = p) := by
  rw [lawful_iff]
  cases p with
  | none =>
    have hall := hs.closed_all_iff [] (fun _ hd => absurd hd List.not_mem_nil)
      (fun _ hp => by cases hp)
    rw [List.append_nil] at hall
    rw [networkClose, hall]
    simp only [hs.careful, World.slotOf, true_and, ne_eq, reduceCtorEq, not_false_iff]
  | some fd =>
    have hslot : world.slotOf (some fd) ≠ .dead ↔ .closed (world.descriptor fd) ∉ world.events := by
      rw [← (hs.owned fd (.inl rfl)).2, World.slotOf]
      by_cases hopen : fd ∈ world.openFds <;> simp [hopen]
    have hcareful : Careful (world.events ++ [.closed (world.descriptor fd)]) ↔
        world.slotOf (some fd) ≠ .dead := by
      rw [(callsOn_closed _).careful_append, and_iff_right hs.careful, hslot]
    have hall := hs.closed_all_iff [.closed (world.descriptor fd)]
      (fun d hd => by cases List.mem_singleton.mp hd; rfl)
      (fun x hx => by cases hx; exact List.mem_singleton_self _)
    rw [networkClose, World.close, hcareful, ← hall]
    simp only [List.mem_append, List.mem_singleton, reduceCtorEq, or_false]

lemma Doomed.close (hd : Doomed world p q) : ¬Lawful (networkClose world p).2.events := by
  intro hlawful
  obtain ⟨hcareful, hclosed⟩ := lawful_iff.mp hlawful
  cases p with
  | none =>
    rcases hd with hnot | ⟨fd, -, hopened, hlost, -, -⟩
    · exact hnot hcareful
    · exact hlost (hclosed _ hopened)
  | some x =>
    rcases hd with hnot | ⟨fd, -, hopened, hlost, hp, -⟩
    · exact hnot hcareful.of_append
    · rcases List.mem_append.mp (hclosed _ (List.mem_append_left _ hopened)) with hmem | hmem
      · exact hlost hmem
      · have hsame : fd = x := congrArg Prod.fst (Event.closed.inj (List.mem_singleton.mp hmem))
        exact hp (by rw [hsame])

/-- The two pointers in either order. -/
lemma held_servers {rtable : RtableT ℕ}
    (hs : Held world (currentServer rtable) (otherServer rtable)) :
    Held world rtable.serverOne rtable.serverTwo := by
  by_cases hfirst : rtable.currentServer = serverOne
  · rw [currentServer, otherServer, if_pos hfirst, if_pos hfirst] at hs
    exact hs
  · rw [currentServer, otherServer, if_neg hfirst, if_neg hfirst] at hs
    exact hs.swap

lemma doomed_servers {rtable : RtableT ℕ}
    (hd : Doomed world (currentServer rtable) (otherServer rtable)) :
    Doomed world rtable.serverOne rtable.serverTwo := by
  by_cases hfirst : rtable.currentServer = serverOne
  · rw [currentServer, otherServer, if_pos hfirst, if_pos hfirst] at hd
    exact hd
  · rw [currentServer, otherServer, if_neg hfirst, if_neg hfirst] at hd
    exact hd.swap

lemma one_slotsOf (world : World) (rtable : RtableT ℕ) :
    (slotsOf world rtable).one = world.slotOf rtable.serverOne := by
  by_cases hfirst : rtable.currentServer = serverOne <;>
    simp [Slots.one, slotsOf, currentServer, otherServer, hfirst]

lemma two_slotsOf (world : World) (rtable : RtableT ℕ) :
    (slotsOf world rtable).two = world.slotOf rtable.serverTwo := by
  by_cases hfirst : rtable.currentServer = serverOne <;>
    simp [Slots.two, slotsOf, currentServer, otherServer, hfirst]

lemma shared_slotsOf {rtable : RtableT ℕ} (hlive : world.slotOf rtable.serverTwo = .live) :
    (slotsOf world rtable).shared = true ↔ rtable.serverTwo = rtable.serverOne := by
  have hsome : rtable.serverTwo.isSome = true := by
    cases h : rtable.serverTwo with
    | none =>
      rw [h] at hlive
      cases hlive
    | some fd => rfl
  have hshared : (slotsOf world rtable).shared = sharedBy rtable.serverTwo rtable.serverOne := by
    by_cases hfirst : rtable.currentServer = serverOne
    · simp only [slotsOf, currentServer, otherServer, if_pos hfirst]
      exact sharedBy_comm _ _
    · simp only [slotsOf, currentServer, otherServer, if_neg hfirst]
  rw [hshared, sharedBy, hsome, Bool.true_and, decide_eq_true_eq]

end

/-- For every pattern of failing connects and transfers and every sequence of operations that
`rtable_unbind` ends: when every descriptor is closed exactly once and not used after that. -/
theorem session_lawful_iff {script : Script} {closing result : ℤ} {serverOne serverTwo : CString}
    {calls : List StubCall} {world' : World}
    (hrun : session (initialWorld script closing) serverOne serverTwo calls =
      .ok (result, world')) :
    Lawful world'.events ↔ SessionFits script calls := by
  have hinitial := sound_initial script closing
  obtain ⟨⟨rtable, world⟩, hcalls, hunbind⟩ := bind_eq_ok hrun
  change stubRequests descriptorNet (networkConnect (initialWorld script closing) serverOne).2
    (completeRemoteTable ⟨(networkConnect (initialWorld script closing) serverOne).1,
      RemoteTable.serverOne⟩ serverOne serverTwo) calls = _ at hcalls
  have hclose : networkClose world rtable.serverOne = (result, world') := Except.ok.inj hunbind
  obtain rfl : (networkClose world rtable.serverOne).2 = world' := by rw [hclose]
  have hbound := hinitial.connect (by simp [World.slotOf]) serverOne
  have hslots : slotsOf (networkConnect (initialWorld script closing) serverOne).2
      (completeRemoteTable ⟨(networkConnect (initialWorld script closing) serverOne).1,
        RemoteTable.serverOne⟩ serverOne serverTwo) = Slots.bound script := by
    simp only [slotsOf, completeRemoteTable, currentServer, otherServer, if_true,
      slotOf_connection, sharedBy_connect hinitial, decide_true]
    simp [World.slotOf, Slots.bound, initialWorld]
  have hfollow := stubRequests_follow hbound hcalls
  rw [hslots, script_connect] at hfollow
  rcases hfollow with ⟨hnone, hd⟩ | ⟨hsome, hs⟩
  · refine iff_of_false (doomed_servers hd).close ?_
    rintro ⟨s, script', hcalls', -⟩
    rw [Option.map_eq_none_iff] at hnone
    cases hnone.symm.trans hcalls'
  · obtain ⟨pair, hpair, heq⟩ := Option.map_eq_some_iff.mp hsome
    cases heq
    have hend : ((slotsOf world rtable).one ≠ .dead ∧
        ((slotsOf world rtable).two = .live → (slotsOf world rtable).shared = true)) ↔
          Lawful (networkClose world rtable.serverOne).2.events := by
      rw [(held_servers hs.toHeld).close_iff, one_slotsOf, two_slotsOf]
      exact and_congr Iff.rfl (forall_congr' shared_slotsOf)
    rw [← hend]
    refine ⟨fun hfits => ⟨_, _, hpair, hfits⟩, ?_⟩
    rintro ⟨s, script', hcalls', hfits⟩
    cases hpair.symm.trans hcalls'
    exact hfits

/-- Every connect succeeds, the first request meets `failure`, and every later one is
answered. -/
def failingScript (failure : Transfers) : Script where
  connects _ := true
  transfers k := if k = 0 then failure else ⟨4, 8, 4, some ⟨ocSize, .result 0⟩⟩

/-- The size of the first request cannot be written. The second connection gets the number of
the first, and is the one that `rtable_unbind` closes. -/
theorem session_lawful_iff_reused :
    ∃ world', session (initialWorld (failingScript ⟨-1, 0, 0, none⟩) 0) primaryAddress
        backupAddress [.size] = .ok (0, world') ∧
      world'.events = [.opened (3, 1), .used (3, 1), .closed (3, 1), .opened (3, 2), .used (3, 2),
        .used (3, 2), .used (3, 2), .used (3, 2), .closed (3, 2)] ∧ Lawful world'.events := by
  have hfits : SessionFits (failingScript ⟨-1, 0, 0, none⟩) [.size] :=
    ⟨⟨.live, .live, true, false⟩, _, rfl, by decide, by decide⟩
  have hrun : ∃ world', session (initialWorld (failingScript ⟨-1, 0, 0, none⟩) 0) primaryAddress
      backupAddress [.size] = .ok (0, world') ∧ world'.events = [.opened (3, 1), .used (3, 1),
        .closed (3, 1), .opened (3, 2), .used (3, 2), .used (3, 2), .used (3, 2), .used (3, 2),
        .closed (3, 2)] := ⟨_, rfl, rfl⟩
  obtain ⟨world', hrun, hevents⟩ := hrun
  exact ⟨world', hrun, hevents, (session_lawful_iff hrun).mpr hfits⟩

/-- The body of the first request cannot be written and the second server answers: the
descriptor of the second server is never closed. -/
theorem not_lawful_failover :
    ∃ world', session (initialWorld (failingScript ⟨4, -1, 0, none⟩) 0) primaryAddress
        backupAddress [.size] = .ok (0, world') ∧
      world'.events = [.opened (3, 1), .used (3, 1), .used (3, 1), .opened (4, 1), .used (4, 1),
        .used (4, 1), .used (4, 1), .used (4, 1), .closed (3, 1)] ∧ ¬Lawful world'.events := by
  refine ⟨_, rfl, rfl, fun hlawful => ?_⟩
  have hcount := hlawful.once (4, 1) (by decide)
  revert hcount
  decide

end RemoteTable.Descriptors
