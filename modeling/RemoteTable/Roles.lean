import RemoteTable.StateTransfer
import RemoteTable.Library.Machine

/-!
# Which server is the primary

Two servers that start, stop and start again, and the connections to them. Every server
settles its own role: by what `ask_status` returns when it starts through `primary`, and in
the poll loop, where a secondary becomes primary when a connection ends.
-/

namespace RemoteTable

inductive Party
  | first
  | second
  deriving DecidableEq

def Party.other : Party → Party
  | .first => .second
  | .second => .first

/-- Where a server is. The globals matter once `main` is in its poll loop. -/
inductive Process
  | stopped
  /-- `primary` waits for the answer to OC_STATUS. -/
  | asking
  /-- `ask_status` has its result, and `primary` has yet to act on it. -/
  | told (statusValue : ℤ)
  /-- The other server is asked for its state, and then OC_UP is sent to it. -/
  | joining (upSent : Bool)
  /-- The poll loop; the thread of `create_thread` may have yet to connect. -/
  | serving (server : Server Unit) (connecting : Bool)

def Process.status : Process → Option ℤ
  | .stopped => none
  | .serving server _ => some server.status
  | _ => some 0

inductive LinkOwner
  | client
  /-- `temp_client_s` -/
  | temp (i : Party)
  /-- `shared.current_backup` -/
  | backup (i : Party)
  deriving DecidableEq

/-- A connection to a live server. `closed` is the end of its owner. -/
structure Link where
  owner : LinkOwner
  listener : Party
  accepted : Bool
  closed : Bool

structure World where
  process : Party → Process
  links : List Link

def maxSockets : ℕ := 10
def nPosNotFree : ℕ := 2

/-- The result of `ask_status` for a reply. -/
def askStatus (pointerLow : Content → Int32) : Option MessageT → ℤ
  | none => -1
  | some tt => (tt.content.resultMember pointerLow).toInt

/-- What the poll loop does with the globals when `network_receive_send` fails. -/
def Server.disconnected {δ : Type} (server : Server δ) : Server δ :=
  if server.status = statusSecundary then
    { server with status := statusPrimary, state := stateDown }
  else server

/-- `ask_status` returns -1 when the connection ends before the answer. -/
def Process.unanswered : Process → Process
  | .asking => .told (-1)
  | process => process

def closeOwned (owners : List LinkOwner) (links : List Link) : List Link :=
  links.map fun link => if link.owner ∈ owners then { link with closed := true } else link

/-- The accepted connections in `connections`. -/
def World.numberClients (s : World) (i : Party) : ℕ :=
  s.links.countP fun link => link.listener = i ∧ link.accepted

/-- The other server of the listener waits for the answer to OC_STATUS on this connection. -/
def World.Asks (s : World) (link : Link) : Prop :=
  link.owner = .temp link.listener.other ∧ link.closed = false ∧
    s.process link.listener.other = .asking

/-- A call of `network_receive_send` in the poll loop. The stream ends where its owner closed,
and a server that waits for the answer to OC_STATUS has sent nothing else. -/
structure World.Calls (s : World) (link : Link) (server : Server Unit) (connecting : Bool)
    (sock : Socket) (result : ℤ) (server' : Server Unit) (sock' : Socket) : Prop where
  serving : s.process link.listener = .serving server connecting
  mem : link ∈ s.links
  accepted : link.accepted
  ends : sock.input = [] → link.closed
  asks : s.Asks link → sock.input = frame (wireFormat buildStatusMsg)
  call : ∃ net : Net Unit Unit,
    networkReceiveSend net server () sock = .ok (result, server', (), sock')

inductive RoleAction
  | secundary (i : Party)
  | primary (i : Party)
  | decide (i : Party)
  | joined (i : Party)
  | thread (i : Party)
  | connect (i : Party)
  | accept (link : Link)
  | close (link : Link)
  | serve (link : Link)
  | answerStatus (link : Link) (reader : Socket)
  | answerUp (link : Link)
  | drop (link : Link)
  | stop (i : Party)

/-- One step of one process. What `update_state` did to a table is left open. -/
inductive World.Step : World → RoleAction → World → Prop
  /-- There is no file with an address, or nothing listens there. -/
  | secundary {s : World} {i : Party} (hprocess : s.process i = .stopped) :
      Step s (.secundary i) ⟨Function.update s.process i (.joining false), s.links⟩
  | secundaryConnects {s : World} {i : Party} (hprocess : s.process i = .stopped)
      (hlive : s.process i.other ≠ .stopped) :
      Step s (.secundary i) ⟨Function.update s.process i (.joining false),
        s.links ++ [⟨.temp i, i.other, false, false⟩]⟩
  | primary {s : World} {i : Party} (hprocess : s.process i = .stopped)
      (hdown : s.process i.other = .stopped) :
      Step s (.primary i) ⟨Function.update s.process i (.told (-1)), s.links⟩
  | primaryConnects {s : World} {i : Party} (hprocess : s.process i = .stopped)
      (hlive : s.process i.other ≠ .stopped) :
      Step s (.primary i) ⟨Function.update s.process i .asking,
        s.links ++ [⟨.temp i, i.other, false, false⟩]⟩
  | decideSecundary {s : World} {i : Party} (hprocess : s.process i = .told statusPrimary) :
      Step s (.decide i) ⟨Function.update s.process i (.joining false), s.links⟩
  | decidePrimary {s : World} {i : Party} {statusValue : ℤ} (tabela : TableT)
      (hprocess : s.process i = .told statusValue) (hvalue : statusValue ≠ statusPrimary) :
      Step s (.decide i)
        ⟨Function.update s.process i (.serving ⟨tabela, statusPrimary, stateUp, none⟩ true),
          closeOwned [.temp i] s.links⟩
  | joined {s : World} {i : Party} {upSent : Bool} (tabela : TableT)
      (hprocess : s.process i = .joining upSent)
      (hdone : upSent = true ∨ ∀ link ∈ s.links, link.owner = .temp i → link.closed = true) :
      Step s (.joined i)
        ⟨Function.update s.process i (.serving ⟨tabela, statusSecundary, stateUp, none⟩ false),
          closeOwned [.temp i] s.links⟩
  | thread {s : World} {i : Party} {server : Server Unit}
      (hprocess : s.process i = .serving server true) (hdown : s.process i.other = .stopped) :
      Step s (.thread i)
        ⟨Function.update s.process i (.serving { server with currentBackup := none } false),
          s.links⟩
  | threadConnects {s : World} {i : Party} {server : Server Unit}
      (hprocess : s.process i = .serving server true) (hlive : s.process i.other ≠ .stopped) :
      Step s (.thread i)
        ⟨Function.update s.process i (.serving { server with currentBackup := some () } false),
          s.links ++ [⟨.backup i, i.other, false, false⟩]⟩
  | connect {s : World} {i : Party} (hlive : s.process i ≠ .stopped) :
      Step s (.connect i) ⟨s.process, s.links ++ [⟨.client, i, false, false⟩]⟩
  | accept {s : World} {link : Link} {before after : List Link} {server : Server Unit}
      {connecting : Bool} (hprocess : s.process link.listener = .serving server connecting)
      (hlinks : s.links = before ++ link :: after) (hnew : link.accepted = false)
      (hfree : s.numberClients link.listener < maxSockets - nPosNotFree) :
      Step s (.accept link) ⟨s.process, before ++ { link with accepted := true } :: after⟩
  /-- `temp_client_s` is closed where its server acts on the answer. -/
  | close {s : World} {link : Link} {before after : List Link}
      (howner : ∀ i, link.owner ≠ .temp i) (hlinks : s.links = before ++ link :: after) :
      Step s (.close link) ⟨s.process, before ++ { link with closed := true } :: after⟩
  /-- OC_UP may connect to the other server. -/
  | serve {s : World} {link : Link} {server server' : Server Unit} {connecting : Bool}
      {sock sock' : Socket} {result : ℤ} {back : List Link}
      (h : s.Calls link server connecting sock result server' sock') (hresult : 0 ≤ result)
      (hasks : ¬s.Asks link)
      (hback : back = [] ∨ s.process link.listener.other ≠ .stopped ∧
        server'.currentBackup = some () ∧
        back = [⟨.backup link.listener, link.listener.other, false, false⟩]) :
      Step s (.serve link)
        ⟨Function.update s.process link.listener (.serving server' connecting), s.links ++ back⟩
  | answerStatus {s : World} {link : Link} {server server' : Server Unit} {connecting : Bool}
      {sock sock' reader reader' : Socket} {result : ℤ} {answer : Option MessageT}
      (pointerLow : Content → Int32)
      (h : s.Calls link server connecting sock result server' sock') (hresult : 0 ≤ result)
      (hasks : s.Asks link) (houtput : sock.output = [])
      (hreader : reader.input = sock'.output)
      (hreceive : receiveMessage reader = .ok (answer, reader')) :
      Step s (.answerStatus link reader)
        ⟨Function.update (Function.update s.process link.listener (.serving server' connecting))
          link.listener.other (.told (askStatus pointerLow answer)), s.links⟩
  | answerUp {s : World} {link : Link} {server server' : Server Unit} {connecting : Bool}
      {sock sock' : Socket} {result : ℤ} {ipPort : CString} {back : List Link}
      (h : s.Calls link server connecting sock result server' sock') (hresult : 0 ≤ result)
      (howner : link.owner = .temp link.listener.other)
      (hjoining : s.process link.listener.other = .joining false)
      (hinput : sock.input = frame (wireFormat (buildIpMsg ipPort)))
      (hback : back = [] ∨ server'.currentBackup = some () ∧
        back = [⟨.backup link.listener, link.listener.other, false, false⟩]) :
      Step s (.answerUp link)
        ⟨Function.update (Function.update s.process link.listener (.serving server' connecting))
          link.listener.other (.joining true), s.links ++ back⟩
  | drop {s : World} {link : Link} {before after : List Link} {server server' : Server Unit}
      {connecting : Bool} {sock sock' : Socket} {result : ℤ}
      (h : s.Calls link server connecting sock result server' sock') (hresult : result < 0)
      (hlinks : s.links = before ++ link :: after) :
      Step s (.drop link)
        ⟨Function.update
          (Function.update s.process link.listener (.serving server'.disconnected connecting))
          link.listener.other
          (if link.owner = .temp link.listener.other ∧ link.closed = false then
            (s.process link.listener.other).unanswered
          else s.process link.listener.other), before ++ after⟩
  | stop {s : World} {i : Party} (hlive : s.process i ≠ .stopped) :
      Step s (.stop i)
        ⟨Function.update (Function.update s.process i .stopped) i.other
          (s.process i.other).unanswered,
          closeOwned [.temp i, .backup i] (s.links.filter fun link => link.listener ≠ i)⟩

/-- No server was started. -/
def World.bothStopped : World := ⟨fun _ => .stopped, []⟩

def World.Reaches (allowed : World → RoleAction → Prop) : World → World → Prop :=
  Relation.ReflTransGen fun s s' => ∃ action, s.Step action s' ∧ allowed s action

def World.TwoPrimaries (s : World) : Prop := ∀ i, (s.process i).status = some statusPrimary

/-- The process is the primary, or will be without asking again. -/
def Process.Claims : Process → Prop
  | .told statusValue => statusValue ≠ statusPrimary
  | .serving server _ => server.status = statusPrimary
  | _ => False

/-- No server drops the connection on which the other waits for its status, a secondary drops
none while the other claims the role, and the length of a primary's answer to OC_STATUS is
read at once. -/
def World.Careful (s : World) : RoleAction → Prop
  | .drop link => ¬s.Asks link ∧
      ((s.process link.listener).status = some statusSecundary →
        ¬(s.process link.listener.other).Claims)
  | .answerStatus link reader =>
      (s.process link.listener).status = some statusPrimary → reader.ReadsWhole 4
  | _ => True

/-! ### The status question on the wire -/

section
variable {σ δ : Type} {net : Net σ δ} {server server' : Server δ} {world world' : σ}

/-- The reply to OC_STATUS. -/
def statusReply (server : Server δ) : MessageT := ⟨ocStatus, .result (Int32.ofInt server.status)⟩

lemma handleRequest_question (net : Net σ δ) (server : Server δ) (world : σ) :
    handleRequest net server world buildStatusMsg =
      .ok (.message (statusReply server), server, world) := by
  have hup : ocStatus ≠ ocUp := by decide
  have hwrite : isWrite ocStatus = false := by decide
  have hinvoke : invoke server.tabela buildStatusMsg = .ok (.unset, server.tabela) :=
    invoke_default (by decide) (by decide)
  have hlocal : ∀ server : Server δ, ¬server.Forwards ocStatus :=
    fun _ => not_forwards_of_read hwrite
  rw [handleRequest, hinvoke, ok_bind]
  simp only [answerStatus, answerUp, forwardWrite, buildStatusMsg, if_true, hup, hlocal, if_false,
    pure_eq_ok, ok_bind, statusReply]

lemma encodable_buildStatusMsg : buildStatusMsg.Encodable := ⟨by decide, by decide⟩

lemma encodable_statusReply (server : Server δ) : (statusReply server).Encodable :=
  encodable_result _ _

/-- A question that arrives whole is answered with the status. -/
lemma networkReceiveSend_question (net : Net σ δ) (server : Server δ) (world : σ) {sock : Socket}
    (hinput : sock.input = frame (wireFormat buildStatusMsg)) (hw : sock.Writable)
    (hwhole : (sock.skip 4).ReadsWhole (wireFormat buildStatusMsg).length) :
    networkReceiveSend net server world sock =
      .ok (1, server, world, (sock.skip (4 + (wireFormat buildStatusMsg).length)).append
        (frame (wireFormat (statusReply server)))) := by
  have hinput' : sock.input = frame (wireFormat buildStatusMsg) ++ [] := by
    rw [hinput, List.append_nil]
  have hb := frameBody_wireFormat encodable_buildStatusMsg.size
  rw [networkReceiveSend_whole net server world hinput' hb hw hwhole,
    answerBody_of_decode net server world (bufferToMessage_wireFormat encodable_buildStatusMsg),
    handleRequest_question, ok_bind]
  simp only [encodeReply, if_pos (encodable_statusReply server).size, ok_bind, Socket.answer]

/-- A question is answered with the status or with nothing that the caller takes for a result. -/
lemma output_of_question {sock sock' : Socket} {result : ℤ}
    (hinput : sock.input = frame (wireFormat buildStatusMsg)) (houtput : sock.output = [])
    (h : networkReceiveSend net server world sock = .ok (result, server', world', sock'))
    (hresult : 0 ≤ result) : sock'.output = frame (wireFormat (statusReply server)) := by
  have hinput' : sock.input = frame (wireFormat buildStatusMsg) ++ [] := by
    rw [hinput, List.append_nil]
  have hb := frameBody_wireFormat encodable_buildStatusMsg.size
  by_cases hwhole : (sock.skip 4).ReadsWhole (wireFormat buildStatusMsg).length
  · classical
    rw [networkReceiveSend, receiveRequest_frame hinput' hb, if_pos hwhole,
      bufferToMessage_wireFormat encodable_buildStatusMsg, ok_bind] at h
    simp only [ok_bind, handleRequest_question] at h
    obtain ⟨⟨result', sock''⟩, hsend, h⟩ := bind_eq_ok h
    simp only [pure_eq_ok, Except.ok.injEq, Prod.mk.injEq] at h
    obtain ⟨rfl, -, -, rfl⟩ := h
    obtain ⟨bytes, hencode, hsent⟩ := sendReply_cases hsend
    rw [encodeReply, if_pos (encodable_statusReply server).size, Except.ok.injEq] at hencode
    rcases hsent with ⟨-, rfl⟩ | ⟨k, -, rfl, -⟩
    · rw [Socket.append, Socket.skip, houtput, List.nil_append, hencode]
    · omega
  · rw [networkReceiveSend_split net server world hinput' hb hwhole] at h
    simp only [Except.ok.injEq, Prod.mk.injEq] at h
    omega

/-- `ask_status` returns the status, unless the length of the answer came in parts. -/
lemma askStatus_of_reply {reader reader' : Socket} {answer : Option MessageT}
    {pointerLow : Content → Int32} (hrole : server.status = statusPrimary ∨
      server.status = statusSecundary)
    (hreader : reader.input = frame (wireFormat (statusReply server)))
    (h : receiveMessage reader = .ok (answer, reader')) [Decidable (reader.ReadsWhole 4)] :
    askStatus pointerLow answer = if reader.ReadsWhole 4 then server.status else -1 := by
  have hinput : reader.input = frame (wireFormat (statusReply server)) ++ [] := by
    rw [hreader, List.append_nil]
  have hencodable := encodable_statusReply server
  rw [receiveMessage_frame hinput (frameBody_wireFormat hencodable.size)] at h
  by_cases hwhole : reader.ReadsWhole 4
  · rw [if_pos hwhole, bufferToMessage_wireFormat hencodable, ok_bind] at h
    simp only [Except.ok.injEq, Prod.mk.injEq] at h
    rw [if_pos hwhole, ← h.1]
    simp only [askStatus, statusReply, Content.resultMember]
    rcases hrole with hrole | hrole
    · rw [hrole]
      decide
    · rw [hrole]
      decide
  · rw [if_neg hwhole] at h
    simp only [Except.ok.injEq, Prod.mk.injEq] at h
    rw [if_neg hwhole, ← h.1]
    rfl

/-- The owner has closed the connection, and nothing is left to read. -/
lemma networkReceiveSend_ended (net : Net σ δ) (server : Server δ) (world : σ) :
    networkReceiveSend net server world (openSocket []) =
      .ok (-1, server, world, openSocket []) := rfl

end

/-! ### At most one server claims the role -/

def Process.HasRole : Process → Prop
  | .serving server _ => server.status = statusPrimary ∨ server.status = statusSecundary
  | _ => True

structure World.Inv (s : World) : Prop where
  exclusive : ∀ i, (s.process i).Claims → ¬(s.process i.other).Claims
  roles : ∀ i, (s.process i).HasRole

@[simp] lemma Party.other_other (i : Party) : i.other.other = i := by cases i <;> rfl

lemma Party.other_ne (i : Party) : i.other ≠ i := by cases i <;> decide

lemma Party.eq_or_other (i j : Party) : j = i ∨ j = i.other := by
  cases i <;> cases j <;> decide

variable {s s' : World} {i : Party} {link : Link}

/-- A step of both processes, at the end of which only one claims the role. -/
lemma World.Inv.update₂ {process other : Process} (links : List Link)
    (hclaims : process.Claims → ¬other.Claims) (hrole : process.HasRole)
    (hrole' : other.HasRole) :
    World.Inv ⟨Function.update (Function.update s.process i process) i.other other, links⟩ := by
  have hne := Party.other_ne i
  constructor
  · intro j
    rcases Party.eq_or_other i j with rfl | rfl
    · simp only [Function.update_self, Function.update_of_ne hne.symm]
      exact hclaims
    · simp only [Party.other_other, Function.update_self, Function.update_of_ne hne.symm]
      exact fun hother hmine => hclaims hmine hother
  · intro j
    rcases Party.eq_or_other i j with rfl | rfl
    · simp only [Function.update_self, Function.update_of_ne hne.symm]
      exact hrole
    · simp only [Function.update_self]
      exact hrole'

/-- A step of one process: what it claims is not claimed by the other. -/
lemma World.Inv.update (h : s.Inv) {process : Process} (links : List Link)
    (hclaims : process.Claims → ¬(s.process i.other).Claims) (hrole : process.HasRole) :
    World.Inv ⟨Function.update s.process i process, links⟩ := by
  have hother : Function.update s.process i process i.other = s.process i.other :=
    Function.update_of_ne (Party.other_ne i) process s.process
  have hinv := World.Inv.update₂ (s := s) (i := i) links hclaims hrole (h.roles i.other)
  rwa [← hother, Function.update_eq_self] at hinv

lemma claims_serving {server server' : Server Unit} {connecting : Bool}
    (hprocess : s.process i = .serving server connecting) (hsame : server'.status = server.status)
    (connecting' : Bool) :
    (Process.serving server' connecting').Claims ↔ (s.process i).Claims := by
  rw [hprocess, Process.Claims, Process.Claims, hsame]

lemma World.Inv.hasRole (h : s.Inv) {server server' : Server Unit} {connecting : Bool}
    (hprocess : s.process i = .serving server connecting) (hsame : server'.status = server.status)
    (connecting' : Bool) : (Process.serving server' connecting').HasRole := by
  have hrole := h.roles i
  rw [hprocess] at hrole
  rw [Process.HasRole, hsame]
  exact hrole

lemma World.Inv.serving (h : s.Inv) {server server' : Server Unit} {connecting : Bool}
    (hprocess : s.process i = .serving server connecting) (hsame : server'.status = server.status)
    (connecting' : Bool) (links : List Link) :
    World.Inv ⟨Function.update s.process i (.serving server' connecting'), links⟩ := by
  apply h.update links
  · rw [claims_serving hprocess hsame]
    exact h.exclusive i
  · exact h.hasRole hprocess hsame connecting'

lemma World.Calls.status {server server' : Server Unit} {connecting : Bool} {sock sock' : Socket}
    {result : ℤ} (h : s.Calls link server connecting sock result server' sock') :
    server'.status = server.status := by
  obtain ⟨net, hcall⟩ := h.call
  exact networkReceiveSend_status hcall

/-! ### One lemma for each step that can move the role -/

lemma Process.unanswered_of_ne {process : Process} (h : process ≠ .asking) :
    process.unanswered = process := by
  cases process with
  | asking => exact absurd rfl h
  | _ => rfl

lemma Process.HasRole.unanswered {process : Process} (h : process.HasRole) :
    process.unanswered.HasRole := by
  cases process with
  | serving server connecting => exact h
  | _ => trivial

lemma disconnected_status {server : Server Unit}
    (hrole : server.status = statusPrimary ∨ server.status = statusSecundary) :
    server.disconnected.status = statusPrimary := by
  unfold Server.disconnected
  by_cases hsecundary : server.status = statusSecundary
  · rw [if_pos hsecundary]
  · rw [if_neg hsecundary]
    exact hrole.resolve_right hsecundary

lemma disconnected_of_primary {server : Server Unit} (h : server.status = statusPrimary) :
    server.disconnected = server := by
  rw [Server.disconnected, if_neg]
  rw [h]
  decide

lemma disconnected_tabela {δ : Type} (server : Server δ) :
    server.disconnected.tabela = server.tabela := by
  unfold Server.disconnected
  split
  · rfl
  · rfl

/-- A secondary that takes itself for the primary takes its backup to be down. -/
lemma disconnected_keeps {server : Server Unit}
    (h : ¬(server.state = stateUp ∧ server.status = statusPrimary)) :
    ¬(server.disconnected.state = stateUp ∧ server.disconnected.status = statusPrimary) := by
  unfold Server.disconnected
  split
  · rintro ⟨hup, -⟩
    exact absurd (show stateDown = stateUp from hup) (by decide)
  · exact h

variable {server server' : Server Unit} {connecting : Bool} {sock sock' : Socket} {result : ℤ}

lemma World.Calls.role (h : s.Calls link server connecting sock result server' sock')
    (hinv : s.Inv) : server.status = statusPrimary ∨ server.status = statusSecundary := by
  have hrole := hinv.roles link.listener
  rwa [h.serving] at hrole

lemma World.Calls.told (h : s.Calls link server connecting sock result server' sock')
    (hinv : s.Inv) (hresult : 0 ≤ result) (hasks : s.Asks link) (houtput : sock.output = [])
    {reader reader' : Socket}
    (hreader : reader.input = sock'.output) {answer : Option MessageT}
    (hreceive : receiveMessage reader = .ok (answer, reader')) (pointerLow : Content → Int32)
    [Decidable (reader.ReadsWhole 4)] :
    askStatus pointerLow answer = if reader.ReadsWhole 4 then server.status else -1 := by
  obtain ⟨net, hcall⟩ := h.call
  rw [output_of_question (h.asks hasks) houtput hcall hresult] at hreader
  exact askStatus_of_reply (h.role hinv) hreader hreceive

lemma World.Inv.answerStatus (hinv : s.Inv)
    (h : s.Calls link server connecting sock result server' sock') {statusValue : ℤ}
    (hvalue : server.status = statusPrimary → statusValue = statusPrimary) (links : List Link) :
    World.Inv ⟨Function.update
      (Function.update s.process link.listener (.serving server' connecting))
      link.listener.other (.told statusValue), links⟩ := by
  apply World.Inv.update₂ links
  · intro hclaims hnot
    apply hnot
    apply hvalue
    rw [← h.status]
    exact hclaims
  · exact hinv.hasRole h.serving h.status connecting
  · trivial

lemma unanswered_of_not_asks (hasks : ¬s.Asks link) :
    (if link.owner = .temp link.listener.other ∧ link.closed = false then
      (s.process link.listener.other).unanswered
    else s.process link.listener.other) = s.process link.listener.other := by
  split
  · next howner =>
    apply Process.unanswered_of_ne
    exact fun hasking => hasks ⟨howner.1, howner.2, hasking⟩
  · rfl

lemma World.Inv.drop (hinv : s.Inv)
    (h : s.Calls link server connecting sock result server' sock') (hasks : ¬s.Asks link)
    (hother : (s.process link.listener).status = some statusSecundary →
      ¬(s.process link.listener.other).Claims) (links : List Link) :
    World.Inv ⟨Function.update
      (Function.update s.process link.listener (.serving server'.disconnected connecting))
      link.listener.other
      (if link.owner = .temp link.listener.other ∧ link.closed = false then
        (s.process link.listener.other).unanswered
      else s.process link.listener.other), links⟩ := by
  rw [unanswered_of_not_asks hasks]
  apply World.Inv.update₂ links
  · intro _
    rcases h.role hinv with hrole | hrole
    · apply hinv.exclusive
      rw [h.serving]
      exact hrole
    · apply hother
      rw [h.serving, Process.status, hrole]
  · have hrole := h.role hinv
    rw [← h.status] at hrole
    exact .inl (disconnected_status hrole)
  · exact hinv.roles _

/-- A careful step leaves at most one claim. -/
theorem World.Inv.step (hinv : s.Inv) {action : RoleAction} (hstep : s.Step action s')
    (hcareful : s.Careful action) : s'.Inv := by
  classical
  cases hstep with
  | secundary hprocess => exact hinv.update _ (fun h => h.elim) trivial
  | secundaryConnects hprocess hlive => exact hinv.update _ (fun h => h.elim) trivial
  | primary hprocess hdown =>
    apply hinv.update
    · intro _
      rw [hdown]
      exact fun h => h
    · trivial
  | primaryConnects hprocess hlive => exact hinv.update _ (fun h => h.elim) trivial
  | decideSecundary hprocess => exact hinv.update _ (fun h => h.elim) trivial
  | decidePrimary tabela hprocess hvalue =>
    apply hinv.update
    · intro _
      apply hinv.exclusive
      rw [hprocess]
      exact hvalue
    · exact .inl rfl
  | joined tabela hprocess hdone =>
    have hrole : statusSecundary ≠ statusPrimary := by decide
    exact hinv.update _ (fun h => absurd h hrole) (.inr rfl)
  | thread hprocess hdown =>
    apply hinv.serving hprocess
    rfl
  | threadConnects hprocess hlive =>
    apply hinv.serving hprocess
    rfl
  | connect hlive => exact ⟨hinv.exclusive, hinv.roles⟩
  | accept hprocess hlinks hnew hfree => exact ⟨hinv.exclusive, hinv.roles⟩
  | close howner hlinks => exact ⟨hinv.exclusive, hinv.roles⟩
  | serve h hresult hasks hback => exact hinv.serving h.serving h.status _ _
  | answerStatus pointerLow h hresult hasks houtput hreader hreceive =>
    apply hinv.answerStatus h
    intro hprimary
    rw [h.told hinv hresult hasks houtput hreader hreceive pointerLow, if_pos, hprimary]
    apply hcareful
    rw [h.serving, Process.status, hprimary]
  | answerUp h hresult howner hjoining hinput hback =>
    exact World.Inv.update₂ _ (fun _ h => h.elim) (hinv.hasRole h.serving h.status _) trivial
  | drop h hresult hlinks => exact hinv.drop h hcareful.1 hcareful.2 _
  | stop hlive =>
    exact World.Inv.update₂ _ (fun h => h.elim) trivial (hinv.roles _).unanswered

lemma World.bothStopped_inv : World.bothStopped.Inv := ⟨fun _ h => h.elim, fun _ => trivial⟩

/-- A live primary and a claim end in two primaries. -/
lemma twoPrimaries_of_claims (hprimary : (s.process i).status = some statusPrimary)
    (hclaims : (s.process i.other).Claims) :
    ∃ s', World.Reaches (fun _ _ => True) s s' ∧ s'.TwoPrimaries := by
  cases hprocess : s.process i.other with
  | told statusValue =>
    rw [hprocess] at hclaims
    refine ⟨_, .single ⟨_, .decidePrimary emptyServer.tabela hprocess hclaims, trivial⟩, ?_⟩
    intro j
    rcases Party.eq_or_other i j with rfl | rfl
    · simp only [Function.update_of_ne (Party.other_ne j).symm]
      exact hprimary
    · simp only [Function.update_self, Process.status]
  | serving server connecting =>
    rw [hprocess] at hclaims
    refine ⟨s, .refl, ?_⟩
    intro j
    rcases Party.eq_or_other i j with rfl | rfl
    · exact hprimary
    · rw [hprocess, Process.status, hclaims]
  | stopped =>
    rw [hprocess] at hclaims
    exact hclaims.elim
  | asking =>
    rw [hprocess] at hclaims
    exact hclaims.elim
  | joining upSent =>
    rw [hprocess] at hclaims
    exact hclaims.elim

lemma minus_one_claims : Process.Claims (.told (-1)) := by
  have hne : (-1 : ℤ) ≠ statusPrimary := by decide
  exact hne

/-- An answer that is not read leaves the asking server with -1. -/
lemma twoPrimaries_of_unread (h : s.Calls link server connecting sock result server' sock')
    (hprimary : (s.process link.listener).status = some statusPrimary) {statusValue : ℤ}
    (hvalue : statusValue = -1) (links : List Link) :
    ∃ s'', World.Reaches (fun _ _ => True)
      ⟨Function.update (Function.update s.process link.listener (.serving server' connecting))
        link.listener.other (.told statusValue), links⟩ s'' ∧ s''.TwoPrimaries := by
  have hne := Party.other_ne link.listener
  rw [h.serving, Process.status, ← h.status] at hprimary
  apply twoPrimaries_of_claims (i := link.listener)
  · simp only [Function.update_of_ne hne.symm, Function.update_self, Process.status, hprimary]
  · simp only [Function.update_self, hvalue]
    exact minus_one_claims

/-- The server that loses a connection is primary, and the other one claims the role. -/
lemma twoPrimaries_of_drop (hinv : s.Inv)
    (h : s.Calls link server connecting sock result server' sock')
    (hclaims : s.Asks link ∨ (s.process link.listener.other).Claims) (links : List Link) :
    ∃ s'', World.Reaches (fun _ _ => True)
      ⟨Function.update
        (Function.update s.process link.listener (.serving server'.disconnected connecting))
        link.listener.other
        (if link.owner = .temp link.listener.other ∧ link.closed = false then
          (s.process link.listener.other).unanswered
        else s.process link.listener.other), links⟩ s'' ∧ s''.TwoPrimaries := by
  have hne := Party.other_ne link.listener
  have hrole := h.role hinv
  rw [← h.status] at hrole
  apply twoPrimaries_of_claims (i := link.listener)
  · simp only [Function.update_of_ne hne.symm, Function.update_self, Process.status,
      disconnected_status hrole]
  · simp only [Function.update_self]
    by_cases hasks : s.Asks link
    · rw [if_pos ⟨hasks.1, hasks.2.1⟩, hasks.2.2]
      exact minus_one_claims
    · rw [unanswered_of_not_asks hasks]
      exact hclaims.resolve_left hasks

/-- A step that is not careful leads to two primaries. -/
theorem World.Inv.twoPrimaries (hinv : s.Inv) {action : RoleAction} (hstep : s.Step action s')
    (hcareful : ¬s.Careful action) :
    ∃ s'', World.Reaches (fun _ _ => True) s' s'' ∧ s''.TwoPrimaries := by
  classical
  cases hstep with
  | answerStatus pointerLow h hresult hasks houtput hreader hreceive =>
    simp only [World.Careful, Classical.not_imp] at hcareful
    have hvalue := h.told hinv hresult hasks houtput hreader hreceive pointerLow
    rw [if_neg hcareful.2] at hvalue
    exact twoPrimaries_of_unread h hcareful.1 hvalue _
  | drop h hresult hlinks =>
    simp only [World.Careful, not_and_or, not_not, Classical.not_imp] at hcareful
    exact twoPrimaries_of_drop hinv h (hcareful.imp_right And.right) _
  | _ => exact absurd trivial hcareful

lemma claims_of_status {process : Process} (h : process.status = some statusPrimary) :
    process.Claims := by
  have hne : some (0 : ℤ) ≠ some statusPrimary := by decide
  cases process with
  | stopped => cases h
  | serving server connecting => exact Option.some.inj h
  | asking => exact absurd h hne
  | told statusValue => exact absurd h hne
  | joining upSent => exact absurd h hne

/-! ### The start of a pair -/

def World.mk₂ (first second : Process) (links : List Link) : World where
  process
    | .first => first
    | .second => second
  links := links

lemma update_first (first second process : Process) (links : List Link) :
    Function.update (World.mk₂ first second links).process .first process =
      (World.mk₂ process second links).process := by
  funext j
  cases j <;> rfl

lemma update_second (first second process : Process) (links : List Link) :
    Function.update (World.mk₂ first second links).process .second process =
      (World.mk₂ first process links).process := by
  funext j
  cases j <;> rfl

lemma bothStopped_eq : World.bothStopped = World.mk₂ .stopped .stopped [] := by
  unfold World.bothStopped World.mk₂
  congr 1
  funext j
  cases j <;> rfl

lemma World.Reaches.anyStep {allowed : World → RoleAction → Prop} {s s' : World}
    (h : World.Reaches allowed s s') : World.Reaches (fun _ _ => True) s s' := by
  apply Relation.ReflTransGen.mono _ _ _ h
  intro t t' ⟨action, hstep, _⟩
  exact ⟨action, hstep, trivial⟩

def startedSecundary : Server Unit := ⟨emptyServer.tabela, statusSecundary, stateUp, none⟩

def startedPrimary : Server Unit := ⟨emptyServer.tabela, statusPrimary, stateUp, none⟩

/-- `temp_client_s` of the second server. -/
def probe (accepted closed : Bool) : Link := ⟨.temp .second, .first, accepted, closed⟩

lemma step_secundary : World.bothStopped.Step (.secundary .first)
    (World.mk₂ (.joining false) .stopped []) := by
  have hstep : World.Step (World.mk₂ .stopped .stopped []) (.secundary .first) _ := .secundary rfl
  rw [update_first] at hstep
  rw [bothStopped_eq]
  exact hstep

lemma step_joined : World.Step (World.mk₂ (.joining false) .stopped []) (.joined .first)
    (World.mk₂ (.serving startedSecundary false) .stopped []) := by
  have hdone : ∀ link ∈ (World.mk₂ (.joining false) .stopped []).links,
      link.owner = .temp .first → link.closed = true := by simp [World.mk₂]
  have hstep : World.Step _ (.joined .first) _ := .joined emptyServer.tabela rfl (.inr hdone)
  rw [update_first] at hstep
  exact hstep

lemma step_primary : World.Step (World.mk₂ (.serving startedSecundary false) .stopped [])
    (.primary .second)
    (World.mk₂ (.serving startedSecundary false) .asking [probe false false]) := by
  have hlive : Process.serving startedSecundary false ≠ .stopped := by simp
  have hstep : World.Step (World.mk₂ (.serving startedSecundary false) .stopped [])
      (.primary .second) _ := .primaryConnects rfl hlive
  rw [update_second] at hstep
  exact hstep

lemma step_accept : World.Step
    (World.mk₂ (.serving startedSecundary false) .asking [probe false false])
    (.accept (probe false false))
    (World.mk₂ (.serving startedSecundary false) .asking [probe true false]) := by
  have hprocess : (World.mk₂ (.serving startedSecundary false) .asking
      [probe false false]).process (probe false false).listener = .serving startedSecundary false :=
    rfl
  have hlinks : [probe false false] = [] ++ probe false false :: [] := rfl
  exact .accept hprocess hlinks rfl (by decide)

/-- The first server answers that it is the secondary. -/
lemma step_answer : World.Step
    (World.mk₂ (.serving startedSecundary false) .asking [probe true false])
    (.answerStatus (probe true false)
      (openSocket (frame (wireFormat (statusReply startedSecundary)))))
    (World.mk₂ (.serving startedSecundary false) (.told statusSecundary) [probe true false]) := by
  have hcall : networkReceiveSend noNet startedSecundary ()
      (openSocket (frame (wireFormat buildStatusMsg))) = _ :=
    networkReceiveSend_question _ _ _ rfl (fun _ => rfl) (readsWhole_openSocket _ 4 _)
  have hcalls : World.Calls
      (World.mk₂ (.serving startedSecundary false) .asking [probe true false]) (probe true false)
      startedSecundary false (openSocket (frame (wireFormat buildStatusMsg))) 1
      startedSecundary _ :=
    { serving := rfl
      mem := List.mem_singleton_self _
      accepted := rfl
      ends := fun h => absurd h (by decide)
      asks := fun _ => rfl
      call := ⟨noNet, hcall⟩ }
  have hstep := World.Step.answerStatus (fun _ => 0) hcalls (by decide) ⟨rfl, rfl, rfl⟩ rfl rfl
    (receiveMessage_openSocket (encodable_statusReply startedSecundary))
  have htold : askStatus (fun _ => 0) (some (statusReply startedSecundary)) = statusSecundary := by
    decide
  rw [htold] at hstep
  change World.Step _ _ ⟨Function.update (Function.update _ .first _) .second _, _⟩ at hstep
  rw [update_first, update_second] at hstep
  exact hstep

/-- The second server closes the connection and is the primary. -/
lemma step_decide : World.Step
    (World.mk₂ (.serving startedSecundary false) (.told statusSecundary) [probe true false])
    (.decide .second)
    (World.mk₂ (.serving startedSecundary false) (.serving startedPrimary true)
      [probe true true]) := by
  have hstep := World.Step.decidePrimary (i := .second) (s := World.mk₂
    (.serving startedSecundary false) (.told statusSecundary) [probe true false])
    emptyServer.tabela rfl (by decide)
  rw [update_second] at hstep
  exact hstep

/-- The steps from the start of the second server until it is the primary. -/
lemma reaches_started : World.Reaches World.Careful
    (World.mk₂ (.serving startedSecundary false) .asking [probe false false])
    (World.mk₂ (.serving startedSecundary false) (.serving startedPrimary true)
      [probe true true]) := by
  have hrole : some statusSecundary ≠ some statusPrimary := by decide
  exact ((Relation.ReflTransGen.single ⟨_, step_accept, trivial⟩).tail
    ⟨_, step_answer, fun h => absurd h hrole⟩).tail ⟨_, step_decide, trivial⟩

/-- While every step is careful there is at most one primary, and any other step leads to
two. -/
theorem onePrimary {s : World} (hrun : World.Reaches World.Careful World.bothStopped s) :
    ¬s.TwoPrimaries ∧ ∀ action s', s.Step action s' → ¬s.Careful action →
      ∃ s'', World.Reaches (fun _ _ => True) s' s'' ∧ s''.TwoPrimaries := by
  have hinv := Machine.reachable_invariant World.Inv
    (fun t t' ht ⟨action, hstep, hcareful⟩ => ht.step hstep hcareful) World.bothStopped_inv hrun
  refine ⟨?_, fun action s' hstep hcareful => hinv.twoPrimaries hstep hcareful⟩
  intro htwo
  exact hinv.exclusive .first (claims_of_status (htwo .first)) (claims_of_status (htwo .second))

theorem onePrimary_started :
    let s := World.mk₂ (.serving startedSecundary false) (.serving startedPrimary true)
      [probe true true]
    ¬s.TwoPrimaries ∧ ∀ action s', s.Step action s' → ¬s.Careful action →
      ∃ s'', World.Reaches (fun _ _ => True) s' s'' ∧ s''.TwoPrimaries := by
  intro s
  have hrun : World.Reaches World.Careful World.bothStopped s :=
    (((Relation.ReflTransGen.single ⟨_, step_secundary, trivial⟩).tail
      ⟨_, step_joined, trivial⟩).tail ⟨_, step_primary, trivial⟩).trans reaches_started
  exact onePrimary hrun

/-- The first server reads the end of the connection. -/
lemma step_drop : World.Step
    (World.mk₂ (.serving startedSecundary false) (.serving startedPrimary true) [probe true true])
    (.drop (probe true true))
    (World.mk₂ (.serving startedSecundary.disconnected false) (.serving startedPrimary true)
      []) := by
  have hlinks : [probe true true] = [] ++ probe true true :: [] := rfl
  have hcalls : World.Calls
      (World.mk₂ (.serving startedSecundary false) (.serving startedPrimary true)
        [probe true true]) (probe true true)
      startedSecundary false (openSocket []) (-1) startedSecundary (openSocket []) :=
    { serving := rfl
      mem := List.mem_singleton_self _
      accepted := rfl
      ends := fun _ => rfl
      asks := fun h => absurd h.2.1 (by decide)
      call := ⟨noNet, networkReceiveSend_ended noNet startedSecundary ()⟩ }
  have hstep := World.Step.drop hcalls (by decide) hlinks
  change World.Step _ _ ⟨Function.update (Function.update _ .first _) .second
    (Process.serving startedPrimary true), _⟩ at hstep
  rw [update_first, update_second] at hstep
  exact hstep

/-- The secondary takes the end of the status question for the end of the primary. -/
theorem not_onePrimary_probe :
    ¬∀ (i : Party) (s₁ s₂ s₃ s : World), World.bothStopped.Step (.secundary i) s₁ →
      World.Reaches (fun _ _ => True) s₁ s₂ → s₂.Step (.primary i.other) s₃ →
      World.Reaches (fun _ _ => True) s₃ s → ¬s.TwoPrimaries := by
  intro h
  have hstarted : World.Reaches (fun _ _ => True) _ _ := reaches_started.anyStep
  apply h .first _ _ _ _ step_secundary (.single ⟨_, step_joined, trivial⟩) step_primary
    (hstarted.tail ⟨_, step_drop, trivial⟩)
  intro j
  cases j <;> rfl

end RemoteTable
