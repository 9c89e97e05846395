import RemoteTable.Addresses
import RemoteTable.PollLoop
import RemoteTable.RequestHistories
import RemoteTable.Startup
import RemoteTable.StreamEnds

/-!
# The main loop and its connections

`main` of the server from the poll loop down to the bytes of every connection. Whatever the
kernel reports and however it cuts the transfers, the requests of all clients take effect one
after another, and each client reads the replies to its own ones in order.
-/

namespace RemoteTable

variable {σ δ : Type}

/-- What `poll`, `accept`, `fopen` and `fgets` return in one iteration. -/
structure Polled where
  result : ℤ
  pollIn : Fin maxSockets → Bool
  accepted : ℤ
  client : InAddr
  fileOpens : Bool
  /-- The bytes that `fgets` stores, unless it is at the end of `stdin`. -/
  typed : Option (List UInt8)

/-- The turn of the poll loop, without what the calls on the connections return. -/
def Polled.turn (polled : Polled) : Turn δ :=
  ⟨polled.result, polled.pollIn, polled.accepted, fun _ server => (0, server)⟩

/-- The process, and the kernel's connections in the order in which it accepts them. A descriptor
that is open stands for one of them. -/
structure MainState (σ δ : Type) where
  argc : ℤ
  /-- What the file `secundary` holds. -/
  file : Option CString
  slots : Slots
  server : Server δ
  world : σ
  descriptors : ℤ → ℕ
  sockets : ℕ → Socket
  numberAccepted : ℕ

/-- The branch of the listening socket. -/
def MainState.listen (polled : Polled) (s : MainState σ δ) : MainState σ δ :=
  match serveListening (polled.turn : Turn δ) s.slots with
  | ([], slots) => { s with slots := slots }
  | (_ :: _, slots) =>
    { s with
      slots := slots
      descriptors := Function.update s.descriptors polled.accepted s.numberAccepted
      numberAccepted := s.numberAccepted + 1 }

/-- A secundary that was started without an address writes the one of its new client to a file. -/
def MainState.writeFile (polled : Polled) (s : MainState σ δ) : Except Fault (Option CString) :=
  match serveListening (polled.turn : Turn δ) s.slots with
  | ([], _) => .ok s.file
  | (_ :: _, _) =>
    -- `fprintf` is called with `NULL` where the file does not open
    if s.argc = 3 ∧ s.server.status = statusSecundary ∧ polled.fileOpens = false then
      .error .nullDeref
    else acceptPeer s.argc s.server.status s.file polled.client

/-- `print_status` -/
def printStatus (tabela : TableT) : Except Fault Unit :=
  match tableGetKeys tabela with
  | none => .ok ()
  | some keys => keys.forM fun key => do
    match ← tableGet tabela key with
    | none => throw .nullDeref
    -- `%s` goes on to the next zero byte
    | some tempData => if 0 ∈ tempData.bytes then return () else throw .outOfBounds

/-- `print` -/
def printCommand : CString := .ofBytes [112, 114, 105, 110, 116]

/-- Whether the line that was typed says `print`. -/
def Polled.printTyped (polled : Polled) : Except Fault Bool :=
  if polled.pollIn stdinPos then
    match polled.typed with
    | none => .error .uninitialised
    | some bytes =>
      let input := CString.ofBytes bytes
      -- `input[strlen(input) - 1] = 0`
      if strlen input = 0 then .error .outOfBounds
      else .ok (strcmp (.ofBytes input.bytes.dropLast) printCommand = 0)
  else .ok false

/-- The branch of `stdin`. -/
def readCommand (polled : Polled) (tabela : TableT) : Except Fault Unit := do
  if ← polled.printTyped then printStatus tabela else return ()

/-- The body of the loop over the clients. -/
def serveClient (net : Net σ δ) (polled : Polled) (s : MainState σ δ) (j : Fin maxSockets) :
    Except Fault (MainState σ δ) :=
  if polled.pollIn j then do
    let k := s.descriptors (s.slots.connections j)
    let (result, server, world, sock) ← networkReceiveSend net s.server s.world (s.sockets k)
    let s := { s with server, world, sockets := Function.update s.sockets k sock }
    if result < 0 then
      return { s with slots := s.slots.disconnected j, server := s.server.disconnected }
    else return s
  else .ok s

def serveClients (net : Net σ δ) (polled : Polled) :
    MainState σ δ → List (Fin maxSockets) → Except Fault (MainState σ δ)
  | s, [] => .ok s
  | s, j :: rest => do
    let s ← serveClient net polled s j
    serveClients net polled s rest

def mainIteration (net : Net σ δ) (polled : Polled) (s : MainState σ δ) :
    Except Fault (MainState σ δ) :=
  if 0 < polled.result then do
    let file ← s.writeFile polled
    readCommand polled s.server.tabela
    let s' := { s.listen polled with file := file }
    if 0 < (polled.turn : Turn δ).resultLeft s.slots then serveClients net polled s' clientSlots
    else return s'
  else .ok s

/-- The other end of the connection reads no more. -/
def MainState.hangUp (s : MainState σ δ) (k : ℕ) : MainState σ δ :=
  { s with
    sockets := Function.update s.sockets k { s.sockets k with writeFails := fun _ => true } }

/-- An iteration of the loop, or a client that goes away between two of them. -/
inductive MainStep (net : Net σ δ) : MainState σ δ → MainState σ δ → Prop
  | iteration {s s' : MainState σ δ} (polled : Polled)
      (hpossible : (polled.turn : Turn δ).Possible s.slots)
      (h : mainIteration net polled s = .ok s') : MainStep net s s'
  | hangUp (s : MainState σ δ) (k : ℕ) : MainStep net s (s.hangUp k)

/-! ### What clients send -/

/-- A message that clients and the other server send. -/
inductive Call
  | request (request : Request)
  | status
  | up (ipPort : CString)

def Call.msg : Call → MessageT
  | .request req => req.msg
  | .status => buildStatusMsg
  | .up ipPort => buildIpMsg ipPort

def Call.apply (m : KeyMap) : Call → KeyMap
  | .request req => req.apply m
  | .status | .up _ => m

def Call.Allows (m : KeyMap) : Call → MessageT → Prop
  | .request req, reply => req.Allows m reply
  | .status, reply => ∃ status : ℤ, reply = ⟨ocStatus, .result (Int32.ofInt status)⟩
  | .up _, reply => reply = ⟨ocUp, .result (Int32.ofInt stateUp)⟩

/-- The frames that come on a connection, and what comes of a message that is never finished. -/
structure ClientStream where
  calls : List Call
  rest : List UInt8
  encodable : ∀ call ∈ calls, call.msg.Encodable
  unfinished : ¬(openSocket rest).Complete

def framesOf (calls : List Call) : List UInt8 :=
  calls.flatMap fun call => frame (wireFormat call.msg)

/-- The calls that were executed for all clients, with their replies. -/
abbrev CallLog := List (ℕ × Call × MessageT)

def CallLog.of (log : CallLog) (k : ℕ) : List (Call × MessageT) :=
  (log.filter fun event => event.1 = k).map Prod.snd

/-- As a history in which every call has a reply. -/
def replied (events : List (Call × MessageT)) : List (Call × Option MessageT) :=
  events.map fun event => (event.1, some event.2)

def CallLog.contents (m : KeyMap) (log : CallLog) : KeyMap :=
  History.after Call.apply m (replied (log.map Prod.snd))

def replyBytes (events : List (Call × MessageT)) : List UInt8 :=
  events.flatMap fun event => frame (wireFormat event.2)

/-- A client's first calls were executed in its order, and it gets their replies in this order.
Only the last one can be missing or cut short. -/
structure ClientStream.Served (stream : ClientStream) (sock : Socket)
    (events : List (Call × MessageT)) : Prop where
  calls : events.map Prod.fst <+: stream.calls
  output : sock.output <+: replyBytes events
  whole : replyBytes events.dropLast <+: sock.output

/-- The state before the first iteration. -/
structure MainState.Start (s : MainState σ δ) (streams : ℕ → ClientStream) (n : ℤ) : Prop where
  tabela : s.server.tabela.Reachable n
  slots : ∃ listeningSocket stdin, s.slots = (pollStart listeningSocket stdin s.server).slots
  none : s.numberAccepted = 0
  input : ∀ k, (s.sockets k).input = framesOf (streams k).calls ++ (streams k).rest
  output : ∀ k, (s.sockets k).output = []

/-! ### One call on a connection -/

section
variable {net : Net σ δ} {server server' : Server δ} {world world' : σ} {sock sock' : Socket}
  {n : ℤ} {m : KeyMap} {call : Call} {reply : Reply} {result : ℤ} {rest : List UInt8}

lemma read_output (sock : Socket) (length : ℕ) : (sock.read length).2.2.output = sock.output := by
  unfold Socket.read
  split
  · rfl
  · rfl

lemma readAllLoop_output (fuel : ℕ) (sock : Socket) (length : ℕ) (nbytesRead : Option ℤ)
    (buffer : List UInt8) :
    (readAllLoop fuel sock length nbytesRead buffer).2.2.output = sock.output := by
  induction fuel generalizing sock length nbytesRead buffer with
  | zero => rfl
  | succ fuel ih =>
    rw [readAllLoop]
    have hread := read_output sock length
    generalize sock.read length = chunk at hread
    obtain ⟨k, bytes, sock₁⟩ := chunk
    by_cases hzero : length = 0
    · rw [if_pos hzero]
    · rw [if_neg hzero]
      simp only
      split
      · exact hread
      · split
        · exact hread
        · rw [ih, hread]

lemma readAll_output (sock : Socket) (length : ℤ) :
    (readAll sock length).2.2.output = sock.output := readAllLoop_output _ _ _ _ _

lemma receiveRequestBody_output {messageSize : ℤ} {msg : Option MessageT}
    (h : receiveRequestBody sock messageSize = .ok (msg, sock')) : sock'.output = sock.output := by
  have hbody := readAll_output sock messageSize
  unfold receiveRequestBody at h
  generalize readAll sock messageSize = body at h hbody
  obtain ⟨k, bytes, sock₁⟩ := body
  split at h
  · cases h
    rfl
  · cases k with
    | none => cases h
    | some k =>
      simp only at h
      split at h
      · cases h
        exact hbody
      · obtain ⟨msg', -, h⟩ := bind_eq_ok h
        cases h
        exact hbody

lemma receiveRequest_output {msg : Option MessageT} (h : receiveRequest sock = .ok (msg, sock')) :
    sock'.output = sock.output := by
  have hhead := readAll_output sock 4
  rw [receiveRequest] at h
  generalize readAll sock 4 = head at h hhead
  obtain ⟨k, msgSize, sock₁⟩ := head
  simp only at h hhead
  split at h
  · cases h
    exact hhead
  · split at h
    · cases h
    · exact (receiveRequestBody_output h).trans hhead

/-- A message that never ends is not acted on. -/
lemma networkReceiveSend_unfinished (hcut : ¬sock.Complete)
    (h : networkReceiveSend net server world sock = .ok (result, server', world', sock')) :
    result = -1 ∧ server' = server ∧ sock'.output = sock.output := by
  obtain ⟨⟨msg, sock₁⟩, hreceive, h⟩ := bind_eq_ok h
  have hnone : msg = none := by
    by_cases h4 : 4 ≤ sock.input.length
    · obtain ⟨sock₂, hreceive'⟩ := receiveRequest_of_body_cut h4 hcut
      rw [hreceive] at hreceive'
      cases hreceive'
      rfl
    · rw [receiveRequest_of_lt (not_le.mp h4)] at hreceive
      split at hreceive
      · cases hreceive
      · cases hreceive
        rfl
  subst hnone
  cases h
  exact ⟨rfl, rfl, receiveRequest_output hreceive⟩

lemma handleRequest_up_unreached {ipPort : CString}
    (hconnect : net.networkConnect world ipPort = (none, world')) :
    handleRequest net server world (buildIpMsg ipPort) =
      .ok (.unset, { server with currentBackup := none }, world') := by
  have hstatus : ocUp ≠ ocStatus := by decide
  have hwrite : isWrite ocUp = false := by decide
  have hinvoke : invoke server.tabela (buildIpMsg ipPort) = .ok (.unset, server.tabela) :=
    invoke_default (by decide) (by decide)
  have hlocal : ∀ server : Server δ, ¬server.Forwards ocUp := fun _ => not_forwards_of_read hwrite
  rw [handleRequest, hinvoke, ok_bind]
  simp only [answerStatus, answerUp, forwardWrite, buildIpMsg, hstatus, if_false, if_true,
    Content.keyMember, ok_bind, pure_eq_ok, hconnect, hlocal]

/-- What a call does to the table, and its reply. -/
lemma handleRequest_call {msg : MessageT} (hr : server.tabela.Represents n m)
    (h : handleRequest net server world call.msg = .ok (.message msg, server', world')) :
    call.Allows m msg ∧ server'.tabela.Represents n (call.apply m) := by
  cases call with
  | request req =>
    obtain ⟨msg', hreply, hallows, hr'⟩ := handleRequest_allows hr h
    cases hreply
    exact ⟨hallows, hr'⟩
  | status =>
    rw [Call.msg, handleRequest_question] at h
    cases h
    exact ⟨⟨server.status, rfl⟩, hr⟩
  | up ipPort =>
    have htabela := up_step h
    refine ⟨?_, ?_⟩
    · cases hconnect : net.networkConnect world ipPort with
      | mk backup world₁ =>
        cases backup with
        | some backup =>
          rw [Call.msg, Startup.handleRequest_up_reached net server hconnect] at h
          cases h
          rfl
        | none =>
          rw [Call.msg, handleRequest_up_unreached hconnect] at h
          cases h
    · rw [htabela]
      exact hr

/-- The server drops a call that comes in parts, or executes it and writes its reply or a part
of it. -/
lemma networkReceiveSend_call (hencodable : call.msg.Encodable)
    (hinput : sock.input = frame (wireFormat call.msg) ++ rest)
    (hr : server.tabela.Represents n m)
    (h : networkReceiveSend net server world sock = .ok (result, server', world', sock')) :
    result < 0 ∧ server' = server ∧ sock'.output = sock.output ∨
      ∃ msg, call.Allows m msg ∧ server'.tabela.Represents n (call.apply m) ∧
        (result < 0 ∧ (∃ k, sock'.output = sock.output ++ (frame (wireFormat msg)).take k) ∨
          sock'.output = sock.output ++ frame (wireFormat msg) ∧ sock'.input = rest) := by
  classical
  have hb := frameBody_wireFormat hencodable.size
  by_cases hwhole : (sock.skip 4).ReadsWhole (wireFormat call.msg).length
  · right
    rw [networkReceiveSend, receiveRequest_frame hinput hb, if_pos hwhole,
      bufferToMessage_wireFormat hencodable, ok_bind, ok_bind] at h
    obtain ⟨⟨reply, server₁, world₁⟩, hhandle, h⟩ := bind_eq_ok h
    obtain ⟨⟨result₁, sock₁⟩, hsend, h⟩ := bind_eq_ok h
    cases h
    obtain ⟨bytes, hencode, hsent⟩ := sendReply_cases hsend
    obtain ⟨msg, rfl, rfl⟩ := encodeReply_ok hencode
    obtain ⟨hallows, hr'⟩ := handleRequest_call hr hhandle
    refine ⟨msg, hallows, hr', ?_⟩
    rcases hsent with ⟨-, rfl⟩ | ⟨k, -, rfl, rfl⟩
    · refine .inr ⟨rfl, ?_⟩
      change sock.input.drop (4 + (wireFormat call.msg).length) = rest
      rw [hinput, List.drop_left' (length_frame _)]
    · exact .inl ⟨by decide, k, rfl⟩
  · left
    rw [networkReceiveSend_split net server world hinput hb hwhole] at h
    cases h
    exact ⟨by decide, rfl, rfl⟩

/-! ### One call of one client -/

variable {stream : ClientStream} {events : List (Call × MessageT)}

lemma replyBytes_concat (events : List (Call × MessageT)) (call : Call) (msg : MessageT) :
    replyBytes (events ++ [(call, msg)]) = replyBytes events ++ frame (wireFormat msg) := by
  simp [replyBytes]

lemma replied_append (events more : List (Call × MessageT)) :
    replied (events ++ more) = replied events ++ replied more := List.map_append

/-- A connection that the server has not closed: what is left comes on it, and all replies went
out on it. -/
structure ClientStream.Opened (stream : ClientStream) (sock : Socket)
    (events : List (Call × MessageT)) : Prop where
  input : ∃ calls, stream.calls = events.map Prod.fst ++ calls ∧
    sock.input = framesOf calls ++ stream.rest
  output : sock.output = replyBytes events

lemma ClientStream.Served.same (h : stream.Served sock events)
    (houtput : sock'.output = sock.output) : stream.Served sock' events :=
  ⟨h.calls, houtput ▸ h.output, houtput ▸ h.whole⟩

/-- One more call, with its reply or a part of it. -/
lemma ClientStream.Opened.served (h : stream.Opened sock events) {calls : List Call}
    (hcalls : stream.calls = events.map Prod.fst ++ call :: calls) {msg : MessageT}
    {part : List UInt8} (hpart : part <+: frame (wireFormat msg))
    (houtput : sock'.output = sock.output ++ part) :
    stream.Served sock' (events ++ [(call, msg)]) where
  calls := by
    rw [hcalls, List.map_append, List.append_cons]
    exact List.prefix_append _ _
  output := by
    rw [houtput, h.output, replyBytes_concat]
    exact (List.prefix_append_right_inj _).mpr hpart
  whole := by
    rw [List.dropLast_concat, houtput, h.output]
    exact List.prefix_append _ _

/-- What one call of `network_receive_send` adds to the calls of its client. -/
lemma ClientStream.Opened.receive (ho : stream.Opened sock events)
    (hs : stream.Served sock events) (hr : server.tabela.Represents n m)
    (h : networkReceiveSend net server world sock = .ok (result, server', world', sock')) :
    ∃ more, History.Explained Call.apply Call.Allows m (replied more) ∧
      server'.tabela.Represents n (History.after Call.apply m (replied more)) ∧
      stream.Served sock' (events ++ more) ∧
      (0 ≤ result → stream.Opened sock' (events ++ more)) := by
  obtain ⟨calls, hcalls, hinput⟩ := ho.input
  cases calls with
  | nil =>
    have hcut : ¬sock.Complete := by
      have hrest : sock.input = (openSocket stream.rest).input := hinput
      unfold Socket.Complete Socket.announced
      rw [hrest]
      exact stream.unfinished
    obtain ⟨rfl, rfl, houtput⟩ := networkReceiveSend_unfinished hcut h
    refine ⟨[], trivial, hr, ?_, fun hnonneg => absurd hnonneg (by decide)⟩
    rw [List.append_nil]
    exact hs.same houtput
  | cons call calls =>
    have hencodable : call.msg.Encodable := by
      apply stream.encodable
      rw [hcalls]
      exact List.mem_append_right _ List.mem_cons_self
    rw [framesOf, List.flatMap_cons, List.append_assoc] at hinput
    rcases networkReceiveSend_call hencodable hinput hr h with
      ⟨hresult, rfl, houtput⟩ | ⟨msg, hallows, hr', hcases⟩
    · refine ⟨[], trivial, hr, ?_, fun hnonneg => by omega⟩
      rw [List.append_nil]
      exact hs.same houtput
    · refine ⟨[(call, msg)], ⟨by simpa using hallows, trivial⟩, hr', ?_, fun hnonneg => ?_⟩
      · rcases hcases with ⟨-, k, houtput⟩ | ⟨houtput, -⟩
        · exact ho.served hcalls (List.take_prefix k _) houtput
        · exact ho.served hcalls List.prefix_rfl houtput
      · rcases hcases with ⟨hresult, -⟩ | ⟨houtput, hrest⟩
        · omega
        · refine ⟨⟨calls, ?_, hrest⟩, ?_⟩
          · rw [hcalls, List.map_append, List.append_assoc]
            rfl
          · rw [houtput, ho.output, replyBytes_concat]

end

/-! ### The log of all clients -/

section
variable {log : CallLog} {k k' : ℕ} {events : List (Call × MessageT)}

lemma CallLog.of_append_self :
    CallLog.of (log ++ events.map (Prod.mk k)) k = log.of k ++ events := by
  simp [CallLog.of, List.filter_map, Function.comp_def]

lemma CallLog.of_append_of_ne (h : k' ≠ k) :
    CallLog.of (log ++ events.map (Prod.mk k)) k' = log.of k' := by
  simp [CallLog.of, List.filter_map, Function.comp_def, h.symm]

lemma CallLog.map_snd_append :
    (log ++ events.map (Prod.mk k)).map Prod.snd = log.map Prod.snd ++ events := by
  simp [Function.comp_def]

end

/-! ### The invariant of the loop -/

/-- A slot whose client has not been closed. -/
def Slots.Uses (slots : Slots) (j : Fin maxSockets) : Prop :=
  nPosNotFree ≤ j.val ∧ slots.connections j ≠ -1

/-- The connection is not accepted yet, or it is in a slot. -/
def MainState.IsOpen (s : MainState σ δ) (k : ℕ) : Prop :=
  s.numberAccepted ≤ k ∨ ∃ j, s.slots.Uses j ∧ s.descriptors (s.slots.connections j) = k

structure MainState.Inv (streams : ℕ → ClientStream) (n : ℤ) (m : KeyMap) (log : CallLog)
    (s : MainState σ δ) : Prop where
  explained : History.Explained Call.apply Call.Allows m (replied (log.map Prod.snd))
  tabela : s.server.tabela.Represents n (log.contents m)
  served : ∀ k, (streams k).Served (s.sockets k) (log.of k)
  opened : ∀ k, s.IsOpen k → (streams k).Opened (s.sockets k) (log.of k)
  numbered : ∀ j, s.slots.Uses j → s.descriptors (s.slots.connections j) < s.numberAccepted
  distinct : ∀ i j, s.slots.Uses i → s.slots.Uses j →
    s.descriptors (s.slots.connections i) = s.descriptors (s.slots.connections j) → i = j

variable {net : Net σ δ} {polled : Polled} {streams : ℕ → ClientStream} {n : ℤ} {m : KeyMap}
  {log : CallLog} {s s' : MainState σ δ} {j : Fin maxSockets}

/-- A change of the slots and descriptors that opens no connection again. -/
lemma MainState.Inv.slots (h : s.Inv streams n m log) (htabela : s'.server.tabela = s.server.tabela)
    (hsockets : s'.sockets = s.sockets) (hopen : ∀ k, s'.IsOpen k → s.IsOpen k)
    (hnumbered : ∀ i, s'.slots.Uses i →
      s'.descriptors (s'.slots.connections i) < s'.numberAccepted)
    (hdistinct : ∀ i j, s'.slots.Uses i → s'.slots.Uses j →
      s'.descriptors (s'.slots.connections i) = s'.descriptors (s'.slots.connections j) →
        i = j) : s'.Inv streams n m log where
  explained := h.explained
  tabela := by
    rw [htabela]
    exact h.tabela
  served k := by
    rw [hsockets]
    exact h.served k
  opened k hk := by
    rw [hsockets]
    exact h.opened k (hopen k hk)
  numbered := hnumbered
  distinct := hdistinct

/-- The slot of a client is used up to the call that fails. -/
lemma uses_disconnected {slots : Slots} {i : Fin maxSockets}
    (h : (slots.disconnected j).Uses i) :
    i ≠ j ∧ slots.Uses i ∧ (slots.disconnected j).connections i = slots.connections i := by
  have hne : i ≠ j := by
    rintro rfl
    exact h.2 (Function.update_self _ _ _)
  have hsame : (slots.disconnected j).connections i = slots.connections i :=
    Function.update_of_ne hne _ _
  exact ⟨hne, ⟨h.1, hsame ▸ h.2⟩, hsame⟩

/-- The branch of the listening socket, by its two results. -/
lemma listen_cases (hpossible : (polled.turn : Turn δ).Possible s.slots) :
    (s.listen polled).slots.connections = s.slots.connections ∧
        (s.listen polled).descriptors = s.descriptors ∧
        (s.listen polled).numberAccepted = s.numberAccepted ∨
      ∃ j, s.slots.connections j = -1 ∧ nPosNotFree ≤ j.val ∧
        (∀ i, s.slots.connections i ≠ polled.accepted) ∧
        (s.listen polled).slots.connections =
          Function.update s.slots.connections j polled.accepted ∧
        (s.listen polled).descriptors =
          Function.update s.descriptors polled.accepted s.numberAccepted ∧
        (s.listen polled).numberAccepted = s.numberAccepted + 1 := by
  rw [MainState.listen, serveListening]
  by_cases hready : (polled.turn : Turn δ).Listens s.slots
  · rw [if_pos hready, acceptClient]
    cases hfind : findFreeConnection s.slots.connections with
    | none => exact .inl ⟨rfl, rfl, rfl⟩
    | some j =>
      obtain ⟨hslot, hfree⟩ := findFreeConnection_some hfind
      rcases hpossible.accepts with hfail | ⟨hpos, hnew⟩
      · have hle : ¬(0 : ℤ) < -1 := by decide
        simp only [hfail, hle, if_false]
        refine .inl ⟨?_, trivial, trivial⟩
        rw [← hfree, Function.update_eq_self]
      · simp only [hpos, if_true]
        exact .inr ⟨j, hfree, hslot, hnew, rfl, trivial, trivial⟩
  · rw [if_neg hready]
    exact .inl ⟨rfl, rfl, rfl⟩

/-- A new connection is one that nothing has come from yet. -/
lemma MainState.Inv.listen (h : s.Inv streams n m log)
    (hpossible : (polled.turn : Turn δ).Possible s.slots) :
    (s.listen polled).Inv streams n m log := by
  have hkept : (s.listen polled).server = s.server ∧ (s.listen polled).sockets = s.sockets := by
    unfold MainState.listen
    split
    · exact ⟨rfl, rfl⟩
    · exact ⟨rfl, rfl⟩
  have htabela := congrArg Server.tabela hkept.1
  rcases listen_cases hpossible with ⟨hconn, hdesc, hcount⟩ | ⟨j, hfree, hslot, hnew, hconn,
    hdesc, hcount⟩
  · apply h.slots htabela hkept.2
    · intro k hk
      simpa only [MainState.IsOpen, Slots.Uses, hconn, hdesc, hcount] using hk
    · intro i hi
      simp only [Slots.Uses, hconn, hdesc, hcount] at hi ⊢
      exact h.numbered i hi
    · intro i i' hi hi' heq
      simp only [Slots.Uses, hconn, hdesc] at hi hi' heq
      exact h.distinct i i' hi hi' heq
  · -- the descriptor is new, so the other slots keep their connections
    have hold : ∀ i, i ≠ j → (s.listen polled).slots.Uses i →
        s.slots.Uses i ∧ (s.listen polled).descriptors ((s.listen polled).slots.connections i) =
          s.descriptors (s.slots.connections i) := by
      intro i hi huses
      rw [Slots.Uses, hconn, Function.update_of_ne hi] at huses
      rw [hconn, hdesc, Function.update_of_ne hi, Function.update_of_ne (hnew i)]
      exact ⟨huses, rfl⟩
    have hmine : (s.listen polled).descriptors ((s.listen polled).slots.connections j) =
        s.numberAccepted := by
      rw [hconn, hdesc, Function.update_self, Function.update_self]
    apply h.slots htabela hkept.2
    · rintro k (hk | ⟨i, huses, rfl⟩)
      · rw [hcount] at hk
        exact .inl (by omega)
      · by_cases hi : i = j
        · rw [hi, hmine]
          exact .inl le_rfl
        · obtain ⟨huses', hsame⟩ := hold i hi huses
          exact .inr ⟨i, huses', hsame.symm⟩
    · intro i huses
      rw [hcount]
      by_cases hi : i = j
      · rw [hi, hmine]
        omega
      · obtain ⟨huses', hsame⟩ := hold i hi huses
        rw [hsame]
        have := h.numbered i huses'
        omega
    · intro i i' huses huses' heq
      by_cases hi : i = j
      · by_cases hi' : i' = j
        · rw [hi, hi']
        · obtain ⟨hold', hsame⟩ := hold i' hi' huses'
          rw [hi, hmine, hsame] at heq
          have := h.numbered i' hold'
          omega
      · obtain ⟨holdi, hsame⟩ := hold i hi huses
        by_cases hi' : i' = j
        · rw [hi', hmine, hsame] at heq
          have := h.numbered i holdi
          omega
        · obtain ⟨hold', hsame'⟩ := hold i' hi' huses'
          rw [hsame, hsame'] at heq
          exact h.distinct i i' holdi hold' heq

/-- One call on an open connection, which may be closed after it: its events are added to the
log. -/
lemma MainState.Inv.receive (h : s.Inv streams n m log) {k : ℕ} (hopen : s.IsOpen k)
    {result : ℤ} {server : Server δ} {world : σ} {sock : Socket}
    (hcall : networkReceiveSend net s.server s.world (s.sockets k) =
      .ok (result, server, world, sock))
    (htabela : s'.server.tabela = server.tabela)
    (hsockets : s'.sockets = Function.update s.sockets k sock)
    (hstill : ∀ k', s'.IsOpen k' → s.IsOpen k' ∧ (k' = k → 0 ≤ result))
    (hnumbered : ∀ i, s'.slots.Uses i →
      s'.descriptors (s'.slots.connections i) < s'.numberAccepted)
    (hdistinct : ∀ i j, s'.slots.Uses i → s'.slots.Uses j →
      s'.descriptors (s'.slots.connections i) = s'.descriptors (s'.slots.connections j) →
        i = j) : ∃ more, s'.Inv streams n m (log ++ more) := by
  obtain ⟨events, hexplained, hr, hserved, hopened⟩ :=
    (h.opened k hopen).receive (h.served k) h.tabela hcall
  refine ⟨events.map (Prod.mk k), ?_, ?_, fun k' => ?_, fun k' hk' => ?_, hnumbered, hdistinct⟩
  · rw [CallLog.map_snd_append, replied_append]
    exact History.explained_append.mpr ⟨h.explained, hexplained⟩
  · rw [htabela, CallLog.contents, CallLog.map_snd_append, replied_append, History.after_append]
    exact hr
  · rw [hsockets]
    by_cases hne : k' = k
    · rw [hne, Function.update_self, CallLog.of_append_self]
      exact hserved
    · rw [Function.update_of_ne hne, CallLog.of_append_of_ne hne]
      exact h.served k'
  · obtain ⟨hbefore, hresult⟩ := hstill k' hk'
    rw [hsockets]
    by_cases hne : k' = k
    · rw [hne, Function.update_self, CallLog.of_append_self]
      exact hopened (hresult hne)
    · rw [Function.update_of_ne hne, CallLog.of_append_of_ne hne]
      exact h.opened k' hbefore

lemma MainState.Inv.serveClient (h : s.Inv streams n m log)
    (hused : polled.pollIn j → s.slots.Uses j) (hserve : serveClient net polled s j = .ok s') :
    (∃ more, s'.Inv streams n m (log ++ more)) ∧
      ∀ i, i ≠ j → s'.slots.connections i = s.slots.connections i := by
  unfold RemoteTable.serveClient at hserve
  by_cases hin : polled.pollIn j
  · rw [if_pos hin] at hserve
    have huses := hused hin
    obtain ⟨⟨result, server, world, sock⟩, hcall, hserve⟩ := bind_eq_ok hserve
    have hopen : s.IsOpen (s.descriptors (s.slots.connections j)) := .inr ⟨j, huses, rfl⟩
    by_cases hresult : result < 0
    · simp only [if_pos hresult, pure_eq_ok, Except.ok.injEq] at hserve
      subst hserve
      refine ⟨h.receive hopen hcall (disconnected_tabela server) rfl ?_ ?_ ?_,
        fun i hi => Function.update_of_ne hi _ _⟩
      · rintro k' (hk' | ⟨i, hi, rfl⟩)
        · refine ⟨.inl hk', fun heq => ?_⟩
          have := h.numbered j huses
          simp only at hk'
          omega
        · obtain ⟨hne, hold, hsame⟩ := uses_disconnected hi
          simp only [hsame]
          refine ⟨.inr ⟨i, hold, rfl⟩, fun heq => ?_⟩
          exact absurd (h.distinct i j hold huses heq) hne
      · intro i hi
        obtain ⟨-, hold, hsame⟩ := uses_disconnected hi
        simp only [hsame]
        exact h.numbered i hold
      · intro i i' hi hi' heq
        obtain ⟨-, hold, hsame⟩ := uses_disconnected hi
        obtain ⟨-, hold', hsame'⟩ := uses_disconnected hi'
        simp only [hsame, hsame'] at heq
        exact h.distinct i i' hold hold' heq
    · simp only [if_neg hresult, pure_eq_ok, Except.ok.injEq] at hserve
      subst hserve
      exact ⟨h.receive hopen hcall rfl rfl (fun k' hk' => ⟨hk', fun _ => not_lt.mp hresult⟩)
        h.numbered h.distinct, fun _ _ => rfl⟩
  · rw [if_neg hin] at hserve
    cases hserve
    exact ⟨⟨[], by rwa [List.append_nil]⟩, fun _ _ => rfl⟩

/-- Every slot is served once, so it still holds what `poll` saw there. -/
lemma MainState.Inv.serveClients (h : s.Inv streams n m log) {order : List (Fin maxSockets)}
    (horder : order.Nodup) (hused : ∀ j ∈ order, polled.pollIn j → s.slots.Uses j)
    (hserve : serveClients net polled s order = .ok s') :
    ∃ more, s'.Inv streams n m (log ++ more) := by
  induction order generalizing s log with
  | nil =>
    cases hserve
    exact ⟨[], by rwa [List.append_nil]⟩
  | cons j order ih =>
    obtain ⟨hj, horder⟩ := List.nodup_cons.mp horder
    obtain ⟨s₁, hfirst, hrest⟩ := bind_eq_ok hserve
    obtain ⟨⟨more, h₁⟩, hothers⟩ := h.serveClient (hused j List.mem_cons_self) hfirst
    have hused₁ : ∀ i ∈ order, polled.pollIn i → s₁.slots.Uses i := by
      intro i hi hin
      rw [Slots.Uses, hothers i (fun hij => hj (hij ▸ hi))]
      exact hused i (List.mem_cons_of_mem j hi) hin
    obtain ⟨more', h₂⟩ := ih h₁ horder hused₁ hrest
    exact ⟨more ++ more', by rwa [← List.append_assoc]⟩

/-- What an iteration does that faults nowhere. -/
lemma mainIteration_cases (h : mainIteration net polled s = .ok s') :
    ¬0 < polled.result ∧ s' = s ∨
      0 < polled.result ∧ ∃ file,
        (¬0 < (polled.turn : Turn δ).resultLeft s.slots ∧
            s' = { s.listen polled with file := file } ∨
          0 < (polled.turn : Turn δ).resultLeft s.slots ∧
            serveClients net polled { s.listen polled with file := file } clientSlots =
              .ok s') := by
  unfold mainIteration at h
  by_cases hresult : 0 < polled.result
  · rw [if_pos hresult] at h
    obtain ⟨file, -, h⟩ := bind_eq_ok h
    obtain ⟨-, -, h⟩ := bind_eq_ok h
    refine .inr ⟨hresult, file, ?_⟩
    by_cases hleft : 0 < (polled.turn : Turn δ).resultLeft s.slots
    · simp only [if_pos hleft] at h
      exact .inr ⟨hleft, h⟩
    · simp only [if_neg hleft, pure_eq_ok, Except.ok.injEq] at h
      exact .inl ⟨hleft, h.symm⟩
  · rw [if_neg hresult] at h
    cases h
    exact .inl ⟨hresult, rfl⟩

lemma MainState.Inv.file (h : s.Inv streams n m log) (file : Option CString) :
    MainState.Inv streams n m log { s with file := file } :=
  ⟨h.explained, h.tabela, h.served, h.opened, h.numbered, h.distinct⟩

lemma MainState.Inv.iteration (h : s.Inv streams n m log)
    (hpossible : (polled.turn : Turn δ).Possible s.slots)
    (hiteration : mainIteration net polled s = .ok s') :
    ∃ more, s'.Inv streams n m (log ++ more) := by
  rcases mainIteration_cases hiteration with ⟨-, rfl⟩ | ⟨-, file, ⟨-, rfl⟩ | ⟨-, hserve⟩⟩
  · exact ⟨[], by rwa [List.append_nil]⟩
  · exact ⟨[], by simpa only [List.append_nil] using (h.listen hpossible).file file⟩
  · apply ((h.listen hpossible).file file).serveClients clientSlots_nodup _ hserve
    intro j hj hin
    have hold := hpossible.polled j hin
    refine ⟨mem_clientSlots.mp hj, ?_⟩
    rcases listen_cases hpossible with ⟨hconn, -⟩ | ⟨i, hfree, -, -, hconn, -⟩
    · simp only [hconn]
      exact hold
    · have hne : j ≠ i := by
        rintro rfl
        exact hold hfree
      simp only [hconn, Function.update_of_ne hne]
      exact hold

lemma hangUp_sockets (s : MainState σ δ) (k k' : ℕ) :
    ((s.hangUp k).sockets k').output = (s.sockets k').output ∧
      ((s.hangUp k).sockets k').input = (s.sockets k').input := by
  unfold MainState.hangUp
  by_cases hne : k' = k
  · rw [hne]
    simp only [Function.update_self, and_self]
  · simp only [Function.update_of_ne hne, and_self]

lemma MainState.Inv.hangUp (h : s.Inv streams n m log) (k : ℕ) :
    (s.hangUp k).Inv streams n m log where
  explained := h.explained
  tabela := h.tabela
  served k' := (h.served k').same (hangUp_sockets s k k').1
  opened k' hk' := by
    have hopened := h.opened k' hk'
    obtain ⟨houtput, hinput⟩ := hangUp_sockets s k k'
    exact ⟨by rw [hinput]; exact hopened.input, houtput.trans hopened.output⟩
  numbered := h.numbered
  distinct := h.distinct

/-- One step adds to the log what it executed. -/
theorem MainState.Inv.step (h : s.Inv streams n m log) (hstep : MainStep net s s') :
    ∃ more, s'.Inv streams n m (log ++ more) := by
  cases hstep with
  | iteration polled hpossible hiteration => exact h.iteration hpossible hiteration
  | hangUp k => exact ⟨[], by simpa only [List.append_nil] using h.hangUp k⟩

/-- A run adds what all its steps executed. -/
theorem MainState.Inv.run (h : s.Inv streams n m log)
    (hrun : Relation.ReflTransGen (MainStep net) s s') :
    ∃ more, s'.Inv streams n m (log ++ more) := by
  apply Machine.reachable_invariant (fun t => ∃ more, MainState.Inv streams n m (log ++ more) t)
    _ ⟨[], by rwa [List.append_nil]⟩ hrun
  rintro t t' ⟨more, ht⟩ hstep
  obtain ⟨more', ht'⟩ := ht.step hstep
  exact ⟨more ++ more', by rwa [← List.append_assoc]⟩

lemma pollStart_free (listeningSocket stdin : ℤ) (server : Server δ)
    (hslot : nPosNotFree ≤ j.val) :
    (pollStart listeningSocket stdin server).slots.connections j = -1 := by
  rw [pollStart]
  simp only
  rw [Function.update_of_ne (ne_of_client (by decide) hslot).symm,
    Function.update_of_ne (ne_of_client (by decide) hslot).symm]

lemma MainState.Start.inv (h : s.Start streams n) :
    s.Inv streams n s.server.tabela.contents [] := by
  obtain ⟨listeningSocket, stdin, hslots⟩ := h.slots
  have hunused : ∀ j, ¬s.slots.Uses j := by
    rintro j ⟨hslot, hused⟩
    rw [hslots] at hused
    exact hused (pollStart_free listeningSocket stdin s.server hslot)
  refine ⟨trivial, h.tabela.represents, fun k => ?_, fun k _ => ?_, fun j hj => ?_, ?_⟩
  · exact ⟨List.nil_prefix, by rw [h.output k]; exact List.nil_prefix, List.nil_prefix⟩
  · exact ⟨⟨(streams k).calls, rfl, h.input k⟩, h.output k⟩
  · exact absurd hj (hunused j)
  · exact fun i j hi => absurd hi (hunused i)

section
variable {received received' : Fin maxSockets → Server δ → ℤ × Server δ}

def Polled.turnWith (polled : Polled) (received : Fin maxSockets → Server δ → ℤ × Server δ) :
    Turn δ := ⟨polled.result, polled.pollIn, polled.accepted, received⟩

lemma serveSlots_congr {order : List (Fin maxSockets)}
    (h : ∀ j ∈ order, received j = received' j) (p : PollServer δ) :
    serveSlots (polled.turnWith received) p order =
      serveSlots (polled.turnWith received') p order := by
  induction order generalizing p with
  | nil => rfl
  | cons j order ih =>
    have hfirst : serveSlot (polled.turnWith received) p j =
        serveSlot (polled.turnWith received') p j := by
      have hsame : (polled.turnWith received).received j p.server =
          (polled.turnWith received').received j p.server :=
        congrFun (h j List.mem_cons_self) p.server
      rw [serveSlot, hsame]
      rfl
    simp only [serveSlots, hfirst, ih fun i hi => h i (List.mem_cons_of_mem j hi)]

lemma serveClient_slot (h : serveClient net polled s j = .ok s') :
    ∃ answer events, ∀ received : Fin maxSockets → Server δ → ℤ × Server δ,
      received j = answer →
        serveSlot (polled.turnWith received) ⟨s.slots, s.server⟩ j =
          (events, ⟨s'.slots, s'.server⟩) := by
  unfold serveClient at h
  by_cases hin : polled.pollIn j
  · rw [if_pos hin] at h
    obtain ⟨⟨result, server, world, sock⟩, -, h⟩ := bind_eq_ok h
    by_cases hresult : result < 0
    · simp only [if_pos hresult, pure_eq_ok, Except.ok.injEq] at h
      subst h
      refine ⟨fun _ => (result, server), [.closed j (s.slots.connections j)], fun received hj => ?_⟩
      simp only [serveSlot, Polled.turnWith, if_pos hin, hj, if_pos hresult]
    · simp only [if_neg hresult, pure_eq_ok, Except.ok.injEq] at h
      subst h
      refine ⟨fun _ => (result, server), [], fun received hj => ?_⟩
      simp only [serveSlot, Polled.turnWith, if_pos hin, hj, if_neg hresult]
  · rw [if_neg hin] at h
    cases h
    refine ⟨fun _ => (0, s.server), [], fun received _ => ?_⟩
    have hin' : ¬(polled.turnWith received).pollIn j := hin
    rw [serveSlot, if_neg hin']

lemma serveClients_slots {order : List (Fin maxSockets)} (horder : order.Nodup)
    (h : serveClients net polled s order = .ok s') :
    ∃ events received, serveSlots (polled.turnWith received) ⟨s.slots, s.server⟩ order =
      (events, (⟨s'.slots, s'.server⟩ : PollServer δ)) := by
  induction order generalizing s with
  | nil =>
    cases h
    exact ⟨[], fun _ server => (0, server), rfl⟩
  | cons j order ih =>
    obtain ⟨hj, horder⟩ := List.nodup_cons.mp horder
    obtain ⟨s₁, hfirst, hrest⟩ := bind_eq_ok h
    obtain ⟨answer, events, hslot⟩ := serveClient_slot hfirst
    obtain ⟨more, received, hslots⟩ := ih horder hrest
    have hothers : ∀ i ∈ order, Function.update received j answer i = received i := by
      intro i hi
      apply Function.update_of_ne
      rintro rfl
      exact hj hi
    refine ⟨events ++ more, Function.update received j answer, ?_⟩
    simp only [serveSlots, hslot _ (Function.update_self _ _ _), serveSlots_congr hothers, hslots]

/-- An iteration of the loop is one of the poll loop, where a call on a slot returns what it
returned on the connection. -/
theorem mainIteration_iterates (hpossible : (polled.turn : Turn δ).Possible s.slots)
    (h : mainIteration net polled s = .ok s') :
    ∃ events, PollServer.Iterates ⟨s.slots, s.server⟩ events ⟨s'.slots, s'.server⟩ := by
  have hlisten : (s.listen polled).slots = (serveListening (polled.turn : Turn δ) s.slots).2 ∧
      (s.listen polled).server = s.server := by
    unfold MainState.listen
    split
    · rename_i hserve
      exact ⟨by rw [hserve], rfl⟩
    · rename_i hserve
      exact ⟨by rw [hserve], rfl⟩
  rcases mainIteration_cases h with ⟨hresult, rfl⟩ | ⟨hresult, file, ⟨hleft, rfl⟩ | ⟨hleft, hserve⟩⟩
  · have hresult' : ¬0 < (polled.turn : Turn δ).result := hresult
    exact ⟨[], polled.turn, hpossible, by rw [pollIteration, if_neg hresult']⟩
  · refine ⟨(serveListening (polled.turn : Turn δ) s.slots).1 ++ [], polled.turn, hpossible, ?_⟩
    have hresult' : 0 < (polled.turn : Turn δ).result := hresult
    simp only [pollIteration, if_pos hresult', if_neg hleft, hlisten.1, hlisten.2]
  · obtain ⟨events, received, hslots⟩ := serveClients_slots clientSlots_nodup hserve
    simp only [hlisten.1, hlisten.2] at hslots
    refine ⟨(serveListening (polled.turn : Turn δ) s.slots).1 ++ events,
      polled.turnWith received, ⟨hpossible.polled, hpossible.accepts⟩, ?_⟩
    have hresult' : 0 < (polled.turnWith received).result := hresult
    have hleft' : 0 < (polled.turnWith received).resultLeft s.slots := hleft
    have hsame : serveListening (polled.turnWith received) s.slots =
      serveListening (polled.turn : Turn δ) s.slots := rfl
    simp only [pollIteration, if_pos hresult', if_pos hleft', hsame, hslots]

/-- So the counter tells how many connections are in the slots. -/
theorem mainLoop_kept {start : MainState σ δ} (hstart : start.Start streams n)
    (hrun : Relation.ReflTransGen (MainStep net) start s) :
    ∃ listeningSocket stdin, s.slots.Kept listeningSocket stdin := by
  obtain ⟨listeningSocket, stdin, hslots⟩ := hstart.slots
  refine ⟨listeningSocket, stdin, ?_⟩
  apply Machine.reachable_invariant (fun t : MainState σ δ => t.slots.Kept listeningSocket stdin)
    _ (hslots ▸ pollStart_kept listeningSocket stdin start.server) hrun
  rintro t t' ht hstep
  cases hstep with
  | iteration polled hpossible h =>
    obtain ⟨events, hiterates⟩ := mainIteration_iterates hpossible h
    exact hiterates.changes.1.kept ht
  | hangUp k => exact ht

end

/-! ### A client that puts one value -/

def acceptPolled : Polled :=
  ⟨1, fun j => j = listeningSocketPos, 5, ⟨1, 2, 3, 4⟩, true, none⟩

def servePolled : Polled := ⟨1, fun j => j.val = 2, -1, ⟨0, 0, 0, 0⟩, true, none⟩

end RemoteTable
