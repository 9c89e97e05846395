import RemoteTable.Transport

/-!
# One request at a server

`network_receive_send`: decode a request, apply it to the table, forward a write to the
backup, answer. The connections other than the client's are a parameter.
-/

namespace RemoteTable

def statusPrimary : ℤ := 1
def statusSecundary : ℤ := 2

def stateUp : ℤ := 1
def stateDown : ℤ := 0

/-- The globals of a server process. `δ` are the values of a `struct server_t *`. -/
structure Server (δ : Type) where
  tabela : TableT
  status : ℤ
  state : ℤ
  currentBackup : Option δ
  deriving DecidableEq

/-- What a server process can do to the rest of the world. -/
structure Net (σ δ : Type) where
  networkConnect : σ → CString → Option δ × σ
  networkSendReceive : σ → δ → MessageT → Except Fault (Option MessageT × σ)

/-- A net with no other server in reach. -/
def noNet : Net Unit Unit where
  networkConnect _ _ := (none, ())
  networkSendReceive _ _ _ := .ok (none, ())

/-- A primary of one empty bucket. -/
def emptyServer : Server Unit := ⟨⟨[listCreate], 1, 0⟩, statusPrimary, stateDown, none⟩

variable {σ δ : Type}

/-- The opcodes that are forwarded. -/
def isWrite (opcode : Int16) : Bool := opcode = ocDel ∨ opcode = ocPut ∨ opcode = ocUpdate

lemma exists_write {request : Request} (h : isWrite request.msg.opcode) :
    (∃ entry, request = .put entry) ∨ (∃ entry, request = .update entry) ∨
      ∃ key, request = .del key := by
  cases request with
  | size result => exact absurd h (show ¬isWrite ocSize by decide)
  | get key => exact absurd h (show ¬isWrite ocGet by decide)
  | put entry => exact .inl ⟨entry, rfl⟩
  | update entry => exact .inr (.inl ⟨entry, rfl⟩)
  | del key => exact .inr (.inr ⟨key, rfl⟩)

lemma exists_read {request : Request} (h : ¬isWrite request.msg.opcode) :
    (∃ result, request = .size result) ∨ ∃ key, request = .get key := by
  cases request with
  | size result => exact .inl ⟨result, rfl⟩
  | get key => exact .inr ⟨key, rfl⟩
  | put entry => exact absurd (show isWrite ocPut by decide) h
  | update entry => exact absurd (show isWrite ocUpdate by decide) h
  | del key => exact absurd (show isWrite ocDel by decide) h

/-- The reply to OC_STATUS, whose fields are assigned over those that `invoke` left. -/
def answerStatus (server : Server δ) (msgPedido : MessageT) (msgResposta : Reply) : Reply :=
  if msgPedido.opcode = ocStatus then .message ⟨ocStatus, .result (Int32.ofInt server.status)⟩
  else msgResposta

/-- OC_UP connects to the address it carries; without a connection the reply stays as it was. -/
def answerUp (net : Net σ δ) (server : Server δ) (world : σ) (msgPedido : MessageT)
    (msgResposta : Reply) : Except Fault (Reply × Server δ × σ) := do
  if msgPedido.opcode = ocUp then
    let key ← msgPedido.content.keyMember
    match net.networkConnect world key with
    | (none, world) => return (msgResposta, { server with currentBackup := none }, world)
    | (some backup, world) =>
      return (.message ⟨ocUp, .result (Int32.ofInt stateUp)⟩,
        { server with currentBackup := some backup, state := stateUp }, world)
  else return (msgResposta, server, world)

/-- A request with this opcode is sent on to the backup. -/
def Server.Forwards (server : Server δ) (opcode : Int16) : Prop :=
  isWrite opcode ∧ server.state = stateUp ∧ server.status = statusPrimary

instance (server : Server δ) (opcode : Int16) : Decidable (server.Forwards opcode) :=
  inferInstanceAs (Decidable (_ ∧ _))

/-- A write goes to the backup while it is up; no answer marks it as down. -/
def forwardWrite (net : Net σ δ) (server : Server δ) (world : σ) (msgPedido : MessageT) :
    Except Fault (Server δ × σ) := do
  if server.Forwards msgPedido.opcode then
    match server.currentBackup with
    | none => return ({ server with state := stateDown }, world)
    | some backup =>
      match ← net.networkSendReceive world backup msgPedido with
      | (none, world) => return ({ server with state := stateDown }, world)
      | (some _, world) => return (server, world)
  else return (server, world)

/-- `network_receive_send` between the decoded request and the encoding of the reply. The
guard around `invoke` compares with `||` and is always true. -/
def handleRequest (net : Net σ δ) (server : Server δ) (world : σ) (msgPedido : MessageT) :
    Except Fault (Reply × Server δ × σ) := do
  let (msgResposta, tabela) ← invoke server.tabela msgPedido
  let server := { server with tabela := tabela }
  let msgResposta := answerStatus server msgPedido msgResposta
  let (msgResposta, server, world) ← answerUp net server world msgPedido msgResposta
  let (server, world) ← forwardWrite net server world msgPedido
  return (msgResposta, server, world)

def networkReceiveSend (net : Net σ δ) (server : Server δ) (world : σ) (sock : Socket) :
    Except Fault (ℤ × Server δ × σ × Socket) := do
  match ← receiveRequest sock with
  | (none, sock) => return (-1, server, world, sock)
  | (some msgPedido, sock) =>
    let (msgResposta, server, world) ← handleRequest net server world msgPedido
    let (result, sock) ← sendReply sock msgResposta
    return (result, server, world, sock)

/-- The calls that the poll loop makes on one connection, until one of them closes it. -/
def serveConnection (net : Net σ δ) :
    ℕ → Server δ → σ → Socket → Except Fault (List ℤ × Server δ × σ × Socket)
  | 0, server, world, sock => .ok ([], server, world, sock)
  | calls + 1, server, world, sock => do
    let (result, server, world, sock) ← networkReceiveSend net server world sock
    if result < 0 then return ([result], server, world, sock)
    let (results, server, world, sock) ← serveConnection net calls server world sock
    return (result :: results, server, world, sock)

/-! ### What a request does to the globals -/

variable {net : Net σ δ} {server server' : Server δ} {world world' : σ}

/-- OC_UP replaces the connection, and takes the backup to be up if there is one. -/
lemma answerUp_up {msg : MessageT} {reply reply' : Reply} (hup : msg.opcode = ocUp)
    (h : answerUp net server world msg reply = .ok (reply', server', world')) :
    ∃ key, msg.content = .key key ∧
      server' = { server with
        currentBackup := (net.networkConnect world key).1
        state := if (net.networkConnect world key).1 = none then server.state else stateUp } := by
  rw [answerUp, if_pos hup] at h
  obtain ⟨key, hkey, h⟩ := bind_eq_ok h
  refine ⟨key, eq_key_of_keyMember hkey, ?_⟩
  split at h
  · rename_i hconnect
    simp only [pure_eq_ok, Except.ok.injEq, Prod.mk.injEq] at h
    rw [← h.2.1, hconnect]
    rfl
  · rename_i hconnect
    simp only [pure_eq_ok, Except.ok.injEq, Prod.mk.injEq] at h
    rw [← h.2.1, hconnect]
    rfl

lemma answerUp_status {msg : MessageT} {reply reply' : Reply}
    (h : answerUp net server world msg reply = .ok (reply', server', world')) :
    server'.status = server.status := by
  by_cases hup : msg.opcode = ocUp
  · obtain ⟨key, -, rfl⟩ := answerUp_up hup h
    rfl
  · rw [answerUp, if_neg hup] at h
    simp only [pure_eq_ok, Except.ok.injEq, Prod.mk.injEq] at h
    rw [h.2.1]

/-- Forwarding at most takes the backup to be down. -/
lemma forwardWrite_cases {msg : MessageT}
    (h : forwardWrite net server world msg = .ok (server', world')) :
    server' = server ∨ server' = { server with state := stateDown } := by
  unfold forwardWrite at h
  by_cases hforwards : server.Forwards msg.opcode
  · rw [if_pos hforwards] at h
    split at h
    · simp only [pure_eq_ok, Except.ok.injEq, Prod.mk.injEq] at h
      exact .inr h.1.symm
    · obtain ⟨⟨answer, world''⟩, -, h⟩ := bind_eq_ok h
      cases answer with
      | none =>
        simp only [pure_eq_ok, Except.ok.injEq, Prod.mk.injEq] at h
        exact .inr h.1.symm
      | some msg =>
        simp only [pure_eq_ok, Except.ok.injEq, Prod.mk.injEq] at h
        exact .inl h.1.symm
  · rw [if_neg hforwards] at h
    simp only [pure_eq_ok, Except.ok.injEq, Prod.mk.injEq] at h
    exact .inl h.1.symm

lemma forwardWrite_status {msg : MessageT}
    (h : forwardWrite net server world msg = .ok (server', world')) :
    server'.status = server.status := by
  rcases forwardWrite_cases h with rfl | rfl
  · rfl
  · rfl

lemma handleRequest_status {msg : MessageT} {reply : Reply}
    (h : handleRequest net server world msg = .ok (reply, server', world')) :
    server'.status = server.status := by
  obtain ⟨⟨reply₁, tabela⟩, -, h⟩ := bind_eq_ok h
  obtain ⟨⟨reply₂, server₂, world₂⟩, hup, h⟩ := bind_eq_ok h
  obtain ⟨⟨server₃, world₃⟩, hforward, h⟩ := bind_eq_ok h
  simp only [pure_eq_ok, Except.ok.injEq, Prod.mk.injEq] at h
  rw [← h.2.1, forwardWrite_status hforward, answerUp_status hup]

theorem networkReceiveSend_status {sock sock' : Socket} {result : ℤ}
    (h : networkReceiveSend net server world sock = .ok (result, server', world', sock')) :
    server'.status = server.status := by
  obtain ⟨⟨msg, sock₁⟩, -, h⟩ := bind_eq_ok h
  cases msg with
  | none =>
    simp only [pure_eq_ok, Except.ok.injEq, Prod.mk.injEq] at h
    rw [h.2.1]
  | some msg =>
    obtain ⟨⟨reply, server₁, world₁⟩, hhandle, h⟩ := bind_eq_ok h
    obtain ⟨⟨result₁, sock₂⟩, -, h⟩ := bind_eq_ok h
    simp only [pure_eq_ok, Except.ok.injEq, Prod.mk.injEq] at h
    rw [← h.2.1, handleRequest_status hhandle]

end RemoteTable
