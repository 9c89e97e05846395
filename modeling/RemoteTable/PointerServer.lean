import RemoteTable.Addresses
import RemoteTable.EncodeBounds
import RemoteTable.MainLoop
import RemoteTable.PointerSkeleton

/-!
# The memory of a server process

`network_receive_send` with its buffers and messages, the poll loop that calls it, and
`network_client.c` for the connection to the backup. Where every allocation is granted, a server
does over its blocks what it does over bytes, and the blocks that it leaves are counted.
-/

namespace RemoteTable.Pointers
open Memory Memory.Assertion Allocation

/-! ### The other servers -/

/-- What comes of the attempts to connect: the socket of each, whether `socket` makes one, and
whether `connect` finds somebody at an address. -/
structure Peers where
  sockets : ℕ → Socket
  attempts : ℕ
  makes : ℕ → Bool
  accepts : ℕ → InAddr → UInt16 → Bool

def Peers.next (peers : Peers) : Peers := { peers with attempts := peers.attempts + 1 }

def Peers.set (peers : Peers) (sockFd : ℕ) (sock : Socket) : Peers :=
  { peers with sockets := Function.update peers.sockets sockFd sock }

/-- The descriptor behind an address, from `socket` to `connect`. -/
def Peers.reach (peers : Peers) (addressPort : CString) : Except RemoteTable.Fault (Option ℕ) :=
  if peers.makes peers.attempts then do
    match ← connectTarget addressPort with
    | none => return none
    | some (addr, port) =>
      return if peers.accepts peers.attempts addr port then some peers.attempts else none
  else return none

/-- Descriptors stand for connections. -/
def peersNet : Net Peers ℕ where
  networkConnect peers addressPort :=
    match peers.reach addressPort with
    | .ok sockFd => (sockFd, peers.next)
    | .error _ => (none, peers.next)
  networkSendReceive peers sockFd msg := do
    let (msgResposta, sock) ← RemoteTable.networkSendReceive (peers.sockets sockFd) msg
    return (msgResposta, peers.set sockFd sock)

/-! ### `network_client.c` -/

/-- `server->sock_file_descriptor` -/
def sockFdOf (server : Option ℕ) : Mem ServerCell ℕ := do
  match ← read server with
  | .server sockFd => assigned sockFd
  | _ => throw .outside

/-- `strtok` cuts up a copy of the address that nobody releases. -/
def networkConnect (addressPort : Option ℕ) (peers : Peers) :
    Mem ServerCell (Option ℕ × Peers) :=
  match addressPort with
  | none => pure (none, peers)
  | some _ => do
    let server ← malloc (.server none)
    match server with
    | none => pure (none, peers)
    | some _ => do
      let copy ← onBlocks (strdup addressPort)
      let chars ← onBlocks (readString copy)
      match ← parse (peers.reach chars) with
      | none => do
        free server
        pure (none, peers.next)
      | some sockFd => do
        write server (.server (some sockFd))
        pure (server, peers.next)

/-- The reply from a connection, after which both buffers are released. -/
def receiveReply (messageOut : Option ℕ) (sock : Socket) (msgReturned : ℤ) :
    Mem ServerCell (Option ℕ × Socket) := do
  -- `malloc` of a negative size
  let messageIn ← if msgReturned < 0 then pure none else malloc (bytesCell [])
  match messageIn with
  | none => do
    free messageOut
    pure (none, sock)
  | some _ => do
    let (_, bytes, sock) := readAll sock msgReturned
    write messageIn (bytesCell bytes)
    let msgResposta ← bufferToMessage messageIn msgReturned
    free messageIn
    free messageOut
    pure (msgResposta, sock)

/-- The rest of `network_send_receive` from the first write on. -/
def exchange (messageOut : Option ℕ) (messageSize : ℤ) (sock : Socket) :
    Mem ServerCell (Option ℕ × Socket) :=
  let (result, sock) := writeAll sock (putInt messageSize.toNat) 4
  if result ≠ 4 then pure (none, sock.close)
  else do
    let bytes ← onBlocks (readBytes messageOut)
    let (result, sock) := writeAll sock bytes messageSize
    if result = -1 then pure (none, sock)
    else
      let (result, sizeReturnedMsg, sock) := readAll sock 4
      if result ≠ some 4 then pure (none, sock.close)
      else receiveReply messageOut sock (toInt (ntohl (Bytes.leValue sizeReturnedMsg)))

def networkSendReceive (server msg : Option ℕ) (peers : Peers) :
    Mem ServerCell (Option ℕ × Peers) :=
  if msg = none ∨ server = none then pure (none, peers)
  else do
    let (messageOut, messageSize) ← messageToBuffer msg
    if messageSize ≤ 0 then pure (none, peers)
    else do
      let sockFd ← sockFdOf server
      let (msgResposta, sock) ← exchange messageOut messageSize (peers.sockets sockFd)
      pure (msgResposta, peers.set sockFd sock)

/-! ### `network_receive_send` -/

/-- The globals of the process. -/
structure Globals where
  tabela : Option ℕ
  status : ℤ
  state : ℤ
  currentBackup : Option ℕ

def answerStatus (globals : Globals) (opcode : Int16) (msgResposta : Option ℕ) :
    Mem ServerCell Unit :=
  if opcode = ocStatus then setResult msgResposta ocStatus globals.status else pure ()

/-- The connection that was there before is not closed. -/
def answerUp (globals : Globals) (peers : Peers) (opcode : Int16)
    (msgPedido msgResposta : Option ℕ) : Mem ServerCell (Globals × Peers) :=
  if opcode = ocUp then do
    let key ← keyOf msgPedido
    let (backup, peers) ← networkConnect key peers
    match backup with
    | none => pure ({ globals with currentBackup := none }, peers)
    | some _ => do
      setResult msgResposta ocUp stateUp
      pure ({ globals with currentBackup := backup, state := stateUp }, peers)
  else pure (globals, peers)

/-- Nobody releases the answer of the secondary. -/
def forwardWrite (globals : Globals) (peers : Peers) (opcode : Int16) (msgPedido : Option ℕ) :
    Mem ServerCell (Globals × Peers) :=
  if isWrite opcode ∧ globals.state = stateUp ∧ globals.status = statusPrimary then do
    let (msgFromSecundary, peers) ← networkSendReceive globals.currentBackup msgPedido peers
    match msgFromSecundary with
    | none => pure ({ globals with state := stateDown }, peers)
    | some _ => pure (globals, peers)
  else pure (globals, peers)

def handleRequest (globals : Globals) (peers : Peers) (msgPedido : Option ℕ) :
    Mem ServerCell (Option ℕ × Globals × Peers) := do
  let msgResposta ← invoke globals.tabela msgPedido
  let opcode ← opcodeOf msgPedido
  answerStatus globals opcode msgResposta
  let (globals, peers) ← answerUp globals peers opcode msgPedido msgResposta
  let (globals, peers) ← forwardWrite globals peers opcode msgPedido
  pure (msgResposta, globals, peers)

/-- The buffer of the reply stays on every path. -/
def sendReply (sock : Socket) (msgPedido msgResposta : Option ℕ) : Mem ServerCell (ℤ × Socket) := do
  let (messageResposta, messageSize) ← messageToBuffer msgResposta
  if messageSize < 0 then do
    freeMessage msgResposta
    freeMessage msgPedido
    pure (-1, sock)
  else
    let (result, sock) := writeAll sock (putInt messageSize.toNat) 4
    if result < 0 then do
      freeMessage msgResposta
      freeMessage msgPedido
      pure (-1, sock)
    else do
      let bytes ← onBlocks (readBytes messageResposta)
      let (result, sock) := writeAll sock bytes messageSize
      freeMessage msgPedido
      freeMessage msgResposta
      pure (if result < 0 then -1 else 1, sock)

/-- The bytes of a request and the message in them. The buffer stays when there is one. -/
def receiveRequestBody (sock : Socket) (messageSize : ℤ) : Mem ServerCell (Option ℕ × Socket) :=
  -- `malloc` of a negative size
  if messageSize < 0 then pure (none, sock)
  else do
    let messagePedido ← malloc (bytesCell [])
    match messagePedido with
    | none => pure (none, sock)
    | some _ => do
      let (result, bytes, sock) := readAll sock messageSize
      write messagePedido (bytesCell bytes)
      let result ← assigned result
      if result ≠ messageSize then do
        free messagePedido
        pure (none, sock)
      else do
        let msgPedido ← bufferToMessage messagePedido messageSize
        whenNull msgPedido (free messagePedido)
        pure (msgPedido, sock)

def receiveRequest (sock : Socket) : Mem ServerCell (Option ℕ × Socket) :=
  let (result, msgSize, sock) := readAll sock 4
  if result = some 0 then pure (none, sock)
  -- a failed read passes this test with `msg_size` unset
  else if msgSize.length < 4 then throw .unset
  else receiveRequestBody sock (toInt (ntohl (Bytes.leValue msgSize)))

def networkReceiveSend (globals : Globals) (peers : Peers) (sock : Socket) :
    Mem ServerCell (ℤ × Globals × Peers × Socket) := do
  let (msgPedido, sock) ← receiveRequest sock
  match msgPedido with
  | none => pure (-1, globals, peers, sock)
  | some _ => do
    let (msgResposta, globals, peers) ← handleRequest globals peers msgPedido
    let (result, sock) ← sendReply sock msgPedido msgResposta
    pure (result, globals, peers, sock)

/-! ### What a request leaves -/

/-- The blocks of a message with this content. -/
def contentBlocks : Content → ℕ
  | .result _ => 1
  | .data _ => 3
  | .key _ => 2
  | .keys ks => 1 + (1 + ks.length)
  | .entry _ => 5

/-- The buffer of what was sent, or the message that came back. -/
def sendLeaked (sock : Socket) (msg : MessageT) : Except RemoteTable.Fault ℕ := do
  let (sent, sock) ← sendMessage sock msg
  if sent then
    let (result, sizeReturnedMsg, sock) := readAll sock 4
    if result ≠ some 4 then return 1
    else match ← receiveBody sock (toInt (ntohl (Bytes.leValue sizeReturnedMsg))) with
      | (none, _) => return 0
      | (some reply, _) => return contentBlocks reply.content
  else return 1

def forwardLeaked (server : Server ℕ) (peers : Peers) (msg : MessageT) :
    Except RemoteTable.Fault ℕ :=
  if server.Forwards msg.opcode then
    match server.currentBackup with
    | none => return 0
    | some backup => sendLeaked (peers.sockets backup) msg
  else return 0

/-- Two buffers are left by every request that is executed. -/
def callLeaked (server : Server ℕ) (peers : Peers) (sock : Socket) :
    Except RemoteTable.Fault ℕ := do
  match ← RemoteTable.receiveRequest sock with
  | (none, _) => return 0
  | (some msg, _) =>
    let invoked ← invokeLeaked server.tabela msg
    let forwarded ← forwardLeaked server peers msg
    return 2 + (invoked + forwarded)

/-! ### The connection to the backup -/

/-- A `struct server_t` with a descriptor, or none. -/
def backupAt (q backup : Option ℕ) : Assertion ServerCell :=
  match backup with
  | none => only (q = none)
  | some sockFd => returned (fun p => cell p (.server (some sockFd))) q

section
variable {p q b k left : ℕ} {peers peers' : Peers} {sock sock' : Socket} {msg : MessageT}
  {key : CString} {server server' : Server ℕ} {sockFd : Option ℕ} {bytes : List UInt8}

lemma stringsAt_le_held (ps : List ℕ) (ks : List CString) : stringsAt ps ks ≤ held ks.length := by
  induction ks generalizing ps with
  | nil =>
    cases ps with
    | nil => exact one_le_held
    | cons p ps => exact fun _ hc => hc.1.elim
  | cons k ks ih =>
    cases ps with
    | nil => exact fun _ hc => hc.1.elim
    | cons p ps =>
      rw [stringsAt, List.length_cons, Nat.add_comm]
      exact (mul_le_mul' (heapString_le_held p k) (ih ps)).trans (held_mul_le 1 _)

lemma heapData_le_held (q : ℕ) (v : DataT) : heapData q v ≤ held 2 :=
  (embed_mono cells (ownedData_le_held q v)).trans (embed_held_le cells 2)

lemma heapEntry_le_held (q : ℕ) (e : EntryT) : heapEntry q e ≤ held 4 := by
  rw [heapEntry_eq]
  refine ex_le fun k => ex_le fun d => ?_
  have hfields := (mul_le_mul' (heapString_le_held k e.key) (heapData_le_held d e.value)).trans
    (held_mul_le 1 2)
  exact (mul_le_mul' (cell_le_held q _) hfields).trans (held_mul_le 1 3)

lemma keysAt_le_held (a : ℕ) (ks : List CString) : keysAt a ks ≤ held (1 + ks.length) :=
  ex_le fun ps =>
    (mul_le_mul' (cell_le_held a _) (stringsAt_le_held ps ks)).trans (held_mul_le 1 _)

/-- As many blocks as `free_message` would release. -/
lemma messageAt_le_held (p : ℕ) (msg : MessageT) :
    messageAt p msg ≤ held (contentBlocks msg.content) := by
  obtain ⟨opcode, content⟩ := msg
  cases content with
  | result r => exact cell_le_held p _
  | data v =>
    exact ex_le fun q =>
      (mul_le_mul' (cell_le_held p _) (heapData_le_held q v)).trans (held_mul_le 1 2)
  | key k =>
    exact ex_le fun q =>
      (mul_le_mul' (cell_le_held p _) (heapString_le_held q k)).trans (held_mul_le 1 1)
  | keys ks =>
    exact ex_le fun q =>
      (mul_le_mul' (cell_le_held p _) (keysAt_le_held q ks)).trans (held_mul_le 1 _)
  | entry e =>
    exact ex_le fun q =>
      (mul_le_mul' (cell_le_held p _) (heapEntry_le_held q e)).trans (held_mul_le 1 4)

lemma readAll_neg {size : ℤ} (hneg : size < 0) : readAll sock size = (none, [], sock) := by
  rw [readAll, Int.toNat_eq_zero.mpr hneg.le]
  rfl

lemma decodedAt_some {answer : Option MessageT} {r : Option ℕ} :
    decodedAt answer r ≤ only (r.isSome = answer.isSome) *
      held (answer.elim 0 fun reply => contentBlocks reply.content) := by
  cases answer with
  | none =>
    rintro _ ⟨rfl, rfl⟩
    exact mem_only_mul.mpr ⟨rfl, one_le_held rfl⟩
  | some reply =>
    refine ex_le fun q => only_mul_le ?_
    rintro rfl
    refine le_trans (messageAt_le_held q reply) (le_of_eq ?_)
    rw [only_mul_of (by rfl)]
    rfl

/-- The reply is decoded, and the two buffers are released. -/
lemma receiveReply_triple {size : ℤ} {answer : Option MessageT} (b : ℕ) (bytes : List UInt8)
    (h : receiveBody sock size = .ok (answer, sock')) :
    Triple (cell b (bytesCell bytes)) (receiveReply (some b) sock size) fun r =>
      only (r.2 = sock') * decodedAt answer r.1 := by
  by_cases hneg : size < 0
  · have hnone : receiveBody sock size = .ok (none, sock) := by
      simp only [receiveBody, readAll_neg hneg]
      rw [RemoteTable.bufferToMessage, if_pos hneg]
      rfl
    rw [hnone] at h
    cases h
    rw [receiveReply, if_pos hneg]
    refine (reads_pure _ none).bind ?_
    refine (triple_free b _).bind fun _ => triple_pure ?_
    rw [only_mul_of rfl]
    exact (only_of rfl).ge
  · rw [receiveReply, if_neg hneg]
    refine triple_malloc_step fun m => ?_
    rw [receiveBody] at h
    rcases hread : readAll sock size with ⟨result, messageIn, sock₁⟩
    simp only [hread] at h ⊢
    obtain ⟨answer, hdecode, h⟩ := bind_eq_ok h
    cases h
    refine (triple_write m _ (bytesCell messageIn)).step _ rfl fun _ => ?_
    refine (bufferToMessage_triple m hdecode).step _ rfl fun r => ?_
    refine (triple_free m _).step (decodedAt answer r * cell b (bytesCell bytes)) (by ac_rfl)
      fun _ => ?_
    rw [one_mul]
    refine (triple_free b _).step _ (mul_comm _ _) fun _ => ?_
    rw [one_mul]
    exact triple_pure (only_mul_of rfl _).ge

/-- The buffer of the request stays unless a whole reply came. -/
lemma exchange_triple {size : ℤ} {answer : Option MessageT} (b : ℕ)
    (hbuffer : RemoteTable.messageToBuffer (some msg) = .ok (bytes, size)) (hpos : ¬size ≤ 0)
    (h : RemoteTable.networkSendReceive sock msg = .ok (answer, sock'))
    (hleft : sendLeaked sock msg = .ok left) :
    Triple (cell b (bytesCell bytes)) (exchange (some b) size sock) fun r =>
      only (r.1.isSome = answer.isSome ∧ r.2 = sock') * held left := by
  have hsent : only ((none : Option ℕ).isSome = (none : Option MessageT).isSome ∧ sock' = sock') *
      (held 1 : Assertion ServerCell) = held 1 := only_mul_of ⟨rfl, rfl⟩ _
  have hkept : cell b (bytesCell bytes) ≤ held 1 := cell_le_held b _
  obtain ⟨⟨sent, sock₀⟩, hsend, h⟩ := bind_eq_ok h
  rw [sendLeaked, hsend, ok_bind] at hleft
  rw [sendMessage, hbuffer, ok_bind] at hsend
  simp only [if_neg hpos] at hsend
  rw [exchange]
  rcases hsize : writeAll sock (putInt size.toNat) 4 with ⟨result, sock₁⟩
  simp only [hsize] at hsend ⊢
  by_cases hresult : result ≠ 4
  · simp only [if_pos hresult] at hsend ⊢
    cases hsend
    cases h
    cases hleft
    refine triple_pure (hkept.trans hsent.ge)
  simp only [if_neg hresult] at hsend ⊢
  refine (readBytes_heap b bytes).bind ?_
  rcases hbody : writeAll sock₁ bytes size with ⟨result₁, sock₂⟩
  simp only [hbody] at hsend ⊢
  by_cases hfailed : result₁ = -1
  · simp only [if_pos hfailed] at hsend ⊢
    cases hsend
    cases h
    cases hleft
    refine triple_pure (hkept.trans hsent.ge)
  simp only [if_neg hfailed] at hsend ⊢
  cases hsend
  simp only [if_true] at h hleft
  rw [receiveMessage] at h
  rcases hread : readAll sock₀ 4 with ⟨result₂, sizeReturnedMsg, sock₃⟩
  simp only [hread] at h hleft ⊢
  by_cases hshort : result₂ ≠ some 4
  · simp only [if_pos hshort] at h hleft ⊢
    cases h
    cases hleft
    refine triple_pure (hkept.trans hsent.ge)
  simp only [if_neg hshort] at h hleft ⊢
  rw [h, ok_bind] at hleft
  refine (receiveReply_triple b bytes h).mono le_rfl fun r => only_mul_le fun hsock => ?_
  refine decodedAt_some.trans (only_mul_le fun hsome => ?_)
  rw [only_mul_of ⟨hsome, hsock⟩]
  cases answer with
  | none =>
    cases hleft
    exact le_rfl
  | some reply =>
    cases hleft
    exact le_rfl

lemma networkSendReceive_triple {answer : Option MessageT} (s p fd : ℕ)
    (h : RemoteTable.networkSendReceive (peers.sockets fd) msg = .ok (answer, sock'))
    (hleft : sendLeaked (peers.sockets fd) msg = .ok left) :
    Triple (cell s (.server (some fd)) * messageAt p msg)
      (networkSendReceive (some s) (some p) peers) fun r =>
        only (r.1.isSome = answer.isSome ∧ r.2 = peers.set fd sock') *
          (held left * (cell s (.server (some fd)) * messageAt p msg)) := by
  obtain ⟨_, hsend, -⟩ := bind_eq_ok h
  obtain ⟨⟨bytes, size⟩, hbuffer, -⟩ := bind_eq_ok hsend
  have hpos : ¬size ≤ 0 := by
    obtain ⟨-, hsize, -⟩ := messageToBuffer_ok hbuffer
    have := wireFormat_pos msg
    omega
  have hargs : ¬(some p = none ∨ some s = none) := by simp
  rw [networkSendReceive, if_neg hargs]
  refine (messageToBuffer_triple p hbuffer).step _ (mul_comm _ _) fun r => ?_
  rw [ex_mul]
  refine triple_ex fun b => ?_
  rw [mul_assoc]
  apply triple_only
  rintro rfl
  simp only [if_neg hpos]
  have hread : Reads (cell s (.server (some fd))) (sockFdOf (some s)) fd :=
    (reads_cell s _).bind (reads_pure _ fd)
  refine hread.step _ (mul_comm _ _) ?_
  refine (exchange_triple b hbuffer hpos h hleft).step (cell s (.server (some fd)) *
    messageAt p msg) (by ac_rfl) fun r => ?_
  rw [mul_assoc]
  refine triple_only fun hr => triple_pure ?_
  rw [only_mul_of ⟨hr.1, by rw [hr.2]⟩]

/-! ### A request and its reply -/

/-- Of a request that is answered the reply's buffer stays. -/
lemma sendReply_triple {reply : Reply} {result : ℤ} (p q : ℕ)
    (h : RemoteTable.sendReply sock reply = .ok (result, sock')) :
    Triple (messageAt p msg * replyAt q reply) (sendReply sock (some p) (some q)) fun r =>
      only (r = (result, sock')) * held 1 := by
  cases reply with
  | unset => cases h
  | message answer =>
    obtain ⟨⟨bytes, size⟩, hbuffer, h⟩ := bind_eq_ok h
    have hneg : ¬size < 0 := by
      obtain ⟨-, hsize, -⟩ := messageToBuffer_ok hbuffer
      omega
    refine (messageToBuffer_triple q hbuffer).step _ (mul_comm _ _) fun r => ?_
    rw [ex_mul]
    refine triple_ex fun b => ?_
    rw [mul_assoc]
    apply triple_only
    rintro rfl
    simp only [if_neg hneg] at h ⊢
    rcases hsize : writeAll sock (putInt size.toNat) 4 with ⟨result₁, sock₁⟩
    simp only [hsize] at h ⊢
    by_cases hfailed : result₁ < 0
    · simp only [if_pos hfailed] at h ⊢
      cases h
      refine (freeMessage_triple q answer).step (cell b (bytesCell bytes) * messageAt p msg)
        (by ac_rfl) fun _ => ?_
      rw [one_mul]
      refine (freeMessage_triple p msg).step _ (mul_comm _ _) fun _ => ?_
      rw [one_mul]
      exact triple_pure ((cell_le_held b _).trans (only_mul_of rfl _).ge)
    · simp only [if_neg hfailed] at h ⊢
      refine (readBytes_heap b bytes).step (messageAt q answer * messageAt p msg)
        (mul_assoc _ _ _) ?_
      rcases hbody : writeAll sock₁ bytes size with ⟨result₂, sock₂⟩
      simp only [hbody] at h ⊢
      refine (freeMessage_triple p msg).step (cell b (bytesCell bytes) * messageAt q answer)
        (mul_comm _ _) fun _ => ?_
      rw [one_mul]
      refine (freeMessage_triple q answer).step _ (mul_comm _ _) fun _ => ?_
      rw [one_mul]
      refine triple_pure ((cell_le_held b _).trans (only_mul_of ?_ _).ge)
      by_cases hlast : result₂ < 0
      · simp only [if_pos hlast] at h ⊢
        cases h
        rfl
      · simp only [if_neg hlast] at h ⊢
        cases h
        rfl

/-- The buffer of a request that was decoded stays. -/
lemma receiveRequestBody_triple {size : ℤ} {request : Option MessageT}
    (h : RemoteTable.receiveRequestBody sock size = .ok (request, sock')) :
    Triple 1 (receiveRequestBody sock size) fun r =>
      only (r.2 = sock') * (decodedAt request r.1 * held request.toList.length) := by
  rw [RemoteTable.receiveRequestBody] at h
  rw [receiveRequestBody]
  by_cases hneg : size < 0
  · simp only [if_pos hneg] at h ⊢
    cases h
    apply triple_pure
    rw [only_mul_of rfl, decodedAt, only_mul_of rfl]
    exact one_le_held
  simp only [if_neg hneg] at h ⊢
  refine triple_malloc_step fun b => ?_
  rw [mul_one]
  rcases hread : readAll sock size with ⟨result, bytes, sock₁⟩
  simp only [hread] at h ⊢
  refine (triple_write b _ (bytesCell bytes)).bind fun _ => ?_
  cases result with
  | none => cases h
  | some result =>
    refine (reads_pure _ result).bind ?_
    by_cases hshort : result ≠ size
    · simp only [if_pos hshort] at h ⊢
      cases h
      refine (triple_free b _).bind fun _ => triple_pure ?_
      rw [only_mul_of rfl, decodedAt, only_mul_of rfl]
      exact one_le_held
    simp only [if_neg hshort] at h ⊢
    obtain ⟨request', hdecode, h⟩ := bind_eq_ok h
    cases h
    refine (bufferToMessage_triple b hdecode).bind fun r => ?_
    cases request with
    | none =>
      rw [decodedAt]
      apply triple_only
      rintro rfl
      rw [whenNull_none]
      refine (triple_free b _).bind fun _ => triple_pure ?_
      rw [only_mul_of rfl, decodedAt, only_mul_of rfl]
      exact one_le_held
    | some msg =>
      rw [decodedAt]
      apply triple_returned
      rintro p rfl
      refine (reads_whenNull _ p _).bind (triple_pure ?_)
      rw [only_mul_of rfl]
      exact mul_le_mul' (le_returned (fun p => messageAt p msg) p) (cell_le_held b _)

lemma receiveRequest_triple {request : Option MessageT}
    (h : RemoteTable.receiveRequest sock = .ok (request, sock')) :
    Triple 1 (receiveRequest sock) fun r =>
      only (r.2 = sock') * (decodedAt request r.1 * held request.toList.length) := by
  rw [RemoteTable.receiveRequest] at h
  rw [receiveRequest]
  rcases hread : readAll sock 4 with ⟨result, msgSize, sock₁⟩
  simp only [hread] at h ⊢
  by_cases hended : result = some 0
  · simp only [if_pos hended] at h ⊢
    cases h
    apply triple_pure
    rw [only_mul_of rfl, decodedAt, only_mul_of rfl]
    exact one_le_held
  simp only [if_neg hended] at h ⊢
  by_cases hshort : msgSize.length < 4
  · simp only [if_pos hshort] at h
    cases h
  · simp only [if_neg hshort] at h ⊢
    exact receiveRequestBody_triple h

/-! ### The globals -/

/-- The globals stand for a server. -/
structure Globals.Shows (globals : Globals) (t : ℕ) (server : Server ℕ) : Prop where
  tabela : globals.tabela = some t
  status : globals.status = server.status
  state : globals.state = server.state

def globalsAt (t : ℕ) (n : ℤ) (server : Server ℕ) (globals : Globals) : Assertion ServerCell :=
  only (globals.Shows t server) *
    (tabelaAt t n server.tabela * backupAt globals.currentBackup server.currentBackup)

variable {t : ℕ} {n : ℤ} {globals : Globals} {reply reply' : Reply} {β : Type}
  {x : Mem ServerCell β} {Q : β → Assertion ServerCell} {F : Assertion ServerCell}

lemma triple_globals
    (h : globals.Shows t server → Triple (tabelaAt t n server.tabela *
      backupAt globals.currentBackup server.currentBackup * F) x Q) :
    Triple (globalsAt t n server globals * F) x Q := by
  rw [globalsAt, mul_assoc]
  exact triple_only h

lemma globalsAt_intro (hshows : globals.Shows t server) (F : Assertion ServerCell) :
    tabelaAt t n server.tabela * backupAt globals.currentBackup server.currentBackup * F ≤
      globalsAt t n server globals * F := mul_le_mul_left (only_mul_of hshows _).ge F

lemma backupAt_le_held (q backup : Option ℕ) :
    backupAt q backup ≤ held backup.toList.length := by
  cases backup with
  | none => exact fun _ hc => one_le_held hc.2
  | some sockFd => exact ex_le fun p => only_mul_le fun _ => cell_le_held p _

/-- The guard of the block that forwards. -/
lemma Globals.Shows.forwards_iff (hshows : globals.Shows t server) (opcode : Int16) :
    (isWrite opcode ∧ globals.state = stateUp ∧ globals.status = statusPrimary) ↔
      server.Forwards opcode := by
  rw [hshows.state, hshows.status]
  exact Iff.rfl

/-- The backup has not answered. -/
lemma Globals.Shows.down (hshows : globals.Shows t server) :
    ({ globals with state := stateDown } : Globals).Shows t { server with state := stateDown } :=
  ⟨hshows.tabela, hshows.status, rfl⟩

lemma forwardWrite_triple (p : ℕ)
    (h : RemoteTable.forwardWrite peersNet server peers msg = .ok (server', peers'))
    (hleft : forwardLeaked server peers msg = .ok left) :
    Triple (globalsAt t n server globals * messageAt p msg)
      (forwardWrite globals peers msg.opcode (some p)) fun r => only (r.2 = peers') *
        (held left * (globalsAt t n server' r.1 * messageAt p msg)) := by
  refine triple_globals fun hshows => ?_
  rw [RemoteTable.forwardWrite] at h
  rw [forwardLeaked] at hleft
  rw [forwardWrite]
  by_cases hforwards : server.Forwards msg.opcode
  · rw [if_pos hforwards] at h hleft
    rw [if_pos ((hshows.forwards_iff _).mpr hforwards)]
    have hdown := hshows.down
    obtain ⟨tabela, status, state, backup⟩ := server
    cases backup with
    | none =>
      cases h
      cases hleft
      rw [backupAt, mul_comm (tabelaAt _ _ _), mul_assoc]
      refine triple_only fun hq => ?_
      rw [networkSendReceive, if_pos (Or.inr hq)]
      refine (reads_pure _ _).bind (triple_pure ?_)
      rw [only_mul_of rfl]
      refine le_trans (le_of_eq ?_) ((globalsAt_intro hdown _).trans (le_held_zero_mul _))
      rw [hq, backupAt, only_of rfl, mul_one]
    | some fd =>
      obtain ⟨⟨answer, peers₁⟩, hnet, hdone⟩ := bind_eq_ok h
      obtain ⟨⟨answer', sock'⟩, hsend, hnet⟩ := bind_eq_ok hnet
      cases hnet
      rw [backupAt, mul_comm (tabelaAt _ _ _), mul_assoc]
      refine triple_returned fun s hs => ?_
      have hcall := networkSendReceive_triple s p fd hsend hleft
      rw [← hs] at hcall
      refine hcall.step (tabelaAt t n tabela) (by ac_rfl) fun r => ?_
      obtain ⟨r, world⟩ := r
      rw [mul_assoc]
      refine triple_only fun hr => ?_
      have hback : cell s (.server (some fd)) ≤ backupAt globals.currentBackup (some fd) := by
        rw [hs]
        exact le_returned (fun p => cell p (ServerCell.server (some fd))) s
      refine Triple.weaken (P := held left * (tabelaAt t n tabela *
        backupAt globals.currentBackup (some fd) * messageAt p msg)) ?_ ?_
      · obtain ⟨hsome, hworld⟩ := hr
        cases answer with
        | none =>
          cases hdone
          obtain rfl : r = none := by simpa using hsome
          refine triple_pure ?_
          rw [only_mul_of hworld]
          exact mul_le_mul' le_rfl (globalsAt_intro hdown _)
        | some answer =>
          cases hdone
          obtain ⟨r', rfl⟩ := Option.isSome_iff_exists.mp hsome
          refine triple_pure ?_
          rw [only_mul_of hworld]
          exact mul_le_mul' le_rfl (globalsAt_intro hshows _)
      · refine le_trans (le_of_eq ?_) (mul_le_mul' le_rfl (mul_le_mul_left
          (mul_le_mul' le_rfl hback) _))
        ac_rfl
  · rw [if_neg hforwards] at h hleft
    rw [if_neg (mt (hshows.forwards_iff _).mp hforwards)]
    cases h
    cases hleft
    refine triple_pure ?_
    rw [only_mul_of rfl]
    exact (globalsAt_intro hshows _).trans (le_held_zero_mul _)

/-! ### One call -/

/-- Where the blocks of a request are counted, it is one for the table. -/
lemma handleRequest_triple {invoked forwarded : ℕ} (t p : ℕ) (n : ℤ) (globals : Globals)
    (h : RemoteTable.handleRequest peersNet server peers msg = .ok (reply, server', peers'))
    (hinvoked : invokeLeaked server.tabela msg = .ok invoked)
    (hforwarded : forwardLeaked server peers msg = .ok forwarded) :
    Triple (globalsAt t n server globals * messageAt p msg)
      (handleRequest globals peers (some p)) fun r => only (r.2.2 = peers') *
        (held (invoked + forwarded) * (globalsAt t n server' r.2.1 *
          (messageAt p msg * returned (fun q => replyAt q reply) r.1))) := by
  obtain ⟨hstatus, hup⟩ := ne_of_mem_tableOpcodes (mem_tableOpcodes_of_leaked hinvoked)
  obtain ⟨⟨reply₁, tabela₁⟩, hinvoke, h⟩ := bind_eq_ok h
  simp only [RemoteTable.answerStatus, RemoteTable.answerUp, if_neg hstatus, if_neg hup,
    pure_eq_ok, ok_bind] at h
  obtain ⟨⟨server₁, peers₁⟩, hforward, h⟩ := bind_eq_ok h
  cases h
  refine triple_globals fun hshows => ?_
  rw [handleRequest, hshows.tabela]
  refine (invoke_triple hinvoke hinvoked t p n).step
    (backupAt globals.currentBackup server.currentBackup) (by ac_rfl) fun r => ?_
  rw [mul_assoc]
  refine triple_returned ?_
  rintro q rfl
  have hshows₁ : globals.Shows t { server with tabela := tabela₁ } :=
    ⟨hshows.tabela, hshows.status, hshows.state⟩
  have hglobals : replyAt q reply * (held invoked * (tabelaAt t n tabela₁ * messageAt p msg) *
      backupAt globals.currentBackup server.currentBackup) ≤
      held invoked * (globalsAt t n { server with tabela := tabela₁ } globals *
        (messageAt p msg * replyAt q reply)) := by
    refine le_trans (le_of_eq ?_) (mul_le_mul' le_rfl (globalsAt_intro hshows₁ _))
    ac_rfl
  refine Triple.weaken ?_ hglobals
  refine (opcodeOf_message p msg).step (held invoked * (globalsAt t n
    { server with tabela := tabela₁ } globals * replyAt q reply)) (by ac_rfl) ?_
  rw [answerStatus, if_neg hstatus]
  refine (reads_pure _ ()).bind ?_
  rw [answerUp, if_neg hup]
  refine (reads_pure _ (globals, peers)).bind ?_
  refine (forwardWrite_triple p hforward hforwarded).step (held invoked * replyAt q reply)
    (by ac_rfl) fun r => ?_
  obtain ⟨globals₁, world⟩ := r
  rw [mul_assoc]
  refine triple_only fun hworld => triple_pure ?_
  rw [only_mul_of hworld]
  refine le_trans (le_of_eq ?_) (mul_le_mul' (held_mul_le invoked forwarded)
    (mul_le_mul' (le_refl (globalsAt t n server₁ globals₁)) (mul_le_mul'
      (le_refl (messageAt p msg)) (le_returned (fun q => replyAt q reply) q))))
  ac_rfl

/-- `network_receive_send` over its blocks does what it does over bytes, and leaves as many of
them as were counted. -/
theorem networkReceiveSend_triple {result : ℤ} (t : ℕ) (n : ℤ) (globals : Globals)
    (h : RemoteTable.networkReceiveSend peersNet server peers sock =
      .ok (result, server', peers', sock'))
    (hleft : callLeaked server peers sock = .ok left) :
    Triple (globalsAt t n server globals) (networkReceiveSend globals peers sock) fun r =>
      only (r.1 = result ∧ r.2.2 = (peers', sock')) *
        (held left * globalsAt t n server' r.2.1) := by
  obtain ⟨⟨request, sock₁⟩, hrequest, h⟩ := bind_eq_ok h
  rw [callLeaked, hrequest, ok_bind] at hleft
  refine (receiveRequest_triple hrequest).step (globalsAt t n server globals)
    (one_mul _).symm fun r => ?_
  obtain ⟨r, sock₂⟩ := r
  rw [mul_assoc]
  apply triple_only
  rintro rfl
  cases request with
  | none =>
    cases h
    cases hleft
    rw [decodedAt, mul_assoc]
    apply triple_only
    rintro rfl
    refine triple_pure ?_
    rw [only_mul_of ⟨rfl, rfl⟩]
    exact le_rfl
  | some msg =>
    obtain ⟨⟨reply, server₁, peers₁⟩, hhandle, h⟩ := bind_eq_ok h
    obtain ⟨⟨result₁, sock₃⟩, hsend, h⟩ := bind_eq_ok h
    cases h
    obtain ⟨invoked, hinvoked, hleft⟩ := bind_eq_ok hleft
    obtain ⟨forwarded, hforwarded, hleft⟩ := bind_eq_ok hleft
    cases hleft
    rw [decodedAt, mul_assoc]
    apply triple_returned
    rintro p rfl
    refine (handleRequest_triple t p n globals hhandle hinvoked hforwarded).step
      (held 1) (by ac_rfl) fun r => ?_
    obtain ⟨r, globals₁, world⟩ := r
    rw [mul_assoc]
    apply triple_only
    rintro rfl
    refine Triple.weaken (P := returned (fun q => replyAt q reply) r * (messageAt p msg *
      (held 1 * held (invoked + forwarded) * globalsAt t n server' globals₁))) ?_
      (le_of_eq (by ac_rfl))
    apply triple_returned
    rintro q rfl
    refine (sendReply_triple p q hsend).step (held 1 * held (invoked + forwarded) *
      globalsAt t n server' globals₁) (by ac_rfl) fun r => ?_
    rw [mul_assoc]
    apply triple_only
    rintro rfl
    refine triple_pure ?_
    rw [only_mul_of ⟨rfl, rfl⟩]
    have hheld : (held 1 * held 1 * held (invoked + forwarded) : Assertion ServerCell) ≤
        held (2 + (invoked + forwarded)) :=
      (mul_le_mul_left (held_mul_le 1 1) _).trans (held_mul_le 2 _)
    refine le_trans (le_of_eq ?_) (mul_le_mul_left hheld (globalsAt t n server' globals₁))
    ac_rfl

end

end RemoteTable.Pointers
