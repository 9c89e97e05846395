import RemoteTable.StateTransfer

/-!
# The client stub

`client_stub.c`: a remote table has two servers, and a request that is not answered goes to
the other one. What the operations print is left out, and no argument of theirs is `NULL`.
-/

namespace RemoteTable

/-- What a client process can do. `network_send_receive` is also called with the `NULL` that a
failed connect leaves. -/
structure ClientNet (σ δ : Type) where
  networkConnect : σ → CString → Option δ × σ
  networkSendReceive : σ → Option δ → MessageT → Except Fault (Option MessageT × σ)

variable {σ δ : Type}

/-- The calls of a client are those of a server, which return `NULL` for a `NULL` server. -/
def Net.client (net : Net σ δ) : ClientNet σ δ where
  networkConnect := net.networkConnect
  networkSendReceive world
    | none, _ => .ok (none, world)
    | some server, msg => net.networkSendReceive world server msg

def serverOne : ℤ := 1
def serverTwo : ℤ := 2

/-- `struct rtable_t` -/
structure RtableT (δ : Type) where
  serverOne : Option δ
  serverTwo : Option δ
  ipPortServerOne : CString
  ipPortServerTwo : CString
  currentServer : ℤ

def currentServer (rtable : RtableT δ) : Option δ :=
  if rtable.currentServer = serverOne then rtable.serverOne else rtable.serverTwo

/-- The new connection replaces the pointer of the other server; the old one stays open. -/
def switchServer (net : ClientNet σ δ) (world : σ) (rtable : RtableT δ) : RtableT δ × σ :=
  if rtable.currentServer = serverOne then
    let (server, world) := net.networkConnect world rtable.ipPortServerTwo
    ({ rtable with currentServer := serverTwo, serverTwo := server }, world)
  else
    let (server, world) := net.networkConnect world rtable.ipPortServerOne
    ({ rtable with currentServer := serverOne, serverOne := server }, world)

/-- Up to four attempts, each at the other server than the one before. -/
def retryServers (net : ClientNet σ δ) (world : σ) (rtable : RtableT δ) (msgOut : MessageT) :
    Except Fault (Option MessageT × RtableT δ × σ) := do
  match ← net.networkSendReceive world (currentServer rtable) msgOut with
  | (some msgResposta, world) => return (some msgResposta, rtable, world)
  | (none, world) =>
    let (rtable, world) := switchServer net world rtable
    match ← net.networkSendReceive world (currentServer rtable) msgOut with
    | (some msgResposta, world) => return (some msgResposta, rtable, world)
    | (none, world) =>
      let (rtable, world) := switchServer net world rtable
      match ← net.networkSendReceive world (currentServer rtable) msgOut with
      | (some msgResposta, world) => return (some msgResposta, rtable, world)
      | (none, world) =>
        let (rtable, world) := switchServer net world rtable
        let (msgResposta, world) ← net.networkSendReceive world (currentServer rtable) msgOut
        return (msgResposta, rtable, world)

/-- `content.result`, where it is the live member. -/
def Content.liveResult : Content → Except Fault Int32
  | .result r => .ok r
  | _ => .error .deadMember

/-- An error reply makes `rtable_put` send the request to the first server once more. -/
def resend (net : ClientNet σ δ) (world : σ) (rtable : RtableT δ)
    (msgOut msgResposta : MessageT) : Except Fault (MessageT × σ) := do
  if msgResposta.opcode = ocRtError then
    match ← net.networkSendReceive world rtable.serverOne msgOut with
    -- `msg_resposta->opcode` is looked at without a test
    | (none, _) => throw .nullDeref
    | (some msgResposta, world) => return (msgResposta, world)
  else return (msgResposta, world)

def rtablePut (net : ClientNet σ δ) (world : σ) (rtable : RtableT δ) (key : CString)
    (value : DataT) : Except Fault (ℤ × RtableT δ × σ) := do
  let msgOut : MessageT := ⟨ocPut, .entry ⟨key, value⟩⟩
  match ← retryServers net world rtable msgOut with
  | (none, rtable, world) => return (-1, rtable, world)
  | (some msgResposta, rtable, world) =>
    let (msgResposta, world) ← resend net world rtable msgOut msgResposta
    -- the result is printed, unless it says that the key is there
    if msgResposta.content ≠ .result (-10) then
      let _ ← msgResposta.content.liveResult
    return (0, rtable, world)

def rtableUpdate (net : ClientNet σ δ) (world : σ) (rtable : RtableT δ) (key : CString)
    (value : DataT) : Except Fault (ℤ × RtableT δ × σ) := do
  match ← retryServers net world rtable ⟨ocUpdate, .entry ⟨key, value⟩⟩ with
  | (none, rtable, world) => return (0, rtable, world)
  | (some msgResposta, rtable, world) =>
    if msgResposta.opcode ≠ ocRtError then
      let _ ← msgResposta.content.liveResult
    return (0, rtable, world)

/-- What it returns is the block of bytes, under the type of a `struct data_t *`. -/
def rtableGet (net : ClientNet σ δ) (world : σ) (rtable : RtableT δ) (key : CString) :
    Except Fault (Option (List UInt8) × RtableT δ × σ) := do
  match ← retryServers net world rtable ⟨ocGet, .key key⟩ with
  | (none, rtable, world) => return (none, rtable, world)
  | (some msgResposta, rtable, world) =>
    if msgResposta.opcode = ocRtError then
      return (none, rtable, world)
    let temp ← msgResposta.content.dataMember
    return (some temp.bytes, rtable, world)

def rtableDel (net : ClientNet σ δ) (world : σ) (rtable : RtableT δ) (key : CString) :
    Except Fault (ℤ × RtableT δ × σ) := do
  match ← retryServers net world rtable ⟨ocDel, .key key⟩ with
  | (none, rtable, world) => return (-1, rtable, world)
  | (some msgResposta, rtable, world) =>
    if msgResposta.opcode = ocRtError then
      return (-1, rtable, world)
    let _ ← msgResposta.content.liveResult
    return (0, rtable, world)

def rtableSize (net : ClientNet σ δ) (world : σ) (rtable : RtableT δ) :
    Except Fault (ℤ × RtableT δ × σ) := do
  match ← retryServers net world rtable ⟨ocSize, .result 0⟩ with
  | (none, rtable, world) => return (-1, rtable, world)
  | (some msgResposta, rtable, world) =>
    if msgResposta.opcode = ocRtError then
      return (-1, rtable, world)
    let _ ← msgResposta.content.liveResult
    return (0, rtable, world)

/-- The result is compared with zero before the type of the reply is looked at. -/
def rtableGetKeys (net : ClientNet σ δ) (world : σ) (rtable : RtableT δ) :
    Except Fault (Option (List CString) × RtableT δ × σ) := do
  match ← retryServers net world rtable ⟨ocGet, .key bang⟩ with
  | (none, rtable, world) => return (none, rtable, world)
  | (some msgResposta, rtable, world) =>
    if (← msgResposta.content.liveResult) = 0 then
      return (none, rtable, world)
    let keys ← msgResposta.content.keysMember
    return (some keys, rtable, world)

/-! ### The attempts as a loop -/

/-- At most `retries` attempts after a first one. -/
def retryLoop (net : ClientNet σ δ) :
    ℕ → σ → RtableT δ → MessageT → Except Fault (Option MessageT × RtableT δ × σ)
  | 0, world, rtable, msgOut => do
    let (msgResposta, world) ← net.networkSendReceive world (currentServer rtable) msgOut
    return (msgResposta, rtable, world)
  | retries + 1, world, rtable, msgOut => do
    match ← net.networkSendReceive world (currentServer rtable) msgOut with
    | (some msgResposta, world) => return (some msgResposta, rtable, world)
    | (none, world) =>
      let (rtable, world) := switchServer net world rtable
      retryLoop net retries world rtable msgOut

/-- The nested tests are three turns of one loop. -/
theorem retryServers_eq (net : ClientNet σ δ) (world : σ) (rtable : RtableT δ)
    (msgOut : MessageT) :
    retryServers net world rtable msgOut = retryLoop net 3 world rtable msgOut := rfl

variable {net : ClientNet σ δ} {world world' : σ} {rtable : RtableT δ} {msgOut reply : MessageT}

lemma retryLoop_of_answer (retries : ℕ)
    (h : net.networkSendReceive world (currentServer rtable) msgOut = .ok (some reply, world')) :
    retryLoop net retries world rtable msgOut = .ok (some reply, rtable, world') := by
  cases retries with
  | zero => rw [retryLoop, h]; rfl
  | succ retries => rw [retryLoop, h]; rfl

lemma retryLoop_of_none (retries : ℕ)
    (h : net.networkSendReceive world (currentServer rtable) msgOut = .ok (none, world')) :
    retryLoop net (retries + 1) world rtable msgOut =
      retryLoop net retries (switchServer net world' rtable).2 (switchServer net world' rtable).1
        msgOut := by
  rw [retryLoop, h]
  rfl

/-- What requests to the current server and switches keep holds after the attempts. -/
lemma retryLoop_invariant (P : σ → RtableT δ → Prop)
    (hrequest : ∀ {world world' rtable answer}, P world rtable →
      net.networkSendReceive world (currentServer rtable) msgOut = .ok (answer, world') →
        P world' rtable)
    (hswitch : ∀ {world rtable}, P world rtable →
      P (switchServer net world rtable).2 (switchServer net world rtable).1)
    {retries : ℕ} {rtable' : RtableT δ} {answer : Option MessageT} (hP : P world rtable)
    (hrun : retryLoop net retries world rtable msgOut = .ok (answer, rtable', world')) :
    P world' rtable' := by
  induction retries generalizing world rtable with
  | zero =>
    obtain ⟨⟨answer', world₁⟩, hsend, hrest⟩ := bind_eq_ok hrun
    cases hrest
    exact hrequest hP hsend
  | succ retries ih =>
    obtain ⟨⟨answer', world₁⟩, hsend, hrest⟩ := bind_eq_ok hrun
    cases answer' with
    | some reply =>
      cases hrest
      exact hrequest hP hsend
    | none => exact ih (hswitch (hrequest hP hsend)) hrest

/-! ### The two addresses -/

def currentIpPort (rtable : RtableT δ) : CString :=
  if rtable.currentServer = serverOne then rtable.ipPortServerOne else rtable.ipPortServerTwo

def otherIpPort (rtable : RtableT δ) : CString :=
  if rtable.currentServer = serverOne then rtable.ipPortServerTwo else rtable.ipPortServerOne

/-- The stub connects to the other address, and the addresses change places. -/
lemma switchServer_spec (net : ClientNet σ δ) (world : σ) (rtable : RtableT δ) :
    (switchServer net world rtable).2 = (net.networkConnect world (otherIpPort rtable)).2 ∧
    currentServer (switchServer net world rtable).1 =
      (net.networkConnect world (otherIpPort rtable)).1 ∧
    currentIpPort (switchServer net world rtable).1 = otherIpPort rtable ∧
    otherIpPort (switchServer net world rtable).1 = currentIpPort rtable := by
  unfold currentIpPort otherIpPort
  have hne : ¬serverTwo = serverOne := by decide
  by_cases hone : rtable.currentServer = serverOne
  · simp only [switchServer, currentServer, if_pos hone, if_neg hne, and_self]
  · simp only [switchServer, currentServer, if_neg hone, if_true, and_self]

end RemoteTable
