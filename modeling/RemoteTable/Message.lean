import RemoteTable.HashTable
import RemoteTable.Library.Bytes

/-!
# The messages of `message.c`

A message holds the content that its `c_type` makes live. The encoder sizes its buffer in
a first pass and fills it in a second one; the decoder moves a pointer through the bytes
that follow `msg_buf`, and a read past the last of them is a fault.
-/

namespace RemoteTable
open Bytes

def ocSize : Int16 := 10
def ocDel : Int16 := 20
def ocUpdate : Int16 := 30
def ocGet : Int16 := 40
def ocPut : Int16 := 50
def ocRtError : Int16 := 99
def ocUp : Int16 := 100
def ocDown : Int16 := 101
def ocStatus : Int16 := 102

def ctResult : Int16 := 10
def ctValue : Int16 := 20
def ctKey : Int16 := 30
def ctKeys : Int16 := 40
def ctEntry : Int16 := 50

/-- `union content_u`, with the member that is live. -/
inductive Content
  | result (result : Int32)
  | data (data : DataT)
  | key (key : CString)
  | keys (keys : List CString)
  | entry (entry : EntryT)
  deriving DecidableEq

def Content.cType : Content → Int16
  | .result _ => ctResult
  | .data _ => ctValue
  | .key _ => ctKey
  | .keys _ => ctKeys
  | .entry _ => ctEntry

/-- `struct message_t` -/
structure MessageT where
  opcode : Int16
  content : Content
  deriving DecidableEq

def MessageT.cType (msg : MessageT) : Int16 := msg.content.cType

/-! ### Serialisation -/

def htons (v : ℕ) : ℕ := byteSwap 2 v
def ntohs (v : ℕ) : ℕ := byteSwap 2 v
def htonl (v : ℕ) : ℕ := byteSwap 4 v
def ntohl (v : ℕ) : ℕ := byteSwap 4 v

/-- `memcpy(ptr, &short_value, _SHORT)` after `short_value = htons(v)` -/
def putShort (v : ℕ) : List UInt8 := leBytes 2 (htons v)

/-- `memcpy(ptr, &long_value, _INT)` after `long_value = htonl(v)` -/
def putInt (v : ℕ) : List UInt8 := leBytes 4 (htonl v)

/-- The size that the first pass adds up before it is an `int`. -/
def contentSize : Content → ℕ
  | .result _ => 2 * 2 + 4
  | .data d => 2 * 2 + 4 + d.datasize
  | .keys ks => (ks.map strlen).sum + (2 * 2 + 2 * ks.length + 4)
  | .key k => 2 * 3 + strlen k
  | .entry e => 2 * 3 + strlen e.key + 4 + e.value.datasize

/-- What the second pass writes for one string of a key array. -/
def putKey (key : CString) : List UInt8 := putShort (strlen key) ++ key.bytes

def putContent : Content → List UInt8
  | .entry e => putKey e.key ++ (putInt e.value.datasize ++ e.value.bytes)
  | .key k => putKey k
  | .keys ks => putInt ks.length ++ ks.flatMap putKey
  | .data d => putInt d.datasize ++ d.bytes
  | .result r => putInt r.toUInt32.toNat

/-- The bytes of the buffer and the returned size. A size that does not fit an `int` makes
the allocation too small for the second pass. -/
def messageToBuffer : Option MessageT → Except Fault (List UInt8 × ℤ)
  | none => .ok ([], -1)
  | some msg =>
    let bufferSize := toInt (contentSize msg.content)
    let msgBuf := putShort msg.opcode.toUInt16.toNat ++
      (putShort msg.cType.toUInt16.toNat ++ putContent msg.content)
    if (msgBuf.length : ℤ) ≤ bufferSize then .ok (msgBuf, bufferSize)
    else .error .outOfBounds

/-! ### Deserialisation -/

/-- `memcpy(dst, msg_buf, n)` followed by `msg_buf += n` -/
def memcpyFrom (n : ℕ) (msgBuf : List UInt8) : Except Fault (List UInt8 × List UInt8) :=
  if n ≤ msgBuf.length then .ok (msgBuf.take n, msgBuf.drop n) else .error .outOfBounds

def getShort (msgBuf : List UInt8) : Except Fault (ℕ × List UInt8) := do
  let (shortAux, msgBuf) ← memcpyFrom 2 msgBuf
  return (ntohs (leValue shortAux), msgBuf)

def getInt (msgBuf : List UInt8) : Except Fault (ℕ × List UInt8) := do
  let (intAux, msgBuf) ← memcpyFrom 4 msgBuf
  return (ntohl (leValue intAux), msgBuf)

/-- KEYSIZE and KEY. The terminator goes after the last byte copied, so a NUL among them
ends the string there. -/
def getKey (msgBuf : List UInt8) : Except Fault (CString × List UInt8) := do
  let (keySize, msgBuf) ← getShort msgBuf
  let (key, msgBuf) ← memcpyFrom keySize msgBuf
  return (CString.ofBytes key, msgBuf)

/-- DATA of a size that `data_create` accepts. -/
def getData (dataSize : ℤ) (msgBuf : List UInt8) : Except Fault (DataT × List UInt8) :=
  if h : (0 < dataSize ∧ dataSize < 2 ^ 31) ∧ dataSize.toNat ≤ msgBuf.length then
    .ok (⟨msgBuf.take dataSize.toNat, by rw [List.length_take]; omega,
      by rw [List.length_take]; omega⟩, msgBuf.drop dataSize.toNat)
  else .error .outOfBounds

def getKeys : ℕ → List UInt8 → Except Fault (List CString × List UInt8)
  | 0, msgBuf => .ok ([], msgBuf)
  | n + 1, msgBuf => do
    let (key, msgBuf) ← getKey msgBuf
    let (keys, msgBuf) ← getKeys n msgBuf
    return (key :: keys, msgBuf)

/-- `valid` assigns its parameter instead of comparing it: `opcode = OC_STATUS || ..`
stores the truth value of the whole disjunction, whose first operand is not zero. -/
def valid (opcode cType : Int16) : ℤ :=
  if (ocStatus ≠ 0 ∨ opcode = ocUp ∨ opcode = ocDown ∨ opcode = ocDel ∨ opcode = ocSize ∨
      opcode = ocPut ∨ opcode = ocUpdate ∨ opcode = ocGet ∨ opcode = ocRtError ∨
      opcode = ocDel + 1 ∨ opcode = ocSize + 1 ∨ opcode = ocPut + 1 ∨ opcode = ocUpdate + 1 ∨
      opcode = ocGet + 1 ∨ opcode = ocDel + 1) ∧
    (cType = ctEntry ∨ cType = ctKey ∨ cType = ctKeys ∨ cType = ctResult ∨ cType = ctValue)
  then 0 else -1

/-- The content that follows a header with this `c_type`; `none` is a `NULL` message. -/
def getContent (cType : Int16) (msgBuf : List UInt8) : Except Fault (Option Content) := do
  if cType = ctResult then
    let (result, _) ← getInt msgBuf
    return some (.result (Int32.ofNat result))
  else if cType = ctKey then
    let (key, _) ← getKey msgBuf
    return some (.key key)
  else if cType = ctValue then
    let (n, msgBuf) ← getInt msgBuf
    if toInt n ≤ 0 then
      return none
    let (data, _) ← getData (toInt n) msgBuf
    return some (.data data)
  else if cType = ctEntry then
    let (key, msgBuf) ← getKey msgBuf
    let (n, msgBuf) ← getInt msgBuf
    -- `data_create` refused: `free_message` destroys the entry that was never assigned
    if toInt n ≤ 0 then
      throw .uninitialised
    let (data, _) ← getData (toInt n) msgBuf
    return some (.entry ⟨key, data⟩)
  else if cType = ctKeys then
    let (n, msgBuf) ← getInt msgBuf
    -- the closing `keys[0] = NULL` lands outside `malloc((nkeys + 1) * sizeof(char *))`
    if toInt n < 0 then
      throw .outOfBounds
    let (keys, _) ← getKeys (toInt n).toNat msgBuf
    return some (.keys keys)
  else return none

def bufferToMessage (msgBuf : List UInt8) (msgSize : ℤ) : Except Fault (Option MessageT) := do
  if msgSize < 0 then
    return none
  let (opcode, msgBuf) ← getShort msgBuf
  let (cType, msgBuf) ← getShort msgBuf
  if valid (Int16.ofNat opcode) (Int16.ofNat cType) ≠ 0 then
    return none
  match ← getContent (Int16.ofNat cType) msgBuf with
  | none => return none
  | some content => return some ⟨Int16.ofNat opcode, content⟩

def buildErrorMsg : MessageT := ⟨ocRtError, .result (-1)⟩

def buildStatusMsg : MessageT := ⟨ocStatus, .result (-100)⟩

def buildIpMsg (ipPort : CString) : MessageT := ⟨ocUp, .key ipPort⟩

end RemoteTable
