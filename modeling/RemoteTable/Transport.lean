import RemoteTable.Skeleton
import RemoteTable.Library.Chunks

/-!
# Reads and writes on a connection

`network_client.c` and the input and output halves of `network_receive_send`. The kernel
cuts every transfer into chunks of its own choice, and both loops return the size of the
last one.
-/

namespace RemoteTable
open Bytes

/-- A connected socket as its process sees it. -/
structure Socket where
  /-- Bytes on their way to this process. -/
  input : List UInt8
  /-- How many bytes it has read, and after which of them the kernel ends a read. -/
  readPos : ℕ
  readCut : ℕ → Bool
  /-- What follows the last byte: a failure, or the end of the stream. -/
  readFails : Bool
  /-- The bytes it has written, and after which of them the kernel ends a write. -/
  output : List UInt8
  writeCut : ℕ → Bool
  /-- After how many bytes a write fails. -/
  writeFails : ℕ → Bool

/-- `read(sock_fd, buffer, length)` -/
def Socket.read (sock : Socket) (length : ℕ) : ℤ × List UInt8 × Socket :=
  if sock.input = [] then (if sock.readFails then -1 else 0, [], sock)
  else
    let n := Chunks.next sock.readCut sock.readPos (min length sock.input.length)
    (n, sock.input.take n, { sock with input := sock.input.drop n, readPos := sock.readPos + n })

/-- `write(sock_fd, buffer, length)` -/
def Socket.write (sock : Socket) (buffer : List UInt8) (length : ℕ) : ℤ × Socket :=
  if sock.writeFails sock.output.length then (-1, sock)
  else
    let n := Chunks.next sock.writeCut sock.output.length length
    (n, { sock with output := sock.output ++ buffer.take n })

/-- `close(sock_fd)` -/
def Socket.close (sock : Socket) : Socket :=
  { sock with input := [], readFails := true, writeFails := fun _ => true }

/-- The loop of `read_all`; every turn reads at least one byte, so `length` turns suffice.
`none` is a `nbytes_read` that was never assigned. -/
def readAllLoop : ℕ → Socket → ℕ → Option ℤ → List UInt8 → Option ℤ × List UInt8 × Socket
  | 0, sock, _, nbytesRead, buffer => (nbytesRead, buffer, sock)
  | fuel + 1, sock, length, nbytesRead, buffer =>
    if length = 0 then (nbytesRead, buffer, sock)
    else
      let (n, chunk, sock) := sock.read length
      if n < 0 then (some (-1), buffer, sock)
      else if n = 0 then (some 0, buffer, sock)
      else readAllLoop fuel sock (length - n.toNat) (some n) (buffer ++ chunk)

/-- The returned value, the bytes stored and the socket. -/
def readAll (sock : Socket) (length : ℤ) : Option ℤ × List UInt8 × Socket :=
  readAllLoop length.toNat sock length.toNat none []

def writeAllLoop : ℕ → Socket → List UInt8 → ℕ → ℤ → ℤ × Socket
  | 0, sock, _, _, nbytesWrite => (nbytesWrite, sock)
  | fuel + 1, sock, buffer, lenght, nbytesWrite =>
    if lenght = 0 then (nbytesWrite, sock)
    else
      let (n, sock) := sock.write buffer lenght
      if n < 0 then (-1, sock)
      else writeAllLoop fuel sock (buffer.drop n.toNat) (lenght - n.toNat) n

def writeAll (sock : Socket) (buffer : List UInt8) (lenght : ℤ) : ℤ × Socket :=
  writeAllLoop lenght.toNat sock buffer lenght.toNat lenght

/-! ### The client half -/

/-- `network_send_receive` up to the body of the request; `false` where it returns `NULL`. -/
def sendMessage (sock : Socket) (msg : MessageT) : Except Fault (Bool × Socket) := do
  let (messageOut, messageSize) ← messageToBuffer (some msg)
  if messageSize ≤ 0 then
    return (false, sock)
  let (result, sock) := writeAll sock (putInt messageSize.toNat) 4
  if result ≠ 4 then
    return (false, sock.close)
  let (result, sock) := writeAll sock messageOut messageSize
  if result = -1 then
    return (false, sock)
  return (true, sock)

/-- The body of the reply. The result of `read_all` is not looked at: a block that was filled
in part is decoded all the same, and a field behind the bytes that came is a fault. -/
def receiveBody (sock : Socket) (msgReturned : ℤ) : Except Fault (Option MessageT × Socket) := do
  let (_, messageIn, sock) := readAll sock msgReturned
  let msgResposta ← bufferToMessage messageIn msgReturned
  return (msgResposta, sock)

/-- The rest of `network_send_receive`. -/
def receiveMessage (sock : Socket) : Except Fault (Option MessageT × Socket) :=
  let (result, sizeReturnedMsg, sock) := readAll sock 4
  if result ≠ some 4 then .ok (none, sock.close)
  else receiveBody sock (toInt (ntohl (leValue sizeReturnedMsg)))

def networkSendReceive (sock : Socket) (msg : MessageT) :
    Except Fault (Option MessageT × Socket) := do
  let (sent, sock) ← sendMessage sock msg
  if sent then receiveMessage sock else return (none, sock)

/-! ### The server half -/

/-- The body of the request; `none` where `network_receive_send` returns -1. -/
def receiveRequestBody (sock : Socket) (messageSize : ℤ) :
    Except Fault (Option MessageT × Socket) := do
  -- `malloc` of a negative size
  if messageSize < 0 then
    return (none, sock)
  let (result, messagePedido, sock) := readAll sock messageSize
  match result with
  | none => throw .uninitialised
  | some result =>
    if result ≠ messageSize then
      return (none, sock)
    let msgPedido ← bufferToMessage messagePedido messageSize
    return (msgPedido, sock)

/-- `network_receive_send` up to the decoded request. -/
def receiveRequest (sock : Socket) : Except Fault (Option MessageT × Socket) :=
  let (result, msgSize, sock) := readAll sock 4
  if result = some 0 then .ok (none, sock)
  -- a failed read passes this test with `msg_size` unset
  else if msgSize.length < 4 then .error .uninitialised
  else receiveRequestBody sock (toInt (ntohl (leValue msgSize)))

/-- `network_receive_send` from the encoding of the reply on, with its result. -/
def sendReply (sock : Socket) (msgResposta : Reply) : Except Fault (ℤ × Socket) :=
  match msgResposta with
  | .unset => .error .uninitialised
  | .message msg => do
    let (messageResposta, messageSize) ← messageToBuffer (some msg)
    if messageSize < 0 then
      return (-1, sock)
    let (result, sock) := writeAll sock (putInt messageSize.toNat) 4
    if result < 0 then
      return (-1, sock)
    let (result, sock) := writeAll sock messageResposta messageSize
    if result < 0 then
      return (-1, sock)
    return (1, sock)

/-! ### What the loops return -/

/-- The socket after `n` more bytes were read. -/
def Socket.skip (sock : Socket) (n : ℕ) : Socket :=
  { sock with input := sock.input.drop n, readPos := sock.readPos + n }

/-- The socket after `bytes` were written. -/
def Socket.append (sock : Socket) (bytes : List UInt8) : Socket :=
  { sock with output := sock.output ++ bytes }

/-- No chunk ends inside the next `n` bytes to be read. -/
def Socket.ReadsWhole (sock : Socket) (n : ℕ) : Prop := Chunks.Whole sock.readCut sock.readPos n

/-- No chunk ends inside the next `n` bytes to be written. -/
def Socket.WritesWhole (sock : Socket) (n : ℕ) : Prop :=
  Chunks.Whole sock.writeCut sock.output.length n

/-- No write inside the next `n` bytes fails. -/
def Socket.Accepts (sock : Socket) (n : ℕ) : Prop :=
  Chunks.Accepted sock.writeCut sock.writeFails sock.output.length n

/-- No write fails. -/
def Socket.Writable (sock : Socket) : Prop := ∀ p, sock.writeFails p = false

lemma Socket.Writable.accepts {sock : Socket} (h : sock.Writable) (n : ℕ) : sock.Accepts n :=
  Chunks.accepted_of_all h sock.writeCut sock.output.length n

lemma read_of_le {sock : Socket} {length : ℕ} (hpos : 0 < length)
    (h : length ≤ sock.input.length) :
    sock.read length =
      (((Chunks.next sock.readCut sock.readPos length : ℕ) : ℤ),
        sock.input.take (Chunks.next sock.readCut sock.readPos length),
        sock.skip (Chunks.next sock.readCut sock.readPos length)) := by
  have hne : sock.input ≠ [] := by
    intro hnil
    rw [hnil, List.length_nil] at h
    omega
  rw [Socket.read, if_neg hne, Nat.min_eq_left h]
  rfl

/-- `read_all` with enough input: the value it returns is the last chunk, so it is the length
exactly when there was one chunk. -/
theorem readAllLoop_of_le (fuel : ℕ) (sock : Socket) (length : ℕ) (nbytesRead : Option ℤ)
    (buffer : List UInt8) (hfuel : length ≤ fuel) (hpos : 0 < length)
    (h : length ≤ sock.input.length) :
    ∃ k : ℕ, readAllLoop fuel sock length nbytesRead buffer =
        (some (k : ℤ), buffer ++ sock.input.take length, sock.skip length) ∧
      0 < k ∧ k ≤ length ∧ (k = length ↔ sock.ReadsWhole length) := by
  induction fuel generalizing sock length nbytesRead buffer with
  | zero => omega
  | succ fuel ih =>
    have hchunk := Chunks.next_pos sock.readCut sock.readPos hpos
    have hle := Chunks.next_le sock.readCut sock.readPos length
    have hwhole : Chunks.next sock.readCut sock.readPos length = length ↔
        sock.ReadsWhole length := Chunks.next_eq_iff hpos
    rw [readAllLoop, if_neg (by omega)]
    simp only [read_of_le hpos h]
    generalize Chunks.next sock.readCut sock.readPos length = n at hchunk hle hwhole
    rw [if_neg (by omega), if_neg (by omega), Int.toNat_natCast]
    by_cases hall : n = length
    · refine ⟨n, ?_, hchunk, hle, hwhole⟩
      rw [hall, Nat.sub_self]
      cases fuel <;> simp [readAllLoop]
    · have hlen : (sock.skip n).input.length = sock.input.length - n := List.length_drop
      obtain ⟨k, hk, hkpos, hkle, -⟩ := ih (sock.skip n) (length - n) (some n)
        (buffer ++ sock.input.take n) (by omega) (by omega) (by omega)
      refine ⟨k, ?_, hkpos, by omega, ?_⟩
      · rw [hk, List.append_assoc]
        have hsplit : n + (length - n) = length := by omega
        simp only [Socket.skip, ← List.take_add, List.drop_drop, Nat.add_assoc, hsplit]
      · exact iff_of_false (by omega) (fun hw => hall (hwhole.mpr hw))

lemma write_of_not_fails {sock : Socket} (hw : sock.writeFails sock.output.length = false)
    (buffer : List UInt8) (length : ℕ) :
    sock.write buffer length =
      (((Chunks.next sock.writeCut sock.output.length length : ℕ) : ℤ),
        sock.append (buffer.take (Chunks.next sock.writeCut sock.output.length length))) := by
  rw [Socket.write, if_neg (by simp [hw])]
  rfl

lemma write_of_fails {sock : Socket} (hw : sock.writeFails sock.output.length = true)
    (buffer : List UInt8) (length : ℕ) : sock.write buffer length = (-1, sock) := by
  rw [Socket.write, if_pos hw]

lemma accepts_append {sock : Socket} {buffer : List UInt8} {n : ℕ} (h : n ≤ buffer.length)
    (hn : n = Chunks.next sock.writeCut sock.output.length buffer.length)
    (hw : sock.writeFails sock.output.length = false) :
    sock.Accepts buffer.length ↔ (sock.append (buffer.take n)).Accepts (buffer.length - n) := by
  have hlen : (sock.append (buffer.take n)).output.length = sock.output.length + n := by
    rw [Socket.append, List.length_append, List.length_take_of_le h]
  rw [Socket.Accepts, Socket.Accepts, hlen, Chunks.accepted_iff_next hw, ← hn]
  rfl

/-- `write_all` on a socket that takes every chunk: the value it returns is the last one. -/
theorem writeAllLoop_of_accepts (fuel : ℕ) (sock : Socket) (buffer : List UInt8)
    (nbytesWrite : ℤ) (hw : sock.Accepts buffer.length) (hfuel : buffer.length ≤ fuel)
    (hpos : 0 < buffer.length) :
    ∃ k : ℕ, writeAllLoop fuel sock buffer buffer.length nbytesWrite =
        ((k : ℤ), sock.append buffer) ∧
      0 < k ∧ k ≤ buffer.length ∧ (k = buffer.length ↔ sock.WritesWhole buffer.length) := by
  induction fuel generalizing sock buffer nbytesWrite with
  | zero => omega
  | succ fuel ih =>
    have hfirst : sock.writeFails sock.output.length = false :=
      Chunks.not_refused_of_accepted hpos hw
    have hchunk := Chunks.next_pos sock.writeCut sock.output.length hpos
    have hle := Chunks.next_le sock.writeCut sock.output.length buffer.length
    have hwhole : Chunks.next sock.writeCut sock.output.length buffer.length = buffer.length ↔
        sock.WritesWhole buffer.length := Chunks.next_eq_iff hpos
    have haccepts := (accepts_append hle rfl hfirst).mp hw
    rw [writeAllLoop, if_neg (by omega)]
    simp only [write_of_not_fails hfirst]
    generalize Chunks.next sock.writeCut sock.output.length buffer.length = n
      at hchunk hle hwhole haccepts
    rw [if_neg (by omega), Int.toNat_natCast]
    by_cases hall : n = buffer.length
    · refine ⟨n, ?_, hchunk, hle, hwhole⟩
      rw [hall, Nat.sub_self, List.take_length]
      cases fuel <;> simp [writeAllLoop]
    · have hlen : (buffer.drop n).length = buffer.length - n := List.length_drop
      rw [← hlen] at haccepts
      obtain ⟨k, hk, hkpos, hkle, -⟩ := ih (sock.append (buffer.take n)) (buffer.drop n) n
        haccepts (by omega) (by omega)
      refine ⟨k, ?_, hkpos, by omega, ?_⟩
      · rw [← hlen, hk]
        simp [Socket.append]
      · exact iff_of_false (by omega) (fun hwh => hall (hwhole.mpr hwh))

/-- A write that fails leaves a part of the buffer on the connection. -/
theorem writeAllLoop_of_not_accepts (fuel : ℕ) (sock : Socket) (buffer : List UInt8)
    (nbytesWrite : ℤ) (hw : ¬sock.Accepts buffer.length) (hfuel : buffer.length ≤ fuel) :
    ∃ k < buffer.length, writeAllLoop fuel sock buffer buffer.length nbytesWrite =
      (-1, sock.append (buffer.take k)) := by
  induction fuel generalizing sock buffer nbytesWrite with
  | zero =>
    have hnil : buffer.length = 0 := by omega
    rw [hnil] at hw
    exact absurd (fun k hk => absurd hk (Nat.not_lt_zero k)) hw
  | succ fuel ih =>
    have hpos : 0 < buffer.length := by
      by_contra hnil
      exact hw (fun k hk => absurd hk (by omega))
    rw [writeAllLoop, if_neg (by omega)]
    cases hfirst : sock.writeFails sock.output.length with
    | true =>
      have hneg : (-1 : ℤ) < 0 := by decide
      refine ⟨0, hpos, ?_⟩
      simp only [write_of_fails hfirst, if_pos hneg]
      simp [Socket.append]
    | false =>
      have hchunk := Chunks.next_pos sock.writeCut sock.output.length hpos
      have hle := Chunks.next_le sock.writeCut sock.output.length buffer.length
      have hrest := fun h => hw ((accepts_append hle rfl hfirst).mpr h)
      simp only [write_of_not_fails hfirst]
      generalize Chunks.next sock.writeCut sock.output.length buffer.length = n
        at hchunk hle hrest
      have hlen : (buffer.drop n).length = buffer.length - n := List.length_drop
      rw [← hlen] at hrest
      obtain ⟨k, hk, hloop⟩ := ih (sock.append (buffer.take n)) (buffer.drop n) n hrest (by omega)
      refine ⟨n + k, by omega, ?_⟩
      rw [if_neg (by omega), Int.toNat_natCast, ← hlen, hloop]
      simp only [Socket.append, List.append_assoc, List.take_add]

/-- `read_all` returns its length exactly when all bytes came in one chunk. -/
theorem readAll_of_le {sock : Socket} {length : ℕ} (hpos : 0 < length)
    (h : length ≤ sock.input.length) :
    ∃ k : ℕ, readAll sock length = (some (k : ℤ), sock.input.take length, sock.skip length) ∧
      0 < k ∧ k ≤ length ∧ (k = length ↔ sock.ReadsWhole length) := by
  have hspec := readAllLoop_of_le length sock length none [] (le_refl length) hpos h
  rwa [List.nil_append] at hspec

theorem writeAll_of_accepts {sock : Socket} {buffer : List UInt8}
    (hw : sock.Accepts buffer.length) (hpos : 0 < buffer.length) :
    ∃ k : ℕ, writeAll sock buffer buffer.length = ((k : ℤ), sock.append buffer) ∧
      0 < k ∧ k ≤ buffer.length ∧ (k = buffer.length ↔ sock.WritesWhole buffer.length) :=
  writeAllLoop_of_accepts buffer.length sock buffer buffer.length hw (le_refl _) hpos

theorem writeAll_of_not_accepts {sock : Socket} {buffer : List UInt8}
    (hw : ¬sock.Accepts buffer.length) :
    ∃ k < buffer.length, writeAll sock buffer buffer.length =
      (-1, sock.append (buffer.take k)) :=
  writeAllLoop_of_not_accepts buffer.length sock buffer buffer.length hw (le_refl _)

end RemoteTable
