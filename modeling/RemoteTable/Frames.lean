import RemoteTable.WireFormat
import RemoteTable.Server

/-!
# Frames on a connection

A frame is a length of four bytes and a body. What the two halves of the transport do with
one frame, and how it depends on the chunks.
-/

namespace RemoteTable
open Bytes

def frame (body : List UInt8) : List UInt8 := putInt body.length ++ body

/-- A body whose length is a positive `int`. -/
def FrameBody (body : List UInt8) : Prop := 0 < body.length ∧ body.length < 2 ^ 31

instance (body : List UInt8) : Decidable (FrameBody body) := inferInstanceAs (Decidable (_ ∧ _))

@[simp] lemma length_frame (body : List UInt8) : (frame body).length = 4 + body.length := by
  simp [frame]

lemma frameBody_wireFormat {msg : MessageT} (h : (wireFormat msg).length < 2 ^ 31) :
    FrameBody (wireFormat msg) := ⟨wireFormat_pos msg, h⟩

lemma toInt_ntohl_putInt {n : ℕ} (h : n < 2 ^ 31) : toInt (ntohl (leValue (putInt n))) = n := by
  rw [ntohl, putInt_eq, byteSwap_leValue (length_beBytes 4 n), beValue_beBytes,
    Nat.mod_eq_of_lt (by omega), toInt_of_lt h]

variable {sock : Socket} {body rest : List UInt8}

lemma skip_skip (sock : Socket) (m n : ℕ) : (sock.skip m).skip n = sock.skip (m + n) := by
  simp [Socket.skip, Nat.add_assoc]

lemma append_append (sock : Socket) (bs cs : List UInt8) :
    (sock.append bs).append cs = sock.append (bs ++ cs) := by
  simp [Socket.append]

/-- The length bytes of a frame, which any chunks deliver whole. -/
lemma readAll_header (h : sock.input = frame body ++ rest) :
    ∃ k : ℕ, readAll sock 4 = (some (k : ℤ), putInt body.length, sock.skip 4) ∧ 0 < k ∧
      (k = 4 ↔ sock.ReadsWhole 4) := by
  have hle : 4 ≤ sock.input.length := by
    rw [h, List.length_append, length_frame]
    omega
  obtain ⟨k, hk, hpos, -, hwhole⟩ := readAll_of_le (by omega) hle
  refine ⟨k, ?_, hpos, hwhole⟩
  have htake : sock.input.take 4 = putInt body.length := by
    rw [h, frame, List.append_assoc, List.take_left' (by simp)]
  rw [← htake]
  exact hk

lemma readAll_body (h : sock.input = frame body ++ rest) (hb : FrameBody body) :
    ∃ k : ℕ, readAll (sock.skip 4) body.length =
        (some (k : ℤ), body, sock.skip (4 + body.length)) ∧
      (k = body.length ↔ (sock.skip 4).ReadsWhole body.length) := by
  have hrest : (sock.skip 4).input = body ++ rest := by
    rw [Socket.skip, h, frame, List.append_assoc, List.drop_left' (by simp)]
  have hle : body.length ≤ (sock.skip 4).input.length := by
    rw [hrest, List.length_append]
    omega
  obtain ⟨k, hk, -, -, hwhole⟩ := readAll_of_le hb.1 hle
  rw [hrest, List.take_left' rfl, skip_skip] at hk
  exact ⟨k, hk, hwhole⟩

lemma receiveRequest_of_header {sock' : Socket} {k n : ℤ} {msgSize : List UInt8}
    (hhead : readAll sock 4 = (some k, msgSize, sock')) (hk : k ≠ 0)
    (hlen : 4 ≤ msgSize.length) (hsize : toInt (ntohl (leValue msgSize)) = n) :
    receiveRequest sock = receiveRequestBody sock' n := by
  have hk0 : ¬some k = some 0 := by simpa using hk
  rw [receiveRequest, hhead, ← hsize]
  simp only [if_neg hk0, if_neg (not_lt.mpr hlen)]

lemma receiveRequestBody_of_read {sock' : Socket} {k n : ℤ} (hn : 0 ≤ n)
    (hbody : readAll sock n = (some k, body, sock')) :
    receiveRequestBody sock n =
      if k ≠ n then .ok (none, sock')
      else bufferToMessage body n >>= fun msg => .ok (msg, sock') := by
  simp only [receiveRequestBody, if_neg (not_lt.mpr hn), hbody, pure_eq_ok]

lemma receiveMessage_of_header {sock' : Socket} {k n : ℤ} {sizeReturnedMsg : List UInt8}
    (hhead : readAll sock 4 = (some k, sizeReturnedMsg, sock'))
    (hsize : toInt (ntohl (leValue sizeReturnedMsg)) = n) :
    receiveMessage sock = if k ≠ 4 then .ok (none, sock'.close) else receiveBody sock' n := by
  rw [receiveMessage, hhead, ← hsize]
  simp only [ne_eq, Option.some.injEq]

lemma receiveBody_of_read {sock' : Socket} {r : Option ℤ} {n : ℤ}
    (hbody : readAll sock n = (r, body, sock')) :
    receiveBody sock n = bufferToMessage body n >>= fun msg => .ok (msg, sock') := by
  simp only [receiveBody, hbody, pure_eq_ok]

/-- The server decodes a frame whose body came in one chunk and gives up on every other. -/
theorem receiveRequest_frame (h : sock.input = frame body ++ rest) (hb : FrameBody body)
    [Decidable ((sock.skip 4).ReadsWhole body.length)] :
    receiveRequest sock =
      if (sock.skip 4).ReadsWhole body.length then
        bufferToMessage body body.length >>= fun msg => .ok (msg, sock.skip (4 + body.length))
      else .ok (none, sock.skip (4 + body.length)) := by
  obtain ⟨k, hk, hpos, -⟩ := readAll_header h
  obtain ⟨k', hk', hwhole⟩ := readAll_body h hb
  rw [receiveRequest_of_header hk (by omega) (by simp) (toInt_ntohl_putInt hb.2),
    receiveRequestBody_of_read (by omega) hk']
  by_cases hw : (sock.skip 4).ReadsWhole body.length
  · have heq : ¬(k' : ℤ) ≠ body.length := by
      rw [hwhole.mpr hw]
      simp
    rw [if_pos hw, if_neg heq]
  · have hne : (k' : ℤ) ≠ body.length := fun heq => hw (hwhole.mp (by exact_mod_cast heq))
    rw [if_neg hw, if_pos hne]

/-- The client decodes a frame whose length came in one chunk, and closes on every other. -/
theorem receiveMessage_frame (h : sock.input = frame body ++ rest) (hb : FrameBody body)
    [Decidable (sock.ReadsWhole 4)] :
    receiveMessage sock =
      if sock.ReadsWhole 4 then
        bufferToMessage body body.length >>= fun msg => .ok (msg, sock.skip (4 + body.length))
      else .ok (none, (sock.skip 4).close) := by
  obtain ⟨k, hk, -, hwhole⟩ := readAll_header h
  obtain ⟨k', hk', -⟩ := readAll_body h hb
  rw [receiveMessage_of_header hk (toInt_ntohl_putInt hb.2), receiveBody_of_read hk']
  by_cases hw : sock.ReadsWhole 4
  · have heq : ¬(k : ℤ) ≠ 4 := by
      rw [hwhole.mpr hw]
      simp
    rw [if_pos hw, if_neg heq]
  · have hne : (k : ℤ) ≠ 4 := fun heq => hw (hwhole.mp (by exact_mod_cast heq))
    rw [if_neg hw, if_pos hne]

/-- No write of the frame of `body` fails. -/
def Socket.AcceptsFrame (sock : Socket) (body : List UInt8) : Prop :=
  sock.Accepts 4 ∧ (sock.append (putInt body.length)).Accepts body.length

lemma Socket.Writable.acceptsFrame (h : sock.Writable) (body : List UInt8) :
    sock.AcceptsFrame body := by
  have h' : (sock.append (putInt body.length)).Writable := h
  exact ⟨h.accepts 4, h'.accepts body.length⟩

lemma writeAll_header (hw : sock.Accepts 4) (n : ℕ) :
    ∃ k : ℕ, writeAll sock (putInt n) 4 = ((k : ℤ), sock.append (putInt n)) ∧
      (k = 4 ↔ sock.WritesWhole 4) := by
  have hlen : (putInt n).length = 4 := by simp
  have hw' : sock.Accepts (putInt n).length := hlen.symm ▸ hw
  obtain ⟨k, hk, -, -, hwhole⟩ := writeAll_of_accepts hw' (by omega)
  rw [hlen] at hk hwhole
  exact ⟨k, hk, hwhole⟩

lemma writeAll_header_fails (hw : ¬sock.Accepts 4) (n : ℕ) :
    ∃ k < 4, writeAll sock (putInt n) 4 = (-1, sock.append ((putInt n).take k)) := by
  have hlen : (putInt n).length = 4 := by simp
  have hw' : ¬sock.Accepts (putInt n).length := hlen.symm ▸ hw
  obtain ⟨k, hk, hwrite⟩ := writeAll_of_not_accepts hw'
  rw [hlen] at hk hwrite
  exact ⟨k, hk, hwrite⟩

lemma writeAll_body (hw : sock.Accepts body.length) (hb : FrameBody body) :
    ∃ k : ℕ, writeAll sock body body.length = ((k : ℤ), sock.append body) := by
  obtain ⟨k, hk, -⟩ := writeAll_of_accepts hw hb.1
  exact ⟨k, hk⟩

/-- The client writes a frame whose length goes out in one piece. -/
theorem sendMessage_frame {msg : MessageT} (hmsg : (wireFormat msg).length < 2 ^ 31)
    (hw : sock.AcceptsFrame (wireFormat msg)) (hwhole : sock.WritesWhole 4) :
    sendMessage sock msg = .ok (true, sock.append (frame (wireFormat msg))) := by
  obtain ⟨k, hk, hkwhole⟩ := writeAll_header hw.1 (wireFormat msg).length
  obtain ⟨k', hk'⟩ := writeAll_body hw.2 (frameBody_wireFormat hmsg)
  have hpos := wireFormat_pos msg
  have hsize : ¬((wireFormat msg).length : ℤ) ≤ 0 := by omega
  have hfail : ¬(k' : ℤ) = -1 := by omega
  have heq : ¬(k : ℤ) ≠ 4 := by
    rw [hkwhole.mpr hwhole]
    simp
  simp only [sendMessage, messageToBuffer_eq hmsg, ok_bind, if_neg hsize, Int.toNat_natCast, hk,
    hk', if_neg hfail, if_neg heq, pure_eq_ok, append_append, frame]

/-- It gives up on every other request. -/
theorem sendMessage_of_not_sent {msg : MessageT} (hmsg : (wireFormat msg).length < 2 ^ 31)
    (h : ¬(sock.AcceptsFrame (wireFormat msg) ∧ sock.WritesWhole 4)) :
    ∃ sock', sendMessage sock msg = .ok (false, sock') := by
  have hpos := wireFormat_pos msg
  have hsize : ¬((wireFormat msg).length : ℤ) ≤ 0 := by omega
  simp only [sendMessage, messageToBuffer_eq hmsg, ok_bind, if_neg hsize, Int.toNat_natCast]
  by_cases hheader : sock.Accepts 4
  · obtain ⟨k, hk, hkwhole⟩ := writeAll_header hheader (wireFormat msg).length
    by_cases hwhole : sock.WritesWhole 4
    · have heq : ¬(k : ℤ) ≠ 4 := by
        rw [hkwhole.mpr hwhole]
        simp
      have hbody := fun hb => h ⟨⟨hheader, hb⟩, hwhole⟩
      obtain ⟨k', -, hk'⟩ := writeAll_of_not_accepts hbody
      refine ⟨(sock.append (putInt (wireFormat msg).length)).append
        ((wireFormat msg).take k'), ?_⟩
      simp only [hk, if_neg heq, hk', if_true, pure_eq_ok]
    · have hne : (k : ℤ) ≠ 4 := fun heq => hwhole (hkwhole.mp (by exact_mod_cast heq))
      refine ⟨(sock.append (putInt (wireFormat msg).length)).close, ?_⟩
      simp only [hk, if_pos hne, pure_eq_ok]
  · obtain ⟨k, -, hk⟩ := writeAll_header_fails hheader (wireFormat msg).length
    have hne : (-1 : ℤ) ≠ 4 := by decide
    refine ⟨(sock.append ((putInt (wireFormat msg).length).take k)).close, ?_⟩
    simp only [hk, if_pos hne, pure_eq_ok]

/-- The frame of a reply. -/
def encodeReply : Reply → Except Fault (List UInt8)
  | .unset => .error .uninitialised
  | .message msg =>
    if (wireFormat msg).length < 2 ^ 31 then .ok (frame (wireFormat msg)) else .error .outOfBounds

lemma encodeReply_ok {reply : Reply} {bytes : List UInt8} (h : encodeReply reply = .ok bytes) :
    ∃ msg, reply = .message msg ∧ bytes = frame (wireFormat msg) := by
  cases reply with
  | unset => cases h
  | message msg =>
    rw [encodeReply] at h
    split at h
    · cases h
      exact ⟨msg, rfl, rfl⟩
    · cases h

theorem sendReply_of_accepts {msg : MessageT} (hmsg : (wireFormat msg).length < 2 ^ 31)
    (hw : sock.AcceptsFrame (wireFormat msg)) :
    sendReply sock (.message msg) = .ok (1, sock.append (frame (wireFormat msg))) := by
  obtain ⟨k, hk, -⟩ := writeAll_header hw.1 (wireFormat msg).length
  obtain ⟨k', hk'⟩ := writeAll_body hw.2 (frameBody_wireFormat hmsg)
  have hsize : ¬((wireFormat msg).length : ℤ) < 0 := by omega
  have hfail : ¬(k : ℤ) < 0 := by omega
  have hfail' : ¬(k' : ℤ) < 0 := by omega
  simp only [sendReply, messageToBuffer_eq hmsg, ok_bind, if_neg hsize, Int.toNat_natCast, hk,
    hk', if_neg hfail, if_neg hfail', pure_eq_ok, append_append, frame]

/-- A reply whose length or body cannot be written stays on the connection in part. -/
theorem sendReply_of_not_accepts {msg : MessageT} (hmsg : (wireFormat msg).length < 2 ^ 31)
    (hw : ¬sock.AcceptsFrame (wireFormat msg)) :
    ∃ k < (frame (wireFormat msg)).length, sendReply sock (.message msg) =
      .ok (-1, sock.append ((frame (wireFormat msg)).take k)) := by
  have hsize : ¬((wireFormat msg).length : ℤ) < 0 := by omega
  have hneg : (-1 : ℤ) < 0 := by decide
  rw [length_frame]
  simp only [sendReply, messageToBuffer_eq hmsg, ok_bind, if_neg hsize, Int.toNat_natCast]
  by_cases hheader : sock.Accepts 4
  · obtain ⟨k, hk, -⟩ := writeAll_header hheader (wireFormat msg).length
    have hfail : ¬(k : ℤ) < 0 := by omega
    have hbody := fun hb => hw ⟨hheader, hb⟩
    obtain ⟨k', hlt, hk'⟩ := writeAll_of_not_accepts hbody
    refine ⟨4 + k', by omega, ?_⟩
    have htake : (frame (wireFormat msg)).take (4 + k') =
        putInt (wireFormat msg).length ++ (wireFormat msg).take k' := by
      rw [frame, List.take_append, List.take_of_length_le (by simp)]
      simp
    simp only [hk, if_neg hfail, hk', if_pos hneg, pure_eq_ok, append_append, htake]
  · obtain ⟨k, hlt, hk⟩ := writeAll_header_fails hheader (wireFormat msg).length
    refine ⟨k, by omega, ?_⟩
    have htake : (frame (wireFormat msg)).take k = (putInt (wireFormat msg).length).take k := by
      rw [frame, List.take_append_of_le_length (by simp; omega)]
    simp only [hk, if_pos hneg, pure_eq_ok, htake]

/-- A reply goes out as one frame, or a write failed and a part of the frame went out. -/
theorem sendReply_cases {reply : Reply} {result : ℤ} {sock' : Socket}
    (h : sendReply sock reply = .ok (result, sock')) :
    ∃ bytes, encodeReply reply = .ok bytes ∧
      (result = 1 ∧ sock' = sock.append bytes ∨
        ∃ k < bytes.length, result = -1 ∧ sock' = sock.append (bytes.take k)) := by
  cases reply with
  | unset =>
    rw [sendReply] at h
    cases h
  | message msg =>
    by_cases hmsg : (wireFormat msg).length < 2 ^ 31
    · refine ⟨frame (wireFormat msg), by rw [encodeReply, if_pos hmsg], ?_⟩
      by_cases hw : sock.AcceptsFrame (wireFormat msg)
      · rw [sendReply_of_accepts hmsg hw] at h
        simp only [Except.ok.injEq, Prod.mk.injEq] at h
        exact .inl ⟨h.1.symm, h.2.symm⟩
      · obtain ⟨k, hk, hcut⟩ := sendReply_of_not_accepts hmsg hw
        rw [hcut] at h
        simp only [Except.ok.injEq, Prod.mk.injEq] at h
        exact .inr ⟨k, hk, h.1.symm, h.2.symm⟩
    · simp only [sendReply, messageToBuffer_of_ge (not_lt.mp hmsg), error_bind] at h
      cases h

/-- The server writes its reply whatever the chunks. -/
theorem sendReply_eq (hw : sock.Writable) (reply : Reply) :
    sendReply sock reply = encodeReply reply >>= fun bytes => .ok (1, sock.append bytes) := by
  cases reply with
  | unset => rfl
  | message msg =>
    by_cases hmsg : (wireFormat msg).length < 2 ^ 31
    · rw [sendReply_of_accepts hmsg (hw.acceptsFrame _), encodeReply, if_pos hmsg, ok_bind]
    · simp only [sendReply, messageToBuffer_of_ge (not_lt.mp hmsg), encodeReply, if_neg hmsg,
        error_bind]

/-! ### One request and its answer -/

variable {σ δ : Type}

/-- What a server makes of a body that it received: the frame of its reply, or `none` where
`network_receive_send` returns -1. -/
def answerBody (net : Net σ δ) (server : Server δ) (world : σ) (body : List UInt8) :
    Except Fault (Option (List UInt8) × Server δ × σ) := do
  match ← bufferToMessage body body.length with
  | none => return (none, server, world)
  | some msgPedido =>
    let (msgResposta, server, world) ← handleRequest net server world msgPedido
    let bytes ← encodeReply msgResposta
    return (some bytes, server, world)

lemma answerBody_of_decode (net : Net σ δ) (server : Server δ) (world : σ) {msg : MessageT}
    (h : bufferToMessage body body.length = .ok (some msg)) :
    answerBody net server world body =
      handleRequest net server world msg >>= fun (reply, server, world) =>
        encodeReply reply >>= fun bytes => .ok (some bytes, server, world) := by
  rw [answerBody, h, ok_bind]
  rfl

/-- The socket and the result once the answer was written. -/
def Socket.answer (sock : Socket) : Option (List UInt8) → ℤ × Socket
  | none => (-1, sock)
  | some bytes => (1, sock.append bytes)

theorem networkReceiveSend_whole (net : Net σ δ) (server : Server δ) (world : σ)
    (h : sock.input = frame body ++ rest) (hb : FrameBody body) (hw : sock.Writable)
    (hwhole : (sock.skip 4).ReadsWhole body.length) :
    networkReceiveSend net server world sock =
      answerBody net server world body >>= fun (answer, server, world) =>
        .ok (((sock.skip (4 + body.length)).answer answer).1, server, world,
          ((sock.skip (4 + body.length)).answer answer).2) := by
  classical
  have hw' : (sock.skip (4 + body.length)).Writable := hw
  rw [networkReceiveSend, receiveRequest_frame h hb, if_pos hwhole, answerBody]
  cases bufferToMessage body body.length with
  | error e => simp only [error_bind]
  | ok decoded =>
    simp only [ok_bind]
    cases decoded with
    | none => rfl
    | some msgPedido =>
      simp only
      cases handleRequest net server world msgPedido with
      | error e => simp only [error_bind]
      | ok handled =>
        obtain ⟨msgResposta, server', world'⟩ := handled
        simp only [ok_bind, sendReply_eq hw']
        cases encodeReply msgResposta with
        | error e => simp only [error_bind]
        | ok bytes => simp only [ok_bind, pure_eq_ok, Socket.answer]

theorem networkReceiveSend_split (net : Net σ δ) (server : Server δ) (world : σ)
    (h : sock.input = frame body ++ rest) (hb : FrameBody body)
    (hsplit : ¬(sock.skip 4).ReadsWhole body.length) :
    networkReceiveSend net server world sock =
      .ok (-1, server, world, sock.skip (4 + body.length)) := by
  classical
  rw [networkReceiveSend, receiveRequest_frame h hb, if_neg hsplit, ok_bind]
  rfl

end RemoteTable
