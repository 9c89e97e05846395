import RemoteTable.Frames
import RemoteTable.DecodeBounds

/-!
# Streams that end

What the two peers do with a connection that ends, or fails, before a whole message came.
The server takes a failed read of the length for a length, and the client does not look at
the result of its second read: it decodes the bytes that came, and gives up on them only
where `buffer_to_message` does.
-/

namespace RemoteTable
open Bytes

variable {σ δ : Type} {sock : Socket}

/-- The length that the first four bytes announce. -/
def Socket.announced (sock : Socket) : ℤ := toInt (ntohl (leValue (sock.input.take 4)))

/-- All four length bytes come, and then as many bytes as they say. -/
def Socket.Complete (sock : Socket) : Prop :=
  4 ≤ sock.input.length ∧ 0 ≤ sock.announced ∧ 4 + sock.announced ≤ sock.input.length

/-- The server acts on complete messages only. -/
def ServerWaits (net : Net σ δ) (server : Server δ) (world : σ) (sock : Socket) : Prop :=
  ¬sock.Complete → ∃ sock', networkReceiveSend net server world sock =
    .ok (-1, server, world, sock')

/-- Once its request is sent, the client acts on complete replies only. -/
def ClientWaits (sock : Socket) (msg : MessageT) : Prop :=
  ∀ sent sock₁, sendMessage sock msg = .ok (sent, sock₁) → ¬sock.Complete →
    ∃ sock', networkSendReceive sock msg = .ok (none, sock')

/-! ### Reads that meet the end -/

lemma skip_zero (sock : Socket) : sock.skip 0 = sock := rfl

/-- `read_all` stores what there is, and tells a failure from the end of the stream. -/
lemma readAllLoop_of_lt (fuel : ℕ) (sock : Socket) (length : ℕ) (nbytesRead : Option ℤ)
    (buffer : List UInt8) (hfuel : length ≤ fuel) (h : sock.input.length < length) :
    readAllLoop fuel sock length nbytesRead buffer =
      (some (if sock.readFails then -1 else 0), buffer ++ sock.input,
        sock.skip sock.input.length) := by
  induction fuel generalizing sock length nbytesRead buffer with
  | zero => omega
  | succ fuel ih =>
    rw [readAllLoop, if_neg (by omega)]
    by_cases hnil : sock.input = []
    · have hneg : (-1 : ℤ) < 0 := by decide
      have hzero : ¬(0 : ℤ) < 0 := by decide
      rw [hnil, List.length_nil, skip_zero, List.append_nil, Socket.read, if_pos hnil]
      cases sock.readFails with
      | false => simp only [Bool.false_eq_true, if_false, if_neg hzero, if_true]
      | true => simp only [if_true, if_pos hneg]
    · have hpos : 0 < sock.input.length := List.length_pos_iff.mpr hnil
      have hchunk := Chunks.next_pos sock.readCut sock.readPos hpos
      have hle := Chunks.next_le sock.readCut sock.readPos sock.input.length
      rw [Socket.read, if_neg hnil, Nat.min_eq_right h.le]
      simp only
      generalize Chunks.next sock.readCut sock.readPos sock.input.length = n at hchunk hle
      have hlen : (sock.skip n).input.length = sock.input.length - n := List.length_drop
      have hrest := ih (sock.skip n) (length - n) (some n) (buffer ++ sock.input.take n)
        (by omega) (by omega)
      rw [if_neg (by omega), if_neg (by omega), Int.toNat_natCast]
      change readAllLoop fuel (sock.skip n) (length - n) (some n) (buffer ++ sock.input.take n) = _
      rw [hrest, skip_skip, hlen, Nat.add_sub_cancel' hle, List.append_assoc]
      simp only [Socket.skip, List.take_append_drop]
      rfl

theorem readAll_of_lt {length : ℕ} (h : sock.input.length < length) :
    readAll sock length =
      (some (if sock.readFails then -1 else 0), sock.input, sock.skip sock.input.length) := by
  have hspec := readAllLoop_of_lt length sock length none [] (le_refl length) h
  rwa [List.nil_append] at hspec

lemma readAll_announced (h : 4 ≤ sock.input.length) :
    ∃ k : ℕ, readAll sock 4 = (some (k : ℤ), sock.input.take 4, sock.skip 4) ∧ 0 < k ∧
      (k = 4 ↔ sock.ReadsWhole 4) := by
  obtain ⟨k, hk, hpos, -, hwhole⟩ := readAll_of_le (by omega) h
  exact ⟨k, hk, hpos, hwhole⟩

lemma readAll_body_cut {n : ℤ} (h4 : 4 ≤ sock.input.length)
    (hcut : (sock.input.length : ℤ) < 4 + n) :
    readAll (sock.skip 4) n =
      (some (if sock.readFails then -1 else 0), sock.input.drop 4,
        sock.skip sock.input.length) := by
  have hlen : (sock.skip 4).input.length = sock.input.length - 4 := List.length_drop
  have hlt : (sock.skip 4).input.length < n.toNat := by omega
  have hread := readAll_of_lt hlt
  rw [Int.toNat_of_nonneg (by omega), skip_skip, hlen, Nat.add_sub_cancel' h4] at hread
  exact hread

/-! ### The server -/

lemma receiveRequest_of_lt (h : sock.input.length < 4) :
    receiveRequest sock =
      if sock.readFails then .error .uninitialised
      else .ok (none, sock.skip sock.input.length) := by
  have hread : readAll sock 4 = _ := readAll_of_lt h
  rw [receiveRequest, hread]
  cases sock.readFails with
  | false => simp
  | true => simp [h]

lemma receiveRequest_of_body_cut (h4 : 4 ≤ sock.input.length) (hcut : ¬sock.Complete) :
    ∃ sock', receiveRequest sock = .ok (none, sock') := by
  obtain ⟨k, hk, hpos, -⟩ := readAll_announced h4
  have hlen : 4 ≤ (sock.input.take 4).length := by
    rw [List.length_take]
    omega
  rw [receiveRequest_of_header hk (by omega) hlen rfl]
  by_cases hneg : sock.announced < 0
  · exact ⟨sock.skip 4, by rw [receiveRequestBody, ← Socket.announced, if_pos hneg]; rfl⟩
  · have hlt : (sock.input.length : ℤ) < 4 + sock.announced := by
      by_contra hge
      exact hcut ⟨h4, not_lt.mp hneg, not_lt.mp hge⟩
    have hread := readAll_body_cut h4 hlt
    refine ⟨sock.skip sock.input.length, ?_⟩
    have hne : (if sock.readFails then (-1 : ℤ) else 0) ≠ sock.announced := by
      split <;> omega
    rw [← Socket.announced, receiveRequestBody_of_read (not_lt.mp hneg) hread, if_pos hne]

/-- The server fails the law exactly where a failed read passes for a length. -/
lemma serverWaits_iff (net : Net σ δ) (server : Server δ) (world : σ) (sock : Socket) :
    ServerWaits net server world sock ↔ 4 ≤ sock.input.length ∨ sock.readFails = false := by
  by_cases h4 : 4 ≤ sock.input.length
  · apply iff_of_true _ (Or.inl h4)
    intro hcut
    obtain ⟨sock', hreceive⟩ := receiveRequest_of_body_cut h4 hcut
    exact ⟨sock', by rw [networkReceiveSend, hreceive]; rfl⟩
  · have hreceive := receiveRequest_of_lt (not_le.mp h4)
    have hcut : ¬sock.Complete := fun h => h4 h.1
    rw [or_iff_right h4]
    unfold ServerWaits networkReceiveSend
    cases hfails : sock.readFails with
    | false =>
      rw [hreceive, hfails]
      exact iff_of_true (fun _ => ⟨_, rfl⟩) rfl
    | true =>
      rw [hreceive, hfails]
      apply iff_of_false _ (by simp)
      intro h
      obtain ⟨sock', hok⟩ := h hcut
      cases hok

/-! ### The client -/

/-- The request goes out, the length of the reply comes in one piece, and the reply ends inside
its body, behind bytes that the decoder does not refuse. -/
def ReplyCut (sock : Socket) (msg : MessageT) : Prop :=
  ((wireFormat msg).length < 2 ^ 31 ∧ sock.AcceptsFrame (wireFormat msg) ∧ sock.WritesWhole 4) ∧
    4 ≤ sock.input.length ∧ sock.ReadsWhole 4 ∧
    (sock.input.length : ℤ) < 4 + sock.announced ∧ ¬Refused (sock.input.drop 4)

lemma receiveMessage_of_lt (h : sock.input.length < 4) :
    receiveMessage sock = .ok (none, (sock.skip sock.input.length).close) := by
  have hread : readAll sock 4 = _ := readAll_of_lt h
  have hne : some (if sock.readFails then (-1 : ℤ) else 0) ≠ some 4 := by
    split <;> simp
  rw [receiveMessage, hread]
  simp only [if_pos hne]

lemma receiveBody_of_neg {n : ℤ} (h : n < 0) : receiveBody sock n = .ok (none, sock) := by
  have hturns : n.toNat = 0 := by omega
  simp only [receiveBody, readAll, hturns, readAllLoop, bufferToMessage, if_pos h, pure_eq_ok,
    ok_bind]

/-- A body that was read in part is taken for no message exactly where its bytes are refused. -/
lemma receiveBody_none_iff {n : ℤ} {r : Option ℤ} {sock' : Socket} {bytes : List UInt8}
    (hn : 0 ≤ n) (hread : readAll sock n = (r, bytes, sock')) :
    (∃ sock'', receiveBody sock n = .ok (none, sock'')) ↔ Refused bytes := by
  rw [receiveBody_of_read hread, bufferToMessage_of_nonneg hn, ← bufferToMessage_none_iff]
  cases bufferToMessage bytes bytes.length with
  | error e => simp [error_bind]
  | ok decoded => simp [ok_bind]

/-- A length in parts ends the call, and a negative one is refused by `buffer_to_message`; a
body that is cut is decoded all the same. -/
lemma receiveMessage_of_body_cut (h4 : 4 ≤ sock.input.length) (hcut : ¬sock.Complete) :
    (∃ sock', receiveMessage sock = .ok (none, sock')) ↔
      ¬(sock.ReadsWhole 4 ∧ (sock.input.length : ℤ) < 4 + sock.announced ∧
        ¬Refused (sock.input.drop 4)) := by
  obtain ⟨k, hk, -, hwhole⟩ := readAll_announced h4
  rw [receiveMessage_of_header hk rfl, ← Socket.announced]
  by_cases hw : sock.ReadsWhole 4
  · have heq : ¬(k : ℤ) ≠ 4 := by
      rw [hwhole.mpr hw]
      simp
    rw [if_neg heq, and_iff_right hw]
    by_cases hneg : sock.announced < 0
    · exact iff_of_true ⟨_, receiveBody_of_neg hneg⟩ (by omega)
    · have hlt : (sock.input.length : ℤ) < 4 + sock.announced := by
        by_contra hge
        exact hcut ⟨h4, not_lt.mp hneg, not_lt.mp hge⟩
      rw [and_iff_right hlt, not_not]
      exact receiveBody_none_iff (not_lt.mp hneg) (readAll_body_cut h4 hlt)
  · have hne : (k : ℤ) ≠ 4 := fun heq => hw (hwhole.mp (by exact_mod_cast heq))
    rw [if_pos hne]
    exact iff_of_true ⟨_, rfl⟩ (fun h => hw h.1)

lemma networkSendReceive_of_not_sent {msg : MessageT} {sock₁ : Socket}
    (h : sendMessage sock msg = .ok (false, sock₁)) :
    networkSendReceive sock msg = .ok (none, sock₁) := by
  rw [networkSendReceive, h]
  rfl

/-- The client fails the law exactly where a reply ends inside its body and what came of it is
not refused. -/
lemma clientWaits_iff (sock : Socket) (msg : MessageT) :
    ClientWaits sock msg ↔ ¬ReplyCut sock msg := by
  by_cases hmsg : (wireFormat msg).length < 2 ^ 31
  · by_cases hsent : sock.AcceptsFrame (wireFormat msg) ∧ sock.WritesWhole 4
    · have hsend := sendMessage_frame hmsg hsent.1 hsent.2
      -- the request goes out and the socket reads as before
      have hcall : networkSendReceive sock msg =
          receiveMessage (sock.append (frame (wireFormat msg))) := by
        rw [networkSendReceive, hsend]
        rfl
      by_cases h4 : 4 ≤ sock.input.length
      · by_cases hcomplete : sock.Complete
        · apply iff_of_true (fun _ _ _ hcut => absurd hcomplete hcut)
          intro h
          exact absurd h.2.2.2.1 (not_lt.mpr hcomplete.2.2)
        · have h4' : 4 ≤ (sock.append (frame (wireFormat msg))).input.length := h4
          have hcut' : ¬(sock.append (frame (wireFormat msg))).Complete := hcomplete
          have hbody := receiveMessage_of_body_cut h4' hcut'
          rw [← hcall] at hbody
          have hlaw : ClientWaits sock msg ↔
              ∃ sock', networkSendReceive sock msg = .ok (none, sock') :=
            ⟨fun h => h true _ hsend hcomplete, fun h _ _ _ _ => h⟩
          have hcut : ReplyCut sock msg ↔ sock.ReadsWhole 4 ∧
              (sock.input.length : ℤ) < 4 + sock.announced ∧ ¬Refused (sock.input.drop 4) :=
            ⟨fun h => h.2.2, fun h => ⟨⟨hmsg, hsent⟩, h4, h⟩⟩
          rw [hlaw, hbody, hcut]
          exact Iff.rfl
      · have hlt : (sock.append (frame (wireFormat msg))).input.length < 4 := not_le.mp h4
        have hreceive := receiveMessage_of_lt hlt
        exact iff_of_true (fun _ _ _ _ => ⟨_, hcall.trans hreceive⟩) (fun h => h4 h.2.1)
    · obtain ⟨sock', hsend⟩ := sendMessage_of_not_sent hmsg hsent
      exact iff_of_true (fun _ _ _ _ => ⟨_, networkSendReceive_of_not_sent hsend⟩)
        (fun h => hsent h.1.2)
  · apply iff_of_true _ (fun h => hmsg h.1.1)
    intro sent sock₁ hsend
    rw [sendMessage, messageToBuffer_of_ge (not_lt.mp hmsg), error_bind] at hsend
    cases hsend

/-- The exact streams on which the two peers act on complete messages only. -/
theorem streamEnds_iff (net : Net σ δ) (server : Server δ) (world : σ) (sock : Socket)
    (msg : MessageT) :
    (ServerWaits net server world sock ↔ 4 ≤ sock.input.length ∨ sock.readFails = false) ∧
      (ClientWaits sock msg ↔ ¬ReplyCut sock msg) :=
  ⟨serverWaits_iff net server world sock, clientWaits_iff sock msg⟩

/-- A connection that fails before its first byte. -/
def brokenSocket : Socket where
  input := []
  readPos := 0
  readCut _ := false
  readFails := true
  output := []
  writeCut _ := false
  writeFails _ := false

/-- The server goes on with a length that was never read. -/
theorem not_serverWaits_broken :
    ¬∀ (net : Net Unit Unit) (server : Server Unit) (sock : Socket) (msg : MessageT),
      ServerWaits net server () sock ∧ ClientWaits sock msg := by
  intro h
  have hwaits := (h noNet emptyServer brokenSocket (Request.size 0).msg).1
  have hcut : ¬brokenSocket.Complete := fun hc => absurd hc.1 (by decide)
  obtain ⟨sock', hok⟩ := hwaits hcut
  cases hok

end RemoteTable
