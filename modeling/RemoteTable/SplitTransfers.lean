import RemoteTable.Frames

/-!
# Transfers that the kernel splits

A connection whose reads and writes come in chunks against the same connection without
cuts. The two behave alike exactly when no cut falls inside a block whose length the code
compares with the size of the last chunk.
-/

namespace RemoteTable
open Bytes

variable {σ δ : Type} {sock : Socket}

/-- The same connection with every transfer at once. -/
def Socket.atOnce (sock : Socket) : Socket :=
  { sock with readCut := fun _ => false, writeCut := fun _ => false }

/-- `bodies` are sent back to back on a connection that takes what is written to it. -/
structure Socket.Delivers (sock : Socket) (bodies : List (List UInt8)) (rest : List UInt8) :
    Prop where
  input : sock.input = bodies.flatMap frame ++ rest
  bodies : ∀ body ∈ bodies, FrameBody body
  writable : sock.Writable

/-- Every body up to the first that the decoder refuses comes in one chunk. -/
def Socket.BodiesWhole : Socket → List (List UInt8) → Prop
  | _, [] => True
  | sock, body :: bodies => bufferToMessage body body.length = .ok none ∨
    (sock.skip 4).ReadsWhole body.length ∧ (sock.skip (4 + body.length)).BodiesWhole bodies

/-- What is seen of the calls on a connection: results, server, world, and the socket up to
the kernel's chunks. -/
def observed (run : Except Fault (List ℤ × Server δ × σ × Socket)) :
    Except Fault (List ℤ × Server δ × σ × Socket) :=
  run.map fun (results, server, world, sock) => (results, server, world, sock.atOnce)

/-- One call for each body is seen as on the connection without cuts. -/
def ServesAsAtOnce (net : Net σ δ) (server : Server δ) (world : σ) (sock : Socket)
    (bodies : List (List UInt8)) : Prop :=
  observed (serveConnection net bodies.length server world sock) =
    observed (serveConnection net bodies.length server world sock.atOnce)

/-- No call with one of the bodies faults. -/
def ServesDefined (net : Net σ δ) (server : Server δ) (world : σ) (sock : Socket)
    (bodies : List (List UInt8)) : Prop :=
  ∃ results server' world' sock', serveConnection net bodies.length server world sock =
    .ok (results, server', world', sock')

lemma readsWhole_atOnce (sock : Socket) (n : ℕ) : sock.atOnce.ReadsWhole n :=
  Chunks.whole_never _ _

lemma writesWhole_atOnce (sock : Socket) (n : ℕ) : sock.atOnce.WritesWhole n :=
  Chunks.whole_never _ _

lemma bodiesWhole_append (sock : Socket) (bytes : List UInt8) (bodies : List (List UInt8)) :
    (sock.append bytes).BodiesWhole bodies ↔ sock.BodiesWhole bodies := by
  induction bodies generalizing sock with
  | nil => exact Iff.rfl
  | cons body bodies ih =>
    exact or_congr Iff.rfl (and_congr Iff.rfl (ih (sock.skip (4 + body.length))))

section Connection

variable {net : Net σ δ} {server : Server δ} {world : σ} {body rest : List UInt8}
  {bodies : List (List UInt8)}

lemma Socket.Delivers.frame (h : sock.Delivers (body :: bodies) rest) :
    sock.input = RemoteTable.frame body ++ (bodies.flatMap RemoteTable.frame ++ rest) := by
  rw [h.input, List.flatMap_cons, List.append_assoc]

lemma Socket.Delivers.next (h : sock.Delivers (body :: bodies) rest) (bytes : List UInt8) :
    ((sock.skip (4 + body.length)).append bytes).Delivers bodies rest := by
  refine ⟨?_, fun b hb => h.bodies b (List.mem_cons_of_mem body hb), h.writable⟩
  have hlen : (RemoteTable.frame body).length = 4 + body.length := length_frame body
  change sock.input.drop (4 + body.length) = _
  rw [h.frame, List.drop_left' hlen]

lemma Socket.Delivers.atOnce (h : sock.Delivers bodies rest) : sock.atOnce.Delivers bodies rest :=
  ⟨h.input, h.bodies, h.writable⟩

lemma serveConnection_whole (h : sock.Delivers (body :: bodies) rest)
    (hwhole : (sock.skip 4).ReadsWhole body.length) :
    serveConnection net (bodies.length + 1) server world sock =
      answerBody net server world body >>= fun (answer, server, world) =>
        match answer with
        | none => .ok ([-1], server, world, sock.skip (4 + body.length))
        | some bytes =>
          serveConnection net bodies.length server world
              ((sock.skip (4 + body.length)).append bytes) >>=
            fun (results, server, world, sock) => .ok (1 :: results, server, world, sock) := by
  have hb := h.bodies body List.mem_cons_self
  rw [serveConnection, networkReceiveSend_whole net server world h.frame hb h.writable hwhole]
  cases answerBody net server world body with
  | error e => simp only [error_bind]
  | ok answered =>
    obtain ⟨answer, server', world'⟩ := answered
    cases answer with
    | none => rfl
    | some bytes => rfl

lemma serveConnection_split (h : sock.Delivers (body :: bodies) rest)
    (hsplit : ¬(sock.skip 4).ReadsWhole body.length) :
    serveConnection net (bodies.length + 1) server world sock =
      .ok ([-1], server, world, sock.skip (4 + body.length)) := by
  have hb := h.bodies body List.mem_cons_self
  rw [serveConnection, networkReceiveSend_split net server world h.frame hb hsplit]
  rfl

/-- A body that the decoder refuses ends the calls, in whatever chunks it comes. -/
lemma serveConnection_refused (h : sock.Delivers (body :: bodies) rest)
    (hrefused : bufferToMessage body body.length = .ok none) :
    serveConnection net (bodies.length + 1) server world sock =
      .ok ([-1], server, world, sock.skip (4 + body.length)) := by
  by_cases hwhole : (sock.skip 4).ReadsWhole body.length
  · rw [serveConnection_whole h hwhole, answerBody, hrefused]
    rfl
  · exact serveConnection_split h hwhole

lemma answerBody_none {server' : Server δ} {world' : σ}
    (h : answerBody net server world body = .ok (none, server', world')) :
    bufferToMessage body body.length = .ok none := by
  rw [answerBody] at h
  obtain ⟨decoded, hdecoded, h⟩ := bind_eq_ok h
  cases decoded with
  | none => exact hdecoded
  | some msgPedido =>
    obtain ⟨handled, -, h⟩ := bind_eq_ok h
    obtain ⟨bytes, -, h⟩ := bind_eq_ok h
    simp only [pure_eq_ok, Except.ok.injEq, Prod.mk.injEq, reduceCtorEq, false_and] at h

/-- The calls after the first agree if and only if the calls with the first agree. -/
lemma observed_cons (run run' : Except Fault (List ℤ × Server δ × σ × Socket)) (n : ℤ) :
    observed (run >>= fun (results, server, world, sock) =>
        .ok (n :: results, server, world, sock)) =
      observed (run' >>= fun (results, server, world, sock) =>
        .ok (n :: results, server, world, sock)) ↔ observed run = observed run' := by
  cases run with
  | error e =>
    cases run' with
    | error e' => rfl
    | ok r' => simp [observed, ok_bind, error_bind, Except.map]
  | ok r =>
    cases run' with
    | error e' => simp [observed, ok_bind, error_bind, Except.map]
    | ok r' => simp [observed, ok_bind, Except.map, Prod.ext_iff]

/-- Whole bodies are served as on a connection without cuts. -/
theorem servesAsAtOnce_of_whole (h : sock.Delivers bodies rest)
    (hwhole : sock.BodiesWhole bodies) : ServesAsAtOnce net server world sock bodies := by
  induction bodies generalizing sock server world with
  | nil => rfl
  | cons body bodies ih =>
    unfold ServesAsAtOnce
    rw [List.length_cons]
    rcases hwhole with hrefused | ⟨hfirst, hothers⟩
    · rw [serveConnection_refused h hrefused, serveConnection_refused h.atOnce hrefused]
      rfl
    · rw [serveConnection_whole h hfirst,
        serveConnection_whole h.atOnce (readsWhole_atOnce (sock.skip 4) body.length)]
      cases answerBody net server world body with
      | error e => rfl
      | ok answered =>
        obtain ⟨answer, server', world'⟩ := answered
        cases answer with
        | none => rfl
        | some bytes =>
          simp only [ok_bind]
          rw [observed_cons]
          apply ih (h.next bytes)
          exact (bodiesWhole_append _ bytes bodies).mpr hothers

/-- Where no call faults without cuts, a body in parts makes a difference. -/
theorem whole_of_servesAsAtOnce (h : sock.Delivers bodies rest)
    (hdefined : ServesDefined net server world sock.atOnce bodies)
    (hsame : ServesAsAtOnce net server world sock bodies) : sock.BodiesWhole bodies := by
  induction bodies generalizing sock server world with
  | nil => trivial
  | cons body bodies ih =>
    unfold ServesAsAtOnce at hsame
    unfold ServesDefined at hdefined
    obtain ⟨results, server₁, world₁, sock₁, hrun⟩ := hdefined
    rw [List.length_cons, serveConnection_whole h.atOnce
      (readsWhole_atOnce (sock.skip 4) body.length)] at hrun hsame
    cases hanswer : answerBody net server world body with
    | error e =>
      rw [hanswer, error_bind] at hrun
      cases hrun
    | ok answered =>
      obtain ⟨answer, server', world'⟩ := answered
      rw [hanswer] at hrun hsame
      simp only [ok_bind] at hrun hsame
      cases answer with
      | none => exact .inl (answerBody_none hanswer)
      | some bytes =>
        simp only at hrun hsame
        obtain ⟨⟨results₂, server₂, world₂, sock₂⟩, hrest, hr⟩ := bind_eq_ok hrun
        by_cases hfirst : (sock.skip 4).ReadsWhole body.length
        · rw [serveConnection_whole h hfirst, hanswer] at hsame
          simp only [ok_bind] at hsame
          rw [observed_cons] at hsame
          refine .inr ⟨hfirst, ?_⟩
          rw [← bodiesWhole_append _ bytes]
          exact ih (h.next bytes) ⟨results₂, server₂, world₂, sock₂, hrest⟩ hsame
        · -- one result is -1 and the other 1
          rw [serveConnection_split h hfirst, hrest, ok_bind] at hsame
          simp [observed, Except.map] at hsame

end Connection

/-! ### The client side -/

/-- What is seen of one `network_send_receive`: the reply, and the socket up to the chunks. -/
def observedReply (run : Except Fault (Option MessageT × Socket)) :
    Except Fault (Option MessageT × Socket) :=
  run.map fun (reply, sock) => (reply, sock.atOnce)

def RepliesAsAtOnce (sock : Socket) (msg : MessageT) : Prop :=
  observedReply (networkSendReceive sock msg) = observedReply (networkSendReceive sock.atOnce msg)

/-- A reply comes back when every transfer is at once. -/
def Replies (sock : Socket) (msg : MessageT) : Prop :=
  ∃ reply, (networkSendReceive sock.atOnce msg).map Prod.fst = .ok (some reply)

lemma exists_of_map_fst {α β : Type} {x : Except Fault (α × β)} {a : α}
    (h : x.map Prod.fst = .ok a) : ∃ b, x = .ok (a, b) := by
  cases x with
  | error e => cases h
  | ok r =>
    simp only [Except.map, Except.ok.injEq] at h
    exact ⟨r.2, by rw [← h]⟩

lemma networkSendReceive_whole {msg : MessageT} {body rest : List UInt8}
    (h : sock.input = frame body ++ rest) (hb : FrameBody body) (hw : sock.Writable)
    (hmsg : (wireFormat msg).length < 2 ^ 31) (hwrite : sock.WritesWhole 4)
    (hread : sock.ReadsWhole 4) :
    networkSendReceive sock msg =
      bufferToMessage body body.length >>= fun reply =>
        .ok (reply, (sock.append (frame (wireFormat msg))).skip (4 + body.length)) := by
  classical
  have h' : (sock.append (frame (wireFormat msg))).input = frame body ++ rest := h
  have hread' : (sock.append (frame (wireFormat msg))).ReadsWhole 4 := hread
  rw [networkSendReceive, sendMessage_frame hmsg (hw.acceptsFrame _) hwrite, ok_bind]
  simp only [if_true]
  rw [receiveMessage_frame h' hb, if_pos hread']

/-- A length that is transferred in parts ends in a closed socket and no reply. -/
lemma networkSendReceive_split {msg : MessageT} {body rest : List UInt8}
    (h : sock.input = frame body ++ rest) (hb : FrameBody body) (hw : sock.Writable)
    (hmsg : (wireFormat msg).length < 2 ^ 31)
    (hsplit : ¬(sock.WritesWhole 4 ∧ sock.ReadsWhole 4)) :
    ∃ closed, networkSendReceive sock msg = .ok (none, closed) := by
  classical
  have h' : (sock.append (frame (wireFormat msg))).input = frame body ++ rest := h
  by_cases hwrite : sock.WritesWhole 4
  · have hread : ¬(sock.append (frame (wireFormat msg))).ReadsWhole 4 :=
      fun hr => hsplit ⟨hwrite, hr⟩
    rw [networkSendReceive, sendMessage_frame hmsg (hw.acceptsFrame _) hwrite, ok_bind]
    simp only [if_true]
    rw [receiveMessage_frame h' hb, if_neg hread]
    exact ⟨_, rfl⟩
  · obtain ⟨closed, hsend⟩ := sendMessage_of_not_sent hmsg (fun hsent => hwrite hsent.2)
    exact ⟨closed, by rw [networkSendReceive, hsend]; rfl⟩

theorem repliesAsAtOnce_iff {msg : MessageT} {body rest : List UInt8}
    (h : sock.input = frame body ++ rest) (hb : FrameBody body) (hw : sock.Writable)
    (hreply : Replies sock msg) :
    RepliesAsAtOnce sock msg ↔ sock.WritesWhole 4 ∧ sock.ReadsWhole 4 := by
  obtain ⟨reply, hmap⟩ := hreply
  obtain ⟨sock', hrun⟩ := exists_of_map_fst hmap
  have hmsg : (wireFormat msg).length < 2 ^ 31 := by
    by_contra hge
    simp [networkSendReceive, sendMessage, messageToBuffer_of_ge (not_lt.mp hge), error_bind]
      at hrun
  have h' : sock.atOnce.input = frame body ++ rest := h
  have honce := networkSendReceive_whole h' hb hw hmsg (writesWhole_atOnce sock 4)
    (readsWhole_atOnce sock 4)
  constructor
  · intro hsame
    by_contra hsplit
    obtain ⟨closed, hnone⟩ := networkSendReceive_split h hb hw hmsg hsplit
    rw [RepliesAsAtOnce, hnone, hrun] at hsame
    simp [observedReply, Except.map] at hsame
  · rintro ⟨hwrite, hread⟩
    rw [RepliesAsAtOnce, honce, networkSendReceive_whole h hb hw hmsg hwrite hread]
    cases bufferToMessage body body.length with
    | error e => rfl
    | ok decoded => rfl

/-- When a connection with any chunks behaves like the one without cuts. -/
theorem splitTransfers_iff {σ δ : Type} (net : Net σ δ) (server : Server δ) (world : σ)
    (sock : Socket) :
    (∀ length : ℕ, 0 < length → length ≤ sock.input.length →
      ((readAll sock length).1 = some (length : ℤ) ↔ sock.ReadsWhole length)) ∧
    (∀ buffer : List UInt8, 0 < buffer.length → sock.Accepts buffer.length →
      ((writeAll sock buffer buffer.length).1 = buffer.length ↔
        sock.WritesWhole buffer.length)) ∧
    (∀ (bodies : List (List UInt8)) (rest : List UInt8), sock.Delivers bodies rest →
      (sock.BodiesWhole bodies → ServesAsAtOnce net server world sock bodies) ∧
      (ServesDefined net server world sock.atOnce bodies →
        ServesAsAtOnce net server world sock bodies → sock.BodiesWhole bodies)) ∧
    (∀ (msg : MessageT) (body rest : List UInt8),
      sock.Delivers [body] rest → Replies sock msg →
      (RepliesAsAtOnce sock msg ↔ sock.WritesWhole 4 ∧ sock.ReadsWhole 4)) := by
  refine ⟨?_, ?_, ?_, ?_⟩
  · intro length hpos hle
    obtain ⟨k, hk, -, -, hwhole⟩ := readAll_of_le hpos hle
    rw [hk, ← hwhole]
    simp
  · intro buffer hpos hw
    obtain ⟨k, hk, -, -, hwhole⟩ := writeAll_of_accepts hw hpos
    rw [hk, ← hwhole]
    simp
  · intro bodies rest h
    exact ⟨servesAsAtOnce_of_whole h, whole_of_servesAsAtOnce h⟩
  · intro msg body rest h hreply
    have hb := h.bodies body List.mem_cons_self
    exact repliesAsAtOnce_iff h.frame hb h.writable hreply

def sizeRequest : List UInt8 := [0, 10, 0, 10, 0, 0, 0, 0]

/-- A request that is read in two halves when `cut` is set. -/
def sizeSocket (cut : Bool) : Socket where
  input := frame sizeRequest
  readPos := 0
  readCut p := cut && p == 8
  readFails := false
  output := []
  writeCut _ := false
  writeFails _ := false

lemma sizeSocket_delivers (cut : Bool) : (sizeSocket cut).Delivers [sizeRequest] [] :=
  ⟨rfl, by decide, fun _ => rfl⟩

/-- The answer to the same bytes: the size when they come at once, none when they are split. -/
theorem not_servesAsAtOnce_halves :
    ¬∀ (σ δ : Type) (net : Net σ δ) (server : Server δ) (world : σ) (sock : Socket)
      (bodies : List (List UInt8)) (rest : List UInt8), sock.Delivers bodies rest →
      ServesAsAtOnce net server world sock bodies := by
  intro h
  have hsame := h Unit Unit noNet emptyServer () (sizeSocket true) _ _ (sizeSocket_delivers true)
  have hresults := congrArg (Except.map Prod.fst) hsame
  have hhalves : Except.map Prod.fst (observed
      (serveConnection noNet 1 emptyServer () (sizeSocket true))) = .ok [-1] := by decide
  have honce : Except.map Prod.fst (observed
      (serveConnection noNet 1 emptyServer () (sizeSocket true).atOnce)) = .ok [1] := by decide
  rw [List.length_singleton, hhalves, honce] at hresults
  exact absurd hresults (by decide)

theorem splitTransfers_iff_size :
    ((readAll (sizeSocket true) (12 : ℕ)).1 = some ((12 : ℕ) : ℤ) ↔
      (sizeSocket true).ReadsWhole 12) ∧
    ((writeAll (sizeSocket true) sizeRequest sizeRequest.length).1 = sizeRequest.length ↔
      (sizeSocket true).WritesWhole sizeRequest.length) ∧
    ServesAsAtOnce noNet emptyServer () (sizeSocket false) [sizeRequest] ∧
    (sizeSocket false).BodiesWhole [sizeRequest] ∧
    (RepliesAsAtOnce (sizeSocket true) ⟨ocSize, .result 0⟩ ↔
      (sizeSocket true).WritesWhole 4 ∧ (sizeSocket true).ReadsWhole 4) := by
  have hwhole : (sizeSocket false).BodiesWhole [sizeRequest] :=
    .inr ⟨Chunks.whole_never _ _, trivial⟩
  have hsplit := splitTransfers_iff noNet emptyServer () (sizeSocket true)
  have hconnection := (splitTransfers_iff noNet emptyServer () (sizeSocket false)).2.2.1 _ _
    (sizeSocket_delivers false)
  have hwritable : (sizeSocket true).Writable := fun _ => rfl
  refine ⟨hsplit.1 12 (by decide) (by decide),
    hsplit.2.1 sizeRequest (by decide) (hwritable.accepts _), hconnection.1 hwhole,
    hconnection.2 ⟨_, _, _, _, rfl⟩ (hconnection.1 hwhole), ?_⟩
  exact hsplit.2.2.2 _ sizeRequest [] (sizeSocket_delivers true) ⟨⟨ocSize, .result 0⟩, by decide⟩

end RemoteTable
