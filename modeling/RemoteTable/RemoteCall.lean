import RemoteTable.Frames
import RemoteTable.DecodeBounds

/-!
# Remote calls

One `network_send_receive` answered by one `network_receive_send` of another process, when
every transfer is at once and nothing else is in flight between the two.
-/

namespace RemoteTable

variable {σ δ : Type}

/-- An established connection without bytes in flight, whose transfers are at once. -/
def openSocket (input : List UInt8) : Socket where
  input := input
  readPos := 0
  readCut _ := false
  readFails := false
  output := []
  writeCut _ := false
  writeFails _ := false

/-- The reply, and the other server with its world after the call. -/
def remoteCall (net : Net σ δ) (server : Server δ) (world : σ) (msg : MessageT) :
    Except Fault (Option MessageT × Server δ × σ) := do
  let (sent, sock) ← sendMessage (openSocket []) msg
  if sent then
    let (_, server, world, peer) ←
      networkReceiveSend net server world (openSocket sock.output)
    let (reply, _) ← receiveMessage (openSocket peer.output)
    return (reply, server, world)
  else return (none, server, world)

lemma readsWhole_openSocket (input : List UInt8) (m n : ℕ) :
    ((openSocket input).skip m).ReadsWhole n := Chunks.whole_never _ _

lemma openSocket_input_frame (body : List UInt8) :
    (openSocket (frame body)).input = frame body ++ [] := by
  rw [List.append_nil]
  rfl

lemma receiveRequest_openSocket {body : List UInt8} (hb : FrameBody body) :
    receiveRequest (openSocket (frame body)) =
      bufferToMessage body body.length >>= fun msg =>
        .ok (msg, (openSocket (frame body)).skip (4 + body.length)) := by
  classical
  rw [receiveRequest_frame (openSocket_input_frame body) hb,
    if_pos (readsWhole_openSocket _ 4 _)]

lemma receiveRequest_wireFormat {msg : MessageT} (h : msg.Encodable) :
    receiveRequest (openSocket (frame (wireFormat msg))) =
      .ok (some msg, (openSocket (frame (wireFormat msg))).skip (4 + (wireFormat msg).length)) := by
  rw [receiveRequest_openSocket (frameBody_wireFormat h.size), bufferToMessage_wireFormat h,
    ok_bind]

lemma receiveMessage_openSocket {msg : MessageT} (h : msg.Encodable) :
    receiveMessage (openSocket (frame (wireFormat msg))) =
      .ok (some msg, (openSocket (frame (wireFormat msg))).skip (4 + (wireFormat msg).length)) := by
  classical
  have hwhole : (openSocket (frame (wireFormat msg))).ReadsWhole 4 := Chunks.whole_never _ _
  rw [receiveMessage_frame (openSocket_input_frame _) (frameBody_wireFormat h.size),
    if_pos hwhole, bufferToMessage_wireFormat h, ok_bind]

lemma sendMessage_openSocket {msg : MessageT} (h : msg.Encodable) :
    sendMessage (openSocket []) msg =
      .ok (true, (openSocket []).append (frame (wireFormat msg))) := by
  have hwritable : (openSocket []).Writable := fun _ => rfl
  exact sendMessage_frame h.size (hwritable.acceptsFrame _) (Chunks.whole_never _ _)

/-- A call is handled, and its reply is encoded by one side and decoded by the other. -/
lemma remoteCall_eq (net : Net σ δ) (server : Server δ) (world : σ) {msg : MessageT}
    (h : msg.Encodable) :
    remoteCall net server world msg =
      handleRequest net server world msg >>= fun (reply, server, world) =>
        encodeReply reply >>= fun bytes =>
          receiveMessage (openSocket bytes) >>= fun (answer, _) =>
            .ok (answer, server, world) := by
  have hb := frameBody_wireFormat h.size
  have hcall := networkReceiveSend_whole net server world (openSocket_input_frame _) hb
    (fun _ => rfl) (readsWhole_openSocket _ 4 _)
  rw [answerBody_of_decode net server world (bufferToMessage_wireFormat h)] at hcall
  rw [remoteCall, sendMessage_openSocket h, ok_bind]
  change (networkReceiveSend net server world (openSocket (frame (wireFormat msg))) >>= _) = _
  rw [hcall]
  cases handleRequest net server world msg with
  | error e => rfl
  | ok handled =>
    obtain ⟨reply, server', world'⟩ := handled
    simp only [ok_bind]
    cases encodeReply reply with
    | error e => rfl
    | ok bytes => rfl

/-! ### The forwarded copy of a request -/

lemma output_of_sendMessage {sock sent : Socket} {msg : MessageT} (h : msg.Encodable)
    (hsend : sendMessage sock msg = .ok (true, sent)) :
    sent.output = sock.output ++ frame (wireFormat msg) := by
  by_cases hsent : sock.AcceptsFrame (wireFormat msg) ∧ sock.WritesWhole 4
  · rw [sendMessage_frame h.size hsent.1 hsent.2] at hsend
    simp only [Except.ok.injEq, Prod.mk.injEq, true_and] at hsend
    rw [← hsend]
    rfl
  · obtain ⟨sock', hnot⟩ := sendMessage_of_not_sent h.size hsent
    rw [hnot] at hsend
    simp only [Except.ok.injEq, Prod.mk.injEq] at hsend
    exact absurd hsend.1 Bool.false_ne_true

/-- Whatever the chunks, the other end decodes the message that was sent or none. -/
lemma receiveRequest_of_frame {peer peer' : Socket} {msg request : MessageT} (h : msg.Encodable)
    (hinput : peer.input = frame (wireFormat msg))
    (hreceive : receiveRequest peer = .ok (some request, peer')) : request = msg := by
  classical
  have hframe : peer.input = frame (wireFormat msg) ++ [] := by rw [hinput, List.append_nil]
  rw [receiveRequest_frame hframe (frameBody_wireFormat h.size), bufferToMessage_wireFormat h,
    ok_bind] at hreceive
  split at hreceive
  · simp only [Except.ok.injEq, Prod.mk.injEq, Option.some.injEq] at hreceive
    exact hreceive.1.symm
  · simp only [Except.ok.injEq, Prod.mk.injEq] at hreceive
    cases hreceive.1

/-- An accepted buffer, whatever follows its fields, gives a message that is decoded from its
own encoding again, so that the peer it is sent on to handles the same request. -/
theorem decoded_roundTrip {buf : List UInt8} {msg : MessageT} (hlen : buf.length < 2 ^ 31)
    (h : bufferToMessage buf buf.length = .ok (some msg)) :
    (∃ bytes, messageToBuffer (some msg) = .ok (bytes, bytes.length) ∧
      bufferToMessage bytes bytes.length = .ok (some msg)) ∧
    (∃ sent received, sendMessage (openSocket []) msg = .ok (true, sent) ∧
      receiveRequest (openSocket sent.output) = .ok (some msg, received)) ∧
    ∀ sock sent peer peer' request, sock.output = [] → sendMessage sock msg = .ok (true, sent) →
      peer.input = sent.output → receiveRequest peer = .ok (some request, peer') →
        request = msg := by
  have henc := encodable_of_decoded hlen h
  refine ⟨⟨wireFormat msg, messageToBuffer_eq henc.size, bufferToMessage_wireFormat henc⟩, ?_, ?_⟩
  · exact ⟨_, _, sendMessage_openSocket henc, receiveRequest_wireFormat henc⟩
  · intro sock sent peer peer' request hempty hsend hpeer hreceive
    have hout := output_of_sendMessage henc hsend
    rw [hempty, List.nil_append] at hout
    exact receiveRequest_of_frame henc (hpeer.trans hout) hreceive

/-- OC_DEL of a key with a NUL inside, and one byte too many. -/
theorem decoded_roundTrip_trailing :
    let msg : MessageT := ⟨ocDel, .key (.ofBytes [97])⟩
    bufferToMessage [0, 20, 0, 30, 0, 3, 97, 0, 98, 255] 10 = .ok (some msg) ∧
      ∃ bytes, messageToBuffer (some msg) = .ok (bytes, bytes.length) ∧
        bufferToMessage bytes bytes.length = .ok (some msg) := by
  have h : bufferToMessage [0, 20, 0, 30, 0, 3, 97, 0, 98, 255] 10 =
      .ok (some ⟨ocDel, .key (.ofBytes [97])⟩) := by decide
  exact ⟨h, (decoded_roundTrip (by decide) h).1⟩

variable {net : Net σ δ} {server server' : Server δ} {world world' : σ} {msg reply : MessageT}

lemma remoteCall_error {e : Fault} (h : msg.Encodable)
    (hfault : handleRequest net server world msg = .error e) :
    remoteCall net server world msg = .error e := by
  rw [remoteCall_eq net server world h, hfault, error_bind]

/-- The caller gets the reply that the other side sent. -/
theorem remoteCall_ok (h : msg.Encodable) (hr : reply.Encodable)
    (hok : handleRequest net server world msg = .ok (.message reply, server', world')) :
    remoteCall net server world msg = .ok (some reply, server', world') := by
  rw [remoteCall_eq net server world h, hok, ok_bind]
  simp only [encodeReply, if_pos hr.size, ok_bind, receiveMessage_openSocket hr]

lemma remoteCall_of_ge (h : msg.Encodable) (hr : 2 ^ 31 ≤ (wireFormat reply).length)
    (hok : handleRequest net server world msg = .ok (.message reply, server', world')) :
    remoteCall net server world msg = .error .outOfBounds := by
  rw [remoteCall_eq net server world h, hok, ok_bind]
  simp only [encodeReply, if_neg (not_lt.mpr hr), error_bind]

/-! ### Requests that stay at the server -/

/-- A request without an answer of its own meets the table and is forwarded. -/
lemma handleRequest_of_table (hstatus : msg.opcode ≠ ocStatus) (hup : msg.opcode ≠ ocUp) :
    handleRequest net server world msg =
      invoke server.tabela msg >>= fun (reply, tabela) =>
        forwardWrite net { server with tabela := tabela } world msg >>= fun (server, world) =>
          .ok (reply, server, world) := by
  unfold handleRequest
  simp only [answerStatus, answerUp, if_neg hstatus, if_neg hup, pure_eq_ok, ok_bind]

lemma handleRequest_of_local (hstatus : msg.opcode ≠ ocStatus) (hup : msg.opcode ≠ ocUp)
    (hlocal : ¬server.Forwards msg.opcode) :
    handleRequest net server world msg =
      invoke server.tabela msg >>= fun (reply, tabela) =>
        .ok (reply, { server with tabela := tabela }, world) := by
  rw [handleRequest_of_table hstatus hup]
  congr 1
  funext r
  have hlocal' : ¬({ server with tabela := r.2 } : Server δ).Forwards msg.opcode := hlocal
  simp only [forwardWrite, if_neg hlocal', pure_eq_ok, ok_bind]

lemma not_forwards_of_read {opcode : Int16} (h : isWrite opcode = false) :
    ¬server.Forwards opcode := by
  intro hf
  have hw := hf.1
  rw [h] at hw
  cases hw

lemma not_forwards_of_not_up {opcode : Int16} (h : server.state ≠ stateUp) :
    ¬server.Forwards opcode := fun hf => h hf.2.1

/-! ### Requests of clients -/

variable {n : ℤ} {m : KeyMap}

lemma keyHash_nonneg_of_bucketAt {table : TableT} {key : CString} {list : ListT}
    (hr : table.Represents n m) (h : bucketAt table (keyHash key table.size) = .ok list) :
    0 ≤ keyHash key n := by
  rw [← hr.size]
  exact (bucketAt_eq_ok.mp h).1

lemma keyHash_nonneg_of_tableGet {table : TableT} {key : CString} {found : Option DataT}
    (hr : table.Represents n m) (h : tableGet table key = .ok found) : 0 ≤ keyHash key n := by
  obtain ⟨list, hb, -⟩ := bind_eq_ok h
  exact keyHash_nonneg_of_bucketAt hr hb

lemma keyHash_nonneg_of_invokePut {tabela : TableT} {entry : EntryT} {r : Reply × TableT}
    (hr : tabela.Represents n m) (h : invokePut tabela (.entry entry) = .ok r) :
    0 ≤ keyHash entry.key n := by
  rw [invokePut, Content.entryMember, ok_bind] at h
  obtain ⟨_, hput, -⟩ := bind_eq_ok h
  obtain ⟨_, hget, -⟩ := bind_eq_ok hput
  exact keyHash_nonneg_of_tableGet hr hget

lemma keyHash_nonneg_of_invokeUpdate {tabela : TableT} {entry : EntryT} {r : Reply × TableT}
    (hr : tabela.Represents n m) (h : invokeUpdate tabela (.entry entry) = .ok r) :
    0 ≤ keyHash entry.key n := by
  rw [invokeUpdate, Content.entryMember, ok_bind] at h
  obtain ⟨_, hupdate, -⟩ := bind_eq_ok h
  obtain ⟨_, hb, -⟩ := bind_eq_ok hupdate
  exact keyHash_nonneg_of_bucketAt hr hb

lemma keyHash_nonneg_of_invokeDel {tabela : TableT} {key : CString} {r : Reply × TableT}
    (hr : tabela.Represents n m) (h : invokeDel tabela (.key key) = .ok r) :
    0 ≤ keyHash key n := by
  rw [invokeDel, Content.keyMember, ok_bind] at h
  obtain ⟨_, hdel, -⟩ := bind_eq_ok h
  obtain ⟨_, hb, -⟩ := bind_eq_ok hdel
  exact keyHash_nonneg_of_bucketAt hr hb

lemma indexable_of_invoke {tabela : TableT} (hr : tabela.Represents n m) {request : Request}
    (hwrite : isWrite request.msg.opcode) {r : Reply × TableT}
    (h : invoke tabela request.msg = .ok r) : request.Indexable n := by
  obtain ⟨entry, rfl⟩ | ⟨entry, rfl⟩ | ⟨key, rfl⟩ := exists_write hwrite
  · rw [Request.msg, invoke_put] at h
    intro key hmem
    rw [List.mem_singleton.mp hmem]
    exact keyHash_nonneg_of_invokePut hr h
  · rw [Request.msg, invoke_update] at h
    intro key hmem
    rw [List.mem_singleton.mp hmem]
    exact keyHash_nonneg_of_invokeUpdate hr h
  · rw [Request.msg, invoke_del] at h
    intro k hmem
    rw [List.mem_singleton.mp hmem]
    exact keyHash_nonneg_of_invokeDel hr h

lemma request_not_own (request : Request) :
    request.msg.opcode ≠ ocStatus ∧ request.msg.opcode ≠ ocUp := by
  cases request <;> simp only [Request.msg] <;> decide

variable {request : Request}

lemma ne_get_of_write (hwrite : isWrite request.msg.opcode) (key : CString) :
    request ≠ .get key := by
  rintro rfl
  exact absurd hwrite (show ¬isWrite ocGet by decide)

lemma encodable_reply (hget : ∀ key, request ≠ .get key) (m : KeyMap) :
    (request.reply m).Encodable := by
  have hfound : ∀ opcode found, (foundMsg opcode found).Encodable := by
    intro opcode found
    unfold foundMsg
    split
    · exact encodable_result _ _
    · exact encodable_result _ _
  cases request with
  | size result => exact encodable_result _ _
  | get key => exact absurd rfl (hget key)
  | put entry => exact encodable_result _ _
  | update entry => exact hfound _ _
  | del key => exact hfound _ _

/-- A write that `invoke` survives is answered from the contents and changes them as it says. -/
lemma invoke_write {tabela tabela' : TableT} {reply : Reply} (hr : tabela.Represents n m)
    (hwrite : isWrite request.msg.opcode)
    (h : invoke tabela request.msg = .ok (reply, tabela')) :
    reply = .message (request.reply m) ∧ tabela'.Represents n (request.apply m) := by
  have hi := indexable_of_invoke hr hwrite h
  obtain ⟨tabela'', hok, hr'⟩ := invoke_refines hr hi (ne_get_of_write hwrite bang)
  rw [h] at hok
  simp only [Except.ok.injEq, Prod.mk.injEq] at hok
  rw [hok.2]
  exact ⟨hok.1, hr'⟩

lemma handleRequest_write {reply : Reply} (hr : server.tabela.Represents n m)
    (hwrite : isWrite request.msg.opcode) (hlocal : ¬server.Forwards request.msg.opcode)
    (h : handleRequest net server world request.msg = .ok (reply, server', world')) :
    ∃ tabela, reply = .message (request.reply m) ∧ server' = { server with tabela := tabela } ∧
      tabela.Represents n (request.apply m) := by
  obtain ⟨hstatus, hup⟩ := request_not_own request
  rw [handleRequest_of_local hstatus hup hlocal] at h
  obtain ⟨⟨reply', tabela⟩, hinvoke, hserver⟩ := bind_eq_ok h
  simp only [Except.ok.injEq, Prod.mk.injEq] at hserver
  obtain ⟨hreply, hr'⟩ := invoke_write hr hwrite hinvoke
  exact ⟨tabela, hserver.1.symm.trans hreply, hserver.2.1.symm, hr'⟩

end RemoteTable
