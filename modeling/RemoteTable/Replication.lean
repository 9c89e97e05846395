import RemoteTable.Rejoin
import RemoteTable.DecodeBounds

/-!
# A primary and its secondary

Clients send table requests to the primary, which forwards the writes. The steps are the
parts of `network_receive_send` at the two servers, with the bytes that are in flight
between them, so a run can be looked at (and the primary can stop) between any two of them.
-/

namespace RemoteTable

/-- Where the primary is with the request it handles, and what is on its way. -/
inductive PairPhase
  | idle
  /-- The primary has applied the request to its own table. -/
  | invoked (request : Request) (reply : Reply)
  /-- The request is on its way to the secondary. -/
  | forwarded (request : Request) (reply : Reply) (sent : List UInt8)
  /-- The secondary has applied it. -/
  | applied (request : Request) (reply backupReply : Reply)
  /-- The reply of the secondary is on its way. -/
  | answered (request : Request) (reply : Reply) (sent : List UInt8)
  /-- The reply to the client is not yet sent. -/
  | settled (request : Request) (reply : Reply)

/-- The request whose reply has not yet been sent to its client. -/
def PairPhase.pending : PairPhase → Option Request
  | .idle => none
  | .invoked request _ | .forwarded request _ _ | .applied request _ _
  | .answered request _ _ | .settled request _ => some request

/-- The request and the reply of a primary that is about to call or has called the secondary. -/
def PairPhase.calling : PairPhase → Option (Request × Reply)
  | .idle | .settled _ _ => none
  | .invoked request reply | .forwarded request reply _ | .applied request reply _
  | .answered request reply _ => some (request, reply)

/-- The two servers, and the requests whose replies were sent to the clients. -/
structure Pair where
  primary : Server Unit
  backup : Server Unit
  phase : PairPhase
  acknowledged : List Request

/-- One part of `network_receive_send` at one of the servers. -/
inductive Pair.Step (n n' : ℤ) : Pair → Pair → Prop
  | receive {s : Pair} {request : Request} {body : List UInt8} {sock : Socket} {reply : Reply}
      {tabela : TableT} (hphase : s.phase = .idle) (hbody : FrameBody body)
      (hreceive : receiveRequest (openSocket (frame body)) = .ok (some request.msg, sock))
      (hn : request.Indexable n) (hn' : request.Indexable n')
      (hinvoke : invoke s.primary.tabela request.msg = .ok (reply, tabela)) :
      Step n n' s ⟨{ s.primary with tabela := tabela }, s.backup, .invoked request reply,
        s.acknowledged⟩
  | forward {s : Pair} {request : Request} {reply : Reply} {sock : Socket}
      (hphase : s.phase = .invoked request reply)
      (hforwards : s.primary.Forwards request.msg.opcode)
      (hconnected : s.primary.currentBackup = some ())
      (hsend : sendMessage (openSocket []) request.msg = .ok (true, sock)) :
      Step n n' s ⟨s.primary, s.backup, .forwarded request reply sock.output, s.acknowledged⟩
  | keep {s : Pair} {request : Request} {reply : Reply}
      (hphase : s.phase = .invoked request reply)
      (hkeep : ¬s.primary.Forwards request.msg.opcode) :
      Step n n' s ⟨s.primary, s.backup, .settled request reply, s.acknowledged⟩
  | apply {s : Pair} {request : Request} {reply backupReply : Reply} {sent : List UInt8}
      {msg : MessageT} {sock : Socket} {backup : Server Unit}
      (hphase : s.phase = .forwarded request reply sent)
      (hreceive : receiveRequest (openSocket sent) = .ok (some msg, sock))
      (hhandle : handleRequest noNet s.backup () msg = .ok (backupReply, backup, ())) :
      Step n n' s ⟨s.primary, backup, .applied request reply backupReply, s.acknowledged⟩
  | answer {s : Pair} {request : Request} {reply backupReply : Reply} {sock : Socket}
      (hphase : s.phase = .applied request reply backupReply)
      (hsend : sendReply (openSocket []) backupReply = .ok (1, sock)) :
      Step n n' s ⟨s.primary, s.backup, .answered request reply sock.output, s.acknowledged⟩
  | settle {s : Pair} {request : Request} {reply : Reply} {sent : List UInt8}
      {answer : Option MessageT} {sock : Socket} (hphase : s.phase = .answered request reply sent)
      (hreceive : receiveMessage (openSocket sent) = .ok (answer, sock)) :
      Step n n' s ⟨if answer = none then { s.primary with state := stateDown } else s.primary,
        s.backup, .settled request reply, s.acknowledged⟩
  /-- The secondary has stopped, and `network_send_receive` returns `NULL`. -/
  | lost {s : Pair} {request : Request} {reply : Reply}
      (hphase : s.phase.calling = some (request, reply))
      (hforwards : s.primary.Forwards request.msg.opcode) :
      Step n n' s ⟨{ s.primary with state := stateDown }, s.backup, .settled request reply,
        s.acknowledged⟩
  | reply {s : Pair} {request : Request} {reply : Reply} {sock : Socket}
      (hphase : s.phase = .settled request reply)
      (hsend : sendReply (openSocket []) reply = .ok (1, sock)) :
      Step n n' s ⟨s.primary, s.backup, .idle, s.acknowledged ++ [request]⟩

/-- Equal contents, the primary connected to the secondary, and no request yet. -/
structure Pair.Start (s : Pair) (n n' : ℤ) (m : KeyMap) : Prop where
  phase : s.phase = .idle
  acknowledged : s.acknowledged = []
  primary : s.primary.tabela.Reachable n
  primaryContents : s.primary.tabela.contents = m
  backup : s.backup.tabela.Reachable n'
  backupContents : s.backup.tabela.contents = m
  isPrimary : s.primary.status = statusPrimary
  isUp : s.primary.state = stateUp
  connected : s.primary.currentBackup = some ()
  isSecundary : s.backup.status = statusSecundary

/-- The contents after the requests that were acknowledged. -/
def Pair.promised (s : Pair) (m : KeyMap) : KeyMap := s.acknowledged.foldl Request.apply m

/-! ### What holds in each phase -/

def PairPhase.Holds (phase : PairPhase) (primary backup promised : KeyMap) : Prop :=
  match phase with
  | .idle => primary = promised ∧ backup = promised
  | .invoked request _ =>
    primary = request.apply promised ∧ backup = promised ∧ request.msg.Encodable
  | .forwarded request _ sent =>
    primary = request.apply promised ∧ backup = promised ∧ isWrite request.msg.opcode ∧
      request.msg.Encodable ∧ sent = frame (wireFormat request.msg)
  | .applied request _ backupReply =>
    primary = request.apply promised ∧ backup = request.apply promised ∧
      ∃ msg, msg.Encodable ∧ backupReply = .message msg
  | .answered request _ sent =>
    primary = request.apply promised ∧ backup = request.apply promised ∧
      ∃ msg : MessageT, msg.Encodable ∧ sent = frame (wireFormat msg)
  | .settled request _ => primary = request.apply promised ∧ backup = request.apply promised

/-- In every phase the secondary is at most one request behind the primary, and at most one
ahead of what was acknowledged. -/
lemma PairPhase.Holds.agree {phase : PairPhase} {primary backup promised : KeyMap}
    (h : phase.Holds primary backup promised) :
    (primary = promised ∧ backup = promised) ∨
      ∃ request, phase.pending = some request ∧ primary = request.apply promised ∧
        (backup = promised ∨ backup = request.apply promised) := by
  cases phase with
  | idle => exact .inl h
  | invoked request reply => exact .inr ⟨request, rfl, h.1, .inl h.2.1⟩
  | forwarded request reply sent => exact .inr ⟨request, rfl, h.1, .inl h.2.1⟩
  | applied request reply backupReply => exact .inr ⟨request, rfl, h.1, .inr h.2.1⟩
  | answered request reply sent => exact .inr ⟨request, rfl, h.1, .inr h.2.1⟩
  | settled request reply => exact .inr ⟨request, rfl, h.1, .inr h.2⟩

structure Pair.Inv (s : Pair) (n n' : ℤ) (m : KeyMap) : Prop where
  primary : s.primary.tabela.Represents n s.primary.tabela.contents
  backup : s.backup.tabela.Represents n' s.backup.tabela.contents
  isPrimary : s.primary.status = statusPrimary
  isSecundary : s.backup.status = statusSecundary
  phase : s.phase.Holds s.primary.tabela.contents s.backup.tabela.contents (s.promised m)

lemma apply_of_read {request : Request} (h : ¬isWrite request.msg.opcode) (m : KeyMap) :
    request.apply m = m := by
  obtain ⟨result, rfl⟩ | ⟨key, rfl⟩ := exists_read h
  · rfl
  · rfl

/-! ### One lemma for each step -/

variable {s : Pair} {n n' : ℤ} {m : KeyMap} {request : Request} {reply backupReply : Reply}
  {sent : List UInt8} {sock : Socket}

lemma Pair.Inv.holds (h : s.Inv n n' m) {phase : PairPhase} (hphase : s.phase = phase) :
    phase.Holds s.primary.tabela.contents s.backup.tabela.contents (s.promised m) :=
  hphase ▸ h.phase

lemma Pair.Inv.receive (h : s.Inv n n' m) (hphase : s.phase = .idle) {body : List UInt8}
    (hbody : FrameBody body)
    (hreceive : receiveRequest (openSocket (frame body)) = .ok (some request.msg, sock))
    (hn : request.Indexable n) {tabela : TableT}
    (hinvoke : invoke s.primary.tabela request.msg = .ok (reply, tabela)) :
    Pair.Inv ⟨{ s.primary with tabela := tabela }, s.backup, .invoked request reply,
      s.acknowledged⟩ n n' m := by
  obtain ⟨hprimary, hbackup⟩ := h.holds hphase
  obtain ⟨msg, tabela', hok, hr⟩ := invoke_represents h.primary hn
  rw [hinvoke] at hok
  simp only [Except.ok.injEq, Prod.mk.injEq] at hok
  obtain ⟨-, rfl⟩ := hok
  rw [receiveRequest_openSocket hbody] at hreceive
  obtain ⟨decoded, hdecode, hsame⟩ := bind_eq_ok hreceive
  simp only [Except.ok.injEq, Prod.mk.injEq] at hsame
  rw [hsame.1] at hdecode
  refine ⟨hr.self, h.backup, h.isPrimary, h.isSecundary, ?_, hbackup,
    encodable_of_decoded hbody.2 hdecode⟩
  change tabela.contents = request.apply (s.promised m)
  rw [← hprimary]
  exact hr.contents

lemma Pair.Inv.forward (h : s.Inv n n' m) (hphase : s.phase = .invoked request reply)
    (hforwards : s.primary.Forwards request.msg.opcode)
    (hsend : sendMessage (openSocket []) request.msg = .ok (true, sock)) :
    Pair.Inv ⟨s.primary, s.backup, .forwarded request reply sock.output, s.acknowledged⟩
      n n' m := by
  obtain ⟨hprimary, hbackup, hencodable⟩ := h.holds hphase
  rw [sendMessage_openSocket hencodable] at hsend
  simp only [Except.ok.injEq, Prod.mk.injEq, true_and] at hsend
  exact ⟨h.primary, h.backup, h.isPrimary, h.isSecundary, hprimary, hbackup, hforwards.1,
    hencodable, by rw [← hsend]; rfl⟩

lemma Pair.Inv.keep (h : s.Inv n n' m) (hup : s.primary.state = stateUp)
    (hphase : s.phase = .invoked request reply)
    (hkeep : ¬s.primary.Forwards request.msg.opcode) :
    Pair.Inv ⟨s.primary, s.backup, .settled request reply, s.acknowledged⟩ n n' m := by
  obtain ⟨hprimary, hbackup, -⟩ := h.holds hphase
  have hread : ¬isWrite request.msg.opcode := fun hw => hkeep ⟨hw, hup, h.isPrimary⟩
  refine ⟨h.primary, h.backup, h.isPrimary, h.isSecundary, hprimary, ?_⟩
  rw [apply_of_read hread]
  exact hbackup

/-- The secondary decodes the request that the primary encoded and applies it as the primary did. -/
lemma Pair.Inv.apply (h : s.Inv n n' m) (hphase : s.phase = .forwarded request reply sent)
    {msg : MessageT} {backup : Server Unit}
    (hreceive : receiveRequest (openSocket sent) = .ok (some msg, sock))
    (hhandle : handleRequest noNet s.backup () msg = .ok (backupReply, backup, ())) :
    Pair.Inv ⟨s.primary, backup, .applied request reply backupReply, s.acknowledged⟩ n n' m := by
  obtain ⟨hprimary, hbackup, hwrite, hencodable, rfl⟩ := h.holds hphase
  rw [receiveRequest_wireFormat hencodable] at hreceive
  simp only [Except.ok.injEq, Prod.mk.injEq, Option.some.injEq] at hreceive
  obtain ⟨rfl, -⟩ := hreceive
  have hlocal : ¬s.backup.Forwards request.msg.opcode := by
    intro hf
    have hrole := hf.2.2
    rw [h.isSecundary] at hrole
    exact absurd hrole (by decide)
  obtain ⟨tabela, rfl, rfl, hr⟩ := handleRequest_write h.backup hwrite hlocal hhandle
  refine ⟨h.primary, hr.self, h.isPrimary, h.isSecundary, hprimary, ?_,
    _, encodable_reply (ne_get_of_write hwrite) _, rfl⟩
  rw [hbackup] at hr
  exact hr.contents

lemma Pair.Inv.answer (h : s.Inv n n' m) (hphase : s.phase = .applied request reply backupReply)
    (hsend : sendReply (openSocket []) backupReply = .ok (1, sock)) :
    Pair.Inv ⟨s.primary, s.backup, .answered request reply sock.output, s.acknowledged⟩
      n n' m := by
  obtain ⟨hprimary, hbackup, msg, hencodable, rfl⟩ := h.holds hphase
  rw [sendReply_eq (fun _ => rfl), encodeReply, if_pos hencodable.size, ok_bind] at hsend
  simp only [Except.ok.injEq, Prod.mk.injEq, true_and] at hsend
  exact ⟨h.primary, h.backup, h.isPrimary, h.isSecundary, hprimary, hbackup, msg, hencodable,
    by rw [← hsend]; rfl⟩

/-- The reply of the secondary is never `NULL`, so its state stays up. -/
lemma Pair.Inv.settle (h : s.Inv n n' m) (hphase : s.phase = .answered request reply sent)
    {answer : Option MessageT}
    (hreceive : receiveMessage (openSocket sent) = .ok (answer, sock)) :
    Pair.Inv ⟨if answer = none then { s.primary with state := stateDown } else s.primary,
      s.backup, .settled request reply, s.acknowledged⟩ n n' m := by
  obtain ⟨hprimary, hbackup, msg, hencodable, rfl⟩ := h.holds hphase
  rw [receiveMessage_openSocket hencodable] at hreceive
  simp only [Except.ok.injEq, Prod.mk.injEq] at hreceive
  rw [← hreceive.1, if_neg (by simp)]
  exact ⟨h.primary, h.backup, h.isPrimary, h.isSecundary, hprimary, hbackup⟩

lemma Pair.Inv.acknowledge (h : s.Inv n n' m) (hphase : s.phase = .settled request reply) :
    Pair.Inv ⟨s.primary, s.backup, .idle, s.acknowledged ++ [request]⟩ n n' m := by
  obtain ⟨hprimary, hbackup⟩ := h.holds hphase
  have hpromised : Pair.promised ⟨s.primary, s.backup, .idle, s.acknowledged ++ [request]⟩ m =
      request.apply (s.promised m) := by
    simp only [Pair.promised, List.foldl_append, List.foldl_cons, List.foldl_nil]
  refine ⟨h.primary, h.backup, h.isPrimary, h.isSecundary, ?_⟩
  rw [hpromised]
  exact ⟨hprimary, hbackup⟩

/-- While the state is up, every step keeps the two servers together. -/
theorem Pair.Inv.step (h : s.primary.state = stateUp → s.Inv n n' m) {s' : Pair}
    (hstep : s.Step n n' s') (hup : s'.primary.state = stateUp) : s'.Inv n n' m := by
  have hdown : stateDown ≠ stateUp := by decide
  cases hstep with
  | receive hphase hbody hreceive hn hn' hinvoke =>
    exact (h hup).receive hphase hbody hreceive hn hinvoke
  | forward hphase hforwards hconnected hsend => exact (h hup).forward hphase hforwards hsend
  | keep hphase hkeep => exact (h hup).keep hup hphase hkeep
  | apply hphase hreceive hhandle => exact (h hup).apply hphase hreceive hhandle
  | answer hphase hsend => exact (h hup).answer hphase hsend
  | settle hphase hreceive =>
    rename_i answer _
    by_cases hnone : answer = none
    · simp only [if_pos hnone] at hup
      exact absurd hup hdown
    · simp only [if_neg hnone] at hup
      exact (h hup).settle hphase hreceive
  | lost hphase hforwards => exact absurd hup hdown
  | reply hphase hsend => exact (h hup).acknowledge hphase

lemma Pair.Start.inv (h : s.Start n n' m) : s.Inv n n' m := by
  refine ⟨h.primary.represents, h.backup.represents, h.isPrimary, h.isSecundary, ?_⟩
  rw [h.phase, Pair.promised, h.acknowledged]
  exact ⟨h.primaryContents, h.backupContents⟩

/-- While the state stays up the secondary holds what the primary holds, except for the one
request whose reply the client has not been sent, and every request that was acknowledged. -/
theorem pair_agrees {s s' : Pair} (hstart : s.Start n n' m)
    (hrun : Relation.ReflTransGen (Pair.Step n n') s s') (hup : s'.primary.state = stateUp) :
    (s'.backup.tabela.contents = s'.primary.tabela.contents ∨
      ∃ request, s'.phase.pending = some request ∧
        s'.primary.tabela.contents = request.apply s'.backup.tabela.contents) ∧
    (s'.backup.tabela.contents = s'.promised m ∨
      ∃ request, s'.phase.pending = some request ∧
        s'.backup.tabela.contents = request.apply (s'.promised m)) := by
  have hinv := Machine.reachable_invariant (fun t => t.primary.state = stateUp → t.Inv n n' m)
    (fun t t' ht hstep => Pair.Inv.step ht hstep) (fun _ => hstart.inv) hrun
  rcases (hinv hup).phase.agree with ⟨hprimary, hbackup⟩ | ⟨request, hpending, hprimary, hbackup⟩
  · exact ⟨.inl (hbackup.trans hprimary.symm), .inl hbackup⟩
  · rcases hbackup with hbackup | hbackup
    · exact ⟨.inr ⟨request, hpending, hbackup ▸ hprimary⟩, .inl hbackup⟩
    · exact ⟨.inl (hbackup.trans hprimary.symm), .inr ⟨request, hpending, hbackup⟩⟩

/-- Both servers have put `letterA`, and the client has been sent the reply. -/
def letterAcknowledged : Pair where
  primary := letterServer stateUp (some ())
  backup := ⟨letterBackup, statusSecundary, stateUp, none⟩
  phase := .idle
  acknowledged := [.put letterA]

theorem pair_agrees_letter :
    letterAcknowledged.backup.tabela.contents = letterAcknowledged.primary.tabela.contents ∧
      letterAcknowledged.backup.tabela.contents = letterAcknowledged.promised ∅ := by
  let backup : Server Unit := ⟨emptyBackup, statusSecundary, stateUp, none⟩
  let primary : Server Unit := { emptyServer with state := stateUp, currentBackup := some () }
  have hstart : Pair.Start ⟨primary, backup, .idle, []⟩ 1 2 ∅ :=
    { phase := rfl
      acknowledged := rfl
      primary := ⟨_, [], [], rfl, by simp, rfl⟩
      primaryContents := rfl
      backup := ⟨_, [], [], rfl, by simp, rfl⟩
      backupContents := rfl
      isPrimary := rfl
      isUp := rfl
      connected := rfl
      isSecundary := rfl }
  have hencodable : (Request.put letterA).msg.Encodable := ⟨by decide, by decide⟩
  have hinvoke : invoke primary.tabela (Request.put letterA).msg =
      .ok (.message (resultMsg (ocPut + 1) 0), ⟨[⟨1, [letterA]⟩], 1, 1⟩) := by decide
  have hindex : (Request.put letterA).Indexable 1 ∧ (Request.put letterA).Indexable 2 := by
    simp only [Request.Indexable, Request.keys, List.forall_mem_singleton]
    decide
  have hhandle : handleRequest noNet backup () (Request.put letterA).msg =
      .ok (.message (resultMsg (ocPut + 1) 0), ⟨letterBackup, statusSecundary, stateUp, none⟩, ()) := by
    decide
  have hreply : (resultMsg (ocPut + 1) 0).Encodable := encodable_result _ _
  have hanswer : sendReply (openSocket []) (.message (resultMsg (ocPut + 1) 0)) =
      .ok (1, (openSocket []).append (frame (wireFormat (resultMsg (ocPut + 1) 0)))) := by
    rw [sendReply_eq (fun _ => rfl), encodeReply, if_pos hreply.size, ok_bind]
  have hrun : Relation.ReflTransGen (Pair.Step 1 2) ⟨primary, backup, .idle, []⟩
      letterAcknowledged :=
    (((((Relation.ReflTransGen.single
      (.receive rfl (by decide) (receiveRequest_wireFormat hencodable) hindex.1 hindex.2
        hinvoke)).tail
      (.forward rfl (by decide) rfl (sendMessage_openSocket hencodable))).tail
      (.apply rfl (receiveRequest_wireFormat hencodable) hhandle)).tail
      (.answer rfl hanswer)).tail
      (.settle rfl (receiveMessage_openSocket hreply))).tail (.reply rfl hanswer)
  obtain ⟨hagree, hpromised⟩ := pair_agrees hstart hrun rfl
  -- no request is pending
  constructor
  · exact hagree.resolve_right fun hpending => by
      obtain ⟨request, hsome, -⟩ := hpending
      cases hsome
  · exact hpromised.resolve_right fun hpending => by
      obtain ⟨request, hsome, -⟩ := hpending
      cases hsome

/-! ### A whole call -/

/-- The part of the call at the secondary, from the forwarded request to the answer. -/
lemma remoteCall_steps {s : Pair} (hphase : s.phase = .invoked request reply)
    (hforwards : s.primary.Forwards request.msg.opcode)
    (hconnected : s.primary.currentBackup = some ()) (hencodable : request.msg.Encodable)
    {answer : Option MessageT} {backup : Server Unit}
    (hcall : remoteCall noNet s.backup () request.msg = .ok (answer, backup, ())) :
    Relation.ReflTransGen (Pair.Step n n') s
      ⟨if answer = none then { s.primary with state := stateDown } else s.primary, backup,
        .settled request reply, s.acknowledged⟩ := by
  rw [remoteCall_eq _ _ _ hencodable] at hcall
  obtain ⟨⟨backupReply, backup', world⟩, hhandle, hcall⟩ := bind_eq_ok hcall
  obtain ⟨bytes, hencode, hcall⟩ := bind_eq_ok hcall
  obtain ⟨⟨answer', sock⟩, hreceive, hcall⟩ := bind_eq_ok hcall
  simp only [Except.ok.injEq, Prod.mk.injEq, and_true] at hcall
  obtain ⟨rfl, rfl⟩ := hcall
  have hanswer : sendReply (openSocket []) backupReply = .ok (1, (openSocket []).append bytes) := by
    rw [sendReply_eq (fun _ => rfl), hencode, ok_bind]
  exact (((Relation.ReflTransGen.single (.forward hphase hforwards hconnected
    (sendMessage_openSocket hencodable))).tail
    (.apply rfl (receiveRequest_wireFormat hencodable) hhandle)).tail
    (.answer rfl hanswer)).tail (.settle rfl hreceive)

/-- What forwards the request to the secondary, if anything does, is a run of the steps. -/
lemma forwardWrite_steps {s : Pair} (hphase : s.phase = .invoked request reply)
    (hencodable : request.msg.Encodable) {primary backup : Server Unit}
    (hforward : forwardWrite (peerNet noNet) s.primary (s.backup, ()) request.msg =
      .ok (primary, (backup, ()))) :
    Relation.ReflTransGen (Pair.Step n n') s
      ⟨primary, backup, .settled request reply, s.acknowledged⟩ := by
  unfold forwardWrite at hforward
  by_cases hforwards : s.primary.Forwards request.msg.opcode
  · rw [if_pos hforwards] at hforward
    split at hforward
    · simp only [pure_eq_ok, Except.ok.injEq, Prod.mk.injEq, and_true] at hforward
      obtain ⟨rfl, rfl⟩ := hforward
      exact .single (.lost (by rw [hphase]; rfl) hforwards)
    · next peer hconnected =>
      obtain ⟨⟨answer, backup', world⟩, hcall, hforward⟩ := bind_eq_ok hforward
      obtain ⟨⟨answer', backup'', world'⟩, hremote, hcall⟩ := bind_eq_ok hcall
      simp only [pure_eq_ok, Except.ok.injEq, Prod.mk.injEq, and_true] at hcall
      obtain ⟨rfl, rfl⟩ := hcall
      have hsteps : Relation.ReflTransGen (Pair.Step n n') s _ :=
        remoteCall_steps hphase hforwards hconnected hencodable hremote
      cases answer' with
      | none =>
        simp only [pure_eq_ok, Except.ok.injEq, Prod.mk.injEq, and_true] at hforward
        obtain ⟨rfl, rfl⟩ := hforward
        exact hsteps
      | some msg =>
        simp only [pure_eq_ok, Except.ok.injEq, Prod.mk.injEq, and_true] at hforward
        obtain ⟨rfl, rfl⟩ := hforward
        exact hsteps
  · rw [if_neg hforwards] at hforward
    simp only [pure_eq_ok, Except.ok.injEq, Prod.mk.injEq, and_true] at hforward
    obtain ⟨rfl, rfl⟩ := hforward
    exact .single (.keep hphase hforwards)

/-- `network_receive_send` at the primary, with the one at the secondary inside it, is a run of
the steps. -/
theorem networkReceiveSend_steps {s : Pair} (hphase : s.phase = .idle) {body : List UInt8}
    (hbody : FrameBody body)
    (hreceive : receiveRequest (openSocket (frame body)) = .ok (some request.msg, sock))
    (hn : request.Indexable n) (hn' : request.Indexable n') {primary backup : Server Unit}
    {sock' : Socket}
    (hcall : networkReceiveSend (peerNet noNet) s.primary (s.backup, ())
      (openSocket (frame body)) = .ok (1, primary, (backup, ()), sock')) :
    Relation.ReflTransGen (Pair.Step n n') s
      ⟨primary, backup, .idle, s.acknowledged ++ [request]⟩ := by
  have hdecode := hreceive
  rw [receiveRequest_openSocket hbody] at hdecode
  obtain ⟨decoded, hdecode, hsame⟩ := bind_eq_ok hdecode
  simp only [Except.ok.injEq, Prod.mk.injEq] at hsame
  obtain ⟨rfl, hsock⟩ := hsame
  have hencodable := encodable_of_decoded hbody.2 hdecode
  rw [networkReceiveSend, hreceive, ok_bind] at hcall
  obtain ⟨⟨reply, primary', world⟩, hhandle, hcall⟩ := bind_eq_ok hcall
  obtain ⟨⟨result, sock''⟩, hsend, hcall⟩ := bind_eq_ok hcall
  simp only [pure_eq_ok, Except.ok.injEq, Prod.mk.injEq] at hcall
  obtain ⟨rfl, rfl, rfl, rfl⟩ := hcall
  obtain ⟨hstatus, hup⟩ := request_not_own request
  rw [handleRequest_of_table hstatus hup] at hhandle
  obtain ⟨⟨reply', tabela⟩, hinvoke, hhandle⟩ := bind_eq_ok hhandle
  obtain ⟨⟨primary'', backup', world'⟩, hforward, hhandle⟩ := bind_eq_ok hhandle
  simp only [Except.ok.injEq, Prod.mk.injEq, and_true] at hhandle
  obtain ⟨rfl, rfl, rfl⟩ := hhandle
  have hopen : sock.Writable := by
    rw [← hsock]
    exact fun _ => rfl
  rw [sendReply_eq hopen] at hsend
  obtain ⟨bytes, hencode, -⟩ := bind_eq_ok hsend
  have hanswer : sendReply (openSocket []) reply' = .ok (1, (openSocket []).append bytes) := by
    rw [sendReply_eq (fun _ => rfl), hencode, ok_bind]
  have hinvoked : Pair.Step n n' s _ := .receive hphase hbody hreceive hn hn' hinvoke
  exact ((Relation.ReflTransGen.single hinvoked).trans
    (forwardWrite_steps rfl hencodable hforward)).tail (.reply rfl hanswer)

end RemoteTable
