import RemoteTable.RemoteCall
import RemoteTable.Library.Machine

/-!
# Answers of the secondary

A forwarded write decides about `state` and about nothing else: two runs of a primary on the
same requests, with different secondaries, hold the same table and send the same replies.
-/

namespace RemoteTable

variable {σ σ' δ δ' : Type}

/-- The net of a server whose backup answers a forwarded write with any message or with none. -/
def answeringNet (networkConnect : σ → CString → Option δ × σ)
    (answer : σ → δ → MessageT → Option MessageT × σ) : Net σ δ where
  networkConnect := networkConnect
  networkSendReceive world backup msg := .ok (answer world backup msg)

/-- One request, with the result, the connection and the table after it for all to see. -/
def answerSocket (net : Net σ δ) (s : Server δ × σ) (sock : Socket) :
    Except Fault ((ℤ × Socket × TableT) × (Server δ × σ)) := do
  let (result, server, world, sock) ← networkReceiveSend net s.1 s.2 sock
  return ((result, sock, server.tabela), (server, world))

/-- Two primaries that differ in their backup only. -/
def SameService (s : Server δ × σ) (s' : Server δ' × σ') : Prop :=
  s.1.tabela = s'.1.tabela ∧ s.1.status = s'.1.status

variable (networkConnect : σ → CString → Option δ × σ)
  (answer : σ → δ → MessageT → Option MessageT × σ)

lemma forwardWrite_answering (server : Server δ) (world : σ) (msg : MessageT) :
    ∃ server' world', forwardWrite (answeringNet networkConnect answer) server world msg =
        .ok (server', world') ∧
      server'.tabela = server.tabela ∧ server'.status = server.status := by
  unfold forwardWrite
  by_cases hforwards : server.Forwards msg.opcode
  · rw [if_pos hforwards]
    split
    · exact ⟨_, _, rfl, rfl, rfl⟩
    · rename_i backup _
      simp only [answeringNet, ok_bind]
      cases answer world backup msg with
      | mk reply world' =>
        cases reply with
        | none => exact ⟨_, _, rfl, rfl, rfl⟩
        | some reply => exact ⟨_, _, rfl, rfl, rfl⟩
  · rw [if_neg hforwards]
    exact ⟨_, _, rfl, rfl, rfl⟩

lemma handleRequest_answering (server : Server δ) (world : σ) {msg : MessageT}
    (hup : msg.opcode ≠ ocUp) {reply : Reply} {tabela : TableT}
    (h : invoke server.tabela msg = .ok (reply, tabela)) :
    ∃ server' world', handleRequest (answeringNet networkConnect answer) server world msg =
        .ok (answerStatus server msg reply, server', world') ∧
      server'.tabela = tabela ∧ server'.status = server.status := by
  obtain ⟨server', world', hforward, htable, hstatus⟩ := forwardWrite_answering
    networkConnect answer { server with tabela := tabela } world msg
  refine ⟨server', world', ?_, htable, hstatus⟩
  have hanswer : answerStatus { server with tabela := tabela } msg reply =
      answerStatus server msg reply := rfl
  simp only [handleRequest, h, ok_bind, answerUp, if_neg hup, pure_eq_ok, hforward, hanswer]

variable (networkConnect' : σ' → CString → Option δ' × σ')
  (answer' : σ' → δ' → MessageT → Option MessageT × σ')

/-- One request, at two primaries with the same table. -/
theorem answerSocket_alike {s : Server δ × σ} {s' : Server δ' × σ'} (hsame : SameService s s')
    {sock : Socket}
    (hup : ∀ msg sock', receiveRequest sock = .ok (some msg, sock') → msg.opcode ≠ ocUp) :
    Machine.Alike SameService (answerSocket (answeringNet networkConnect answer) s sock)
      (answerSocket (answeringNet networkConnect' answer') s' sock) := by
  obtain ⟨server, world⟩ := s
  obtain ⟨server', world'⟩ := s'
  obtain ⟨htable, hstatus⟩ := hsame
  simp only at htable hstatus
  unfold answerSocket networkReceiveSend
  cases hreceive : receiveRequest sock with
  | error e => exact .error e
  | ok received =>
    obtain ⟨request, sock₁⟩ := received
    simp only [ok_bind]
    cases request with
    | none =>
      simp only [pure_eq_ok, ok_bind]
      rw [htable]
      exact .ok ⟨htable, hstatus⟩
    | some msg =>
      have hop := hup msg sock₁ hreceive
      simp only
      cases hinvoke : invoke server.tabela msg with
      | error e =>
        have hinvoke' := hinvoke
        rw [htable] at hinvoke'
        simp only [handleRequest, hinvoke, hinvoke', error_bind]
        exact .error e
      | ok invoked =>
        obtain ⟨reply, tabela⟩ := invoked
        have hinvoke' := hinvoke
        rw [htable] at hinvoke'
        obtain ⟨server₁, world₁, hhandle, ht₁, hs₁⟩ := handleRequest_answering
          networkConnect answer server world hop hinvoke
        obtain ⟨server₂, world₂, hhandle', ht₂, hs₂⟩ := handleRequest_answering
          networkConnect' answer' server' world' hop hinvoke'
        have hreply : answerStatus server' msg reply = answerStatus server msg reply := by
          simp only [answerStatus, hstatus]
        simp only [hhandle, hhandle', hreply, ok_bind]
        cases sendReply sock₁ (answerStatus server msg reply) with
        | error e => exact .error e
        | ok sent =>
          simp only [ok_bind, pure_eq_ok, ht₁, ht₂]
          exact .ok ⟨ht₁.trans ht₂.symm, hs₁.trans (hstatus.trans hs₂.symm)⟩

/-- Whatever two secondaries answer, two primaries that start with the same table give the
same result, write the same bytes and hold the same table after each request but OC_UP. -/
theorem primary_hides_secondary {server : Server δ} {server' : Server δ'} {world : σ}
    {world' : σ'} (hsame : SameService (server, world) (server', world')) (socks : List Socket)
    (hup : ∀ sock ∈ socks, ∀ msg sock', receiveRequest sock = .ok (some msg, sock') →
      msg.opcode ≠ ocUp) :
    (Machine.run (answerSocket (answeringNet networkConnect answer)) (server, world) socks).map
        Prod.fst =
      (Machine.run (answerSocket (answeringNet networkConnect' answer')) (server', world')
        socks).map Prod.fst := by
  apply Machine.Alike.outputs_eq
  apply Machine.run_alike SameService _ _ socks hup hsame
  intro s s' sock hsame hup
  exact answerSocket_alike networkConnect answer networkConnect' answer' hsame hup

/-- A put and an OC_SIZE, with a secondary that answers and with one that does not. -/
theorem primary_hides_secondary_put :
    let primary : Server Unit := { emptyServer with state := stateUp, currentBackup := some () }
    let put : Request := .put ⟨.ofBytes [97], ⟨[7], by decide, by decide⟩⟩
    let socks := [openSocket (frame (wireFormat put.msg)),
      openSocket (frame (wireFormat (Request.size 0).msg))]
    let silent : Net Unit Unit := answeringNet (fun world _ => (none, world))
      (fun world _ _ => (none, world))
    let talking : Net Unit Unit := answeringNet (fun world _ => (none, world))
      (fun world _ _ => (some buildErrorMsg, world))
    (Machine.run (answerSocket silent) (primary, ()) socks).map Prod.fst =
      (Machine.run (answerSocket talking) (primary, ()) socks).map Prod.fst := by
  intro primary put socks silent talking
  apply primary_hides_secondary _ _ _ _ ⟨rfl, rfl⟩
  intro sock hsock msg sock' hreceive
  have hput : put.msg.Encodable := ⟨by decide, by decide⟩
  have hsize : (Request.size 0).msg.Encodable := encodable_result _ _
  simp only [socks, List.mem_cons, List.not_mem_nil, or_false] at hsock
  rcases hsock with rfl | rfl
  · rw [receiveRequest_of_frame hput rfl hreceive]
    exact (request_not_own put).2
  · rw [receiveRequest_of_frame hsize rfl hreceive]
    exact (request_not_own (.size 0)).2

end RemoteTable
