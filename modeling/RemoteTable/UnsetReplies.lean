import RemoteTable.Server

/-!
# Replies that were never assigned

`invoke` allocates the reply and prints it before it returns it, and `network_receive_send`
fills in what `invoke` left. Which requests reach the printing, or the encoder, with a reply
whose fields were assigned.
-/

namespace RemoteTable

variable {σ δ : Type}

/-- `print_msg`, which looks at the opcode and the type of its message first. -/
def printMsg : Reply → Except Fault Unit
  | .unset => .error .uninitialised
  | .message _ => .ok ()

/-- No reply is printed at the end of `invoke`, or handed to `message_to_buffer`, before its
opcode, its type and its content were assigned. -/
structure RepliesAssigned (net : Net σ δ) (server : Server δ) (world : σ) (msgPedido : MessageT) :
    Prop where
  printed : ∀ reply tabela, invoke server.tabela msgPedido = .ok (reply, tabela) →
    printMsg reply = .ok ()
  encoded : ∀ reply server' world', handleRequest net server world msgPedido =
    .ok (reply, server', world') → ∃ msg, reply = .message msg

/-- The opcodes with a `case` of their own in `invoke`. -/
def tableOpcodes : List Int16 := [ocSize, ocPut, ocGet, ocUpdate, ocDel]

/-! ### What `invoke` assigns -/

variable {tabela tabela' : TableT} {content : Content} {reply : Reply}

lemma message_of_ok {msg : MessageT}
    (h : (pure (.message msg, tabela) : Except Fault (Reply × TableT)) = .ok (reply, tabela')) :
    ∃ msg, reply = .message msg := by
  simp only [pure_eq_ok, Except.ok.injEq, Prod.mk.injEq] at h
  exact ⟨msg, h.1.symm⟩

lemma invokeSize_message (h : invokeSize tabela = .ok (reply, tabela')) :
    ∃ msg, reply = .message msg := by
  simp only [invokeSize] at h
  split at h
  · exact message_of_ok h
  · exact message_of_ok h

lemma invokePut_message (h : invokePut tabela content = .ok (reply, tabela')) :
    ∃ msg, reply = .message msg := by
  obtain ⟨entry, -, h⟩ := bind_eq_ok h
  obtain ⟨⟨result, table⟩, -, h⟩ := bind_eq_ok h
  simp only at h
  split at h
  · exact message_of_ok h
  · split at h
    · exact message_of_ok h
    · exact message_of_ok h

lemma invokeGet_message (h : invokeGet tabela content = .ok (reply, tabela')) :
    ∃ msg, reply = .message msg := by
  obtain ⟨key, -, h⟩ := bind_eq_ok h
  split at h
  · split at h
    · exact message_of_ok h
    · split at h
      · cases h
      · exact message_of_ok h
  · obtain ⟨found, -, h⟩ := bind_eq_ok h
    cases found with
    | none => exact message_of_ok h
    | some data => exact message_of_ok h

lemma invokeUpdate_message (h : invokeUpdate tabela content = .ok (reply, tabela')) :
    ∃ msg, reply = .message msg := by
  obtain ⟨entry, -, h⟩ := bind_eq_ok h
  obtain ⟨⟨result, table⟩, -, h⟩ := bind_eq_ok h
  simp only at h
  split at h
  · exact message_of_ok h
  · exact message_of_ok h

lemma invokeDel_message (h : invokeDel tabela content = .ok (reply, tabela')) :
    ∃ msg, reply = .message msg := by
  obtain ⟨key, -, h⟩ := bind_eq_ok h
  obtain ⟨⟨result, table⟩, -, h⟩ := bind_eq_ok h
  simp only at h
  split at h
  · exact message_of_ok h
  · exact message_of_ok h

/-- Every table operation assigns its reply, whatever the request carries. -/
lemma invoke_message {opcode : Int16} (hop : opcode ∈ tableOpcodes)
    (h : invoke tabela ⟨opcode, content⟩ = .ok (reply, tabela')) :
    ∃ msg, reply = .message msg := by
  simp only [tableOpcodes, List.mem_cons, List.not_mem_nil, or_false] at hop
  rcases hop with rfl | rfl | rfl | rfl | rfl
  · exact invokeSize_message (invoke_size ▸ h)
  · exact invokePut_message (invoke_put ▸ h)
  · exact invokeGet_message (invoke_get ▸ h)
  · exact invokeUpdate_message (invoke_update ▸ h)
  · exact invokeDel_message (invoke_del ▸ h)

/-- A negative opcode has no reply: `invoke` frees the one that it allocated. -/
lemma invoke_of_neg {opcode : Int16} (h : opcode < 0) :
    invoke tabela ⟨opcode, content⟩ = .error .uninitialised := by
  rw [invoke, if_pos (Or.inl h)]

/-! ### Opcodes that `invoke` leaves to its caller -/

variable {net : Net σ δ} {server : Server δ} {world : σ} {opcode : Int16}

/-- A request without a `case` of its own keeps the reply that `malloc` returned, unless
OC_STATUS or OC_UP fills it in. -/
lemma handleRequest_of_default (hneg : ¬opcode < 0) (hop : opcode ∉ tableOpcodes) :
    handleRequest net server world ⟨opcode, content⟩ =
      answerUp net server world ⟨opcode, content⟩
        (answerStatus server ⟨opcode, content⟩ .unset) := by
  have hread : isWrite opcode = false := by
    simp only [tableOpcodes, List.mem_cons, List.not_mem_nil, or_false, not_or] at hop
    simp [isWrite, hop]
  have hlocal : ∀ server' : Server δ, ¬server'.Forwards opcode := by
    intro server' hf
    exact absurd hf.1 (by simp [hread])
  simp only [handleRequest, invoke_default hneg hop, ok_bind]
  cases answerUp net server world ⟨opcode, content⟩
      (answerStatus server ⟨opcode, content⟩ .unset) with
  | error e => rfl
  | ok answered => simp only [ok_bind, forwardWrite, if_neg (hlocal _), pure_eq_ok]

lemma handleRequest_of_neg (h : opcode < 0) :
    handleRequest net server world ⟨opcode, content⟩ = .error .uninitialised := by
  rw [handleRequest, invoke_of_neg h, error_bind]

/-- The opcodes that `network_receive_send` looks at itself. -/
lemma ne_of_mem_tableOpcodes (hop : opcode ∈ tableOpcodes) :
    opcode ≠ ocStatus ∧ opcode ≠ ocUp := by
  revert hop
  simp only [tableOpcodes, List.mem_cons, List.not_mem_nil, or_false]
  rintro (rfl | rfl | rfl | rfl | rfl) <;> decide

lemma handleRequest_message (hop : opcode ∈ tableOpcodes) {server' : Server δ} {world' : σ}
    (h : handleRequest net server world ⟨opcode, content⟩ = .ok (reply, server', world')) :
    ∃ msg, reply = .message msg := by
  have hown := ne_of_mem_tableOpcodes hop
  obtain ⟨⟨reply₁, tabela⟩, hinvoke, h⟩ := bind_eq_ok h
  simp only [answerStatus, answerUp, if_neg hown.1, if_neg hown.2, pure_eq_ok, ok_bind] at h
  obtain ⟨⟨server₁, world₁⟩, -, h⟩ := bind_eq_ok h
  simp only [Except.ok.injEq, Prod.mk.injEq] at h
  rw [← h.1]
  exact invoke_message hop hinvoke

lemma answerUp_of_unreachable {key : CString} (msgResposta : Reply)
    (h : (net.networkConnect world key).1 = none) :
    answerUp net server world ⟨ocUp, .key key⟩ msgResposta =
      .ok (msgResposta, { server with currentBackup := none },
        (net.networkConnect world key).2) := by
  have hconnect : net.networkConnect world key = (none, (net.networkConnect world key).2) :=
    Prod.ext h rfl
  simp only [answerUp, if_true, Content.keyMember, ok_bind]
  rw [hconnect]
  rfl

/-- The reply of an OC_UP is assigned once the address was connected to. -/
lemma answerUp_message_iff :
    (∀ reply server' world', answerUp net server world ⟨ocUp, content⟩ .unset =
      .ok (reply, server', world') → ∃ msg, reply = .message msg) ↔
      ∀ key, content = .key key → (net.networkConnect world key).1 ≠ none := by
  constructor
  · rintro h key rfl hnone
    obtain ⟨msg, hmsg⟩ := h .unset _ _ (answerUp_of_unreachable .unset hnone)
    cases hmsg
  · intro hreach reply server' world' h
    rw [answerUp, if_pos rfl] at h
    obtain ⟨key, hkey, h⟩ := bind_eq_ok h
    have hsome := hreach key (eq_key_of_keyMember hkey)
    split at h
    · rename_i world₁ hconnect
      rw [hconnect] at hsome
      exact absurd rfl hsome
    · simp only [pure_eq_ok, Except.ok.injEq, Prod.mk.injEq] at h
      exact ⟨_, h.1.symm⟩

/-- The encoder is given an assigned reply for every table request and for OC_STATUS, and for
OC_UP when its address can be reached. -/
theorem encoded_iff (msg : MessageT) :
    (∀ reply server' world', handleRequest net server world msg = .ok (reply, server', world') →
      ∃ answer, reply = .message answer) ↔
      msg.opcode < 0 ∨ msg.opcode ∈ tableOpcodes ∨ msg.opcode = ocStatus ∨
        msg.opcode = ocUp ∧
          ∀ key, msg.content = .key key → (net.networkConnect world key).1 ≠ none := by
  obtain ⟨opcode, content⟩ := msg
  by_cases hneg : opcode < 0
  · apply iff_of_true _ (Or.inl hneg)
    intro reply server' world' h
    rw [handleRequest_of_neg hneg] at h
    cases h
  by_cases hop : opcode ∈ tableOpcodes
  · exact iff_of_true (fun reply server' world' h => handleRequest_message hop h)
      (Or.inr (Or.inl hop))
  simp only [hneg, hop, false_or, handleRequest_of_default hneg hop]
  by_cases hstatus : opcode = ocStatus
  · have hne : ocStatus ≠ ocUp := by decide
    subst hstatus
    apply iff_of_true _ (Or.inl rfl)
    intro reply server' world' h
    simp only [answerStatus, if_true, answerUp, if_neg hne, pure_eq_ok, Except.ok.injEq,
      Prod.mk.injEq] at h
    exact ⟨_, h.1.symm⟩
  by_cases hup : opcode = ocUp
  · subst hup
    simp only [answerStatus, hstatus, false_or, true_and]
    exact answerUp_message_iff
  · simp only [answerStatus, answerUp, hstatus, hup, if_false, pure_eq_ok, false_and, or_self,
      iff_false]
    intro h
    obtain ⟨answer, hanswer⟩ := h _ _ _ rfl
    cases hanswer

/-- The exact requests on which no reply is used before it was assigned. -/
theorem repliesAssigned_iff (net : Net σ δ) (server : Server δ) (world : σ) (msg : MessageT) :
    RepliesAssigned net server world msg ↔ msg.opcode < 0 ∨ msg.opcode ∈ tableOpcodes := by
  obtain ⟨opcode, content⟩ := msg
  constructor
  · intro h
    by_contra hnot
    obtain ⟨hneg, hop⟩ := not_or.mp hnot
    have hprint := h.printed .unset server.tabela (invoke_default hneg hop)
    cases hprint
  · intro h
    refine ⟨?_, (encoded_iff _).mpr (h.imp_right Or.inl)⟩
    intro reply tabela hinvoke
    rcases h with hneg | hop
    · rw [invoke_of_neg hneg] at hinvoke
      cases hinvoke
    · obtain ⟨msg, rfl⟩ := invoke_message hop hinvoke
      rfl

/-- A request with opcode 60, which is no request, is answered with what `malloc` returned. -/
theorem not_repliesAssigned_unknown :
    ¬∀ (net : Net Unit Unit) (server : Server Unit) (world : Unit) (buf : List UInt8)
      (msg : MessageT), bufferToMessage buf buf.length = .ok (some msg) →
        RepliesAssigned net server world msg := by
  intro h
  have hdecode : bufferToMessage [0, 60, 0, 10, 0, 0, 0, 0] 8 = .ok (some ⟨60, .result 0⟩) := by
    decide
  have hreply : handleRequest noNet emptyServer () ⟨60, .result 0⟩ =
      .ok (.unset, emptyServer, ()) := by decide
  obtain ⟨msg, hmsg⟩ := (h noNet emptyServer () _ _ hdecode).encoded _ _ _ hreply
  cases hmsg

end RemoteTable
