import RemoteTable.Rejoin
import RemoteTable.Roles

/-!
# The connection to the backup

`state` and `shared.current_backup` are assigned in four places: by `primary` and the thread
that it creates, by OC_UP, after a write that the backup did not answer, and where the poll
loop drops a connection. The pair is followed through every order of these.
-/

namespace RemoteTable

variable {σ δ : Type}

/-- A server in its poll loop. The thread of `create_thread` may have yet to connect. -/
structure PollLoop (δ : Type) where
  server : Server δ
  connecting : Bool

/-- `main` enters the poll loop after `primary` or `secundary`. -/
inductive PollLoop.Started : PollLoop δ → Prop
  /-- `primary`, where the other server is no primary. -/
  | primary (tabela : TableT) : Started ⟨⟨tabela, statusPrimary, stateUp, none⟩, true⟩
  /-- `secundary`, or `primary` where the other server is the primary already. -/
  | secundary (tabela : TableT) : Started ⟨⟨tabela, statusSecundary, stateUp, none⟩, false⟩

inductive LinkAction (σ : Type)
  | thread (world : σ)
  | request (world : σ) (msgPedido : MessageT)
  | disconnect

/-- One step of the thread or of the poll loop. The world changes freely in between, and
`ipPort` is the address that the thread connects to. -/
inductive PollLoop.Step (net : Net σ δ) (ipPort : CString) :
    PollLoop δ → LinkAction σ → PollLoop δ → Prop
  | thread {p : PollLoop δ} {world : σ} (hconnecting : p.connecting = true) :
      Step net ipPort p (.thread world)
        ⟨{ p.server with currentBackup := (net.networkConnect world ipPort).1 }, false⟩
  | request {p : PollLoop δ} {world world' : σ} {msg : MessageT} {reply : Reply}
      {server : Server δ}
      (h : handleRequest net p.server world msg = .ok (reply, server, world')) :
      Step net ipPort p (.request world msg) ⟨server, p.connecting⟩
  | disconnect {p : PollLoop δ} :
      Step net ipPort p .disconnect ⟨p.server.disconnected, p.connecting⟩

/-- A primary that takes its backup to be up is connected to it. -/
def Server.Linked (server : Server δ) : Prop :=
  server.status = statusPrimary → server.state = stateUp → server.currentBackup ≠ none

/-- A failed connect takes the link away from a primary that goes on taking its backup to be
up. -/
def PollLoop.Unlinks (net : Net σ δ) (ipPort : CString) (p : PollLoop δ) : LinkAction σ → Prop
  | .thread world => p.server.status = statusPrimary ∧ p.server.state = stateUp ∧
      (net.networkConnect world ipPort).1 = none
  | .request world msg => p.server.status = statusPrimary ∧ p.server.state = stateUp ∧
      msg.opcode = ocUp ∧ ∃ key, msg.content = .key key ∧ (net.networkConnect world key).1 = none
  | .disconnect => False

/-! ### What a request does to the link -/

variable {net : Net σ δ} {server server' : Server δ} {world world' : σ} {msg : MessageT}
  {reply : Reply}

lemma handleRequest_link (hup : msg.opcode ≠ ocUp)
    (h : handleRequest net server world msg = .ok (reply, server', world')) :
    server'.currentBackup = server.currentBackup ∧
      (server'.state = server.state ∨ server'.state = stateDown) := by
  obtain ⟨⟨reply₁, tabela⟩, -, h⟩ := bind_eq_ok h
  simp only [answerUp, if_neg hup, pure_eq_ok, ok_bind] at h
  obtain ⟨⟨server₁, world₁⟩, hforward, h⟩ := bind_eq_ok h
  simp only [Except.ok.injEq, Prod.mk.injEq] at h
  rw [← h.2.1]
  rcases forwardWrite_cases hforward with rfl | rfl
  · exact ⟨rfl, Or.inl rfl⟩
  · exact ⟨rfl, Or.inr rfl⟩

lemma handleRequest_up (hup : msg.opcode = ocUp)
    (h : handleRequest net server world msg = .ok (reply, server', world')) :
    ∃ key, msg.content = .key key ∧
      server'.currentBackup = (net.networkConnect world key).1 ∧
      server'.state =
        if (net.networkConnect world key).1 = none then server.state else stateUp := by
  obtain ⟨⟨reply₁, tabela⟩, -, h⟩ := bind_eq_ok h
  obtain ⟨⟨reply₂, server₂, world₂⟩, hanswer, h⟩ := bind_eq_ok h
  obtain ⟨⟨server₃, world₃⟩, hforward, h⟩ := bind_eq_ok h
  have hlocal : ¬server₂.Forwards msg.opcode := by
    rw [hup]
    exact not_forwards_of_read (by decide)
  simp only [forwardWrite, if_neg hlocal, pure_eq_ok, Except.ok.injEq, Prod.mk.injEq] at hforward h
  obtain ⟨key, hkey, hserver⟩ := answerUp_up hup hanswer
  rw [← h.2.1, ← hforward.1, hserver]
  exact ⟨key, hkey, rfl, rfl⟩

/-! ### Runs of a process -/

lemma linked_disconnected (h : server.Linked) : server.disconnected.Linked := by
  unfold Server.disconnected
  split
  · intro _ hup
    exact absurd hup (show stateDown ≠ stateUp by decide)
  · exact h

variable {ipPort : CString} {p p' : PollLoop δ} {action : LinkAction σ}

/-- Only a failed connect ends the link. -/
lemma linked_step_iff (hlinked : p.server.Linked) (h : PollLoop.Step net ipPort p action p') :
    p'.server.Linked ↔ ¬p.Unlinks net ipPort action := by
  cases h with
  | thread hconnecting =>
    simp only [Server.Linked, PollLoop.Unlinks, ne_eq, not_and]
  | disconnect => exact iff_of_true (linked_disconnected hlinked) (fun h => h)
  | request h =>
    rename_i world world' msg reply server
    have hstatus := handleRequest_status h
    by_cases hup : msg.opcode = ocUp
    · obtain ⟨key, hkey, hbackup, hstate⟩ := handleRequest_up hup h
      simp only [Server.Linked, PollLoop.Unlinks, hstatus, hbackup, hstate, hup, hkey, true_and,
        Content.key.injEq, exists_eq_left', not_and]
      cases hconnect : (net.networkConnect world key).1 with
      | none => simp
      | some backup => simp
    · obtain ⟨hbackup, hstate⟩ := handleRequest_link hup h
      apply iff_of_true _ (fun hun => hup hun.2.2.1)
      intro hprimary hisup
      rcases hstate with hstate | hstate
      · rw [hbackup]
        exact hlinked (hstatus.symm.trans hprimary) (hstate.symm.trans hisup)
      · exact absurd (hstate.symm.trans hisup) (by decide)

lemma linked_run_iff {steps : List (LinkAction σ × PollLoop δ)}
    (h : Machine.Trace (PollLoop.Step net ipPort) p steps) :
    (p.server.Linked ∧ ∀ x ∈ steps, x.2.server.Linked) ↔
      p.server.Linked ∧ Machine.Avoids (PollLoop.Unlinks net ipPort) p steps :=
  Machine.trace_invariant_iff (fun q => q.server.Linked)
    (fun _ _ _ hlinked hstep => linked_step_iff hlinked hstep) h

/-- `primary` is up before it has a connection. -/
lemma linked_started_iff (h : p.Started) :
    p.server.Linked ↔ p.server.status = statusSecundary := by
  have hne : statusPrimary ≠ statusSecundary := by decide
  cases h with
  | primary tabela => exact iff_of_false (fun hl => hl rfl rfl rfl) hne
  | secundary tabela => exact iff_of_true (fun hp => absurd hp hne.symm) rfl

/-- From its start on, a process keeps the link exactly if it did not start as a primary and
no connect fails while it is a primary that takes its backup to be up. -/
theorem backupLink_iff (hstart : p.Started) {steps : List (LinkAction σ × PollLoop δ)}
    (h : Machine.Trace (PollLoop.Step net ipPort) p steps) :
    (p.server.Linked ∧ ∀ x ∈ steps, x.2.server.Linked) ↔
      p.server.status = statusSecundary ∧
        Machine.Avoids (PollLoop.Unlinks net ipPort) p steps := by
  rw [linked_run_iff h, linked_started_iff hstart]

/-- A backup that answers every call. -/
def linkedNet : Net Unit Unit where
  networkConnect := backupNet.networkConnect
  networkSendReceive _ _ msg := .ok (some (resultMsg (msg.opcode + 1) 0), ())

/-- A secondary becomes the primary when a connection ends, connects to the address of an OC_UP,
forwards a put and drops another connection. -/
theorem backupLink_iff_promoted :
    let p : PollLoop Unit := ⟨⟨emptyBackup, statusSecundary, stateUp, none⟩, false⟩
    let steps : List (LinkAction Unit × PollLoop Unit) :=
      [(.disconnect, ⟨⟨emptyBackup, statusPrimary, stateDown, none⟩, false⟩),
        (.request () (buildIpMsg backupAddress),
          ⟨⟨emptyBackup, statusPrimary, stateUp, some ()⟩, false⟩),
        (.request () (Request.put letterA).msg,
          ⟨⟨letterBackup, statusPrimary, stateUp, some ()⟩, false⟩),
        (.disconnect, ⟨⟨letterBackup, statusPrimary, stateUp, some ()⟩, false⟩)]
    Machine.Trace (PollLoop.Step linkedNet backupAddress) p steps ∧
      p.server.Linked ∧ ∀ x ∈ steps, x.2.server.Linked := by
  intro p steps
  have hup : handleRequest linkedNet ⟨emptyBackup, statusPrimary, stateDown, none⟩ ()
      (buildIpMsg backupAddress) =
        .ok (.message ⟨ocUp, .result 1⟩, ⟨emptyBackup, statusPrimary, stateUp, some ()⟩, ()) := by
    decide
  have hput : handleRequest linkedNet ⟨emptyBackup, statusPrimary, stateUp, some ()⟩ ()
      (Request.put letterA).msg =
        .ok (resultReply (ocPut + 1) 0, ⟨letterBackup, statusPrimary, stateUp, some ()⟩, ()) := by
    decide
  have hrun : Machine.Trace (PollLoop.Step linkedNet backupAddress) p steps :=
    .cons .disconnect (.cons (.request hup) (.cons (.request hput) (.cons .disconnect (.nil _))))
  refine ⟨hrun, (backupLink_iff (.secundary _) hrun).mpr ⟨rfl, fun h => h, ?_, ?_, fun h => h,
    trivial⟩⟩
  · exact fun hun => absurd hun.2.1 (by decide)
  · exact fun hun => absurd hun.2.2.1 (by decide)

/-- Without the link a write stays at the primary, which takes its backup to be down: nothing
is sent, whoever could be reached. -/
theorem write_skipped_of_not_linked (hlinked : ¬server.Linked) (hwrite : isWrite msg.opcode)
    {tabela : TableT} (hinvoke : invoke server.tabela msg = .ok (reply, tabela)) :
    handleRequest net server world msg =
      .ok (reply, { server with tabela := tabela, state := stateDown }, world) := by
  simp only [Server.Linked, not_forall, not_not] at hlinked
  obtain ⟨hprimary, hisup, hnone⟩ := hlinked
  have hforwards : ({ server with tabela := tabela } : Server δ).Forwards msg.opcode :=
    ⟨hwrite, hisup, hprimary⟩
  have hforward : forwardWrite net { server with tabela := tabela } world msg =
      .ok ({ server with tabela := tabela, state := stateDown }, world) := by
    rw [forwardWrite, if_pos hforwards]
    simp only [hnone, pure_eq_ok]
  have hstatus : msg.opcode ≠ ocStatus := fun heq => by rw [heq] at hwrite; cases hwrite
  have hup : msg.opcode ≠ ocUp := fun heq => by rw [heq] at hwrite; cases hwrite
  rw [handleRequest_of_table hstatus hup, hinvoke, ok_bind]
  simp only [hforward, ok_bind]

/-- A primary that has just started handles a put before its thread has connected. -/
theorem not_linked_start :
    ¬∀ (net : Net Unit Unit) (ipPort : CString) (p : PollLoop Unit)
      (steps : List (LinkAction Unit × PollLoop Unit)), p.Started →
        Machine.Trace (PollLoop.Step net ipPort) p steps →
          p.server.Linked ∧ ∀ x ∈ steps, x.2.server.Linked := by
  intro h
  have hput : handleRequest backupNet ⟨emptyBackup, statusPrimary, stateUp, none⟩ ()
      (Request.put letterA).msg =
        .ok (resultReply (ocPut + 1) 0, ⟨letterBackup, statusPrimary, stateDown, none⟩, ()) := by
    decide
  have hrun : Machine.Trace (PollLoop.Step backupNet backupAddress)
      ⟨⟨emptyBackup, statusPrimary, stateUp, none⟩, true⟩
      [(.request () (Request.put letterA).msg,
          ⟨⟨letterBackup, statusPrimary, stateDown, none⟩, true⟩),
        (.thread (), ⟨⟨letterBackup, statusPrimary, stateDown, some ()⟩, false⟩)] :=
    .cons (.request hput) (.cons (.thread rfl) (.nil _))
  exact (h _ _ _ _ (.primary emptyBackup) hrun).1 rfl rfl rfl

end RemoteTable
