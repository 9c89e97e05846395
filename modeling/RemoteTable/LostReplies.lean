import RemoteTable.ClientStub
import RemoteTable.RepeatedWrites
import RemoteTable.Replication
import RemoteTable.Roles

/-!
# Requests that are executed and not answered

One client sends a write through `retry_servers` to a primary and its secondary, and requests
and replies get lost on the way. The reply it ends up with is compared with the one that the
first execution had.
-/

namespace RemoteTable

/-! ### A write at one of two servers -/

section

variable {σ δ : Type} {net : Net σ δ} {server : Server δ} {world : σ} {n : ℤ} {m : KeyMap}
  {request : Request}

lemma remoteCall_of_local (hr : server.tabela.Represents n m) (hwrite : isWrite request.msg.opcode)
    (hencodable : request.msg.Encodable) (hi : request.Indexable n)
    (hlocal : ¬server.Forwards request.msg.opcode) :
    ∃ tabela, remoteCall net server world request.msg =
        .ok (some (request.reply m), { server with tabela := tabela }, world) ∧
      tabela.Represents n (request.apply m) := by
  obtain ⟨tabela, hinvoke, hr'⟩ := invoke_refines hr hi (ne_get_of_write hwrite bang)
  obtain ⟨hstatus, hup⟩ := request_not_own request
  refine ⟨tabela, remoteCall_ok hencodable (encodable_reply (ne_get_of_write hwrite) m) ?_, hr'⟩
  rw [handleRequest_of_local hstatus hup hlocal, hinvoke, ok_bind]

/-- A write whose key has no bucket is a fault at every server. -/
lemma remoteCall_of_not_indexable (hr : server.tabela.Represents n m)
    (hwrite : isWrite request.msg.opcode) (hencodable : request.msg.Encodable)
    (hi : ¬request.Indexable n) (answer : Option MessageT × Server δ × σ) :
    remoteCall net server world request.msg ≠ .ok answer := by
  intro h
  rw [remoteCall_eq net server world hencodable] at h
  obtain ⟨handled, hhandle, -⟩ := bind_eq_ok h
  obtain ⟨invoked, hinvoke, -⟩ := bind_eq_ok hhandle
  exact hi (indexable_of_invoke hr hwrite hinvoke)

variable {primary secondary : Server Unit}

lemma forwardWrite_peer (hforwards : primary.Forwards request.msg.opcode)
    (hconnected : primary.currentBackup = some ())
    (hr : secondary.tabela.Represents n m) (hencodable : request.msg.Encodable)
    (hi : request.Indexable n) (hlocal : ¬secondary.Forwards request.msg.opcode) :
    ∃ tabela, forwardWrite (peerNet noNet) primary (secondary, ()) request.msg =
        .ok (primary, { secondary with tabela := tabela }, ()) ∧
      tabela.Represents n (request.apply m) := by
  obtain ⟨tabela, hcall, hr'⟩ : ∃ tabela, remoteCall noNet secondary () request.msg =
      .ok (some (request.reply m), { secondary with tabela := tabela }, ()) ∧
      tabela.Represents n (request.apply m) :=
    remoteCall_of_local hr hforwards.1 hencodable hi hlocal
  refine ⟨tabela, ?_, hr'⟩
  rw [forwardWrite, if_pos hforwards, hconnected]
  simp only [peerNet, hcall, ok_bind, pure_eq_ok]

end

/-! ### The two servers behind a net that loses things -/

/-- What becomes of one attempt. A server may notice that the connection of a failed one has
ended. -/
inductive Fate
  | noConnection
  | requestLost (noticed : Bool)
  | replyLost (noticed : Bool)
  | answered

/-- The primary is `Party.first`. Every execution of the client's request is recorded with its
reply. -/
structure TwoServers where
  primary : Server Unit
  secondary : Server Unit
  fates : List Fate
  executed : List (Party × Option MessageT)

/-- The link between the servers is as good as it can be. -/
def TwoServers.execute (w : TwoServers) (msg : MessageT) :
    Party → Except Fault (Option MessageT × TwoServers)
  | .first => do
    let (reply, primary, secondary, _) ← remoteCall (peerNet noNet) w.primary (w.secondary, ()) msg
    return (reply, ⟨primary, secondary, w.fates, w.executed ++ [(.first, reply)]⟩)
  | .second => do
    let (reply, secondary, _) ← remoteCall noNet w.secondary () msg
    return (reply, ⟨w.primary, secondary, w.fates, w.executed ++ [(.second, reply)]⟩)

def TwoServers.hangUp (w : TwoServers) (noticed : Bool) : Party → TwoServers
  | .first => if noticed then { w with primary := w.primary.disconnected } else w
  | .second => if noticed then { w with secondary := w.secondary.disconnected } else w

/-- The attempt that comes next has no connection, or there is none. -/
def Unreached : List Fate → Prop
  | [] | .noConnection :: _ => True
  | _ => False

instance : (fates : List Fate) → Decidable (Unreached fates)
  | [] | .noConnection :: _ => isTrue trivial
  | .requestLost _ :: _ | .replyLost _ :: _ | .answered :: _ => isFalse id

/-- Each attempt takes the next fate; `address` says which server listens where. -/
def lossyNet (address : CString → Party) : ClientNet TwoServers Party where
  networkConnect w ipPort := (if Unreached w.fates then none else some (address ipPort), w)
  networkSendReceive w server msg :=
    match w.fates, server with
    | [], _ => .ok (none, w)
    | _ :: fates, none | .noConnection :: fates, _ => .ok (none, { w with fates := fates })
    | .requestLost noticed :: fates, some p =>
      .ok (none, TwoServers.hangUp { w with fates := fates } noticed p)
    | .replyLost noticed :: fates, some p => do
      let (_, w) ← TwoServers.execute { w with fates := fates } msg p
      return (none, w.hangUp noticed p)
    | .answered :: fates, some p => TwoServers.execute { w with fates := fates } msg p

/-- The servers whose executions stay without an answer, and the server that answers. -/
def executions : ℕ → Party → List Fate → List Party × Option Party
  | 0, _, _ | _ + 1, _, [] => ([], none)
  | _ + 1, p, .answered :: _ => ([], some p)
  | attempts + 1, p, .replyLost _ :: fates =>
    (p :: (executions attempts p.other fates).1, (executions attempts p.other fates).2)
  | attempts + 1, p, .noConnection :: fates | attempts + 1, p, .requestLost _ :: fates =>
    executions attempts p.other fates

/-! ### What the executions leave -/

/-- The contents of a server after the executions so far. -/
def contentsAfter (request : Request) (m : KeyMap) (earlier : List Party) : Party → KeyMap
  | .first => if .first ∈ earlier then request.apply m else m
  | .second => if earlier = [] then m else request.apply m

variable {n : ℤ} {m : KeyMap} {request : Request} {earlier : List Party} {w : TwoServers}

lemma apply_contentsAfter (p : Party) :
    request.apply (contentsAfter request m earlier p) = request.apply m := by
  cases p with
  | first =>
    simp only [contentsAfter]
    split
    · exact apply_apply m request
    · rfl
  | second =>
    simp only [contentsAfter]
    split
    · rfl
    · exact apply_apply m request

lemma contentsAfter_nil (p : Party) : contentsAfter request m [] p = m := by
  cases p with
  | first => simp only [contentsAfter, List.not_mem_nil, if_false]
  | second => simp only [contentsAfter, if_true]

/-- Whoever executes the request, the secondary has it. -/
lemma contentsAfter_append_second (p : Party) :
    contentsAfter request m (earlier ++ [p]) .second = request.apply m := by
  apply if_neg
  simp

lemma contentsAfter_append_self (p : Party) :
    contentsAfter request m (earlier ++ [p]) p = request.apply m := by
  cases p with
  | first => exact if_pos (by simp)
  | second => exact contentsAfter_append_second .second

lemma contentsAfter_first_append_second :
    contentsAfter request m (earlier ++ [.second]) .first =
      contentsAfter request m earlier .first := by
  simp [contentsAfter]

/-- Both servers hold what the executions leave, and the link is up. -/
structure TwoServers.Behind (w : TwoServers) (n : ℤ) (m : KeyMap) (request : Request)
    (earlier : List Party) : Prop where
  primary : w.primary.tabela.Represents n (contentsAfter request m earlier .first)
  secondary : w.secondary.tabela.Represents n (contentsAfter request m earlier .second)
  isPrimary : w.primary.status = statusPrimary
  isUp : w.primary.state = stateUp
  connected : w.primary.currentBackup = some ()
  keeps : ¬(w.secondary.state = stateUp ∧ w.secondary.status = statusPrimary)
  executed : w.executed.map Prod.fst = earlier
  firstReply : ∀ e ∈ w.executed.head?, e.2 = some (request.reply m)

lemma TwoServers.Behind.withFates (h : w.Behind n m request earlier) (fates : List Fate) :
    TwoServers.Behind { w with fates := fates } n m request earlier :=
  ⟨h.primary, h.secondary, h.isPrimary, h.isUp, h.connected, h.keeps, h.executed, h.firstReply⟩

lemma TwoServers.hangUp_fates (w : TwoServers) (noticed : Bool) (p : Party) :
    (w.hangUp noticed p).fates = w.fates := by
  cases p with
  | first => cases noticed <;> rfl
  | second => cases noticed <;> rfl

/-- A server that loses a client may take over, and still forwards nothing if it is the
secondary. -/
lemma TwoServers.Behind.hangUp (h : w.Behind n m request earlier) (noticed : Bool) (p : Party) :
    (w.hangUp noticed p).Behind n m request earlier := by
  cases noticed with
  | false =>
    cases p with
    | first => exact h
    | second => exact h
  | true =>
    cases p with
    | first =>
      have hw : w.hangUp true .first = w := by
        simp only [TwoServers.hangUp, if_true, disconnected_of_primary h.isPrimary]
      rw [hw]
      exact h
    | second =>
      have hw : (w.hangUp true .second).secondary = w.secondary.disconnected := rfl
      refine ⟨h.primary, ?_, h.isPrimary, h.isUp, h.connected, ?_, h.executed, h.firstReply⟩
      · rw [hw, disconnected_tabela]
        exact h.secondary
      · rw [hw]
        exact disconnected_keeps h.keeps

lemma executed_append {executed : List (Party × Option MessageT)} {p : Party}
    (hexecuted : executed.map Prod.fst = earlier)
    (hfirst : ∀ e ∈ executed.head?, e.2 = some (request.reply m)) :
    (executed ++ [(p, some (request.reply (contentsAfter request m earlier p)))]).map Prod.fst =
        earlier ++ [p] ∧
      ∀ e ∈ (executed ++ [(p, some (request.reply (contentsAfter request m earlier p)))]).head?,
        e.2 = some (request.reply m) := by
  refine ⟨by rw [List.map_append, hexecuted]; rfl, ?_⟩
  cases executed with
  | nil =>
    intro e he
    rw [List.nil_append, List.head?_cons, Option.mem_some_iff] at he
    rw [← hexecuted] at he
    rw [← he, List.map_nil, contentsAfter_nil]
  | cons e' executed =>
    intro e he
    exact hfirst e he

/-- An execution is answered from the contents that the earlier ones left. -/
lemma TwoServers.Behind.execute (h : w.Behind n m request earlier)
    (hwrite : isWrite request.msg.opcode) (hencodable : request.msg.Encodable)
    (hi : request.Indexable n) (p : Party) :
    ∃ w', w.execute request.msg p =
        .ok (some (request.reply (contentsAfter request m earlier p)), w') ∧
      w'.fates = w.fates ∧ w'.Behind n m request (earlier ++ [p]) := by
  obtain ⟨hexecuted, hfirst⟩ := executed_append (p := p) h.executed h.firstReply
  have hlocal : ¬w.secondary.Forwards request.msg.opcode := fun hf => h.keeps hf.2
  have happly : ∀ q, request.apply (contentsAfter request m earlier q) = request.apply m :=
    apply_contentsAfter
  cases p with
  | first =>
    obtain ⟨tabela, hinvoke, hr⟩ := invoke_refines h.primary hi (ne_get_of_write hwrite bang)
    have hforwards : Server.Forwards { w.primary with tabela := tabela } request.msg.opcode :=
      ⟨hwrite, h.isUp, h.isPrimary⟩
    obtain ⟨tabela', hforward, hr'⟩ :=
      forwardWrite_peer hforwards h.connected h.secondary hencodable hi hlocal
    obtain ⟨hstatus, hup⟩ := request_not_own request
    have hcall : remoteCall (peerNet noNet) w.primary (w.secondary, ()) request.msg =
        .ok (some (request.reply (contentsAfter request m earlier .first)),
          { w.primary with tabela := tabela }, ({ w.secondary with tabela := tabela' }, ())) := by
      apply remoteCall_ok hencodable (encodable_reply (ne_get_of_write hwrite) _)
      rw [handleRequest_of_table hstatus hup, hinvoke, ok_bind]
      simp only [hforward, ok_bind]
    refine ⟨⟨{ w.primary with tabela := tabela }, { w.secondary with tabela := tabela' }, w.fates,
      w.executed ++ [(.first, some (request.reply (contentsAfter request m earlier .first)))]⟩,
      ?_, rfl, ?_⟩
    · simp only [TwoServers.execute, hcall, ok_bind, pure_eq_ok]
    · refine ⟨?_, ?_, h.isPrimary, h.isUp, h.connected, h.keeps, hexecuted, hfirst⟩
      · rw [contentsAfter_append_self, ← happly .first]
        exact hr
      · rw [contentsAfter_append_second, ← happly .second]
        exact hr'
  | second =>
    obtain ⟨tabela, hcall, hr⟩ : ∃ tabela, remoteCall noNet w.secondary () request.msg =
        .ok (some (request.reply (contentsAfter request m earlier .second)),
          { w.secondary with tabela := tabela }, ()) ∧
        tabela.Represents n (request.apply (contentsAfter request m earlier .second)) :=
      remoteCall_of_local h.secondary hwrite hencodable hi hlocal
    refine ⟨⟨w.primary, { w.secondary with tabela := tabela }, w.fates,
      w.executed ++ [(.second, some (request.reply (contentsAfter request m earlier .second)))]⟩,
      ?_, rfl, ?_⟩
    · simp only [TwoServers.execute, hcall, ok_bind, pure_eq_ok]
    · refine ⟨?_, ?_, h.isPrimary, h.isUp, h.connected, h.keeps, hexecuted, hfirst⟩
      · rw [contentsAfter_first_append_second]
        exact h.primary
      · rw [contentsAfter_append_second, ← happly .second]
        exact hr

/-! ### The attempts -/

/-- The stub is at `p`, as far as its connections go, and its addresses are those of the two
servers. -/
structure Aims (address : CString → Party) (rtable : RtableT Party) (fates : List Fate)
    (p : Party) : Prop where
  current : currentServer rtable = some p ∨ currentServer rtable = none ∧ Unreached fates
  here : address (currentIpPort rtable) = p
  there : address (otherIpPort rtable) = p.other

variable {address : CString → Party} {rtable : RtableT Party} {fates : List Fate} {p : Party}

lemma Aims.switchServer (h : Aims address rtable fates p) (w : TwoServers) :
    (switchServer (lossyNet address) w rtable).2 = w ∧
      Aims address (switchServer (lossyNet address) w rtable).1 w.fates p.other := by
  obtain ⟨hworld, hcurrent, hhere, hthere⟩ := switchServer_spec (lossyNet address) w rtable
  refine ⟨hworld, ?_, ?_, ?_⟩
  · rw [hcurrent]
    simp only [lossyNet, h.there]
    by_cases hun : Unreached w.fates
    · rw [if_pos hun]
      exact .inr ⟨rfl, hun⟩
    · rw [if_neg hun]
      exact .inl rfl
  · rw [hhere, h.there]
  · rw [hthere, h.here, Party.other_other]

/-- One attempt executes what its fate says and is answered if its fate says so. -/
lemma TwoServers.Behind.attempt (h : w.Behind n m request earlier)
    (hwrite : isWrite request.msg.opcode) (hencodable : request.msg.Encodable)
    (hi : request.Indexable n) (haims : Aims address rtable w.fates p) :
    ∃ w', (lossyNet address).networkSendReceive w (currentServer rtable) request.msg =
        .ok ((executions 1 p w.fates).2.map
          fun q => request.reply (contentsAfter request m earlier q), w') ∧
      w'.fates = w.fates.tail ∧
      w'.Behind n m request
        (earlier ++ ((executions 1 p w.fates).1 ++ (executions 1 p w.fates).2.toList)) := by
  have hcurrent := haims.current
  cases hfates : w.fates with
  | nil =>
    refine ⟨w, ?_, hfates, ?_⟩
    · simp only [lossyNet, hfates, executions, Option.map_none]
    · simpa only [executions, Option.toList_none, List.append_nil] using h
  | cons fate fates =>
    rw [hfates] at hcurrent
    have hnext := h.withFates fates
    cases fate with
    | noConnection =>
      refine ⟨{ w with fates := fates }, ?_, rfl, ?_⟩
      · cases hserver : currentServer rtable with
        | none => simp only [lossyNet, hfates, executions, Option.map_none]
        | some q => simp only [lossyNet, hfates, executions, Option.map_none]
      · simpa only [executions, Option.toList_none, List.append_nil] using hnext
    | requestLost noticed =>
      have hserver := hcurrent.resolve_right fun hnone => hnone.2
      refine ⟨TwoServers.hangUp { w with fates := fates } noticed p, ?_, ?_, ?_⟩
      · simp only [lossyNet, hfates, hserver, executions, Option.map_none]
      · exact TwoServers.hangUp_fates _ noticed p
      · simpa only [executions, Option.toList_none, List.append_nil] using hnext.hangUp noticed p
    | replyLost noticed =>
      have hserver := hcurrent.resolve_right fun hnone => hnone.2
      obtain ⟨w', hexecute, hfates', hafter⟩ := hnext.execute hwrite hencodable hi p
      refine ⟨w'.hangUp noticed p, ?_, ?_, ?_⟩
      · simp only [lossyNet, hfates, hserver, hexecute, ok_bind, pure_eq_ok, executions,
          Option.map_none]
      · exact (TwoServers.hangUp_fates w' noticed p).trans hfates'
      · simpa only [executions, Option.toList_none, List.append_nil] using
          hafter.hangUp noticed p
    | answered =>
      have hserver := hcurrent.resolve_right fun hnone => hnone.2
      obtain ⟨w', hexecute, hfates', hafter⟩ := hnext.execute hwrite hencodable hi p
      refine ⟨w', ?_, hfates', ?_⟩
      · simp only [lossyNet, hfates, hserver, hexecute, executions, Option.map_some]
      · simpa only [executions, Option.toList_some, List.nil_append] using hafter

lemma executions_succ (attempts : ℕ) (p : Party) (fates : List Fate)
    (hnone : (executions 1 p fates).2 = none) :
    executions (attempts + 1) p fates =
      ((executions 1 p fates).1 ++ (executions attempts p.other fates.tail).1,
        (executions attempts p.other fates.tail).2) := by
  cases fates with
  | nil => cases attempts <;> rfl
  | cons fate fates =>
    cases fate with
    | answered => cases hnone
    | _ => rfl

lemma executions_of_answer (attempts : ℕ) (p : Party) (fates : List Fate) {q : Party}
    (hsome : (executions 1 p fates).2 = some q) :
    executions (attempts + 1) p fates = ([], some q) := by
  cases fates with
  | nil => cases hsome
  | cons fate fates =>
    cases fate with
    | answered => rw [← hsome]; rfl
    | _ => cases hsome

lemma TwoServers.Behind.attempts (retries : ℕ) (h : w.Behind n m request earlier)
    (hwrite : isWrite request.msg.opcode) (hencodable : request.msg.Encodable)
    (hi : request.Indexable n) (haims : Aims address rtable w.fates p) :
    ∃ rtable' w', retryLoop (lossyNet address) retries w rtable request.msg =
        .ok ((executions (retries + 1) p w.fates).2.map fun q =>
          request.reply (contentsAfter request m
            (earlier ++ (executions (retries + 1) p w.fates).1) q), rtable', w') ∧
      w'.Behind n m request (earlier ++ ((executions (retries + 1) p w.fates).1 ++
        (executions (retries + 1) p w.fates).2.toList)) := by
  induction retries generalizing w rtable p earlier with
  | zero =>
    obtain ⟨w', hattempt, -, hafter⟩ := h.attempt hwrite hencodable hi haims
    refine ⟨rtable, w', ?_, hafter⟩
    cases hanswer : (executions 1 p w.fates).2 with
    | none =>
      rw [hanswer] at hattempt
      rw [retryLoop, hattempt]
      rfl
    | some q =>
      rw [hanswer] at hattempt
      rw [executions_of_answer 0 p w.fates hanswer, List.append_nil, retryLoop,
        hattempt]
      rfl
  | succ retries ih =>
    obtain ⟨w', hattempt, hfates, hafter⟩ := h.attempt hwrite hencodable hi haims
    cases hanswer : (executions 1 p w.fates).2 with
    | some q =>
      rw [executions_of_answer 0 p w.fates hanswer] at hafter
      rw [hanswer] at hattempt
      rw [executions_of_answer (retries + 1) p w.fates hanswer, List.append_nil]
      exact ⟨rtable, w', retryLoop_of_answer _ hattempt, hafter⟩
    | none =>
      obtain ⟨hworld, hnext⟩ := haims.switchServer w'
      rw [hanswer] at hattempt hafter
      rw [Option.toList_none, List.append_nil] at hafter
      obtain ⟨rtable', w'', hloop, hlast⟩ := ih hafter hnext
      rw [hfates] at hloop hlast
      rw [executions_succ (retries + 1) p w.fates hanswer, retryLoop_of_none retries hattempt,
        hworld]
      refine ⟨rtable', w'', ?_, ?_⟩
      · rw [hloop, List.append_assoc]
      · simpa only [List.append_assoc] using hlast

/-! ### Keys without a bucket -/

lemma TwoServers.Behind.execute_ne (h : w.Behind n m request earlier)
    (hwrite : isWrite request.msg.opcode) (hencodable : request.msg.Encodable)
    (hi : ¬request.Indexable n) (p : Party) (r : Option MessageT × TwoServers) :
    w.execute request.msg p ≠ .ok r := by
  intro hexecute
  cases p with
  | first =>
    obtain ⟨answer, hcall, -⟩ := bind_eq_ok hexecute
    exact remoteCall_of_not_indexable h.primary hwrite hencodable hi answer hcall
  | second =>
    obtain ⟨answer, hcall, -⟩ := bind_eq_ok hexecute
    exact remoteCall_of_not_indexable h.secondary hwrite hencodable hi answer hcall

lemma TwoServers.Behind.attempt_of_not_indexable (h : w.Behind n m request earlier)
    (hwrite : isWrite request.msg.opcode) (hencodable : request.msg.Encodable)
    (hi : ¬request.Indexable n) {server : Option Party} {answer : Option MessageT}
    {w' : TwoServers}
    (hsend : (lossyNet address).networkSendReceive w server request.msg = .ok (answer, w')) :
    answer = none ∧ w'.Behind n m request earlier := by
  simp only [lossyNet] at hsend
  split at hsend
  · simp only [Except.ok.injEq, Prod.mk.injEq] at hsend
    exact ⟨hsend.1.symm, hsend.2 ▸ h⟩
  · simp only [Except.ok.injEq, Prod.mk.injEq] at hsend
    exact ⟨hsend.1.symm, hsend.2 ▸ h.withFates _⟩
  · simp only [Except.ok.injEq, Prod.mk.injEq] at hsend
    exact ⟨hsend.1.symm, hsend.2 ▸ h.withFates _⟩
  · simp only [Except.ok.injEq, Prod.mk.injEq] at hsend
    exact ⟨hsend.1.symm, hsend.2 ▸ (h.withFates _).hangUp _ _⟩
  · obtain ⟨r, hexecute, -⟩ := bind_eq_ok hsend
    exact absurd hexecute ((h.withFates _).execute_ne hwrite hencodable hi _ _)
  · exact absurd hsend ((h.withFates _).execute_ne hwrite hencodable hi _ _)

/-- A write whose key has no bucket is never answered. -/
lemma TwoServers.Behind.not_answered (retries : ℕ) (h : w.Behind n m request earlier)
    (hwrite : isWrite request.msg.opcode) (hencodable : request.msg.Encodable)
    (hi : ¬request.Indexable n) (reply : MessageT) (rtable' : RtableT Party) (w' : TwoServers) :
    retryLoop (lossyNet address) retries w rtable request.msg ≠
      .ok (some reply, rtable', w') := by
  intro hloop
  induction retries generalizing w rtable with
  | zero =>
    obtain ⟨⟨answer, w₁⟩, hsend, hloop⟩ := bind_eq_ok hloop
    simp only [pure_eq_ok, Except.ok.injEq, Prod.mk.injEq] at hloop
    have hnone := (h.attempt_of_not_indexable hwrite hencodable hi hsend).1
    rw [hloop.1] at hnone
    cases hnone
  | succ retries ih =>
    obtain ⟨⟨answer, w₁⟩, hsend, hnext⟩ := bind_eq_ok hloop
    obtain ⟨rfl, hw₁⟩ := h.attempt_of_not_indexable hwrite hencodable hi hsend
    have hworld : (switchServer (lossyNet address) w₁ rtable).2 = w₁ :=
      (switchServer_spec (lossyNet address) w₁ rtable).1
    rw [retryLoop_of_none retries hsend, hworld] at hloop
    exact ih hw₁ hloop

/-! ### The reply of the first execution -/

/-- Equal tables, and a link that is up. -/
structure TwoServers.Start (w : TwoServers) (n : ℤ) (m : KeyMap) : Prop where
  primary : w.primary.tabela.Represents n m
  secondary : w.secondary.tabela.Represents n m
  isPrimary : w.primary.status = statusPrimary
  isUp : w.primary.state = stateUp
  connected : w.primary.currentBackup = some ()
  isSecundary : w.secondary.status = statusSecundary
  executed : w.executed = []

/-- A reply that `retry_servers` returns is that of the first execution. -/
def FirstReply (address : CString → Party) (w : TwoServers) (rtable : RtableT Party)
    (msg : MessageT) : Prop :=
  ∀ reply rtable' w', retryServers (lossyNet address) w rtable msg =
    .ok (some reply, rtable', w') → ∀ e ∈ w'.executed.head?, e.2 = some reply

/-- The server that answers has not had the request before, by itself or from the primary. -/
def AnswersFresh (p : Party) (fates : List Fate) : Prop :=
  ∀ q ∈ (executions 4 p fates).2,
    (executions 4 p fates).1 = [] ∨ q = .first ∧ .first ∉ (executions 4 p fates).1

lemma TwoServers.Start.behind (h : w.Start n m) (request : Request) :
    w.Behind n m request [] := by
  refine ⟨?_, ?_, h.isPrimary, h.isUp, h.connected, ?_, ?_, ?_⟩
  · rw [contentsAfter_nil]
    exact h.primary
  · rw [contentsAfter_nil]
    exact h.secondary
  · rw [h.isSecundary]
    rintro ⟨-, hrole⟩
    exact absurd hrole (by decide)
  · rw [h.executed, List.map_nil]
  · rw [h.executed]
    rintro e ⟨⟩

/-- An update is answered as before, any other write only when it changed nothing. -/
lemma reply_apply_iff (hwrite : isWrite request.msg.opcode) :
    request.reply (request.apply m) = request.reply m ↔
      request.msg.opcode = ocUpdate ∨ request.apply m = m := by
  by_cases hsame : request.apply m = m
  · exact iff_of_true (by rw [hsame]) (Or.inr hsame)
  · obtain ⟨entry, rfl⟩ | ⟨entry, rfl⟩ | ⟨key, rfl⟩ := exists_write hwrite
    · have hmem : entry.key ∉ m := fun h => hsame (by rw [apply_put, if_pos h])
      have hthere : entry.key ∈ (Request.put entry).apply m := by
        rw [apply_put, if_neg hmem]
        exact Finmap.mem_insert.mpr (Or.inl rfl)
      have hop : ¬ocPut = ocUpdate := by decide
      refine iff_of_false ?_ (not_or.mpr ⟨hop, hsame⟩)
      simp only [Request.reply, mapPut, if_pos hthere, if_neg hmem]
      decide
    · have hmem : entry.key ∈ m := by
        by_contra h
        exact hsame (by rw [apply_update, if_neg h])
      have hthere : entry.key ∈ (Request.update entry).apply m := by
        rw [apply_update, if_pos hmem]
        exact Finmap.mem_insert.mpr (Or.inl rfl)
      refine iff_of_true ?_ (Or.inl rfl)
      simp only [Request.reply, hmem, hthere]
    · have hmem : key ∈ m := by
        by_contra h
        exact hsame (by rw [apply_del, if_neg h])
      have hgone : key ∉ (Request.del key).apply m := by
        rw [apply_del, if_pos hmem]
        exact Finmap.notMem_erase_self
      have hop : ¬ocDel = ocUpdate := by decide
      refine iff_of_false ?_ (not_or.mpr ⟨hop, hsame⟩)
      simp only [Request.reply, hmem, hgone]
      decide

lemma TwoServers.Start.firstReply (h : w.Start n m) (hwrite : isWrite request.msg.opcode)
    (hencodable : request.msg.Encodable) (hi : request.Indexable n)
    (haims : Aims address rtable w.fates p) :
    FirstReply address w rtable request.msg ↔ ∀ q ∈ (executions 4 p w.fates).2,
      request.reply (contentsAfter request m (executions 4 p w.fates).1 q) =
        request.reply m := by
  obtain ⟨rtable', w', hloop, hafter⟩ := (h.behind request).attempts 3 hwrite hencodable hi haims
  rw [List.nil_append] at hloop hafter
  rw [FirstReply, retryServers_eq, hloop]
  constructor
  · intro hfirst q hq
    have hexecuted := hafter.executed
    have hreply := hafter.firstReply
    rw [Option.mem_def.mp hq] at hfirst hexecuted
    cases hhead : w'.executed with
    | nil =>
      rw [hhead] at hexecuted
      simp at hexecuted
    | cons e executed =>
      rw [hhead] at hreply
      have he := hfirst _ _ _ rfl e (by rw [hhead]; rfl)
      rw [hreply e rfl] at he
      exact (Option.some.inj he).symm
  · intro hall reply rtable'' w'' hretry e he
    simp only [Except.ok.injEq, Prod.mk.injEq, Option.map_eq_some_iff] at hretry
    obtain ⟨⟨q, hq, hanswer⟩, -, rfl⟩ := hretry
    rw [hafter.firstReply e he, ← hanswer, hall q hq]

lemma contentsAfter_of_fresh {ps : List Party} {q : Party}
    (h : ps = [] ∨ q = .first ∧ .first ∉ ps) : contentsAfter request m ps q = m := by
  rcases h with rfl | ⟨rfl, hnot⟩
  · exact contentsAfter_nil q
  · exact if_neg hnot

lemma contentsAfter_of_not_fresh {ps : List Party} {q : Party}
    (h : ¬(ps = [] ∨ q = .first ∧ .first ∉ ps)) :
    contentsAfter request m ps q = request.apply m := by
  cases q with
  | first =>
    apply if_pos
    by_contra hnot
    exact h (.inr ⟨rfl, hnot⟩)
  | second => exact if_neg fun hnil => h (.inl hnil)

/-- The reply that a write ends with is the one that its first execution had, exactly when the
server that answers had not had it before, or the write is one whose second reply is the
same. -/
theorem firstReply_iff (h : w.Start n m) (hwrite : isWrite request.msg.opcode)
    (hencodable : request.msg.Encodable) (haims : Aims address rtable w.fates p) :
    FirstReply address w rtable request.msg ↔
      ¬request.Indexable n ∨ AnswersFresh p w.fates ∨ request.msg.opcode = ocUpdate ∨
        request.apply m = m := by
  by_cases hi : request.Indexable n
  · rw [h.firstReply hwrite hencodable hi haims, ← reply_apply_iff hwrite]
    constructor
    · intro hall
      by_cases hsame : request.reply (request.apply m) = request.reply m
      · exact Or.inr (Or.inr hsame)
      · refine Or.inr (Or.inl fun q hq => ?_)
        by_contra hnot
        -- the answer comes from a table that has the request already
        have hagain := hall q hq
        rw [contentsAfter_of_not_fresh hnot] at hagain
        exact hsame hagain
    · intro hcases q hq
      rcases hcases with hnot | hfresh | hsame
      · exact absurd hi hnot
      · rw [contentsAfter_of_fresh (hfresh q hq)]
      · by_cases hfresh : (executions 4 p w.fates).1 = [] ∨
            q = .first ∧ .first ∉ (executions 4 p w.fates).1
        · rw [contentsAfter_of_fresh hfresh]
        · rw [contentsAfter_of_not_fresh hfresh, hsame]
  · apply iff_of_true
    · intro reply rtable' w' hretry
      exact absurd hretry ((h.behind request).not_answered 3 hwrite hencodable hi _ _ _)
    · exact Or.inl hi

/-! ### A deletion that took effect -/

/-- A linked pair with one entry. -/
def bangServers (fates : List Fate) : TwoServers where
  primary := ⟨bangTable, statusPrimary, stateUp, some ()⟩
  secondary := ⟨bangTable, statusSecundary, stateUp, none⟩
  fates := fates
  executed := []

lemma bangServers_start (fates : List Fate) :
    (bangServers fates).Start 1 bangTable.contents := by
  have hreach : bangTable.Reachable 1 :=
    ⟨_, [.put bang ⟨[7], by decide, by decide⟩], [.code 0], rfl, by decide, by decide⟩
  exact ⟨hreach.represents, hreach.represents, rfl, rfl, rfl, rfl, rfl⟩

def addressOf (ipPort : CString) : Party := if ipPort = primaryAddress then .first else .second

/-- A client of the primary that knows the secondary as well. -/
def bangRtable : RtableT Party := ⟨some .first, none, primaryAddress, backupAddress, serverOne⟩

lemma bangRtable_aims (fates : List Fate) : Aims addressOf bangRtable fates .first :=
  ⟨.inl rfl, by decide, by decide⟩

lemma encodable_del_bang : (Request.del bang).msg.Encodable := ⟨by decide, by decide⟩

/-- The first request is lost, and the secondary deletes the key. -/
theorem firstReply_iff_del :
    FirstReply addressOf (bangServers [.requestLost true, .answered]) bangRtable
      (Request.del bang).msg := by
  have hfresh : AnswersFresh .first [.requestLost true, .answered] := fun q _ => Or.inl rfl
  exact (firstReply_iff (bangServers_start _) (by decide) encodable_del_bang
    (bangRtable_aims _)).mpr (Or.inr (Or.inl hfresh))

/-- The primary deletes the key at both servers, and the secondary reports that it is missing. -/
theorem not_firstReply_del :
    ¬∀ (w : TwoServers) (n : ℤ) (m : KeyMap) (request : Request) (rtable : RtableT Party)
      (p : Party), w.Start n m → isWrite request.msg.opcode → request.msg.Encodable →
        Aims addressOf rtable w.fates p → FirstReply addressOf w rtable request.msg := by
  intro h
  have hstart := bangServers_start [.replyLost false, .answered]
  have haims := bangRtable_aims [.replyLost false, .answered]
  have hfirst := h _ _ _ (.del bang) _ _ hstart (by decide) encodable_del_bang haims
  rw [hstart.firstReply (by decide) encodable_del_bang (by decide) haims] at hfirst
  have hsame := hfirst .second rfl
  rw [contentsAfter_of_not_fresh (by decide), reply_apply_iff (by decide)] at hsame
  exact absurd hsame (by decide)

end RemoteTable
