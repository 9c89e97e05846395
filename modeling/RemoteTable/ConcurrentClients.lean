import RemoteTable.LostReplies

/-!
# Clients of two servers

Any number of clients send writes through `retry_servers` to a primary and its secondary. The
connections of the clients fail at any time, the one between the servers does not. A server
handles one request after another, and the primary forwards a write before it reads the next
request, while the secondary may be reading requests of its own.
-/

namespace RemoteTable

/-- A write as the servers decode it. -/
structure Write where
  request : Request
  isWrite : isWrite request.msg.opcode
  decoded : ∃ body, FrameBody body ∧
    bufferToMessage body body.length = .ok (some request.msg)

/-- One attempt of `retry_servers`. -/
structure Attempt (ι : Type) where
  client : ι
  number : ℕ
  server : Party
  write : Write

/-- Where a client is in `retry_servers`, with the retries that are left. -/
inductive Stage
  | idle
  | trying (write : Write) (retries : ℕ)
  | waiting (write : Write) (retries : ℕ)

def Stage.call : Stage → Option (Write × ℕ)
  | .idle => none
  | .trying write retries | .waiting write retries => some (write, retries)

structure Client where
  rtable : RtableT Party
  attempts : ℕ
  stage : Stage

/-- The servers and the clients, and what is on its way between them. -/
structure Cluster (ι : Type) where
  primary : Server Unit
  secondary : Server Unit
  clients : ι → Client
  requests : List (Attempt ι)
  /-- The write that the primary has applied and not yet forwarded. -/
  forwarding : Option (Attempt ι × Reply)
  replies : List (Attempt ι × Reply)

/-- What takes the next step. -/
inductive ClusterAction (ι : Type)
  | client (i : ι)
  | primary (write : Write)
  | forward
  | secondary (write : Write)
  | lost
  | disconnect (p : Party)

/-- `network_connect` finds the server behind an address, or fails. -/
def connecting (address : CString → Party) (reached : Bool) : ClientNet Unit Party where
  networkConnect _ ipPort := (if reached then some (address ipPort) else none, ())
  networkSendReceive _ _ _ := .ok (none, ())

variable {ι : Type}

def Cluster.withClient [DecidableEq ι] (s : Cluster ι) (i : ι) (client : Client) : Cluster ι :=
  { s with clients := Function.update s.clients i client }

/-- The parts of `retry_servers` at a client and of `network_receive_send` at the servers. -/
inductive Cluster.Step [DecidableEq ι] (address : CString → Party) :
    Cluster ι → ClusterAction ι → Cluster ι → Prop
  /-- `rtable_put`, `rtable_update` or `rtable_del` is called. -/
  | call {s : Cluster ι} (i : ι) (write : Write) (hidle : (s.clients i).stage = .idle) :
      Step address s (.client i)
        (s.withClient i { s.clients i with stage := .trying write 3 })
  | send {s : Cluster ι} (i : ι) {write : Write} {retries : ℕ} {p : Party}
      (hstage : (s.clients i).stage = .trying write retries)
      (hserver : currentServer (s.clients i).rtable = some p) :
      Step address s (.client i)
        { s.withClient i ⟨(s.clients i).rtable, (s.clients i).attempts + 1,
            .waiting write retries⟩ with
          requests := s.requests ++ [⟨i, (s.clients i).attempts + 1, p, write⟩] }
  /-- `network_send_receive` returns `NULL`. -/
  | retry {s : Cluster ι} (i : ι) {write : Write} {retries : ℕ} (reached : Bool)
      (hstage : (s.clients i).stage.call = some (write, retries + 1)) :
      Step address s (.client i)
        (s.withClient i
          ⟨(switchServer (connecting address reached) () (s.clients i).rtable).1,
            (s.clients i).attempts, .trying write retries⟩)
  /-- The last attempt fails too, and `retry_servers` returns `NULL`. -/
  | giveUp {s : Cluster ι} (i : ι) {write : Write}
      (hstage : (s.clients i).stage.call = some (write, 0)) :
      Step address s (.client i) (s.withClient i { s.clients i with stage := .idle })
  /-- A reply to an earlier attempt comes on a connection that is not read any more. -/
  | answer {s : Cluster ι} (before after : List (Attempt ι × Reply)) (a : Attempt ι)
      {reply : Reply} {write : Write} {retries : ℕ}
      (hreplies : s.replies = before ++ (a, reply) :: after)
      (hstage : (s.clients a.client).stage = .waiting write retries)
      (hnumber : (s.clients a.client).attempts = a.number) :
      Step address s (.client a.client)
        { s.withClient a.client { s.clients a.client with stage := .idle } with
          replies := before ++ after }
  | loseRequest {s : Cluster ι} (before after : List (Attempt ι)) (a : Attempt ι)
      (hrequests : s.requests = before ++ a :: after) :
      Step address s .lost { s with requests := before ++ after }
  | loseReply {s : Cluster ι} (before after : List (Attempt ι × Reply)) (a : Attempt ι × Reply)
      (hreplies : s.replies = before ++ a :: after) :
      Step address s .lost { s with replies := before ++ after }
  /-- `invoke` at the primary. -/
  | primary {s : Cluster ι} (before after : List (Attempt ι)) (a : Attempt ι) {reply : Reply}
      {tabela : TableT} (hrequests : s.requests = before ++ a :: after)
      (hserver : a.server = .first) (hfree : s.forwarding = none)
      (hinvoke : invoke s.primary.tabela a.write.request.msg = .ok (reply, tabela)) :
      Step address s (.primary a.write)
        { s with
          primary := { s.primary with tabela := tabela }
          requests := before ++ after
          forwarding := some (a, reply) }
  | forward {s : Cluster ι} (a : Attempt ι) {reply : Reply} {primary secondary : Server Unit}
      (hforwarding : s.forwarding = some (a, reply))
      (hforward : forwardWrite (peerNet noNet) s.primary (s.secondary, ()) a.write.request.msg =
        .ok (primary, secondary, ())) :
      Step address s .forward
        { s with
          primary := primary
          secondary := secondary
          forwarding := none
          replies := s.replies ++ [(a, reply)] }
  | secondary {s : Cluster ι} (before after : List (Attempt ι)) (a : Attempt ι) {reply : Reply}
      {secondary : Server Unit} (hrequests : s.requests = before ++ a :: after)
      (hserver : a.server = .second)
      (hhandle : handleRequest noNet s.secondary () a.write.request.msg =
        .ok (reply, secondary, ())) :
      Step address s (.secondary a.write)
        { s with
          secondary := secondary
          requests := before ++ after
          replies := s.replies ++ [(a, reply)] }
  /-- The poll loop of the primary drops a client. -/
  | primaryDisconnects {s : Cluster ι} :
      Step address s (.disconnect .first) { s with primary := s.primary.disconnected }
  | secondaryDisconnects {s : Cluster ι} :
      Step address s (.disconnect .second) { s with secondary := s.secondary.disconnected }

/-- Equal tables, a link that is up, and clients that have yet to call. -/
structure Cluster.Start (s : Cluster ι) (n n' : ℤ) : Prop where
  primary : s.primary.tabela.Reachable n
  secondary : s.secondary.tabela.Reachable n'
  contents : s.primary.tabela.contents = s.secondary.tabela.contents
  isPrimary : s.primary.status = statusPrimary
  isUp : s.primary.state = stateUp
  connected : s.primary.currentBackup = some ()
  isSecundary : s.secondary.status = statusSecundary
  idle : ∀ i, (s.clients i).stage = .idle
  requests : s.requests = []
  forwarding : s.forwarding = none
  replies : s.replies = []

/-- No request is in progress. -/
structure Cluster.AtRest (s : Cluster ι) : Prop where
  idle : ∀ i, (s.clients i).stage = .idle
  requests : s.requests = []
  forwarding : s.forwarding = none
  replies : s.replies = []

/-! ### What the servers hold -/

/-- What the secondary holds once it has the write that is being forwarded. -/
def Cluster.forwarded (s : Cluster ι) (m : KeyMap) : KeyMap :=
  match s.forwarding with
  | none => m
  | some (a, _) => a.write.request.apply m

/-- The secondary is behind the primary by no more than the write that is being forwarded. -/
def Cluster.Agree (s : Cluster ι) : Prop :=
  s.primary.tabela.contents = s.forwarded s.secondary.tabela.contents

/-- The secondary executes a write of a client that changes what it ends up with. -/
def Cluster.Careless (s : Cluster ι) : ClusterAction ι → Prop
  | .secondary write =>
    s.forwarded (write.request.apply s.secondary.tabela.contents) ≠
      s.forwarded s.secondary.tabela.contents
  | _ => False

/-- Two sound tables and a link that is up. -/
structure PairUp (primary secondary : Server Unit) (n n' : ℤ) : Prop where
  primaryTable : primary.tabela.Represents n primary.tabela.contents
  secondaryTable : secondary.tabela.Represents n' secondary.tabela.contents
  isPrimary : primary.status = statusPrimary
  isUp : primary.state = stateUp
  connected : primary.currentBackup = some ()
  keeps : ¬(secondary.state = stateUp ∧ secondary.status = statusPrimary)

lemma Write.encodable (write : Write) : write.request.msg.Encodable := by
  obtain ⟨body, hbody, hdecode⟩ := write.decoded
  exact encodable_of_decoded hbody.2 hdecode

variable {n n' : ℤ} {primary primary' secondary secondary' : Server Unit} {write : Write}
  {reply : Reply}

/-- The two steps of the primary are what `network_receive_send` does with a write. -/
theorem handleRequest_eq_ok_iff {peer : Server Unit × Unit} :
    handleRequest (peerNet noNet) primary (secondary, ()) write.request.msg =
        .ok (reply, primary', peer) ↔
      ∃ tabela, invoke primary.tabela write.request.msg = .ok (reply, tabela) ∧
        forwardWrite (peerNet noNet) { primary with tabela := tabela } (secondary, ())
          write.request.msg = .ok (primary', peer) := by
  obtain ⟨hstatus, hup⟩ := request_not_own write.request
  rw [handleRequest_of_table hstatus hup]
  constructor
  · intro h
    obtain ⟨⟨reply', tabela⟩, hinvoke, h⟩ := bind_eq_ok h
    obtain ⟨⟨server, world⟩, hforward, h⟩ := bind_eq_ok h
    simp only [Except.ok.injEq, Prod.mk.injEq] at h
    obtain ⟨rfl, rfl, rfl⟩ := h
    exact ⟨tabela, hinvoke, hforward⟩
  · rintro ⟨tabela, hinvoke, hforward⟩
    simp only [hinvoke, hforward, ok_bind]

lemma PairUp.invoke (h : PairUp primary secondary n n') {tabela : TableT}
    (hinvoke : invoke primary.tabela write.request.msg = .ok (reply, tabela)) :
    PairUp { primary with tabela := tabela } secondary n n' ∧
      tabela.contents = write.request.apply primary.tabela.contents := by
  have hr := (invoke_write h.primaryTable write.isWrite hinvoke).2
  exact ⟨⟨hr.self, h.secondaryTable, h.isPrimary, h.isUp, h.connected, h.keeps⟩, hr.contents⟩

lemma PairUp.handle (h : PairUp primary secondary n n')
    (hhandle : handleRequest noNet secondary () write.request.msg = .ok (reply, secondary', ())) :
    PairUp primary secondary' n n' ∧
      secondary'.tabela.contents = write.request.apply secondary.tabela.contents := by
  have hlocal : ¬secondary.Forwards write.request.msg.opcode := fun hf => h.keeps hf.2
  obtain ⟨tabela, -, rfl, hr⟩ :=
    handleRequest_write h.secondaryTable write.isWrite hlocal hhandle
  exact ⟨⟨h.primaryTable, hr.self, h.isPrimary, h.isUp, h.connected, h.keeps⟩, hr.contents⟩

/-- The forward reaches the secondary, and the primary stays as it is. -/
lemma PairUp.forward (h : PairUp primary secondary n n')
    (hforward : forwardWrite (peerNet noNet) primary (secondary, ()) write.request.msg =
      .ok (primary', secondary', ())) :
    PairUp primary' secondary' n n' ∧ primary' = primary ∧
      secondary'.tabela.contents = write.request.apply secondary.tabela.contents := by
  have hforwards : primary.Forwards write.request.msg.opcode :=
    ⟨write.isWrite, h.isUp, h.isPrimary⟩
  have hlocal : ¬secondary.Forwards write.request.msg.opcode := fun hf => h.keeps hf.2
  have hi : write.request.Indexable n' := by
    by_contra hnot
    rw [forwardWrite, if_pos hforwards, h.connected] at hforward
    obtain ⟨answer, hsend, -⟩ := bind_eq_ok hforward
    obtain ⟨called, hcall, -⟩ := bind_eq_ok hsend
    exact remoteCall_of_not_indexable h.secondaryTable write.isWrite write.encodable hnot called
      hcall
  obtain ⟨tabela, hok, hr⟩ :=
    forwardWrite_peer hforwards h.connected h.secondaryTable write.encodable hi hlocal
  rw [hforward] at hok
  simp only [Except.ok.injEq, Prod.mk.injEq, and_true] at hok
  obtain ⟨rfl, rfl⟩ := hok
  exact ⟨⟨h.primaryTable, hr.self, h.isPrimary, h.isUp, h.connected, h.keeps⟩, rfl, hr.contents⟩

lemma PairUp.disconnected (h : PairUp primary secondary n n') :
    PairUp primary secondary.disconnected n n' := by
  refine ⟨h.primaryTable, ?_, h.isPrimary, h.isUp, h.connected, disconnected_keeps h.keeps⟩
  rw [disconnected_tabela]
  exact h.secondaryTable

/-! ### Runs -/

variable {address : CString → Party} {s s' : Cluster ι} {action : ClusterAction ι}

/-- No step breaks the tables or the link, and only a careless one lets the contents differ. -/
lemma Cluster.Step.agree_iff [DecidableEq ι] (hup : PairUp s.primary s.secondary n n')
    (h : Cluster.Step address s action s') :
    PairUp s'.primary s'.secondary n n' ∧ (s.Agree → (s'.Agree ↔ ¬s.Careless action)) := by
  cases h with
  | call i write hidle => exact ⟨hup, fun hagree => iff_of_true hagree id⟩
  | send i hstage hserver => exact ⟨hup, fun hagree => iff_of_true hagree id⟩
  | retry i reached hstage => exact ⟨hup, fun hagree => iff_of_true hagree id⟩
  | giveUp i hstage => exact ⟨hup, fun hagree => iff_of_true hagree id⟩
  | answer before after a hreplies hstage hnumber =>
    exact ⟨hup, fun hagree => iff_of_true hagree id⟩
  | loseRequest before after a hrequests => exact ⟨hup, fun hagree => iff_of_true hagree id⟩
  | loseReply before after a hreplies => exact ⟨hup, fun hagree => iff_of_true hagree id⟩
  | primary before after a hrequests hserver hfree hinvoke =>
    obtain ⟨hup', hcontents⟩ := hup.invoke hinvoke
    refine ⟨hup', fun hagree => iff_of_true ?_ id⟩
    simp only [Cluster.Agree, Cluster.forwarded, hfree] at hagree ⊢
    rw [hcontents, hagree]
  | forward a hforwarding hforward =>
    obtain ⟨hup', rfl, hcontents⟩ := hup.forward hforward
    refine ⟨hup', fun hagree => iff_of_true ?_ id⟩
    simp only [Cluster.Agree, Cluster.forwarded, hforwarding] at hagree ⊢
    rw [hcontents, hagree]
  | secondary before after a hrequests hserver hhandle =>
    obtain ⟨hup', hcontents⟩ := hup.handle hhandle
    refine ⟨hup', fun hagree => ?_⟩
    rw [Cluster.Agree] at hagree
    simp only [Cluster.Agree, Cluster.Careless, hcontents, hagree, not_not]
    exact eq_comm
  | primaryDisconnects =>
    have hsame := disconnected_of_primary hup.isPrimary
    rw [hsame]
    exact ⟨hup, fun hagree => iff_of_true hagree id⟩
  | secondaryDisconnects =>
    refine ⟨hup.disconnected, fun hagree => iff_of_true ?_ id⟩
    change _ = s.forwarded s.secondary.disconnected.tabela.contents
    rw [disconnected_tabela]
    exact hagree

lemma Cluster.Start.pairUp (h : s.Start n n') : PairUp s.primary s.secondary n n' := by
  refine ⟨h.primary.represents.self, h.secondary.represents.self, h.isPrimary, h.isUp,
    h.connected, ?_⟩
  rw [h.isSecundary]
  rintro ⟨-, hrole⟩
  exact absurd hrole (by decide)

lemma Cluster.Start.agree (h : s.Start n n') : s.Agree := by
  rw [Cluster.Agree, Cluster.forwarded, h.forwarding]
  exact h.contents

lemma Cluster.Agree.contents_eq (h : s.Agree) (hrest : s.AtRest) :
    s.primary.tabela.contents = s.secondary.tabela.contents := by
  rw [Cluster.Agree, Cluster.forwarded, hrest.forwarding] at h
  exact h

/-- The secondary keeps up with the primary exactly as long as it executes no write of a client
that changes what it holds, and then the contents are equal whenever no request is in
progress. -/
theorem tablesAgree_iff [DecidableEq ι] (hstart : s.Start n n')
    {steps : List (ClusterAction ι × Cluster ι)}
    (h : Machine.Trace (Cluster.Step address) s steps) :
    ((∀ x ∈ steps, x.2.Agree) ↔ Machine.Avoids Cluster.Careless s steps) ∧
      (Machine.Avoids Cluster.Careless s steps → ∀ x ∈ steps, x.2.AtRest →
        x.2.primary.tabela.contents = x.2.secondary.tabela.contents) := by
  have hkeeps := Machine.trace_invariant_iff_of (fun s => PairUp s.primary s.secondary n n')
    Cluster.Agree (fun s action s' hup hstep => hstep.agree_iff hup) hstart.pairUp h
  have hagree : (∀ x ∈ steps, x.2.Agree) ↔ Machine.Avoids Cluster.Careless s steps := by
    simpa only [hstart.agree, true_and] using hkeeps
  refine ⟨hagree, ?_⟩
  intro havoids x hx hrest
  exact (hagree.mpr havoids x hx).contents_eq hrest

/-! ### A write that only the secondary executes -/

def letterWrite : Write where
  request := .put letterA
  isWrite := by decide
  decoded := by
    have h : (Request.put letterA).msg.Encodable := ⟨by decide, by decide⟩
    exact ⟨_, frameBody_wireFormat h.size, bufferToMessage_wireFormat h⟩

/-- One client of two servers, and nothing on its way. -/
def letterCluster (primary secondary : TableT) (client : Client) : Cluster Unit where
  primary := ⟨primary, statusPrimary, stateUp, some ()⟩
  secondary := ⟨secondary, statusSecundary, stateUp, none⟩
  clients _ := client
  requests := []
  forwarding := none
  replies := []

def emptyBucket : TableT := ⟨[listCreate], 1, 0⟩

def letterBucket : TableT := ⟨[⟨1, [letterA]⟩], 1, 1⟩

/-- The stub after it has turned to the second server. -/
def switchedRtable : RtableT Party := (switchServer (connecting addressOf true) () bangRtable).1

lemma letterCluster_start :
    (letterCluster emptyBucket emptyBucket ⟨bangRtable, 0, .idle⟩).Start 1 1 := by
  have hreach : emptyBucket.Reachable 1 := ⟨_, [], [], rfl, by simp, rfl⟩
  exact ⟨hreach, hreach, rfl, rfl, rfl, rfl, rfl, fun _ => rfl, rfl, rfl, rfl⟩

lemma handleRequest_letter (tabela : TableT) (result : ℤ)
    (h : invoke tabela letterWrite.request.msg =
      .ok (resultReply (ocPut + 1) result, letterBucket)) :
    handleRequest noNet ⟨tabela, statusSecundary, stateUp, none⟩ () letterWrite.request.msg =
      .ok (resultReply (ocPut + 1) result,
        ⟨letterBucket, statusSecundary, stateUp, none⟩, ()) := by
  have hrole : ¬statusSecundary = statusPrimary := by decide
  rw [handleRequest_of_local (by decide) (by decide) (fun hf => hrole hf.2.2), h, ok_bind]

/-- The first request gets to the primary, whose reply is lost, and the secondary finds the
write that was forwarded. -/
def forwardedRun : List (ClusterAction Unit × Cluster Unit) :=
  let first : Attempt Unit := ⟨(), 1, .first, letterWrite⟩
  let second : Attempt Unit := ⟨(), 2, .second, letterWrite⟩
  [(.client (), letterCluster emptyBucket emptyBucket ⟨bangRtable, 0, .trying letterWrite 3⟩),
    (.client (), { letterCluster emptyBucket emptyBucket ⟨bangRtable, 1, .waiting letterWrite 3⟩
      with requests := [first] }),
    (.primary letterWrite,
      { letterCluster letterBucket emptyBucket ⟨bangRtable, 1, .waiting letterWrite 3⟩
        with forwarding := some (first, resultReply (ocPut + 1) 0) }),
    (.forward, { letterCluster letterBucket letterBucket ⟨bangRtable, 1, .waiting letterWrite 3⟩
      with replies := [(first, resultReply (ocPut + 1) 0)] }),
    (.lost, letterCluster letterBucket letterBucket ⟨bangRtable, 1, .waiting letterWrite 3⟩),
    (.client (),
      letterCluster letterBucket letterBucket ⟨switchedRtable, 1, .trying letterWrite 2⟩),
    (.client (), { letterCluster letterBucket letterBucket
      ⟨switchedRtable, 2, .waiting letterWrite 2⟩ with requests := [second] }),
    (.secondary letterWrite, { letterCluster letterBucket letterBucket
      ⟨switchedRtable, 2, .waiting letterWrite 2⟩
        with replies := [(second, resultReply (ocPut + 1) (-10))] }),
    (.client (), letterCluster letterBucket letterBucket ⟨switchedRtable, 2, .idle⟩)]

lemma forwardedRun_trace : Machine.Trace (Cluster.Step addressOf)
    (letterCluster emptyBucket emptyBucket ⟨bangRtable, 0, .idle⟩) forwardedRun := by
  refine .cons (.call () letterWrite rfl) (.cons (.send () rfl rfl) (.cons ?_ (.cons ?_ (.cons ?_
    (.cons (.retry () true rfl) (.cons (.send () rfl rfl) (.cons ?_ (.cons ?_ (.nil _)))))))))
  · exact .primary [] [] ⟨(), 1, .first, letterWrite⟩ rfl rfl rfl (by decide)
  · exact .forward ⟨(), 1, .first, letterWrite⟩ rfl (by decide)
  · exact .loseReply [] [] _ rfl
  · exact .secondary [] [] ⟨(), 2, .second, letterWrite⟩ rfl rfl
      (handleRequest_letter letterBucket (-10) (by decide))
  · exact .answer [] [] _ rfl rfl rfl

theorem tablesAgree_iff_forwarded :
    Machine.Avoids Cluster.Careless
        (letterCluster emptyBucket emptyBucket ⟨bangRtable, 0, .idle⟩) forwardedRun ∧
      ∀ x ∈ forwardedRun, x.2.AtRest →
        x.2.primary.tabela.contents = x.2.secondary.tabela.contents := by
  have hcareful : Machine.Avoids Cluster.Careless
      (letterCluster emptyBucket emptyBucket ⟨bangRtable, 0, .idle⟩) forwardedRun := by
    refine ⟨id, id, id, id, id, id, id, ?_, id, trivial⟩
    exact not_not.mpr (by decide)
  exact ⟨hcareful, (tablesAgree_iff letterCluster_start forwardedRun_trace).2 hcareful⟩

/-- The first request is lost on its way to the primary. -/
def lostRun : List (ClusterAction Unit × Cluster Unit) :=
  let first : Attempt Unit := ⟨(), 1, .first, letterWrite⟩
  let second : Attempt Unit := ⟨(), 2, .second, letterWrite⟩
  [(.client (), letterCluster emptyBucket emptyBucket ⟨bangRtable, 0, .trying letterWrite 3⟩),
    (.client (), { letterCluster emptyBucket emptyBucket ⟨bangRtable, 1, .waiting letterWrite 3⟩
      with requests := [first] }),
    (.lost, letterCluster emptyBucket emptyBucket ⟨bangRtable, 1, .waiting letterWrite 3⟩),
    (.client (),
      letterCluster emptyBucket emptyBucket ⟨switchedRtable, 1, .trying letterWrite 2⟩),
    (.client (), { letterCluster emptyBucket emptyBucket
      ⟨switchedRtable, 2, .waiting letterWrite 2⟩ with requests := [second] }),
    (.secondary letterWrite, { letterCluster emptyBucket letterBucket
      ⟨switchedRtable, 2, .waiting letterWrite 2⟩
        with replies := [(second, resultReply (ocPut + 1) 0)] }),
    (.client (), letterCluster emptyBucket letterBucket ⟨switchedRtable, 2, .idle⟩)]

lemma lostRun_trace : Machine.Trace (Cluster.Step addressOf)
    (letterCluster emptyBucket emptyBucket ⟨bangRtable, 0, .idle⟩) lostRun := by
  refine .cons (.call () letterWrite rfl) (.cons (.send () rfl rfl) (.cons ?_
    (.cons (.retry () true rfl) (.cons (.send () rfl rfl) (.cons ?_ (.cons ?_ (.nil _)))))))
  · exact .loseRequest [] [] _ rfl
  · exact .secondary [] [] ⟨(), 2, .second, letterWrite⟩ rfl rfl
      (handleRequest_letter emptyBucket 0 (by decide))
  · exact .answer [] [] _ rfl rfl rfl

/-- The secondary keeps the put to itself. -/
theorem not_tablesAgree_lost :
    ¬∀ (s : Cluster Unit) (n n' : ℤ), s.Start n n' →
      ∀ steps, Machine.Trace (Cluster.Step addressOf) s steps →
        ∀ x ∈ steps, x.2.AtRest →
          x.2.primary.tabela.contents = x.2.secondary.tabela.contents := by
  intro h
  have hlast : (.client (), letterCluster emptyBucket letterBucket ⟨switchedRtable, 2, .idle⟩) ∈
      lostRun := List.mem_of_getLast? rfl
  have hsame := h _ 1 1 letterCluster_start lostRun lostRun_trace _ hlast
    ⟨fun _ => rfl, rfl, rfl, rfl⟩
  exact absurd hsame (by decide)

end RemoteTable
