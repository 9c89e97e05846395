import RemoteTable.ClientStub
import RemoteTable.Replication
import RemoteTable.Requests

/-!
# What the stub makes of replies

Which replies a stub operation can be given without looking at a `NULL` or at a member of
`content_u` that is not live, and what it returns when the first attempt is answered.
-/

namespace RemoteTable

variable {σ δ : Type}

/-- The operations of `client_stub.h` that send a request. -/
inductive StubCall
  | put (key : CString) (value : DataT)
  | update (key : CString) (value : DataT)
  | get (key : CString)
  | del (key : CString)
  | size
  | getKeys

/-- An `int`, or a pointer that may be `NULL`. -/
inductive StubReturn
  | code (result : ℤ)
  | data (value : Option (List UInt8))
  | keys (keys : Option (List CString))
  deriving DecidableEq

def stubCall (net : ClientNet σ δ) (world : σ) (rtable : RtableT δ) :
    StubCall → Except Fault (StubReturn × RtableT δ × σ)
  | .put key value => do
    let (result, rtable, world) ← rtablePut net world rtable key value
    return (.code result, rtable, world)
  | .update key value => do
    let (result, rtable, world) ← rtableUpdate net world rtable key value
    return (.code result, rtable, world)
  | .get key => do
    let (value, rtable, world) ← rtableGet net world rtable key
    return (.data value, rtable, world)
  | .del key => do
    let (result, rtable, world) ← rtableDel net world rtable key
    return (.code result, rtable, world)
  | .size => do
    let (result, rtable, world) ← rtableSize net world rtable
    return (.code result, rtable, world)
  | .getKeys => do
    let (keys, rtable, world) ← rtableGetKeys net world rtable
    return (.keys keys, rtable, world)

/-! ### Any replies in any order -/

/-- A net whose calls of `network_send_receive` yield the given replies one after another, and
`NULL` when none is left. -/
def scripted : ClientNet (List (Option MessageT)) Unit where
  networkConnect replies _ := (some (), replies)
  networkSendReceive
    | [], _, _ => .ok (none, [])
    | reply :: replies, _, _ => .ok (reply, replies)

/-- The first message among so many replies, and what is left behind it. -/
def firstAnswer : ℕ → List (Option MessageT) → Option MessageT × List (Option MessageT)
  | 0, replies => (none, replies)
  | _ + 1, [] => (none, [])
  | _ + 1, some reply :: replies => (some reply, replies)
  | attempts + 1, none :: replies => firstAnswer attempts replies

/-- The operation ends without a dereference of `NULL` and without a dead member. -/
def StubCall.ReadsLive (call : StubCall) (rtable : RtableT Unit)
    (replies : List (Option MessageT)) : Prop :=
  stubCall scripted replies rtable call ≠ .error .nullDeref ∧
    stubCall scripted replies rtable call ≠ .error .deadMember

/-- The type of its answer that the operation relies on, and for a put that failed also that
of the answer to the second request. -/
def StubCall.Expects (call : StubCall) : Option MessageT × List (Option MessageT) → Prop
  | (none, _) => True
  | (some reply, rest) =>
    match call with
    | .put _ _ =>
      if reply.opcode = ocRtError then
        ∃ again rest', rest = some again :: rest' ∧ again.cType = ctResult
      else reply.cType = ctResult
    | .update _ _ | .del _ | .size => reply.opcode = ocRtError ∨ reply.cType = ctResult
    | .get _ => reply.opcode = ocRtError ∨ reply.cType = ctValue
    | .getKeys => reply.content = .result 0

/-! ### Members of a reply -/

lemma exists_result {content : Content} (h : content.cType = ctResult) :
    ∃ r, content = .result r := by
  cases content with
  | result r => exact ⟨r, rfl⟩
  | _ => exact absurd h (by simp only [Content.cType]; decide)

lemma exists_data {content : Content} (h : content.cType = ctValue) : ∃ d, content = .data d := by
  cases content with
  | data d => exact ⟨d, rfl⟩
  | _ => exact absurd h (by simp only [Content.cType]; decide)

lemma liveResult_of_ne {content : Content} (h : content.cType ≠ ctResult) :
    content.liveResult = .error .deadMember := by
  cases content with
  | result r => exact absurd rfl h
  | _ => rfl

lemma dataMember_of_ne {content : Content} (h : content.cType ≠ ctValue) :
    content.dataMember = .error .deadMember := by
  cases content with
  | data d => exact absurd rfl h
  | _ => rfl

/-! ### One lemma for each kind of answer -/

/-- The attempts use up the replies before the first message. -/
lemma retryLoop_scripted (retries : ℕ) (replies : List (Option MessageT)) (rtable : RtableT Unit)
    (msgOut : MessageT) :
    ∃ rtable', retryLoop scripted retries replies rtable msgOut =
      .ok ((firstAnswer (retries + 1) replies).1, rtable',
        (firstAnswer (retries + 1) replies).2) := by
  induction retries generalizing replies rtable with
  | zero =>
    cases replies with
    | nil => exact ⟨rtable, rfl⟩
    | cons reply replies =>
      cases reply with
      | none => exact ⟨rtable, rfl⟩
      | some reply => exact ⟨rtable, rfl⟩
  | succ retries ih =>
    cases replies with
    | nil =>
      rw [retryLoop_of_none retries rfl]
      have hworld : (switchServer scripted [] rtable).2 = [] :=
        (switchServer_spec scripted [] rtable).1
      rw [hworld]
      exact ih [] _
    | cons reply replies =>
      cases reply with
      | some reply => exact ⟨rtable, retryLoop_of_answer _ rfl⟩
      | none =>
        have hworld : (switchServer scripted replies rtable).2 = replies :=
          (switchServer_spec scripted replies rtable).1
        rw [retryLoop_of_none retries rfl, hworld]
        exact ih replies _

variable {call : StubCall} {rtable rtable' : RtableT Unit} {replies rest : List (Option MessageT)}
  {answer : Option MessageT} {key : CString} {value : DataT}

lemma readsLive_of_ok {r : StubReturn × RtableT Unit × List (Option MessageT)}
    (h : stubCall scripted replies rtable call = .ok r) : call.ReadsLive rtable replies := by
  rw [StubCall.ReadsLive, h]
  exact ⟨by simp, by simp⟩

lemma not_readsLive_of_null (h : stubCall scripted replies rtable call = .error .nullDeref) :
    ¬call.ReadsLive rtable replies := fun hlive => hlive.1 h

lemma not_readsLive_of_dead (h : stubCall scripted replies rtable call = .error .deadMember) :
    ¬call.ReadsLive rtable replies := fun hlive => hlive.2 h

/-- The end of `rtable_put`, which reads the result of any reply. -/
lemma readsLive_put_of_resend {reply again : MessageT} {rest' : List (Option MessageT)}
    (hretry : retryServers scripted replies rtable ⟨ocPut, .entry ⟨key, value⟩⟩ =
      .ok (some reply, rtable', rest))
    (hresend : resend scripted rest rtable' ⟨ocPut, .entry ⟨key, value⟩⟩ reply =
      .ok (again, rest')) :
    (StubCall.put key value).ReadsLive rtable replies ↔ again.cType = ctResult := by
  by_cases htype : again.cType = ctResult
  · obtain ⟨r, hr⟩ := exists_result htype
    have hcall : stubCall scripted replies rtable (.put key value) =
        .ok (.code 0, rtable', rest') := by
      by_cases hten : r = -10
      · simp only [stubCall, rtablePut, hretry, hresend, ok_bind, pure_eq_ok, hr, hten, ne_eq,
          not_true_eq_false, if_false]
      · have hne : Content.result r ≠ .result (-10) := by simpa using hten
        simp only [stubCall, rtablePut, hretry, hresend, ok_bind, pure_eq_ok, hr, if_pos hne,
          Content.liveResult]
    exact iff_of_true (readsLive_of_ok hcall) htype
  · have hne : again.content ≠ .result (-10) := fun h => htype (by rw [MessageT.cType, h]; rfl)
    have hcall : stubCall scripted replies rtable (.put key value) = .error .deadMember := by
      simp only [stubCall, rtablePut, hretry, hresend, ok_bind, if_pos hne,
        liveResult_of_ne htype, error_bind]
    exact iff_of_false (not_readsLive_of_dead hcall) htype

lemma resend_of_none (rtable : RtableT Unit) (msgOut : MessageT) {reply : MessageT}
    (hop : reply.opcode = ocRtError) (hrest : ∀ again rest', rest ≠ some again :: rest') :
    resend scripted rest rtable msgOut reply = .error .nullDeref := by
  rw [resend, if_pos hop]
  cases rest with
  | nil => rfl
  | cons reply' rest' =>
    cases reply' with
    | none => rfl
    | some again => exact absurd rfl (hrest again rest')

lemma readsLive_put
    (hretry : retryServers scripted replies rtable ⟨ocPut, .entry ⟨key, value⟩⟩ =
      .ok (answer, rtable', rest)) :
    (StubCall.put key value).ReadsLive rtable replies ↔
      (StubCall.put key value).Expects (answer, rest) := by
  cases answer with
  | none =>
    have hcall : stubCall scripted replies rtable (.put key value) =
        .ok (.code (-1), rtable', rest) := by
      simp only [stubCall, rtablePut, hretry, ok_bind, pure_eq_ok]
    exact iff_of_true (readsLive_of_ok hcall) trivial
  | some reply =>
    by_cases hop : reply.opcode = ocRtError
    · simp only [StubCall.Expects, if_pos hop]
      by_cases hagain : ∃ again rest', rest = some again :: rest'
      · obtain ⟨again, rest', rfl⟩ := hagain
        have hresend : resend scripted (some again :: rest') rtable'
            ⟨ocPut, .entry ⟨key, value⟩⟩ reply = .ok (again, rest') := by
          simp only [resend, if_pos hop, scripted, ok_bind, pure_eq_ok]
        rw [readsLive_put_of_resend hretry hresend]
        simp
      · -- the second request is not answered
        have hnone := resend_of_none rtable' ⟨ocPut, .entry ⟨key, value⟩⟩ hop
          (fun again rest' h => hagain ⟨again, rest', h⟩)
        have hcall : stubCall scripted replies rtable (.put key value) = .error .nullDeref := by
          simp only [stubCall, rtablePut, hretry, hnone, ok_bind, error_bind]
        apply iff_of_false (not_readsLive_of_null hcall)
        rintro ⟨again, rest', h, -⟩
        exact hagain ⟨again, rest', h⟩
    · have hresend : resend scripted rest rtable' ⟨ocPut, .entry ⟨key, value⟩⟩ reply =
          .ok (reply, rest) := by
        simp only [resend, if_neg hop, pure_eq_ok]
      rw [readsLive_put_of_resend hretry hresend]
      simp only [StubCall.Expects, if_neg hop]

/-- The operations that look at the result of every answer but an error. -/
lemma readsLive_of_result {after : Except Fault (ℤ × RtableT Unit × List (Option MessageT))}
    (hcall : stubCall scripted replies rtable call = after >>= fun r => .ok (.code r.1, r.2))
    (hexpects : ∀ reply, call.Expects (some reply, rest) ↔
      reply.opcode = ocRtError ∨ reply.cType = ctResult)
    (hnone : answer = none → ∃ r, after = .ok r)
    (herror : ∀ reply, answer = some reply → reply.opcode = ocRtError → ∃ r, after = .ok r)
    (hsome : ∀ reply, answer = some reply → reply.opcode ≠ ocRtError →
      ∃ r, after = reply.content.liveResult >>= fun _ => .ok r) :
    call.ReadsLive rtable replies ↔ call.Expects (answer, rest) := by
  cases answer with
  | none =>
    obtain ⟨r, hr⟩ := hnone rfl
    rw [hr, ok_bind] at hcall
    exact iff_of_true (readsLive_of_ok hcall) trivial
  | some reply =>
    rw [hexpects]
    by_cases hop : reply.opcode = ocRtError
    · obtain ⟨r, hr⟩ := herror reply rfl hop
      rw [hr, ok_bind] at hcall
      exact iff_of_true (readsLive_of_ok hcall) (Or.inl hop)
    · obtain ⟨r, hr⟩ := hsome reply rfl hop
      rw [hr] at hcall
      by_cases htype : reply.cType = ctResult
      · obtain ⟨v, hv⟩ := exists_result htype
        rw [hv, Content.liveResult, ok_bind, ok_bind] at hcall
        exact iff_of_true (readsLive_of_ok hcall) (Or.inr htype)
      · rw [liveResult_of_ne htype, error_bind, error_bind] at hcall
        exact iff_of_false (not_readsLive_of_dead hcall) (not_or.mpr ⟨hop, htype⟩)

lemma readsLive_update
    (hretry : retryServers scripted replies rtable ⟨ocUpdate, .entry ⟨key, value⟩⟩ =
      .ok (answer, rtable', rest)) :
    (StubCall.update key value).ReadsLive rtable replies ↔
      (StubCall.update key value).Expects (answer, rest) := by
  refine readsLive_of_result rfl (fun _ => Iff.rfl) ?_ ?_ ?_
  · rintro rfl
    exact ⟨(0, rtable', rest), by simp only [rtableUpdate, hretry, ok_bind, pure_eq_ok]⟩
  · rintro reply rfl hop
    refine ⟨(0, rtable', rest), ?_⟩
    simp only [rtableUpdate, hretry, ok_bind, pure_eq_ok, hop, ne_eq, not_true_eq_false, if_false]
  · rintro reply rfl hop
    refine ⟨(0, rtable', rest), ?_⟩
    simp only [rtableUpdate, hretry, ok_bind, pure_eq_ok, if_pos hop]

lemma readsLive_del
    (hretry : retryServers scripted replies rtable ⟨ocDel, .key key⟩ =
      .ok (answer, rtable', rest)) :
    (StubCall.del key).ReadsLive rtable replies ↔ (StubCall.del key).Expects (answer, rest) := by
  refine readsLive_of_result rfl (fun _ => Iff.rfl) ?_ ?_ ?_
  · rintro rfl
    exact ⟨(-1, rtable', rest), by simp only [rtableDel, hretry, ok_bind, pure_eq_ok]⟩
  · rintro reply rfl hop
    exact ⟨(-1, rtable', rest), by simp only [rtableDel, hretry, ok_bind, pure_eq_ok, if_pos hop]⟩
  · rintro reply rfl hop
    exact ⟨(0, rtable', rest), by simp only [rtableDel, hretry, ok_bind, pure_eq_ok, if_neg hop]⟩

lemma readsLive_size
    (hretry : retryServers scripted replies rtable ⟨ocSize, .result 0⟩ =
      .ok (answer, rtable', rest)) :
    StubCall.size.ReadsLive rtable replies ↔ StubCall.size.Expects (answer, rest) := by
  refine readsLive_of_result rfl (fun _ => Iff.rfl) ?_ ?_ ?_
  · rintro rfl
    exact ⟨(-1, rtable', rest), by simp only [rtableSize, hretry, ok_bind, pure_eq_ok]⟩
  · rintro reply rfl hop
    exact ⟨(-1, rtable', rest), by simp only [rtableSize, hretry, ok_bind, pure_eq_ok, if_pos hop]⟩
  · rintro reply rfl hop
    exact ⟨(0, rtable', rest), by simp only [rtableSize, hretry, ok_bind, pure_eq_ok, if_neg hop]⟩

lemma readsLive_get
    (hretry : retryServers scripted replies rtable ⟨ocGet, .key key⟩ =
      .ok (answer, rtable', rest)) :
    (StubCall.get key).ReadsLive rtable replies ↔ (StubCall.get key).Expects (answer, rest) := by
  cases answer with
  | none =>
    have hcall : stubCall scripted replies rtable (.get key) = .ok (.data none, rtable', rest) := by
      simp only [stubCall, rtableGet, hretry, ok_bind, pure_eq_ok]
    exact iff_of_true (readsLive_of_ok hcall) trivial
  | some reply =>
    by_cases hop : reply.opcode = ocRtError
    · have hcall : stubCall scripted replies rtable (.get key) =
          .ok (.data none, rtable', rest) := by
        simp only [stubCall, rtableGet, hretry, ok_bind, pure_eq_ok, if_pos hop]
      exact iff_of_true (readsLive_of_ok hcall) (Or.inl hop)
    · by_cases htype : reply.cType = ctValue
      · obtain ⟨d, hd⟩ := exists_data htype
        have hcall : stubCall scripted replies rtable (.get key) =
            .ok (.data (some d.bytes), rtable', rest) := by
          simp only [stubCall, rtableGet, hretry, ok_bind, pure_eq_ok, if_neg hop, hd,
            Content.dataMember]
        exact iff_of_true (readsLive_of_ok hcall) (Or.inr htype)
      · have hcall : stubCall scripted replies rtable (.get key) = .error .deadMember := by
          simp only [stubCall, rtableGet, hretry, ok_bind, if_neg hop, dataMember_of_ne htype,
            error_bind]
        exact iff_of_false (not_readsLive_of_dead hcall) (not_or.mpr ⟨hop, htype⟩)

/-- A listing is read as a result first, and a result that is not zero as a listing then. -/
lemma readsLive_getKeys
    (hretry : retryServers scripted replies rtable ⟨ocGet, .key bang⟩ =
      .ok (answer, rtable', rest)) :
    StubCall.getKeys.ReadsLive rtable replies ↔ StubCall.getKeys.Expects (answer, rest) := by
  cases answer with
  | none =>
    have hcall : stubCall scripted replies rtable .getKeys = .ok (.keys none, rtable', rest) := by
      simp only [stubCall, rtableGetKeys, hretry, ok_bind, pure_eq_ok]
    exact iff_of_true (readsLive_of_ok hcall) trivial
  | some reply =>
    by_cases htype : reply.cType = ctResult
    · obtain ⟨r, hr⟩ := exists_result htype
      by_cases hzero : r = 0
      · have hcall : stubCall scripted replies rtable .getKeys =
            .ok (.keys none, rtable', rest) := by
          simp only [stubCall, rtableGetKeys, hretry, ok_bind, pure_eq_ok, hr, Content.liveResult,
            if_pos hzero]
        exact iff_of_true (readsLive_of_ok hcall) (by rw [StubCall.Expects, hr, hzero])
      · have hcall : stubCall scripted replies rtable .getKeys = .error .deadMember := by
          simp only [stubCall, rtableGetKeys, hretry, ok_bind, hr, Content.liveResult,
            if_neg hzero, Content.keysMember, error_bind]
        apply iff_of_false (not_readsLive_of_dead hcall)
        intro h
        rw [StubCall.Expects, hr, Content.result.injEq] at h
        exact hzero h
    · have hcall : stubCall scripted replies rtable .getKeys = .error .deadMember := by
        simp only [stubCall, rtableGetKeys, hretry, ok_bind, liveResult_of_ne htype, error_bind]
      apply iff_of_false (not_readsLive_of_dead hcall)
      intro h
      exact htype (by rw [MessageT.cType, h]; rfl)

/-- The exact replies on which the stub follows no `NULL` and reads live members only. -/
theorem readsLive_iff (call : StubCall) (rtable : RtableT Unit)
    (replies : List (Option MessageT)) :
    call.ReadsLive rtable replies ↔ call.Expects (firstAnswer 4 replies) := by
  have hretry : ∀ msgOut, ∃ rtable', retryServers scripted replies rtable msgOut =
      .ok ((firstAnswer 4 replies).1, rtable', (firstAnswer 4 replies).2) :=
    fun msgOut => retryLoop_scripted 3 replies rtable msgOut
  cases call with
  | put key value => exact readsLive_put (hretry _).choose_spec
  | update key value => exact readsLive_update (hretry _).choose_spec
  | get key => exact readsLive_get (hretry _).choose_spec
  | del key => exact readsLive_del (hretry _).choose_spec
  | size => exact readsLive_size (hretry _).choose_spec
  | getKeys => exact readsLive_getKeys (hretry _).choose_spec

/-- A put that gets an error, and no answer to its second request. -/
theorem not_readsLive_put :
    ¬∀ (call : StubCall) (rtable : RtableT Unit) (replies : List (Option MessageT)),
      (∀ reply, some reply ∈ replies →
        ∃ buf, bufferToMessage buf buf.length = .ok (some reply)) →
      call.ReadsLive rtable replies := by
  intro h
  have hdecode : bufferToMessage [0, 99, 0, 10, 255, 255, 255, 255] 8 =
      .ok (some buildErrorMsg) := by decide
  have hread := h (.put (.ofBytes [97]) ⟨[7], by decide, by decide⟩)
    ⟨some (), none, .ofBytes [], .ofBytes [], serverOne⟩ [some buildErrorMsg, none]
    (fun reply hreply => ⟨_, by
      rw [List.mem_pair, Option.some.injEq] at hreply
      rcases hreply with rfl | hnone
      · exact hdecode
      · cases hnone⟩)
  exact hread.1 rfl

/-! ### A first attempt that is answered -/

section

variable {net : Net σ δ} {server : Server δ} {world : σ} {rtable : RtableT Unit} {n : ℤ}
  {m : KeyMap}

/-- The request reaches the server as it was sent, and the reply comes back. -/
def Answered (net : Net σ δ) (server : Server δ) (world : σ) (request : Request) : Prop :=
  request.msg.Encodable ∧
    ∃ reply after, remoteCall net server world request.msg = .ok (some reply, after)

/-- What the operation returns to its caller. -/
def Returns (net : Net σ δ) (server : Server δ) (world : σ) (rtable : RtableT Unit)
    (call : StubCall) (result : ℤ) : Prop :=
  ∃ after, stubCall (peerNet net).client (server, world) rtable call = .ok (.code result, after)

lemma returns_iff {call : StubCall} {result : ℤ} {after : RtableT Unit × Server δ × σ}
    (h : stubCall (peerNet net).client (server, world) rtable call = .ok (.code result, after))
    (promised : ℤ) : Returns net server world rtable call promised ↔ promised = result := by
  constructor
  · rintro ⟨after', h'⟩
    rw [h] at h'
    simp only [Except.ok.injEq, Prod.mk.injEq, StubReturn.code.injEq] at h'
    exact h'.1.symm
  · rintro rfl
    exact ⟨after, h⟩

lemma remoteCall_of_answered (hr : server.tabela.Represents n m) {request : Request}
    (hget : ∀ key, request ≠ .get key) (h : Answered net server world request) :
    ∃ after, remoteCall net server world request.msg = .ok (some (request.reply m), after) := by
  obtain ⟨hencodable, reply, after, hcall⟩ := h
  rw [remoteCall_eq net server world hencodable] at hcall
  obtain ⟨⟨reply', server', world'⟩, hhandle, -⟩ := bind_eq_ok hcall
  obtain ⟨hstatus, hup⟩ := request_not_own request
  have htable := hhandle
  rw [handleRequest_of_table hstatus hup] at htable
  obtain ⟨⟨reply₁, tabela⟩, hinvoke, hrest⟩ := bind_eq_ok htable
  have hindexable : request.Indexable n := by
    by_cases hwrite : isWrite request.msg.opcode
    · exact indexable_of_invoke hr hwrite hinvoke
    · obtain ⟨result, rfl⟩ | ⟨key, rfl⟩ := exists_read hwrite
      · simp [Request.Indexable, Request.keys]
      · exact absurd rfl (hget key)
  obtain ⟨tabela', hok, -⟩ := invoke_refines hr hindexable (hget bang)
  rw [hinvoke] at hok
  simp only [Except.ok.injEq, Prod.mk.injEq] at hok
  obtain ⟨⟨server₁, world₁⟩, -, hreply⟩ := bind_eq_ok hrest
  simp only [Except.ok.injEq, Prod.mk.injEq] at hreply
  rw [← hreply.1, hok.1] at hhandle
  exact ⟨_, remoteCall_ok hencodable (encodable_reply hget m) hhandle⟩

lemma retryServers_of_answered (hr : server.tabela.Represents n m)
    (hconnected : currentServer rtable = some ()) {request : Request}
    (hget : ∀ key, request ≠ .get key) (h : Answered net server world request) :
    ∃ after, retryServers (peerNet net).client (server, world) rtable request.msg =
      .ok (some (request.reply m), rtable, after) := by
  obtain ⟨after, hcall⟩ := remoteCall_of_answered hr hget h
  have hattempt : (peerNet net).client.networkSendReceive (server, world) (currentServer rtable)
      request.msg = .ok (some (request.reply m), after) := by
    rw [hconnected]
    simp only [Net.client, peerNet, hcall, ok_bind, pure_eq_ok]
  exact ⟨after, retryLoop_of_answer 3 hattempt⟩

/-- Whatever the table says, an answered put returns zero. -/
lemma stubCall_put (hr : server.tabela.Represents n m) (hconnected : currentServer rtable = some ())
    {key : CString} {value : DataT} (h : Answered net server world (.put ⟨key, value⟩)) :
    ∃ after, stubCall (peerNet net).client (server, world) rtable (.put key value) =
      .ok (.code 0, rtable, after) := by
  obtain ⟨after, hretry⟩ := retryServers_of_answered hr hconnected (by simp) h
  refine ⟨after, ?_⟩
  have hop : ocPut + 1 ≠ ocRtError := by decide
  simp only [Request.msg, Request.reply] at hretry
  simp only [stubCall, rtablePut, hretry, ok_bind, resend, resultMsg, if_neg hop, pure_eq_ok,
    Content.liveResult, ite_self]

/-- An answered update returns zero, also for an error. -/
lemma stubCall_update (hr : server.tabela.Represents n m)
    (hconnected : currentServer rtable = some ()) {key : CString} {value : DataT}
    (h : Answered net server world (.update ⟨key, value⟩)) :
    ∃ after, stubCall (peerNet net).client (server, world) rtable (.update key value) =
      .ok (.code 0, rtable, after) := by
  obtain ⟨after, hretry⟩ := retryServers_of_answered hr hconnected (by simp) h
  refine ⟨after, ?_⟩
  simp only [Request.msg, Request.reply, foundMsg] at hretry
  by_cases hmem : key ∈ m
  · simp only [hmem, decide_true, if_true] at hretry
    simp only [stubCall, rtableUpdate, hretry, ok_bind, resultMsg, pure_eq_ok,
      Content.liveResult, ite_self]
  · simp only [hmem, decide_false, Bool.false_eq_true, if_false] at hretry
    simp only [stubCall, rtableUpdate, hretry, ok_bind, buildErrorMsg, pure_eq_ok,
      Content.liveResult, ite_self]

lemma stubCall_del (hr : server.tabela.Represents n m) (hconnected : currentServer rtable = some ())
    {key : CString} (h : Answered net server world (.del key)) :
    ∃ after, stubCall (peerNet net).client (server, world) rtable (.del key) =
      .ok (.code (if key ∈ m then 0 else -1), rtable, after) := by
  obtain ⟨after, hretry⟩ := retryServers_of_answered hr hconnected (by simp) h
  refine ⟨after, ?_⟩
  have hop : ocDel + 1 ≠ ocRtError := by decide
  simp only [Request.msg, Request.reply, foundMsg] at hretry
  by_cases hmem : key ∈ m
  · simp only [hmem, decide_true, if_true] at hretry
    simp only [stubCall, rtableDel, hretry, ok_bind, resultMsg, if_neg hop, pure_eq_ok,
      Content.liveResult, if_pos hmem]
  · simp only [hmem, decide_false, Bool.false_eq_true, if_false] at hretry
    simp only [stubCall, rtableDel, hretry, ok_bind, buildErrorMsg, if_true, pure_eq_ok,
      if_neg hmem]

lemma stubCall_size (hr : server.tabela.Represents n m)
    (hconnected : currentServer rtable = some ()) (h : Answered net server world (.size 0)) :
    ∃ after, stubCall (peerNet net).client (server, world) rtable .size =
      .ok (.code 0, rtable, after) := by
  obtain ⟨after, hretry⟩ := retryServers_of_answered hr hconnected (by simp) h
  refine ⟨after, ?_⟩
  have hop : ocSize + 1 ≠ ocRtError := by decide
  simp only [Request.msg, Request.reply] at hretry
  simp only [stubCall, rtableSize, hretry, ok_bind, resultMsg, if_neg hop, pure_eq_ok,
    Content.liveResult]

/-- Exactly when an operation whose first attempt is answered returns what `client_stub.h`
promises: for a put the key was absent, for an update it was present, for the size the table
was empty; a deletion always does. -/
theorem stubReturns_iff (hreach : server.tabela.Reachable n)
    (hconnected : currentServer rtable = some ()) :
    (∀ key value, Answered net server world (.put ⟨key, value⟩) →
      (Returns net server world rtable (.put key value)
        (if key ∈ server.tabela.contents then -1 else 0) ↔ key ∉ server.tabela.contents)) ∧
    (∀ key value, Answered net server world (.update ⟨key, value⟩) →
      (Returns net server world rtable (.update key value)
        (if key ∈ server.tabela.contents then 0 else -1) ↔ key ∈ server.tabela.contents)) ∧
    (∀ key, Answered net server world (.del key) →
      Returns net server world rtable (.del key)
        (if key ∈ server.tabela.contents then 0 else -1)) ∧
    (Answered net server world (.size 0) →
      (Returns net server world rtable .size server.tabela.contents.keys.card ↔
        server.tabela.contents = ∅)) := by
  have hr := hreach.represents
  refine ⟨?_, ?_, ?_, ?_⟩
  · intro key value h
    obtain ⟨after, hcall⟩ := stubCall_put hr hconnected h
    rw [returns_iff hcall]
    by_cases hmem : key ∈ server.tabela.contents
    · simp [hmem]
    · simp [hmem]
  · intro key value h
    obtain ⟨after, hcall⟩ := stubCall_update hr hconnected h
    rw [returns_iff hcall]
    by_cases hmem : key ∈ server.tabela.contents
    · simp [hmem]
    · simp [hmem]
  · intro key h
    obtain ⟨after, hcall⟩ := stubCall_del hr hconnected h
    exact ⟨_, hcall⟩
  · intro h
    obtain ⟨after, hcall⟩ := stubCall_size hr hconnected h
    rw [returns_iff hcall]
    exact card_keys_eq_zero_iff

end

/-- A client that is connected to its first server. -/
def connectedRtable : RtableT Unit := ⟨some (), none, backupAddress, backupAddress, serverOne⟩

/-- A primary that has no backup. -/
def soleServer (tabela : TableT) : Server Unit := ⟨tabela, statusPrimary, stateDown, none⟩

lemma answered_size {tabela : TableT} {n : ℤ} (hr : tabela.Represents n tabela.contents) :
    Answered noNet (soleServer tabela) () (.size 0) := by
  have hencodable : (Request.size 0).msg.Encodable := encodable_result _ _
  refine ⟨hencodable, resultMsg (ocSize + 1) tabela.contents.keys.card, (soleServer tabela, ()), ?_⟩
  apply remoteCall_ok hencodable (encodable_result _ _)
  have hlocal : ¬(soleServer tabela).Forwards (Request.size 0).msg.opcode :=
    not_forwards_of_read (by decide)
  obtain ⟨hstatus, hup⟩ := request_not_own (.size 0)
  have hsize : invokeSize (soleServer tabela).tabela = _ := invokeSize_refines hr
  rw [handleRequest_of_local hstatus hup hlocal, Request.msg, invoke_size, hsize]
  rfl

lemma answered_of_handle {server' : Server Unit} {request : Request} {reply : MessageT}
    (hencodable : request.msg.Encodable) (hreply : reply.Encodable)
    (h : handleRequest noNet (soleServer lettersTable) () request.msg =
      .ok (.message reply, server', ())) :
    Answered noNet (soleServer lettersTable) () request :=
  ⟨hencodable, reply, _, remoteCall_ok hencodable hreply h⟩

lemma mem_soleServer_iff (key : CString) :
    key ∈ (soleServer lettersTable).tabela.contents ↔
      key ∈ lettersTable.entries.map EntryT.key :=
  mem_keys_contents lettersTable key

/-- A put of a new key, an update and a deletion of keys that are there, and the sizes of an
empty table and of one that is not. -/
theorem stubReturns_iff_letters :
    Returns noNet (soleServer lettersTable) () connectedRtable
      (.put (letterEntry 100).key (letterEntry 100).value) 0 ∧
    Returns noNet (soleServer lettersTable) () connectedRtable
      (.update (letterEntry 97).key (letterEntry 97).value) 0 ∧
    Returns noNet (soleServer lettersTable) () connectedRtable (.del (letterEntry 98).key) 0 ∧
    (Returns noNet (soleServer lettersTable) () connectedRtable .size
      lettersTable.contents.keys.card ↔ lettersTable.contents = ∅) ∧
    Returns noNet (soleServer ⟨[listCreate], 1, 0⟩) () connectedRtable .size
      (TableT.contents ⟨[listCreate], 1, 0⟩).keys.card := by
  have hconnected : currentServer connectedRtable = some () := rfl
  have hletters : (soleServer lettersTable).tabela.Reachable 2 := lettersTable_reachable
  have hnew : CString.ofBytes [100] ∉ (soleServer lettersTable).tabela.contents := by
    rw [mem_soleServer_iff]
    decide
  have hold : CString.ofBytes [97] ∈ (soleServer lettersTable).tabela.contents := by
    rw [mem_soleServer_iff]
    decide
  have hdeleted : (letterEntry 98).key ∈ (soleServer lettersTable).tabela.contents := by
    rw [mem_soleServer_iff]
    decide
  have hput : Answered noNet (soleServer lettersTable) () (.put (letterEntry 100)) :=
    answered_of_handle ⟨by decide, by decide⟩ (encodable_result (ocPut + 1) 0) (by rfl)
  have hupdate : Answered noNet (soleServer lettersTable) () (.update (letterEntry 97)) :=
    answered_of_handle ⟨by decide, by decide⟩ (encodable_result (ocUpdate + 1) 0) (by rfl)
  have hdel : Answered noNet (soleServer lettersTable) () (.del (letterEntry 98).key) :=
    answered_of_handle ⟨by decide, by decide⟩ (encodable_result (ocDel + 1) 0) (by rfl)
  have hempty : (soleServer ⟨[listCreate], 1, 0⟩).tabela.Reachable 1 :=
    ⟨_, [], [], rfl, by simp, rfl⟩
  refine ⟨?_, ?_, ?_,
    (stubReturns_iff hletters hconnected).2.2.2 (answered_size lettersTable_reachable.represents),
    ((stubReturns_iff hempty hconnected).2.2.2 (answered_size hempty.represents)).mpr rfl⟩
  · have hreturns := ((stubReturns_iff hletters hconnected).1 _ _ hput).mpr hnew
    rwa [if_neg hnew] at hreturns
  · have hreturns := ((stubReturns_iff hletters hconnected).2.1 _ _ hupdate).mpr hold
    rwa [if_pos hold] at hreturns
  · have hreturns := (stubReturns_iff hletters hconnected).2.2.1 _ hdel
    rwa [if_pos hdeleted] at hreturns

/-- The size of a table with one pair is returned as zero. -/
theorem not_stubReturns_size :
    ¬∀ (server : Server Unit) (n : ℤ), server.tabela.Reachable n →
      Answered noNet server () (.size 0) →
        Returns noNet server () connectedRtable .size server.tabela.contents.keys.card := by
  intro h
  have hreach : (soleServer bangTable).tabela.Reachable 1 :=
    ⟨_, [.put bang ⟨[7], by decide, by decide⟩], [.code 0], rfl, by decide, by decide⟩
  have hanswered := answered_size hreach.represents
  have hconnected : currentServer connectedRtable = some () := rfl
  obtain ⟨after, hcall⟩ := stubCall_size hreach.represents hconnected hanswered
  have hsize := (returns_iff hcall _).mp (h _ 1 hreach hanswered)
  exact absurd hsize (by decide)

end RemoteTable
