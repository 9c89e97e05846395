import RemoteTable.Library.Delivery
import RemoteTable.LostReplies
import RemoteTable.StubReplies

/-!
# Whole sessions of a client

A client calls its stub again and again, and requests and replies get lost at any point. Each
request may be executed several times, at one server or at both, before it is answered or given
up. What the servers hold is what executing it at most once leaves.
-/

namespace RemoteTable
open Delivery

variable {σ δ : Type}

/-! ### The session -/

/-- The request that an operation of the stub sends. -/
def StubCall.request : StubCall → Request
  | .put key value => .put ⟨key, value⟩
  | .update key value => .update ⟨key, value⟩
  | .get key => .get key
  | .del key => .del key
  | .size => .size 0
  | .getKeys => .get bang

/-- Operations one after another, until one of them faults. -/
def stubSession (net : ClientNet σ δ) :
    List StubCall → σ → RtableT δ → Except Fault (List StubReturn × RtableT δ × σ)
  | [], world, rtable => return ([], rtable, world)
  | call :: calls, world, rtable => do
    let (result, rtable, world) ← stubCall net world rtable call
    let (results, rtable, world) ← stubSession net calls world rtable
    return (result :: results, rtable, world)

/-- What an operation returns for an answer or for none. -/
def StubCall.returned : StubCall → Option MessageT → StubReturn
  | .put _ _, answer => .code (if answer = none then -1 else 0)
  | .update _ _, _ => .code 0
  | .get _, some ⟨_, .data value⟩ => .data (some value.bytes)
  | .get _, _ => .data none
  | .del _, answer => .code (if answer = none ∨ answer = some buildErrorMsg then -1 else 0)
  | .size, answer => .code (if answer = none then -1 else 0)
  | .getKeys, _ => .keys none

/-- Not the listing of the keys, and nothing that the encoder or `key_hash` fail at. -/
structure Request.Plain (request : Request) (n : ℤ) : Prop where
  ne_listing : request ≠ .get bang
  encodable : request.msg.Encodable
  indexable : request.Indexable n

variable {net : ClientNet σ δ} {world world' : σ} {rtable rtable' : RtableT δ}
  {answer : Option MessageT} {n : ℤ} {m : KeyMap}

/-- An operation returns what its answer says: no answer to a put is an error, so none of them
sends a request beyond those of `retry_servers`. -/
lemma stubCall_returned (call : StubCall) (hplain : call.request ≠ .get bang)
    (hretry : retryServers net world rtable call.request.msg = .ok (answer, rtable', world'))
    (hanswer : ∀ reply ∈ answer, ∃ m, reply = call.request.reply m) :
    stubCall net world rtable call = .ok (call.returned answer, rtable', world') := by
  cases call with
  | put key value =>
    have hop : ocPut + 1 ≠ ocRtError := by decide
    simp only [StubCall.request, Request.msg] at hretry
    cases answer with
    | none =>
      simp only [stubCall, rtablePut, hretry, ok_bind, pure_eq_ok, StubCall.returned, if_true]
    | some reply =>
      obtain ⟨m, rfl⟩ := hanswer reply rfl
      simp only [StubCall.request, Request.reply] at hretry
      simp only [stubCall, rtablePut, hretry, ok_bind, resend, resultMsg, if_neg hop, pure_eq_ok,
        Content.liveResult, ite_self, StubCall.returned, reduceCtorEq, if_false]
  | update key value =>
    simp only [StubCall.request, Request.msg] at hretry
    cases answer with
    | none => simp only [stubCall, rtableUpdate, hretry, ok_bind, pure_eq_ok, StubCall.returned]
    | some reply =>
      obtain ⟨m, rfl⟩ := hanswer reply rfl
      simp only [StubCall.request, Request.reply, foundMsg] at hretry
      by_cases hmem : key ∈ m
      · simp only [hmem, decide_true, if_true] at hretry
        simp only [stubCall, rtableUpdate, hretry, ok_bind, resultMsg, pure_eq_ok,
          Content.liveResult, ite_self, StubCall.returned]
      · simp only [hmem, decide_false, Bool.false_eq_true, if_false] at hretry
        simp only [stubCall, rtableUpdate, hretry, ok_bind, buildErrorMsg, pure_eq_ok,
          Content.liveResult, ite_self, StubCall.returned]
  | get key =>
    have hop : ocGet + 1 ≠ ocRtError := by decide
    simp only [StubCall.request, Request.msg] at hretry
    cases answer with
    | none => simp only [stubCall, rtableGet, hretry, ok_bind, pure_eq_ok, StubCall.returned]
    | some reply =>
      obtain ⟨m, rfl⟩ := hanswer reply rfl
      simp only [StubCall.request, Request.reply] at hretry ⊢
      cases hlook : m.lookup key with
      | none =>
        rw [hlook] at hretry
        simp only [stubCall, rtableGet, hretry, ok_bind, buildErrorMsg, if_true, pure_eq_ok,
          StubCall.returned]
      | some value =>
        rw [hlook] at hretry
        simp only [stubCall, rtableGet, hretry, ok_bind, if_neg hop, pure_eq_ok,
          Content.dataMember, StubCall.returned]
  | del key =>
    have hop : ocDel + 1 ≠ ocRtError := by decide
    simp only [StubCall.request, Request.msg] at hretry
    cases answer with
    | none =>
      simp only [stubCall, rtableDel, hretry, ok_bind, pure_eq_ok, StubCall.returned, true_or,
        if_true]
    | some reply =>
      obtain ⟨m, rfl⟩ := hanswer reply rfl
      simp only [StubCall.request, Request.reply, foundMsg] at hretry ⊢
      by_cases hmem : key ∈ m
      · have hcode : (StubCall.del key).returned (some (resultMsg (ocDel + 1) 0)) = .code 0 := by
          rw [StubCall.returned, if_neg (by decide)]
        simp only [hmem, decide_true, if_true] at hretry ⊢
        rw [hcode]
        simp only [stubCall, rtableDel, hretry, ok_bind, resultMsg, if_neg hop, pure_eq_ok,
          Content.liveResult]
      · have hcode : (StubCall.del key).returned (some buildErrorMsg) = .code (-1) := by
          rw [StubCall.returned, if_pos (.inr rfl)]
        simp only [hmem, decide_false, Bool.false_eq_true, if_false] at hretry ⊢
        rw [hcode]
        simp only [stubCall, rtableDel, hretry, ok_bind, buildErrorMsg, if_true, pure_eq_ok]
  | size =>
    have hop : ocSize + 1 ≠ ocRtError := by decide
    simp only [StubCall.request, Request.msg] at hretry
    cases answer with
    | none =>
      simp only [stubCall, rtableSize, hretry, ok_bind, pure_eq_ok, StubCall.returned, if_true]
    | some reply =>
      obtain ⟨m, rfl⟩ := hanswer reply rfl
      simp only [StubCall.request, Request.reply] at hretry
      simp only [stubCall, rtableSize, hretry, ok_bind, resultMsg, if_neg hop, pure_eq_ok,
        Content.liveResult, StubCall.returned, reduceCtorEq, if_false]
  | getKeys => exact absurd rfl hplain

/-! ### Values that replies carry -/

/-- Every value fits into a reply. -/
def Carriable (m : KeyMap) : Prop :=
  ∀ key value, m.lookup key = some value → MessageT.Encodable ⟨ocGet + 1, .data value⟩

variable {request : Request}

lemma encodable_data {opcode : Int16} {entry : EntryT}
    (h : MessageT.Encodable ⟨opcode, .entry entry⟩) :
    MessageT.Encodable ⟨ocGet + 1, .data entry.value⟩ := by
  refine ⟨by simp [Content.strings], ?_⟩
  have hsize := h.size
  simp only [wireFormat, contentFormat, List.length_append, Bytes.length_beBytes, length_keyField,
    length_dataField] at hsize ⊢
  omega

/-- What every value has, the values after a request have if the one that it carries does. -/
lemma values_apply {p : DataT → Prop} (hm : ∀ key value, m.lookup key = some value → p value)
    (hrequest : ∀ entry, request = .put entry ∨ request = .update entry → p entry.value) :
    ∀ key value, (request.apply m).lookup key = some value → p value := by
  have hinsert : ∀ entry : EntryT, p entry.value → ∀ key value,
      (m.insert entry.key entry.value).lookup key = some value → p value := by
    intro entry hentry key value hlook
    by_cases hkey : key = entry.key
    · rw [hkey, Finmap.lookup_insert] at hlook
      cases hlook
      exact hentry
    · rw [Finmap.lookup_insert_of_ne _ hkey] at hlook
      exact hm key value hlook
  cases request with
  | size result => exact hm
  | get key => exact hm
  | put entry =>
    rw [apply_put]
    split
    · exact hm
    · exact hinsert entry (hrequest entry (.inl rfl))
  | update entry =>
    rw [apply_update]
    split
    · exact hinsert entry (hrequest entry (.inr rfl))
    · exact hm
  | del key =>
    rw [apply_del]
    split
    · intro key' value hlook
      by_cases hkey : key' = key
      · rw [hkey, Finmap.lookup_erase] at hlook
        cases hlook
      · rw [Finmap.lookup_erase_ne hkey] at hlook
        exact hm key' value hlook
    · exact hm

lemma Carriable.apply (hm : Carriable m) (h : request.msg.Encodable) :
    Carriable (request.apply m) := by
  refine values_apply hm fun entry hrequest => ?_
  rcases hrequest with rfl | rfl
  · exact encodable_data h
  · exact encodable_data h

/-- `%s` stops in every value. -/
def Printable (m : KeyMap) : Prop := ∀ key value, m.lookup key = some value → 0 ∈ value.bytes

def Request.Printable (request : Request) : Prop :=
  ∀ entry, request = .put entry ∨ request = .update entry → 0 ∈ entry.value.bytes

lemma Printable.apply (hm : Printable m) (h : request.Printable) : Printable (request.apply m) :=
  values_apply hm h

lemma Printable.reply (hm : Printable m) {value : DataT}
    (h : (request.reply m).content = .data value) : 0 ∈ value.bytes := by
  cases request with
  | get key =>
    simp only [Request.reply] at h
    cases hlook : m.lookup key with
    | none =>
      rw [hlook] at h
      cases h
    | some found =>
      rw [hlook] at h
      cases h
      exact hm key value hlook
  | _ =>
    simp only [Request.reply, foundMsg] at h
    first
      | cases h
      | (split at h
         · cases h
         · cases h)

lemma Carriable.encodable_reply (hm : Carriable m) : (request.reply m).Encodable := by
  by_cases hget : ∃ key, request = .get key
  · obtain ⟨key, rfl⟩ := hget
    simp only [Request.reply]
    split
    · exact hm key _ ‹_›
    · exact encodable_result _ _
  · exact RemoteTable.encodable_reply (not_exists.mp hget) m

/-! ### Executions -/

lemma remoteCall_plain {server : Server δ} {net : Net σ δ} {world : σ}
    (hr : server.tabela.Represents n m) (hm : Carriable m) (hplain : request.Plain n)
    (hlocal : ¬server.Forwards request.msg.opcode) :
    ∃ tabela, remoteCall net server world request.msg =
        .ok (some (request.reply m), { server with tabela := tabela }, world) ∧
      tabela.Represents n (request.apply m) := by
  obtain ⟨tabela, hinvoke, hr'⟩ := invoke_refines hr hplain.indexable hplain.ne_listing
  obtain ⟨hstatus, hup⟩ := request_not_own request
  refine ⟨tabela, remoteCall_ok hplain.encodable hm.encodable_reply ?_, hr'⟩
  rw [handleRequest_of_local hstatus hup hlocal, hinvoke, ok_bind]

/-- What each of the two servers holds. The primary sees its backup as up. -/
structure TwoServers.Holds (w : TwoServers) (n : ℤ) (c : KeyMap × KeyMap) : Prop where
  primary : w.primary.tabela.Represents n c.1
  secondary : w.secondary.tabela.Represents n c.2
  isPrimary : w.primary.status = statusPrimary
  isUp : w.primary.state = stateUp
  connected : w.primary.currentBackup = some ()
  keeps : ¬(w.secondary.state = stateUp ∧ w.secondary.status = statusPrimary)
  carriable : Carriable c.1 ∧ Carriable c.2

variable {w : TwoServers} {c : KeyMap × KeyMap}

lemma TwoServers.Holds.withFates (h : w.Holds n c) (fates : List Fate) :
    TwoServers.Holds { w with fates := fates } n c :=
  ⟨h.primary, h.secondary, h.isPrimary, h.isUp, h.connected, h.keeps, h.carriable⟩

lemma TwoServers.Holds.hangUp (h : w.Holds n c) (noticed : Bool) (p : Party) :
    (w.hangUp noticed p).Holds n c := by
  cases noticed with
  | false =>
    cases p with
    | first => exact h
    | second => exact h
  | true =>
    cases p with
    | first =>
      have hw : w.hangUp true .first = w := by
        simp only [TwoServers.hangUp, if_true, disconnected_of_primary h.isPrimary]
      rw [hw]
      exact h
    | second =>
      have hw : (w.hangUp true .second).secondary = w.secondary.disconnected := rfl
      refine ⟨h.primary, ?_, h.isPrimary, h.isUp, h.connected, ?_, h.carriable⟩
      · rw [hw, disconnected_tabela]
        exact h.secondary
      · rw [hw]
        exact disconnected_keeps h.keeps

/-- The primary passes a write on, and a read leaves both tables. -/
lemma TwoServers.Holds.execute_first (h : w.Holds n c) (hplain : request.Plain n) :
    ∃ w', w.execute request.msg .first = .ok (some (request.reply c.1), w') ∧
      w'.fates = w.fates ∧ w'.Holds n (Reach.both.after Request.apply request c) := by
  have hcarriable := h.carriable
  have hlocal : ¬w.secondary.Forwards request.msg.opcode := fun hf => h.keeps hf.2
  by_cases hwrite : isWrite request.msg.opcode
  · obtain ⟨tabela, hinvoke, hr⟩ := invoke_refines h.primary hplain.indexable hplain.ne_listing
    have hforwards : Server.Forwards { w.primary with tabela := tabela } request.msg.opcode :=
      ⟨hwrite, h.isUp, h.isPrimary⟩
    obtain ⟨tabela', hforward, hr'⟩ := forwardWrite_peer hforwards h.connected h.secondary
      hplain.encodable hplain.indexable hlocal
    obtain ⟨hstatus, hup⟩ := request_not_own request
    have hcall : remoteCall (peerNet noNet) w.primary (w.secondary, ()) request.msg =
        .ok (some (request.reply c.1), { w.primary with tabela := tabela },
          ({ w.secondary with tabela := tabela' }, ())) := by
      apply remoteCall_ok hplain.encodable h.carriable.1.encodable_reply
      rw [handleRequest_of_table hstatus hup, hinvoke, ok_bind]
      simp only [hforward, ok_bind]
    refine ⟨⟨{ w.primary with tabela := tabela }, { w.secondary with tabela := tabela' }, w.fates,
      w.executed ++ [(.first, some (request.reply c.1))]⟩, ?_, rfl, ?_⟩
    · simp only [TwoServers.execute, hcall, ok_bind, pure_eq_ok]
    · exact ⟨hr, hr', h.isPrimary, h.isUp, h.connected, h.keeps,
        hcarriable.1.apply hplain.encodable, hcarriable.2.apply hplain.encodable⟩
  · have hread : isWrite request.msg.opcode = false := Bool.eq_false_iff.mpr hwrite
    obtain ⟨tabela, hcall, hr⟩ : ∃ tabela, remoteCall (peerNet noNet) w.primary (w.secondary, ())
        request.msg = .ok (some (request.reply c.1), { w.primary with tabela := tabela },
          (w.secondary, ())) ∧ tabela.Represents n (request.apply c.1) :=
      remoteCall_plain h.primary h.carriable.1 hplain (not_forwards_of_read hread)
    refine ⟨⟨{ w.primary with tabela := tabela }, w.secondary, w.fates,
      w.executed ++ [(.first, some (request.reply c.1))]⟩, ?_, rfl, ?_⟩
    · simp only [TwoServers.execute, hcall, ok_bind, pure_eq_ok]
    · refine ⟨hr, ?_, h.isPrimary, h.isUp, h.connected, h.keeps,
        hcarriable.1.apply hplain.encodable, hcarriable.2.apply hplain.encodable⟩
      rw [Reach.after, apply_of_read hwrite c.2]
      exact h.secondary

lemma TwoServers.Holds.execute_second (h : w.Holds n c) (hplain : request.Plain n) :
    ∃ w', w.execute request.msg .second = .ok (some (request.reply c.2), w') ∧
      w'.fates = w.fates ∧ w'.Holds n (Reach.second.after Request.apply request c) := by
  have hlocal : ¬w.secondary.Forwards request.msg.opcode := fun hf => h.keeps hf.2
  obtain ⟨tabela, hcall, hr⟩ : ∃ tabela, remoteCall noNet w.secondary () request.msg =
      .ok (some (request.reply c.2), { w.secondary with tabela := tabela }, ()) ∧
      tabela.Represents n (request.apply c.2) :=
    remoteCall_plain h.secondary h.carriable.2 hplain hlocal
  refine ⟨⟨w.primary, { w.secondary with tabela := tabela }, w.fates,
    w.executed ++ [(.second, some (request.reply c.2))]⟩, ?_, rfl, ?_⟩
  · simp only [TwoServers.execute, hcall, ok_bind, pure_eq_ok]
  · exact ⟨h.primary, hr, h.isPrimary, h.isUp, h.connected, h.keeps, h.carriable.1,
      h.carriable.2.apply hplain.encodable⟩

/-- One more execution of a request that has got so far. -/
lemma TwoServers.Holds.execute {reach : Reach} (h : w.Holds n (reach.after Request.apply request c))
    (hplain : request.Plain n) (p : Party) :
    ∃ reply w' reach', w.execute request.msg p = .ok (some reply, w') ∧
      w'.Holds n (Reach.after Request.apply request reach' c) ∧
      reach'.Answers Request.apply Request.reply request c reply := by
  have hidem : ∀ m, Request.apply (Request.apply m request) request = Request.apply m request :=
    fun m => apply_apply m request
  cases p with
  | first =>
    obtain ⟨w', hexecute, -, hafter⟩ := h.execute_first hplain
    rw [after_both hidem] at hafter
    exact ⟨_, w', .both, hexecute, hafter, answers_both reach⟩
  | second =>
    obtain ⟨w', hexecute, -, hafter⟩ := h.execute_second hplain
    rw [after_again hidem] at hafter
    exact ⟨_, w', reach.again, hexecute, hafter, answers_second reach⟩

/-! ### Attempts -/

/-- An attempt may get the request further, and what is answered comes from a server that it
has got to. -/
lemma TwoServers.Holds.attempt (address : CString → Party) {reach : Reach}
    (h : w.Holds n (reach.after Request.apply request c)) (hplain : request.Plain n)
    (server : Option Party) :
    ∃ answer w' reach', (lossyNet address).networkSendReceive w server request.msg =
        .ok (answer, w') ∧
      w'.Holds n (Reach.after Request.apply request reach' c) ∧
      ∀ reply ∈ answer, reach'.Answers Request.apply Request.reply request c reply := by
  cases hfates : w.fates with
  | nil => exact ⟨none, w, reach, by simp only [lossyNet, hfates], h, by simp⟩
  | cons fate fates =>
    have hnext := h.withFates fates
    cases server with
    | none => exact ⟨none, _, reach, by simp only [lossyNet, hfates], hnext, by simp⟩
    | some p =>
      cases fate with
      | noConnection => exact ⟨none, _, reach, by simp only [lossyNet, hfates], hnext, by simp⟩
      | requestLost noticed =>
        exact ⟨none, _, reach, by simp only [lossyNet, hfates], hnext.hangUp noticed p, by simp⟩
      | replyLost noticed =>
        obtain ⟨reply, w', reach', hexecute, hafter, -⟩ := hnext.execute hplain p
        refine ⟨none, _, reach', ?_, hafter.hangUp noticed p, by simp⟩
        simp only [lossyNet, hfates, hexecute, ok_bind, pure_eq_ok]
      | answered =>
        obtain ⟨reply, w', reach', hexecute, hafter, hanswer⟩ := hnext.execute hplain p
        refine ⟨some reply, w', reach', ?_, hafter, ?_⟩
        · simp only [lossyNet, hfates, hexecute]
        · rintro r ⟨⟩
          exact hanswer

lemma TwoServers.Holds.attempts (address : CString → Party) (retries : ℕ) {reach : Reach}
    (h : w.Holds n (reach.after Request.apply request c)) (hplain : request.Plain n)
    (rtable : RtableT Party) :
    ∃ answer rtable' w' reach', retryLoop (lossyNet address) retries w rtable request.msg =
        .ok (answer, rtable', w') ∧
      w'.Holds n (Reach.after Request.apply request reach' c) ∧
      ∀ reply ∈ answer, reach'.Answers Request.apply Request.reply request c reply := by
  induction retries generalizing w rtable reach with
  | zero =>
    obtain ⟨answer, w', reach', hattempt, hafter, hanswer⟩ :=
      h.attempt address hplain (currentServer rtable)
    refine ⟨answer, rtable, w', reach', ?_, hafter, hanswer⟩
    rw [retryLoop, hattempt]
    rfl
  | succ retries ih =>
    obtain ⟨answer, w', reach', hattempt, hafter, hanswer⟩ :=
      h.attempt address hplain (currentServer rtable)
    cases answer with
    | some reply =>
      exact ⟨some reply, rtable, w', reach', retryLoop_of_answer _ hattempt, hafter, hanswer⟩
    | none =>
      have hworld : (switchServer (lossyNet address) w' rtable).2 = w' :=
        (switchServer_spec (lossyNet address) w' rtable).1
      obtain ⟨answer, rtable', w'', reach'', hloop, hlast, hanswer⟩ :=
        ih hafter (switchServer (lossyNet address) w' rtable).1
      refine ⟨answer, rtable', w'', reach'', ?_, hlast, hanswer⟩
      rw [retryLoop_of_none retries hattempt, hworld, hloop]

/-! ### Sessions -/

lemma reply_of_answers {reach : Reach} {reply : MessageT}
    (h : reach.Answers Request.apply Request.reply request c reply) :
    ∃ m, reply = request.reply m := by
  rcases h with ⟨-, h | h⟩ | ⟨-, h | h⟩
  · exact ⟨_, h⟩
  · exact ⟨_, h⟩
  · exact ⟨_, h⟩
  · exact ⟨_, h⟩

/-- Answers to the calls of a session, one for each. -/
def sessionLog (calls : List StubCall) (answers : List (Option MessageT)) :
    List (Request × Option MessageT) := (calls.map StubCall.request).zip answers

lemma TwoServers.Holds.session (address : CString → Party) (h : w.Holds n c)
    (calls : List StubCall)
    (hplain : ∀ call ∈ calls, call.request.Plain n) (rtable : RtableT Party) :
    ∃ answers rtable' w' c', answers.length = calls.length ∧
      stubSession (lossyNet address) calls w rtable =
        .ok (List.zipWith StubCall.returned calls answers, rtable', w') ∧
      w'.Holds n c' ∧
      Delivered Request.apply Request.reply c (sessionLog calls answers) c' := by
  induction calls generalizing w rtable c with
  | nil => exact ⟨[], rtable, w, c, rfl, rfl, h, .nil c⟩
  | cons call calls ih =>
    have hcall := hplain call List.mem_cons_self
    have hstart : w.Holds n (Reach.nowhere.after Request.apply call.request c) := h
    obtain ⟨answer, rtable', w', reach, hretry, hafter, hanswer⟩ :=
      hstart.attempts address 3 hcall rtable
    rw [← retryServers_eq] at hretry
    have hstub := stubCall_returned call hcall.ne_listing hretry
      fun reply hr => reply_of_answers (hanswer reply hr)
    obtain ⟨answers, rtable'', w'', c'', hlength, hsession, hlast, hlog⟩ :=
      ih hafter (fun call hmem => hplain call (List.mem_cons_of_mem _ hmem)) rtable'
    refine ⟨answer :: answers, rtable'', w'', c'', by simp [hlength], ?_, hlast,
      .cons reach hanswer hlog⟩
    rw [stubSession, hstub, ok_bind]
    simp only [hsession, ok_bind, pure_eq_ok, List.zipWith_cons_cons]

end RemoteTable
