import RemoteTable.Skeleton

/-!
# Sequences of requests and requests of the wrong type

What a sequence of requests keeps of a stored pair, and which member of `content_u` a
request makes `invoke` read.
-/

namespace RemoteTable

variable {n : ℤ} {tabela : TableT} {m : KeyMap}

/-! ### Reading what was put -/

def serve (tabela : TableT) (request : Request) : Except Fault (Reply × TableT) :=
  invoke tabela request.msg

/-- The request neither updates nor deletes `key`. -/
def Request.Spares (key : CString) : Request → Prop
  | .size _ | .get _ | .put _ => True
  | .update entry => entry.key ≠ key
  | .del key' => key' ≠ key

instance (key : CString) : (request : Request) → Decidable (request.Spares key)
  | .size _ | .get _ | .put _ => inferInstanceAs (Decidable True)
  | .update entry => inferInstanceAs (Decidable (entry.key ≠ key))
  | .del key' => inferInstanceAs (Decidable (key' ≠ key))

lemma lookup_apply_of_spares {key : CString} {value : DataT} {request : Request}
    (hs : request.Spares key) (h : m.lookup key = some value) :
    (request.apply m).lookup key = some value := by
  have hmem : key ∈ m := Finmap.mem_of_lookup_eq_some h
  cases request with
  | size result => exact h
  | get key' => exact h
  | put entry =>
    simp only [Request.apply, mapPut]
    by_cases hput : entry.key ∈ m
    · rw [if_pos hput]
      exact h
    · have hne : key ≠ entry.key := fun heq => hput (heq ▸ hmem)
      rw [if_neg hput, Finmap.lookup_insert_of_ne _ hne]
      exact h
  | update entry =>
    simp only [Request.apply, mapUpdate]
    by_cases hupdate : entry.key ∈ m
    · rw [if_pos hupdate, Finmap.lookup_insert_of_ne _ (Ne.symm hs)]
      exact h
    · rw [if_neg hupdate]
      exact h
  | del key' =>
    simp only [Request.apply, mapDel]
    by_cases hdel : key' ∈ m
    · rw [if_pos hdel, Finmap.lookup_erase_ne (Ne.symm hs)]
      exact h
    · rw [if_neg hdel]
      exact h

lemma lookup_foldl_of_spares {key : CString} {value : DataT} {requests : List Request}
    (hs : ∀ request ∈ requests, request.Spares key) (h : m.lookup key = some value) :
    (requests.foldl Request.apply m).lookup key = some value := by
  induction requests generalizing m with
  | nil => exact h
  | cons request requests ih =>
    apply ih (fun r hr => hs r (List.mem_cons_of_mem request hr))
    exact lookup_apply_of_spares (hs request List.mem_cons_self) h

/-- A sequence of table requests is served, and changes the contents one by one. -/
theorem serve_run (hr : tabela.Represents n m) {requests : List Request}
    (hi : ∀ request ∈ requests, request.Indexable n) :
    ∃ replies later, Machine.run serve tabela requests = .ok (replies, later) ∧
      later.Represents n (requests.foldl Request.apply m) := by
  apply Machine.run_follows (fun t m => TableT.Represents t n m) (fun r => r.Indexable n) _ _
    requests hi hr
  intro t m request hr hi
  obtain ⟨msg, t', h, hr'⟩ := invoke_represents hr hi
  exact ⟨.message msg, t', h, hr'⟩

/-- What was put under `key` is what a later OC_GET of `key` replies. -/
def GetAfterPut (key : CString) : Prop :=
  ∀ (n : ℤ) (tabela stored : TableT) (value : DataT) (requests : List Request),
    tabela.Reachable n → 0 ≤ keyHash key n →
    serve tabela (.put ⟨key, value⟩) = .ok (resultReply (ocPut + 1) 0, stored) →
    (∀ request ∈ requests, request.Indexable n ∧ request.Spares key) →
    ∃ replies later, Machine.run serve stored requests = .ok (replies, later) ∧
      serve later (.get key) = .ok (.message ⟨ocGet + 1, .data value⟩, later)

/-- A put that replies zero has stored the pair. -/
lemma lookup_of_put {key : CString} {value : DataT} {stored : TableT}
    (hr : tabela.Represents n m) (hk : 0 ≤ keyHash key n)
    (h : serve tabela (.put ⟨key, value⟩) = .ok (resultReply (ocPut + 1) 0, stored)) :
    ∃ m', stored.Represents n m' ∧ m'.lookup key = some value := by
  have hi : (Request.put ⟨key, value⟩).Indexable n := by
    intro k hmem
    rwa [List.mem_singleton.mp hmem]
  obtain ⟨tabela', hput, hr'⟩ := invoke_refines hr hi (by simp)
  rw [serve, hput] at h
  simp only [Except.ok.injEq, Prod.mk.injEq] at h
  obtain ⟨hreply, rfl⟩ := h
  refine ⟨_, hr', ?_⟩
  simp only [Request.reply, Request.apply, mapPut] at hreply ⊢
  by_cases hmem : key ∈ m
  · have hne : Reply.message (resultMsg (ocPut + 1) (-10)) ≠ resultReply (ocPut + 1) 0 := by decide
    rw [if_pos hmem] at hreply
    exact absurd hreply hne
  · rw [if_neg hmem, Finmap.lookup_insert]

/-- Every key but the one that asks for a listing is read back as it was put. -/
theorem getAfterPut_of_ne {key : CString} (hbang : key ≠ bang) : GetAfterPut key := by
  intro n tabela stored value requests hreach hk hput hrequests
  obtain ⟨m, hr, hlook⟩ := lookup_of_put hreach.represents hk hput
  obtain ⟨replies, later, hrun, hr'⟩ := serve_run hr (fun r hmem => (hrequests r hmem).1)
  refine ⟨replies, later, hrun, ?_⟩
  have hstays := lookup_foldl_of_spares (fun r hmem => (hrequests r hmem).2) hlook
  rw [serve, Request.msg, invoke_get, invokeGet_refines hr' hk hbang, Request.reply, hstays]

/-- Requests that share a bucket with a put of `d` or repeat it. -/
def requestsAfterPut : List Request :=
  [.put ⟨.ofBytes [100], (letterEntry 97).value⟩, .del (.ofBytes [98]),
    .update ⟨.ofBytes [97], (letterEntry 100).value⟩, .get bang, .size 0]

theorem getAfterPut_plain :
    ∃ stored replies later,
      serve lettersTable (.put (letterEntry 100)) = .ok (resultReply (ocPut + 1) 0, stored) ∧
      Machine.run serve stored requestsAfterPut = .ok (replies, later) ∧
      serve later (.get (.ofBytes [100])) =
        .ok (.message ⟨ocGet + 1, .data (letterEntry 100).value⟩, later) := by
  have hput : serve lettersTable (.put (letterEntry 100)) = .ok (resultReply (ocPut + 1) 0,
      ⟨[⟨2, [letterEntry 100, letterEntry 98]⟩, ⟨2, [letterEntry 99, letterEntry 97]⟩], 2, 4⟩) := by
    decide
  have hne : CString.ofBytes [100] ≠ bang := by decide
  obtain ⟨replies, later, hrun, hget⟩ := getAfterPut_of_ne hne 2 lettersTable _ _
    requestsAfterPut lettersTable_reachable (by decide) hput (by decide)
  exact ⟨_, replies, later, hput, hrun, hget⟩

/-- One bucket that holds one byte under the listing key. -/
def bangTable : TableT := ⟨[⟨1, [⟨bang, ⟨[7], by decide, by decide⟩⟩]⟩], 1, 1⟩

/-- A put of the listing key succeeds, and a get of it lists the keys. -/
theorem not_getAfterPut_bang : ¬∀ key, GetAfterPut key := by
  intro h
  have hreach : TableT.Reachable ⟨[listCreate], 1, 0⟩ 1 := ⟨_, [], [], rfl, by simp, rfl⟩
  have hput : serve ⟨[listCreate], 1, 0⟩ (.put ⟨bang, ⟨[7], by decide, by decide⟩⟩) =
      .ok (resultReply (ocPut + 1) 0, bangTable) := by decide
  have hlist : serve bangTable (.get bang) =
      .ok (.message ⟨ocGet + 1, .keys [bang]⟩, bangTable) := by decide
  obtain ⟨replies, later, hrun, hget⟩ := h bang 1 _ bangTable _ [] hreach (by decide) hput (by simp)
  simp only [Machine.run_nil, Except.ok.injEq, Prod.mk.injEq] at hrun
  rw [← hrun.2, hlist] at hget
  simp at hget

/-! ### Requests whose type does not fit -/

/-- The `c_type` that each request opcode takes. -/
def requestTypes : List (Int16 × Int16) :=
  [(ocSize, ctResult), (ocPut, ctEntry), (ocGet, ctKey), (ocUpdate, ctEntry), (ocDel, ctKey),
    (ocStatus, ctResult), (ocUp, ctKey)]

def MessageT.IsRequest (msg : MessageT) : Prop := msg.opcode ∈ requestTypes.map Prod.fst

def MessageT.Fits (msg : MessageT) : Prop := (msg.opcode, msg.cType) ∈ requestTypes

/-- `invoke` reads no dead member, and it refuses a request whose type does not fit. -/
def LiveMemberOnly (tabela : TableT) (msg : MessageT) : Prop :=
  invoke tabela msg ≠ .error .deadMember ∧
    (msg.IsRequest → ¬msg.Fits →
      ∃ reply, invoke tabela msg = .ok (.message reply, tabela) ∧ reply.opcode = ocRtError)

lemma bind_ne_error {α β : Type} {x : Except Fault α} {f : α → Except Fault β} {e : Fault}
    (hx : x ≠ .error e) (hf : ∀ a, f a ≠ .error e) : (x >>= f) ≠ .error e := by
  cases x with
  | error e' =>
    rw [error_bind]
    simpa using hx
  | ok a =>
    rw [ok_bind]
    exact hf a

section Faults

/-! The operations fault outside the bucket array only, a dead member and a listing apart. -/

variable {e : Fault}

lemma bucketAt_ne_error (he : e ≠ .outOfBounds) (table : TableT) (i : ℤ) :
    bucketAt table i ≠ .error e := by
  unfold bucketAt
  by_cases hi : i < 0
  · simpa [hi] using he.symm
  · rw [if_neg hi]
    cases table.buckets[i.toNat]? with
    | none => simpa using he.symm
    | some list => simp

lemma tableGet_ne_error (he : e ≠ .outOfBounds) (table : TableT) (key : CString) :
    tableGet table key ≠ .error e := by
  apply bind_ne_error (bucketAt_ne_error he _ _)
  intro list
  cases listGet list key <;> simp [pure_eq_ok]

lemma tablePut_ne_error (he : e ≠ .outOfBounds) (table : TableT) (key : CString)
    (value : DataT) : tablePut table key value ≠ .error e := by
  apply bind_ne_error (tableGet_ne_error he _ _)
  intro found
  by_cases h : found ≠ none
  · simp [h, pure_eq_ok]
  · rw [if_neg h]
    apply bind_ne_error (bucketAt_ne_error he _ _)
    intro list
    by_cases hadd : (listAdd list ⟨key, value⟩).1 = 0 <;> simp [hadd, pure_eq_ok]

lemma tableUpdate_ne_error (he : e ≠ .outOfBounds) (table : TableT) (key : CString)
    (value : DataT) : tableUpdate table key value ≠ .error e := by
  apply bind_ne_error (bucketAt_ne_error he _ _)
  intro list
  cases listGet list key <;> simp [pure_eq_ok]

lemma tableDel_ne_error (he : e ≠ .outOfBounds) (table : TableT) (key : CString) :
    tableDel table key ≠ .error e := by
  apply bind_ne_error (bucketAt_ne_error he _ _)
  intro list
  by_cases hrem : (listRemove list key).1 = 0 <;> simp [hrem, pure_eq_ok]

lemma invokeSize_ne_error (tabela : TableT) : invokeSize tabela ≠ .error e := by
  unfold invokeSize
  by_cases h : tableSize tabela < 0 <;> simp [h]

variable {content : Content}

lemma invokePut_ne_error (he : e ≠ .outOfBounds) (hm : content.entryMember ≠ .error e)
    (tabela : TableT) : invokePut tabela content ≠ .error e := by
  apply bind_ne_error hm
  intro entry
  apply bind_ne_error (tablePut_ne_error he _ _ _)
  rintro ⟨result, tabela'⟩
  by_cases h : result = -1
  · simp [h, pure_eq_ok]
  · by_cases h' : result = -10 <;> simp [h, h', pure_eq_ok]

lemma invokeUpdate_ne_error (he : e ≠ .outOfBounds) (hm : content.entryMember ≠ .error e)
    (tabela : TableT) : invokeUpdate tabela content ≠ .error e := by
  apply bind_ne_error hm
  intro entry
  apply bind_ne_error (tableUpdate_ne_error he _ _ _)
  rintro ⟨result, tabela'⟩
  by_cases h : result = -1 <;> simp [h, pure_eq_ok]

lemma invokeDel_ne_error (he : e ≠ .outOfBounds) (hm : content.keyMember ≠ .error e)
    (tabela : TableT) : invokeDel tabela content ≠ .error e := by
  apply bind_ne_error hm
  intro key
  apply bind_ne_error (tableDel_ne_error he _ _)
  rintro ⟨result, tabela'⟩
  by_cases h : result = -1 <;> simp [h, pure_eq_ok]

lemma invokeGet_ne_error (he : e ≠ .outOfBounds) (hnull : e ≠ .nullDeref)
    (hm : content.keyMember ≠ .error e) (tabela : TableT) :
    invokeGet tabela content ≠ .error e := by
  apply bind_ne_error hm
  intro key
  by_cases hbang : strcmp bang key = 0
  · rw [if_pos hbang]
    by_cases hzero : tabela.quantityEntry = 0
    · simp [hzero, pure_eq_ok]
    · rw [if_neg hzero]
      cases tableGetKeys tabela with
      | none => simpa [throw_eq_error] using hnull.symm
      | some keys => simp [pure_eq_ok]
  · rw [if_neg hbang]
    apply bind_ne_error (tableGet_ne_error he _ _)
    intro found
    cases found <;> simp [pure_eq_ok]

end Faults

lemma entryMember_of_ne {content : Content} (h : content.cType ≠ ctEntry) :
    content.entryMember = .error .deadMember := by
  cases content with
  | entry entry => exact absurd rfl h
  | _ => rfl

lemma keyMember_of_ne {content : Content} (h : content.cType ≠ ctKey) :
    content.keyMember = .error .deadMember := by
  cases content with
  | key key => exact absurd rfl h
  | _ => rfl

lemma exists_entry {content : Content} (h : content.cType = ctEntry) :
    ∃ entry, content = .entry entry := by
  cases content with
  | entry entry => exact ⟨entry, rfl⟩
  | _ => exact absurd h (by simp only [Content.cType]; decide)

lemma exists_key {content : Content} (h : content.cType = ctKey) : ∃ key, content = .key key := by
  cases content with
  | key key => exact ⟨key, rfl⟩
  | _ => exact absurd h (by simp only [Content.cType]; decide)

lemma fits_iff {opcode cType : Int16} {content : Content}
    (h : (opcode, cType) ∈ requestTypes) :
    (MessageT.mk opcode content).Fits ↔ content.cType = cType := by
  have hnodup : (requestTypes.map Prod.fst).Nodup := by decide
  constructor
  · intro hf
    exact congrArg Prod.snd (List.inj_on_of_nodup_map hnodup hf h rfl)
  · intro hc
    rw [← hc] at h
    exact h

/-- Every request opcode has one type that `invoke` answers as it should. -/
lemma liveMemberOnly_iff_fits {opcode cType : Int16} {content : Content}
    (h : (opcode, cType) ∈ requestTypes)
    (hlive : content.cType = cType → invoke tabela ⟨opcode, content⟩ ≠ .error .deadMember)
    (hwrong : content.cType ≠ cType → ¬LiveMemberOnly tabela ⟨opcode, content⟩) :
    LiveMemberOnly tabela ⟨opcode, content⟩ ↔ (MessageT.mk opcode content).Fits := by
  rw [fits_iff h]
  constructor
  · intro hlaw
    by_contra hc
    exact hwrong hc hlaw
  · intro hc
    exact ⟨hlive hc, fun _ hnot => absurd ((fits_iff h).mpr hc) hnot⟩

/-- A request that is answered, and not with an error, breaks the law if its type is wrong. -/
lemma not_liveMemberOnly_of_ok {opcode cType : Int16} {content : Content} {reply : Reply}
    {tabela' : TableT} (h : (opcode, cType) ∈ requestTypes) (hc : content.cType ≠ cType)
    (hok : invoke tabela ⟨opcode, content⟩ = .ok (reply, tabela'))
    (hreply : ∀ msg, reply = .message msg → msg.opcode ≠ ocRtError) :
    ¬LiveMemberOnly tabela ⟨opcode, content⟩ := by
  intro hlaw
  have hreq : (MessageT.mk opcode content).IsRequest := List.mem_map_of_mem h
  obtain ⟨msg, hmsg, herror⟩ := hlaw.2 hreq (fun hf => hc ((fits_iff h).mp hf))
  rw [hok] at hmsg
  simp only [Except.ok.injEq, Prod.mk.injEq] at hmsg
  exact hreply msg hmsg.1 herror

lemma invoke_ne_deadMember_of_not_request {msg : MessageT} (h : ¬msg.IsRequest) :
    invoke tabela msg ≠ .error .deadMember := by
  obtain ⟨opcode, content⟩ := msg
  by_cases hneg : opcode < 0
  · rw [invoke, if_pos (Or.inl hneg)]
    simp
  · have hop : opcode ∉ [ocSize, ocPut, ocGet, ocUpdate, ocDel] := by
      intro hmem
      apply h
      simp only [List.mem_cons, List.not_mem_nil, or_false] at hmem
      simp only [MessageT.IsRequest, requestTypes, List.map_cons, List.mem_cons]
      tauto
    rw [invoke_default hneg hop]
    simp

variable {content : Content}

lemma liveMemberOnly_size (hreach : tabela.Reachable n) :
    LiveMemberOnly tabela ⟨ocSize, content⟩ ↔ (MessageT.mk ocSize content).Fits := by
  have hmem : (ocSize, ctResult) ∈ requestTypes := by decide
  apply liveMemberOnly_iff_fits hmem
  · intro _
    rw [invoke_size]
    exact invokeSize_ne_error tabela
  · intro hc
    apply not_liveMemberOnly_of_ok hmem hc
      (invoke_size.trans (invokeSize_refines hreach.represents))
    intro msg hmsg
    have hop : ocSize + 1 ≠ ocRtError := by decide
    simp only [resultReply, Reply.message.injEq] at hmsg
    rw [← hmsg]
    exact hop

lemma liveMemberOnly_entry {opcode : Int16}
    {operation : TableT → Content → Except Fault (Reply × TableT)}
    (hmem : (opcode, ctEntry) ∈ requestTypes)
    (hinvoke : ∀ content, invoke tabela ⟨opcode, content⟩ = operation tabela content)
    (hlive : ∀ entry, operation tabela (.entry entry) ≠ .error .deadMember)
    (hdead : ∀ content : Content, content.entryMember = .error .deadMember →
      operation tabela content = .error .deadMember) :
    LiveMemberOnly tabela ⟨opcode, content⟩ ↔ (MessageT.mk opcode content).Fits := by
  apply liveMemberOnly_iff_fits hmem
  · intro hc
    obtain ⟨entry, rfl⟩ := exists_entry hc
    rw [hinvoke]
    exact hlive entry
  · intro hc hlaw
    exact hlaw.1 ((hinvoke content).trans (hdead content (entryMember_of_ne hc)))

lemma liveMemberOnly_key {opcode : Int16}
    {operation : TableT → Content → Except Fault (Reply × TableT)}
    (hmem : (opcode, ctKey) ∈ requestTypes)
    (hinvoke : ∀ content, invoke tabela ⟨opcode, content⟩ = operation tabela content)
    (hlive : ∀ key, operation tabela (.key key) ≠ .error .deadMember)
    (hdead : ∀ content : Content, content.keyMember = .error .deadMember →
      operation tabela content = .error .deadMember) :
    LiveMemberOnly tabela ⟨opcode, content⟩ ↔ (MessageT.mk opcode content).Fits := by
  apply liveMemberOnly_iff_fits hmem
  · intro hc
    obtain ⟨key, rfl⟩ := exists_key hc
    rw [hinvoke]
    exact hlive key
  · intro hc hlaw
    exact hlaw.1 ((hinvoke content).trans (hdead content (keyMember_of_ne hc)))

/-- OC_STATUS and OC_UP, which `invoke` leaves to its caller. -/
lemma liveMemberOnly_default {opcode cType : Int16} (hmem : (opcode, cType) ∈ requestTypes)
    (hneg : ¬opcode < 0) (hop : opcode ∉ [ocSize, ocPut, ocGet, ocUpdate, ocDel]) :
    LiveMemberOnly tabela ⟨opcode, content⟩ ↔ (MessageT.mk opcode content).Fits := by
  have hok : invoke tabela ⟨opcode, content⟩ = .ok (.unset, tabela) := invoke_default hneg hop
  apply liveMemberOnly_iff_fits hmem
  · intro _
    rw [hok]
    simp
  · intro hc
    exact not_liveMemberOnly_of_ok hmem hc hok (fun msg hmsg => by cases hmsg)

/-- The exact messages for which the dispatcher keeps to the live member. -/
theorem liveMemberOnly_iff (hreach : tabela.Reachable n) (msg : MessageT) :
    LiveMemberOnly tabela msg ↔ msg.Fits ∨ ¬msg.IsRequest := by
  by_cases hreq : msg.IsRequest
  · rw [or_iff_left (not_not.mpr hreq)]
    obtain ⟨opcode, content⟩ := msg
    simp only [MessageT.IsRequest, requestTypes, List.map_cons, List.map_nil, List.mem_cons,
      List.not_mem_nil, or_false] at hreq
    have hout : Fault.deadMember ≠ .outOfBounds := by decide
    have hentry : ∀ entry, (Content.entry entry).entryMember ≠ .error .deadMember := by
      simp [Content.entryMember]
    have hkey : ∀ key, (Content.key key).keyMember ≠ .error .deadMember := by
      simp [Content.keyMember]
    rcases hreq with rfl | rfl | rfl | rfl | rfl | rfl | rfl
    · exact liveMemberOnly_size hreach
    · exact liveMemberOnly_entry (by decide) (fun _ => invoke_put)
        (fun entry => invokePut_ne_error hout (hentry entry) tabela)
        (fun _ h => by rw [invokePut, h, error_bind])
    · exact liveMemberOnly_key (by decide) (fun _ => invoke_get)
        (fun key => invokeGet_ne_error hout (by decide) (hkey key) tabela)
        (fun _ h => by rw [invokeGet, h, error_bind])
    · exact liveMemberOnly_entry (by decide) (fun _ => invoke_update)
        (fun entry => invokeUpdate_ne_error hout (hentry entry) tabela)
        (fun _ h => by rw [invokeUpdate, h, error_bind])
    · exact liveMemberOnly_key (by decide) (fun _ => invoke_del)
        (fun key => invokeDel_ne_error hout (hkey key) tabela)
        (fun _ h => by rw [invokeDel, h, error_bind])
    · exact liveMemberOnly_default (show (ocStatus, ctResult) ∈ requestTypes by decide)
        (by decide) (by decide)
    · exact liveMemberOnly_default (show (ocUp, ctKey) ∈ requestTypes by decide)
        (by decide) (by decide)
  · exact iff_of_true ⟨invoke_ne_deadMember_of_not_request hreq, fun h => absurd h hreq⟩
      (Or.inr hreq)

theorem liveMemberOnly_iff_created :
    LiveMemberOnly ⟨[listCreate], 1, 0⟩ ⟨ocPut, .result 0⟩ ↔
      (MessageT.mk ocPut (.result 0)).Fits ∨ ¬(MessageT.mk ocPut (.result 0)).IsRequest := by
  have hreach : TableT.Reachable ⟨[listCreate], 1, 0⟩ 1 := ⟨_, [], [], rfl, by simp, rfl⟩
  exact liveMemberOnly_iff hreach ⟨ocPut, .result 0⟩

/-- OC_PUT with CT_RESULT is decoded, and its result is then taken for an entry. -/
theorem not_liveMemberOnly_put :
    ¬∀ n tabela buf msg, TableT.Reachable tabela n →
      bufferToMessage buf buf.length = .ok (some msg) → LiveMemberOnly tabela msg := by
  intro h
  have hreach : TableT.Reachable ⟨[listCreate], 1, 0⟩ 1 := ⟨_, [], [], rfl, by simp, rfl⟩
  have hdecode : bufferToMessage [0, 50, 0, 10, 0, 0, 0, 0] 8 =
      .ok (some ⟨ocPut, .result 0⟩) := by decide
  exact (h 1 _ _ _ hreach hdecode).1 (by decide)

end RemoteTable
