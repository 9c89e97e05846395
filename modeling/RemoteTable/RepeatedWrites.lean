import RemoteTable.Requests
import RemoteTable.Server

/-!
# Writes that are sent again

A request that would not change the contents leaves the table as it is, down to the order of
the entries and the counters. So a write that `retry_servers` sends again finds the table that
it made the first time.
-/

namespace RemoteTable
open KeyedList

variable {n : ℤ} {table tabela : TableT} {m : KeyMap}

/-! ### Effects on the contents -/

lemma apply_put (m : KeyMap) (entry : EntryT) :
    (Request.put entry).apply m =
      if entry.key ∈ m then m else m.insert entry.key entry.value := by
  simp only [Request.apply, mapPut]
  split <;> rfl

lemma apply_update (m : KeyMap) (entry : EntryT) :
    (Request.update entry).apply m =
      if entry.key ∈ m then m.insert entry.key entry.value else m := by
  simp only [Request.apply, mapUpdate]
  split <;> rfl

lemma apply_del (m : KeyMap) (key : CString) :
    (Request.del key).apply m = if key ∈ m then m.erase key else m := by
  simp only [Request.apply, mapDel]
  split <;> rfl

/-- The second time a request finds nothing left to do. -/
lemma apply_apply (m : KeyMap) (request : Request) :
    request.apply (request.apply m) = request.apply m := by
  cases request with
  | size result => rfl
  | get key => rfl
  | put entry =>
    have hmem : entry.key ∈ (Request.put entry).apply m := by
      rw [apply_put]
      split
      · assumption
      · exact Finmap.mem_insert.mpr (Or.inl rfl)
    rw [apply_put _ entry, if_pos hmem]
  | update entry =>
    rw [apply_update m]
    by_cases hmem : entry.key ∈ m
    · have hagain : entry.key ∈ m.insert entry.key entry.value :=
        Finmap.mem_insert.mpr (Or.inl rfl)
      rw [if_pos hmem, apply_update, if_pos hagain, Finmap.insert_insert]
    · rw [if_neg hmem, apply_update, if_neg hmem]
  | del key =>
    have hmem : key ∉ (Request.del key).apply m := by
      rw [apply_del]
      split
      · exact Finmap.notMem_erase_self
      · assumption
    rw [apply_del _ key, if_neg hmem]

/-! ### Requests without effect on the contents -/

lemma setBucket_self {i : ℤ} {list : ListT} (hb : bucketAt table i = .ok list) :
    setBucket table i list table.quantityEntry = table := by
  obtain ⟨hlt, hget⟩ := List.getElem?_eq_some_iff.mp (bucketAt_eq_ok.mp hb).2
  rw [setBucket, ← hget, List.set_getElem_self]

lemma setValueLoop_self {key : CString} {value : DataT} {es : List EntryT}
    (h : (lookupKey EntryT.key key es).map EntryT.value = some value) :
    setValueLoop key value es = es := by
  induction es with
  | nil => rfl
  | cons e es ih =>
    rw [lookup_cons] at h
    simp only [setValueLoop, strcmp_eq_zero_iff]
    by_cases hkey : e.key = key
    · simp only [if_pos hkey, Option.map_some, Option.some.injEq] at h
      rw [if_pos hkey, ← h]
    · rw [if_neg hkey] at h
      rw [if_neg hkey, ih h]

lemma tablePut_of_mem (hr : table.Represents n m) {key : CString} (hk : 0 ≤ keyHash key n)
    (value : DataT) (hmem : key ∈ m) : tablePut table key value = .ok (-10, table) := by
  have hne : m.lookup key ≠ none := fun h => Finmap.lookup_eq_none.mp h hmem
  simp only [tablePut, tableGet_refines hr hk, ok_bind, if_pos hne, pure_eq_ok]

lemma tableUpdate_of_notMem (hr : table.Represents n m) {key : CString}
    (hk : 0 ≤ keyHash key n) (value : DataT) (hmem : key ∉ m) :
    tableUpdate table key value = .ok (-1, table) := by
  obtain ⟨list, hb, -, hlook, -⟩ := hr.exists_bucketAt hk
  have hget : listGet list key = none := by
    by_contra h
    exact hmem ((mem_iff_listGet hlook).mpr h)
  simp only [tableUpdate, hb, ok_bind, hget, pure_eq_ok]

lemma tableUpdate_of_lookup (hr : table.Represents n m) {key : CString}
    (hk : 0 ≤ keyHash key n) {value : DataT} (hvalue : m.lookup key = some value) :
    tableUpdate table key value = .ok (0, table) := by
  obtain ⟨list, hb, -, hlook, -⟩ := hr.exists_bucketAt hk
  rw [hvalue] at hlook
  have hsame : listSetValue list key value = list := by
    rw [listGet_eq] at hlook
    rw [listSetValue, setValueLoop_self hlook.symm]
  cases hget : listGet list key with
  | none =>
    rw [hget] at hlook
    cases hlook
  | some entry =>
    simp only [tableUpdate, hb, ok_bind, hget, hsame, setBucket_self hb, pure_eq_ok]

lemma tableDel_of_notMem (hr : table.Represents n m) {key : CString} (hk : 0 ≤ keyHash key n)
    (hmem : key ∉ m) : tableDel table key = .ok (-1, table) := by
  obtain ⟨list, hb, -, hlook, -⟩ := hr.exists_bucketAt hk
  have hget : listGet list key = none := by
    by_contra h
    exact hmem ((mem_iff_listGet hlook).mpr h)
  have hrem := listRemove_eq list key
  rw [if_pos hget] at hrem
  have hne : ¬(-1 : ℤ) = 0 := by decide
  simp only [tableDel, hb, ok_bind, hrem, if_neg hne, setBucket_self hb, pure_eq_ok]

lemma serve_size (tabela : TableT) (result : Int32) :
    ∃ reply, serve tabela (.size result) = .ok (reply, tabela) := by
  rw [serve, Request.msg, invoke_size, invokeSize]
  split
  · exact ⟨_, rfl⟩
  · exact ⟨_, rfl⟩

lemma serve_get {key : CString} {reply : Reply} {tabela' : TableT}
    (h : serve tabela (.get key) = .ok (reply, tabela')) : tabela' = tabela := by
  rw [serve, Request.msg, invoke_get, invokeGet, Content.keyMember, ok_bind] at h
  split at h
  · split at h
    · simp only [pure_eq_ok, Except.ok.injEq, Prod.mk.injEq] at h
      exact h.2.symm
    · split at h
      · cases h
      · simp only [pure_eq_ok, Except.ok.injEq, Prod.mk.injEq] at h
        exact h.2.symm
  · obtain ⟨found, -, h⟩ := bind_eq_ok h
    cases found with
    | none =>
      simp only [pure_eq_ok, Except.ok.injEq, Prod.mk.injEq] at h
      exact h.2.symm
    | some data =>
      simp only [pure_eq_ok, Except.ok.injEq, Prod.mk.injEq] at h
      exact h.2.symm

lemma serve_read {request : Request} (hread : ¬isWrite request.msg.opcode) {reply : Reply}
    {tabela' : TableT} (h : serve tabela request = .ok (reply, tabela')) : tabela' = tabela := by
  obtain ⟨result, rfl⟩ | ⟨key, rfl⟩ := exists_read hread
  · obtain ⟨reply', h'⟩ := serve_size tabela result
    rw [h'] at h
    simp only [Except.ok.injEq, Prod.mk.injEq] at h
    exact h.2.symm
  · exact serve_get h

/-- A request that would not change the contents leaves the table as it is. -/
theorem serve_of_apply_eq (hr : tabela.Represents n m) {request : Request}
    (hi : request.Indexable n) (hsame : request.apply m = m) :
    ∃ reply, serve tabela request = .ok (reply, tabela) := by
  cases request with
  | size result => exact serve_size tabela result
  | get key =>
    obtain ⟨msg, tabela', h, -⟩ := invoke_represents hr hi
    have hserve : serve tabela (.get key) = .ok (.message msg, tabela') := h
    rw [serve_get hserve] at hserve
    exact ⟨_, hserve⟩
  | put entry =>
    have hmem : entry.key ∈ m := by
      by_contra hnot
      rw [apply_put, if_neg hnot] at hsame
      exact hnot (hsame ▸ Finmap.mem_insert.mpr (Or.inl rfl))
    have hput := tablePut_of_mem hr (hi _ List.mem_cons_self) entry.value hmem
    have hne : ¬(-10 : ℤ) = -1 := by decide
    refine ⟨resultReply (ocPut + 1) (-10), ?_⟩
    simp only [serve, Request.msg, invoke_put, invokePut, Content.entryMember, ok_bind, hput,
      if_neg hne, if_true, pure_eq_ok]
  | update entry =>
    by_cases hmem : entry.key ∈ m
    · have hvalue : m.lookup entry.key = some entry.value := by
        rw [apply_update, if_pos hmem] at hsame
        rw [← hsame, Finmap.lookup_insert]
      have hupdate := tableUpdate_of_lookup hr (hi _ List.mem_cons_self) hvalue
      have hne : ¬(0 : ℤ) = -1 := by decide
      refine ⟨resultReply (ocUpdate + 1) 0, ?_⟩
      simp only [serve, Request.msg, invoke_update, invokeUpdate, Content.entryMember, ok_bind,
        hupdate, if_neg hne, pure_eq_ok]
    · have hupdate := tableUpdate_of_notMem hr (hi _ List.mem_cons_self) entry.value hmem
      refine ⟨errorReply, ?_⟩
      simp only [serve, Request.msg, invoke_update, invokeUpdate, Content.entryMember, ok_bind,
        hupdate, if_true, pure_eq_ok]
  | del key =>
    have hmem : key ∉ m := by
      intro hmem
      rw [apply_del, if_pos hmem] at hsame
      exact Finmap.notMem_erase_self (hsame ▸ hmem)
    have hdel := tableDel_of_notMem hr (hi _ List.mem_cons_self) hmem
    refine ⟨errorReply, ?_⟩
    simp only [serve, Request.msg, invoke_del, invokeDel, Content.keyMember, ok_bind, hdel,
      if_true, pure_eq_ok]

/-! ### Runs that repeat one write -/

lemma serve_again (hr : tabela.Represents n m) {request : Request} (hi : request.Indexable n) :
    ∃ reply reply' once, serve tabela request = .ok (reply, once) ∧
      serve once request = .ok (reply', once) ∧ once.Represents n (request.apply m) := by
  obtain ⟨msg, once, hserve, hr'⟩ := invoke_represents hr hi
  obtain ⟨reply', hagain⟩ := serve_of_apply_eq hr' hi (apply_apply m request)
  exact ⟨.message msg, reply', once, hserve, hagain, hr'⟩

/-- A write served any number of times, with requests that only read in between, leaves the
table that serving it once leaves. -/
theorem repeatedWrites_table (hreach : tabela.Reachable n) {request : Request}
    (hi : request.Indexable n) :
    ∃ reply once, serve tabela request = .ok (reply, once) ∧
      ∀ requests : List Request, request ∈ requests →
        (∀ r ∈ requests, r = request ∨ ¬isWrite r.msg.opcode) →
        (∀ replies later, Machine.run serve tabela requests = .ok (replies, later) →
          later = once) ∧
        ((∀ r ∈ requests, r.Indexable n) →
          ∃ replies, Machine.run serve tabela requests = .ok (replies, once)) := by
  obtain ⟨reply, reply', once, hserve, hagain, -⟩ := serve_again hreach.represents hi
  have hends : ∀ requests : List Request, request ∈ requests →
      (∀ r ∈ requests, r = request ∨ ¬isWrite r.msg.opcode) →
      ∀ replies later, Machine.run serve tabela requests = .ok (replies, later) →
        later = once := by
    intro requests hmem hothers replies later hrun
    apply Machine.run_repeated hserve hagain _ hmem hrun
    intro r hr
    rcases hothers r hr with heq | hread
    · exact Or.inl heq
    · exact Or.inr (fun t o t' h => serve_read hread h)
  refine ⟨reply, once, hserve, ?_⟩
  intro requests hmem hothers
  refine ⟨hends requests hmem hothers, ?_⟩
  intro hindexable
  obtain ⟨replies, later, hrun, -⟩ := serve_run hreach.represents hindexable
  rw [hends requests hmem hothers replies later hrun] at hrun
  exact ⟨replies, hrun⟩

/-- A deletion served twice, with the size asked for in between. -/
theorem repeatedWrites_table_twice :
    ∃ reply once, serve bangTable (.del bang) = .ok (reply, once) ∧
      ∃ replies, Machine.run serve bangTable [.del bang, .size 0, .del bang] =
        .ok (replies, once) := by
  have hreach : bangTable.Reachable 1 :=
    ⟨_, [.put bang ⟨[7], by decide, by decide⟩], [.code 0], rfl, by decide, by decide⟩
  have hi : (Request.del bang).Indexable 1 := by decide
  obtain ⟨reply, once, hserve, hruns⟩ := repeatedWrites_table hreach hi
  exact ⟨reply, once, hserve, (hruns [.del bang, .size 0, .del bang] (by decide) (by decide)).2
    (by decide)⟩

end RemoteTable
