import RemoteTable.Rejoin
import RemoteTable.Library.History

/-!
# Histories of table requests

What a reply says about the contents, for every request that `invoke` survives, whatever the
server does about its backup.
-/

namespace RemoteTable

variable {σ δ : Type} {net : Net σ δ} {server server' : Server δ} {world world' : σ}
  {tabela tabela' : TableT} {request : Request} {reply : Reply} {n : ℤ} {m : KeyMap}

/-- The replies that the contents allow. A listing names the keys in an order of its own. -/
def Request.Allows (m : KeyMap) (request : Request) (reply : MessageT) : Prop :=
  if request = .get bang then
    m = ∅ ∧ reply = resultMsg (ocGet + 1) 0 ∨
      m ≠ ∅ ∧ ∃ keys, reply = ⟨ocGet + 1, .keys keys⟩ ∧ keys.Nodup ∧ ∀ key, key ∈ keys ↔ key ∈ m
  else reply = request.reply m

/-- A history of requests with replies, from an empty table on. -/
abbrev RequestHistory := List (Request × Option MessageT)

def RequestHistory.contents (history : RequestHistory) : KeyMap :=
  History.after Request.apply ∅ history

def RequestHistory.Explained (history : RequestHistory) : Prop :=
  History.Explained Request.apply Request.Allows ∅ history

lemma represents_of_tableCreate (hc : tableCreate n = some tabela) : tabela.Represents n ∅ := by
  obtain ⟨created, hc', hsize, hw, hempty⟩ := contents_tableCreate (pos_of_tableCreate hc)
  rw [hc] at hc'
  cases hc'
  exact ⟨hw, hsize, hempty⟩

lemma allows_bang (hr : tabela.Represents n m)
    (h : invokeGet tabela (.key bang) = .ok (reply, tabela')) :
    ∃ msg, reply = .message msg ∧ Request.Allows m (.get bang) msg ∧ tabela' = tabela := by
  by_cases hne : m = ∅
  · subst hne
    rw [invokeGet_empty hr] at h
    cases h
    exact ⟨_, rfl, by simp [Request.Allows], rfl⟩
  · rw [invokeGet_listing hr hne] at h
    cases h
    refine ⟨_, rfl, ?_, rfl⟩
    rw [Request.Allows, if_pos rfl]
    exact Or.inr ⟨hne, _, rfl, nodup_collectKeys hr, mem_collectKeys hr⟩

lemma allows_get (hr : tabela.Represents n m) {key : CString} (hbang : key ≠ bang)
    (h : invokeGet tabela (.key key) = .ok (reply, tabela')) :
    ∃ msg, reply = .message msg ∧ Request.Allows m (.get key) msg ∧ tabela' = tabela := by
  by_cases hk : 0 ≤ keyHash key n
  · rw [invokeGet_refines hr hk hbang] at h
    cases h
    refine ⟨_, rfl, ?_, rfl⟩
    rw [Request.Allows, if_neg (by simpa using hbang)]
  · rw [invokeGet_of_neg hr hbang (not_le.mp hk)] at h
    cases h

/-- A request that `invoke` survives is answered as the contents allow. -/
theorem invoke_allows (hr : tabela.Represents n m)
    (h : invoke tabela request.msg = .ok (reply, tabela')) :
    ∃ msg, reply = .message msg ∧ Request.Allows m request msg ∧
      tabela'.Represents n (request.apply m) := by
  by_cases hwrite : isWrite request.msg.opcode
  · obtain ⟨hreply, hr'⟩ := invoke_write hr hwrite h
    refine ⟨_, hreply, ?_, hr'⟩
    rw [Request.Allows, if_neg (ne_get_of_write hwrite bang)]
  · obtain ⟨result, rfl⟩ | ⟨key, rfl⟩ := exists_read hwrite
    · rw [Request.msg, invoke_size, invokeSize_refines hr] at h
      cases h
      refine ⟨_, rfl, ?_, hr⟩
      rw [Request.Allows, if_neg (by simp)]
      rfl
    · rw [Request.msg, invoke_get] at h
      by_cases hbang : key = bang
      · subst hbang
        obtain ⟨msg, hreply, hallows, rfl⟩ := allows_bang hr h
        exact ⟨msg, hreply, hallows, hr⟩
      · obtain ⟨msg, hreply, hallows, rfl⟩ := allows_get hr hbang h
        exact ⟨msg, hreply, hallows, hr⟩

/-- The backup decides about `state` alone. -/
lemma handleRequest_invoke
    (h : handleRequest net server world request.msg = .ok (reply, server', world')) :
    ∃ tabela, invoke server.tabela request.msg = .ok (reply, tabela) ∧
      (server' = { server with tabela := tabela } ∨
        server' = { server with tabela := tabela, state := stateDown }) := by
  obtain ⟨hstatus, hup⟩ := request_not_own request
  rw [handleRequest_of_table hstatus hup] at h
  obtain ⟨⟨reply₁, tabela⟩, hinvoke, h⟩ := bind_eq_ok h
  obtain ⟨⟨server₁, world₁⟩, hforward, h⟩ := bind_eq_ok h
  simp only [Except.ok.injEq, Prod.mk.injEq] at h
  rw [← h.1, ← h.2.1]
  exact ⟨tabela, hinvoke, forwardWrite_cases hforward⟩

theorem handleRequest_allows (hr : server.tabela.Represents n m)
    (h : handleRequest net server world request.msg = .ok (reply, server', world')) :
    ∃ msg, reply = .message msg ∧ Request.Allows m request msg ∧
      server'.tabela.Represents n (request.apply m) := by
  obtain ⟨tabela, hinvoke, hserver⟩ := handleRequest_invoke h
  obtain ⟨msg, hreply, hallows, hr'⟩ := invoke_allows hr hinvoke
  refine ⟨msg, hreply, hallows, ?_⟩
  rcases hserver with rfl | rfl
  · exact hr'
  · exact hr'

end RemoteTable
