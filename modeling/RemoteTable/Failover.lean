import RemoteTable.LostReplies
import RemoteTable.Startup

/-!
# Failovers

Two servers that answer requests while one of them stops, is replaced by the other and joins
again, as often as it happens. Nobody writes while a server joins.
-/

namespace RemoteTable

open Startup

/-- The servers that run, and the requests that they executed. A request has no reply where the
client did not get it. -/
structure Service where
  process : Party → Option (Server Unit)
  history : RequestHistory

inductive ServiceAction
  | request (p : Party) (request : Request)
  | crash (p : Party)
  | crashAnswering (p : Party) (request : Request)
  | ended (p : Party)
  | primary (p : Party)
  | secundary (p : Party)

/-- Who executes a request for a client: a write goes to a server that forwards it, or to the
only one. -/
def Service.Serves (s : Service) (p : Party) (server : Server Unit) (request : Request) : Prop :=
  ¬isWrite request.msg.opcode ∨ server.Forwards request.msg.opcode ∨ s.process p.other = none

def Service.set (s : Service) (p : Party) (mine other : Option (Server Unit))
    (history : RequestHistory) : Service :=
  ⟨Function.update (Function.update s.process p mine) p.other other, history⟩

/-- One of the servers runs on after a crash. -/
inductive Service.Step (pointerLow : Content → Int32) :
    Service → ServiceAction → Service → Prop
  | request {s : Service} {p : Party} {request : Request} {server server' : Server Unit}
      {other : Option (Server Unit)} {reply : MessageT} {answer : Option MessageT}
      (hprocess : s.process p = some server) (hserves : s.Serves p server request)
      (hencodable : request.msg.Encodable)
      (h : handleRequest otherNet server (s.process p.other) request.msg =
        .ok (.message reply, server', other))
      (hanswer : answer = some reply ∨ answer = none) :
      Step pointerLow s (.request p request)
        (s.set p (some server') other (s.history ++ [(request, answer)]))
  | crash {s : Service} {p : Party} (hother : s.process p.other ≠ none) :
      Step pointerLow s (.crash p) (s.set p none (s.process p.other) s.history)
  /-- The backup has got the request, and the client gets no reply. -/
  | crashAnswering {s : Service} {p : Party} {request : Request} {server server' : Server Unit}
      {other : Option (Server Unit)} {reply : Reply}
      (hprocess : s.process p = some server) (hserves : s.Serves p server request)
      (hencodable : request.msg.Encodable) (hother : s.process p.other ≠ none)
      (h : handleRequest otherNet server (s.process p.other) request.msg =
        .ok (reply, server', other)) :
      Step pointerLow s (.crashAnswering p request)
        (s.set p none other (s.history ++ [(request, none)]))
  /-- A connection to the server ends, also one that the other server closes after its start. -/
  | ended {s : Service} {p : Party} {server server' : Server Unit} {other : Option (Server Unit)}
      {result : ℤ} {sock : Socket} (hprocess : s.process p = some server)
      (h : networkReceiveSend otherNet server (s.process p.other) (openSocket []) =
        .ok (result, server', other, sock)) (hresult : result < 0) :
      Step pointerLow s (.ended p) (s.set p (some server'.disconnected) other s.history)
  | primary {s : Service} {p : Party} {started : Started Unit} {other : Option (Server Unit)}
      {leader : Server Unit} {k : ℤ} {tabela : TableT} {address ipPort : CString}
      (hprocess : s.process p = none) (hother : s.process p.other = some leader)
      (hleader : leader.status = statusPrimary) (hlen : strlen ipPort ≤ 65535)
      (hcreate : tableCreate k = some tabela)
      (h : Startup.primary otherNet pointerLow address ipPort tabela (s.process p.other) =
        .ok (started, other)) :
      Step pointerLow s (.primary p) (s.set p (some started.server) other s.history)
  | secundary {s : Service} {p : Party} {started : Started Unit} {other : Option (Server Unit)}
      {leader : Server Unit} {k : ℤ} {tabela : TableT} {address ipPort : CString}
      (hprocess : s.process p = none) (hother : s.process p.other = some leader)
      (hleader : leader.status = statusPrimary) (hlen : strlen ipPort ≤ 65535)
      (hcreate : tableCreate k = some tabela)
      (h : Startup.secundary otherNet pointerLow (some address) ipPort tabela
        (s.process p.other) = .ok (started, other)) :
      Step pointerLow s (.secundary p) (s.set p (some started.server) other s.history)

/-- A server is started as the secondary, then the other one as the primary, whose thread
connects to it. -/
inductive Service.Start (pointerLow : Content → Int32) : Service → Prop
  | intro {s : Service} {p : Party} {k k' : ℤ} {tabela tabela' : TableT}
      {address ipPort ipPort' : CString} {first second : Started Unit}
      {world : Option (Server Unit)}
      (hcreate' : tableCreate k' = some tabela')
      (hsecundary : Startup.secundary otherNet pointerLow none ipPort' tabela' none =
        .ok (second, none))
      (hcreate : tableCreate k = some tabela)
      (hprimary : Startup.primary otherNet pointerLow address ipPort tabela
        (some second.server) = .ok (first, world)) (hthread : first.thread = true) :
      Start pointerLow (s.set p (some (mainSecundary otherNet address first.server world).1)
        (mainSecundary otherNet address first.server world).2 [])

def Service.Reaches (pointerLow : Content → Int32) : Service → Service → Prop :=
  Relation.ReflTransGen fun s s' => ∃ action, s.Step pointerLow action s'

/-! ### The servers between two steps -/

/-- What one server knows of the other, which does not forward: it is a secondary, or one that
has promoted itself and hears of no backup. -/
inductive Leads : Option (Server Unit) → Option (Server Unit) → Prop
  | alone (server : Server Unit) : Leads (some server) none
  | linked {server other : Server Unit} (hprimary : server.status = statusPrimary)
      (hup : server.state = stateUp) (hconnected : server.currentBackup = some ())
      (hkeeps : ¬(other.state = stateUp ∧ other.status = statusPrimary)) :
      Leads (some server) (some other)

/-- The table is one that was created and called, whatever its number of rows. -/
def Server.Holds (server : Server Unit) (m : KeyMap) : Prop :=
  ∃ k, server.tabela.Represents k m

structure Service.Inv (s : Service) : Prop where
  explained : s.history.Explained
  keys : ∀ key ∈ s.history.contents, strlen key ≤ 65535
  tabela : ∀ p, ∀ server ∈ s.process p, server.Holds s.history.contents
  leads : ∃ p, Leads (s.process p) (s.process p.other)

variable {s s' : Service} {p : Party} {history : RequestHistory}
  {mine other' : Option (Server Unit)} {request : Request} {answer : Option MessageT}

lemma Service.set_mine : (s.set p mine other' history).process p = mine := by
  rw [Service.set]
  simp only [Function.update_of_ne (Party.other_ne p).symm, Function.update_self]

lemma Service.set_other : (s.set p mine other' history).process p.other = other' :=
  Function.update_self _ _ _

/-- A step is settled by what it makes of the two servers. -/
lemma Service.Inv.set (hexplained : history.Explained)
    (hkeys : ∀ key ∈ history.contents, strlen key ≤ 65535)
    (hmine : ∀ server ∈ mine, server.Holds history.contents)
    (hother : ∀ server ∈ other', server.Holds history.contents)
    (hleads : Leads mine other' ∨ Leads other' mine) :
    (s.set p mine other' history).Inv := by
  refine ⟨hexplained, hkeys, ?_, ?_⟩
  · intro q server hserver
    rcases Party.eq_or_other p q with rfl | rfl
    · rw [Service.set_mine] at hserver
      exact hmine server hserver
    · rw [Service.set_other] at hserver
      exact hother server hserver
  · rcases hleads with hleads | hleads
    · refine ⟨p, ?_⟩
      rw [Service.set_mine, Service.set_other]
      exact hleads
    · refine ⟨p.other, ?_⟩
      rw [Party.other_other, Service.set_mine, Service.set_other]
      exact hleads

/-- The two servers of a step, in the order of the step. -/
lemma Service.Inv.leads_or (h : s.Inv) (p : Party) :
    Leads (s.process p) (s.process p.other) ∨ Leads (s.process p.other) (s.process p) := by
  obtain ⟨q, hleads⟩ := h.leads
  rcases Party.eq_or_other p q with rfl | rfl
  · exact .inl hleads
  · rw [Party.other_other] at hleads
    exact .inr hleads

/-! ### Requests -/

section
variable {server server' other : Server Unit} {world : Option (Server Unit)} {reply : Reply}
  {k k' : ℤ} {m : KeyMap}

/-- A forwarded write that does not fail reaches the other server. -/
lemma forwardWrite_other (hforwards : server.Forwards request.msg.opcode)
    (hconnected : server.currentBackup = some ()) (hr : other.tabela.Represents k m)
    (hlocal : ¬other.Forwards request.msg.opcode) (hencodable : request.msg.Encodable)
    (h : forwardWrite otherNet server (some other) request.msg = .ok (server', world)) :
    server' = server ∧ ∃ tabela, world = some { other with tabela := tabela } ∧
      tabela.Represents k (request.apply m) := by
  by_cases hi : request.Indexable k
  · obtain ⟨tabela, hcall, hr'⟩ : ∃ tabela, remoteCall listeningNet other () request.msg =
        .ok (some (request.reply m), { other with tabela := tabela }, ()) ∧
        tabela.Represents k (request.apply m) :=
      remoteCall_of_local hr hforwards.1 hencodable hi hlocal
    rw [forwardWrite, if_pos hforwards, hconnected] at h
    simp only [otherNet, hcall, ok_bind, pure_eq_ok, Except.ok.injEq, Prod.mk.injEq] at h
    exact ⟨h.1.symm, tabela, h.2.symm, hr'⟩
  · rw [forwardWrite, if_pos hforwards, hconnected] at h
    obtain ⟨called, hcall, -⟩ := bind_eq_ok h
    obtain ⟨called', hcall', -⟩ := bind_eq_ok hcall
    exact absurd hcall' (remoteCall_of_not_indexable hr hforwards.1 hencodable hi called')

lemma forwardWrite_alone
    (h : forwardWrite otherNet server none request.msg = .ok (server', world)) :
    world = none := by
  unfold forwardWrite at h
  split at h
  · split at h
    · cases h
      rfl
    · cases h
      rfl
  · cases h
    rfl

/-- A server without another one. -/
lemma handleRequest_alone (hr : server.tabela.Represents k m)
    (h : handleRequest otherNet server none request.msg = .ok (reply, server', world)) :
    world = none ∧ server'.tabela.Represents k (request.apply m) := by
  obtain ⟨msg, -, -, hr'⟩ := handleRequest_allows hr h
  obtain ⟨hstatus, hup⟩ := request_not_own request
  rw [handleRequest_of_table hstatus hup] at h
  obtain ⟨invoked, -, h⟩ := bind_eq_ok h
  obtain ⟨⟨server₁, world₁⟩, hforward, h⟩ := bind_eq_ok h
  cases h
  exact ⟨forwardWrite_alone hforward, hr'⟩

/-- A read at any server, and a write at one that does not forward it. -/
lemma handleRequest_local (hr : server.tabela.Represents k m)
    (hlocal : ¬server.Forwards request.msg.opcode)
    (h : handleRequest otherNet server world request.msg = .ok (reply, server', mine)) :
    mine = world ∧ ∃ tabela, server' = { server with tabela := tabela } ∧
      tabela.Represents k (request.apply m) := by
  obtain ⟨msg, -, -, hr'⟩ := handleRequest_allows hr h
  obtain ⟨hstatus, hup⟩ := request_not_own request
  rw [handleRequest_of_local hstatus hup hlocal] at h
  obtain ⟨⟨reply₁, tabela⟩, -, h⟩ := bind_eq_ok h
  cases h
  exact ⟨rfl, tabela, rfl, hr'⟩

/-- A write at the primary of a linked pair. -/
lemma handleRequest_linked (hr : server.tabela.Represents k m)
    (hr' : other.tabela.Represents k' m) (hforwards : server.Forwards request.msg.opcode)
    (hconnected : server.currentBackup = some ())
    (hlocal : ¬other.Forwards request.msg.opcode) (hencodable : request.msg.Encodable)
    (h : handleRequest otherNet server (some other) request.msg = .ok (reply, server', world)) :
    ∃ tabela tabela', server' = { server with tabela := tabela } ∧
      world = some { other with tabela := tabela' } ∧
      tabela.Represents k (request.apply m) ∧ tabela'.Represents k' (request.apply m) := by
  obtain ⟨msg, -, -, hr₁⟩ := handleRequest_allows hr h
  obtain ⟨hstatus, hup⟩ := request_not_own request
  rw [handleRequest_of_table hstatus hup] at h
  obtain ⟨⟨reply₁, tabela⟩, -, h⟩ := bind_eq_ok h
  obtain ⟨⟨server₁, world₁⟩, hforward, h⟩ := bind_eq_ok h
  cases h
  have hforwards' : Server.Forwards { server with tabela := tabela } request.msg.opcode :=
    hforwards
  obtain ⟨rfl, tabela', rfl, hr₂⟩ :=
    forwardWrite_other hforwards' hconnected hr' hlocal hencodable hforward
  exact ⟨tabela, tabela', rfl, rfl, hr₁, hr₂⟩

end

/-- After a request both servers hold what it made of the contents, and lead as before. -/
structure Executed (m : KeyMap) (before mine other : Option (Server Unit)) : Prop where
  live : other = none → before = none
  tabela : ∀ server ∈ mine, server.Holds m
  otherTabela : ∀ server ∈ other, server.Holds m
  leads : Leads mine other ∨ Leads other mine

lemma not_forwards_of_keeps {server : Server Unit}
    (h : ¬(server.state = stateUp ∧ server.status = statusPrimary)) (opcode : Int16) :
    ¬server.Forwards opcode := fun hforwards => h hforwards.2

lemma Service.Inv.execute (h : s.Inv) {server server' : Server Unit} {reply : Reply}
    (hprocess : s.process p = some server) (hserves : s.Serves p server request)
    (hencodable : request.msg.Encodable)
    (hhandle : handleRequest otherNet server (s.process p.other) request.msg =
      .ok (reply, server', other')) :
    Executed (request.apply s.history.contents) (s.process p.other) (some server') other' := by
  obtain ⟨k, hr⟩ := h.tabela p server hprocess
  have hleads := h.leads_or p
  have hothers := h.tabela p.other
  rw [Service.Serves] at hserves
  rw [hprocess] at hleads
  generalize s.process p.other = other at hserves hhandle hleads hothers ⊢
  cases other with
  | none =>
    obtain ⟨rfl, hr'⟩ := handleRequest_alone hr hhandle
    exact ⟨fun _ => rfl, fun server hmem => Option.some.inj hmem ▸ ⟨k, hr'⟩, by simp,
      .inl (.alone server')⟩
  | some other =>
    obtain ⟨k', hr₂⟩ := hothers other rfl
    rcases hleads with hleads | hleads
    · cases hleads with
      | linked hprimary hup hconnected hkeeps =>
        by_cases hwrite : isWrite request.msg.opcode
        · obtain ⟨tabela, tabela', rfl, rfl, hr', hr₂'⟩ := handleRequest_linked hr hr₂
            ⟨hwrite, hup, hprimary⟩ hconnected (not_forwards_of_keeps hkeeps _) hencodable hhandle
          exact ⟨by simp, fun server hmem => Option.some.inj hmem ▸ ⟨k, hr'⟩,
            fun server hmem => Option.some.inj hmem ▸ ⟨k', hr₂'⟩,
            .inl (.linked hprimary hup hconnected hkeeps)⟩
        · obtain ⟨rfl, tabela, rfl, hr'⟩ :=
            handleRequest_local hr (fun hforwards => hwrite hforwards.1) hhandle
          refine ⟨by simp, fun server hmem => Option.some.inj hmem ▸ ⟨k, hr'⟩, ?_,
            .inl (.linked hprimary hup hconnected hkeeps)⟩
          rw [apply_of_read hwrite]
          exact hothers
    · cases hleads with
      | linked hprimary hup hconnected hkeeps =>
        -- the server that does not forward only reads
        have hread : ¬isWrite request.msg.opcode := by
          rcases hserves with hserves | hserves | hserves
          · exact hserves
          · exact absurd hserves (not_forwards_of_keeps hkeeps _)
          · cases hserves
        obtain ⟨rfl, tabela, rfl, hr'⟩ :=
          handleRequest_local hr (fun hforwards => hread hforwards.1) hhandle
        refine ⟨by simp, fun server hmem => Option.some.inj hmem ▸ ⟨k, hr'⟩, ?_,
          .inr (.linked hprimary hup hconnected hkeeps)⟩
        rw [apply_of_read hread]
        exact hothers

/-! ### One lemma for each step -/

lemma keys_of_encodable (hencodable : request.msg.Encodable) :
    ∀ key ∈ request.keys, strlen key ≤ 65535 := by
  intro key hkey
  apply hencodable.keys
  cases request with
  | size result => cases hkey
  | get k => exact hkey
  | put entry => exact hkey
  | update entry => exact hkey
  | del k => exact hkey

lemma contents_concat :
    RequestHistory.contents (history ++ [(request, answer)]) = request.apply history.contents :=
  History.after_concat

/-- The history after a request, whether or not its client got the reply. -/
lemma Service.Inv.executed (h : s.Inv) (hencodable : request.msg.Encodable)
    (hanswer : ∀ msg ∈ answer, Request.Allows s.history.contents request msg)
    {before : Option (Server Unit)}
    (hexecuted : Executed (request.apply s.history.contents) before mine other') :
    (s.set p mine other' (s.history ++ [(request, answer)])).Inv := by
  apply Service.Inv.set
  · exact History.Explained.concat h.explained hanswer
  · intro key hkey
    rw [contents_concat] at hkey
    rcases mem_apply hkey with hold | hnew
    · exact h.keys key hold
    · exact keys_of_encodable hencodable key hnew
  · rw [contents_concat]
    exact hexecuted.tabela
  · rw [contents_concat]
    exact hexecuted.otherTabela
  · exact hexecuted.leads

lemma Service.Inv.crash (h : s.Inv) (hother : s.process p.other ≠ none) :
    (s.set p none (s.process p.other) s.history).Inv := by
  obtain ⟨server, hserver⟩ := Option.ne_none_iff_exists'.mp hother
  apply Service.Inv.set h.explained h.keys (by simp) (h.tabela p.other)
  rw [hserver]
  exact .inr (.alone server)

lemma Service.Inv.crashAnswering (h : s.Inv) {server server' : Server Unit} {reply : Reply}
    (hprocess : s.process p = some server) (hserves : s.Serves p server request)
    (hencodable : request.msg.Encodable) (hother : s.process p.other ≠ none)
    (hhandle : handleRequest otherNet server (s.process p.other) request.msg =
      .ok (reply, server', other')) :
    (s.set p none other' (s.history ++ [(request, none)])).Inv := by
  have hexecuted := h.execute hprocess hserves hencodable hhandle
  have hlive : other' ≠ none := fun hnone => hother (hexecuted.live hnone)
  obtain ⟨other, rfl⟩ := Option.ne_none_iff_exists'.mp hlive
  apply h.executed hencodable (by simp)
  exact ⟨hexecuted.live, by simp, hexecuted.otherTabela, .inr (.alone other)⟩

/-- The end of a connection promotes a server that does not forward, and it still does not. -/
lemma Service.Inv.ended (h : s.Inv) {server server' : Server Unit} {result : ℤ} {sock : Socket}
    (hprocess : s.process p = some server)
    (hcall : networkReceiveSend otherNet server (s.process p.other) (openSocket []) =
      .ok (result, server', other', sock)) :
    (s.set p (some server'.disconnected) other' s.history).Inv := by
  rw [networkReceiveSend_ended] at hcall
  cases hcall
  apply Service.Inv.set h.explained h.keys _ (h.tabela p.other)
  · have hleads := h.leads_or p
    rw [hprocess] at hleads
    generalize s.process p.other = other at hleads ⊢
    rcases hleads with hleads | hleads
    · cases hleads with
      | alone => exact .inl (.alone _)
      | linked hprimary hup hconnected hkeeps =>
        rw [disconnected_of_primary hprimary]
        exact .inl (.linked hprimary hup hconnected hkeeps)
    · cases hleads with
      | linked hprimary hup hconnected hkeeps =>
        exact .inr (.linked hprimary hup hconnected (disconnected_keeps hkeeps))
  · intro server₁ hmem
    cases hmem
    rw [Server.Holds, disconnected_tabela]
    exact h.tabela p server hprocess

lemma keeps_of_secundary {server : Server Unit} (h : server.status = statusSecundary) :
    ¬(server.state = stateUp ∧ server.status = statusPrimary) := by
  rintro ⟨-, hprimary⟩
  exact absurd (h.symm.trans hprimary) (by decide)

lemma Service.Inv.joined (h : s.Inv) {started : Started Unit} {leader : Server Unit}
    (hother : s.process p.other = some leader) (hleader : leader.status = statusPrimary)
    {k : ℤ} (hjoined : Joined leader started other' k s.history.contents) :
    (s.set p (some started.server) other' s.history).Inv := by
  rw [hjoined.other]
  apply Service.Inv.set h.explained h.keys
  · intro server₁ hmem
    cases hmem
    exact ⟨k, hjoined.tabela⟩
  · intro server₁ hmem
    cases hmem
    exact h.tabela p.other leader hother
  · exact .inr (.linked hleader rfl rfl (keeps_of_secundary hjoined.status))

theorem Service.Inv.step (h : s.Inv) {pointerLow : Content → Int32}
    (hptr : ∀ content, pointerLow content ≠ 0) {action : ServiceAction}
    (hstep : s.Step pointerLow action s') : s'.Inv := by
  cases hstep with
  | request hprocess hserves hencodable hhandle hanswer =>
    rename_i p request server server' other reply answer
    apply h.executed hencodable _ (h.execute hprocess hserves hencodable hhandle)
    intro msg hmsg
    rcases hanswer with rfl | rfl
    · cases hmsg
      obtain ⟨k, hr⟩ := h.tabela p server hprocess
      obtain ⟨msg', hreply, hallows, -⟩ := handleRequest_allows hr hhandle
      cases hreply
      exact hallows
    · cases hmsg
  | crash hother => exact h.crash hother
  | crashAnswering hprocess hserves hencodable hother hhandle =>
    exact h.crashAnswering hprocess hserves hencodable hother hhandle
  | ended hprocess hcall => exact h.ended hprocess hcall
  | primary hprocess hother hleader hlen hcreate hprimary =>
    rename_i p started other leader k tabela address ipPort
    rw [hother] at hprimary
    obtain ⟨k', hr⟩ := h.tabela p.other leader hother
    have hjoined := primary_joins hleader hr h.keys hptr (represents_of_tableCreate hcreate) hlen
      hprimary
    exact h.joined hother hleader hjoined
  | secundary hprocess hother hleader hlen hcreate hsecundary =>
    rename_i p started other leader k tabela address ipPort
    rw [hother] at hsecundary
    obtain ⟨k', hr⟩ := h.tabela p.other leader hother
    have hjoined := secundary_joins hr h.keys hptr (represents_of_tableCreate hcreate) hlen
      hsecundary
    exact h.joined hother hleader hjoined

lemma Service.Start.inv {pointerLow : Content → Int32} (h : s.Start pointerLow) : s.Inv := by
  cases h with
  | intro hcreate' hsecundary hcreate hprimary hthread =>
    rename_i p k k' tabela tabela' address ipPort ipPort' first second world
    cases hsecundary
    rw [primary_beside rfl] at hprimary
    cases hprimary
    have hempty : RequestHistory.Explained [] := trivial
    apply Service.Inv.set hempty
    · intro key hkey
      exact absurd hkey Finmap.notMem_empty
    · intro server hmem
      cases hmem
      exact ⟨k, represents_of_tableCreate hcreate⟩
    · intro server hmem
      cases hmem
      exact ⟨k', represents_of_tableCreate hcreate'⟩
    · exact .inl (.linked rfl rfl rfl (keeps_of_secundary rfl))

lemma Leads.exclusive (h : Leads (s.process p) (s.process p.other)) :
    ∃ q, ∀ server ∈ s.process q, ∀ opcode, ¬server.Forwards opcode := by
  refine ⟨p.other, fun server hmem => ?_⟩
  rw [Option.mem_def.mp hmem] at h
  generalize s.process p = mine at h
  cases h with
  | linked hprimary hup hconnected hkeeps => exact not_forwards_of_keeps hkeeps

lemma Leads.live (h : Leads mine other') : mine ≠ none := by
  cases h with
  | alone => simp
  | linked hprimary hup hconnected hkeeps => simp

def emptyTable : TableT := ⟨[listCreate], 1, 0⟩

end RemoteTable
