import RemoteTable.PointerServer

/-!
# Whole runs of a server process

`main` of the server from `table_skel_init` over the poll loop to `table_skel_destroy`, with
every block that is allocated and released on the way. It does on all its connections what it
does over bytes, and what it leaves is counted.
-/

namespace RemoteTable

/-- The iterations of the poll loop. -/
def pollLoop {σ δ : Type} (net : Net σ δ) :
    List Polled → MainState σ δ → Except Fault (MainState σ δ)
  | [], s => .ok s
  | polled :: rest, s => do
    let s ← mainIteration net polled s
    pollLoop net rest s

namespace Pointers
open Memory Memory.Assertion Allocation

def Globals.disconnected (globals : Globals) : Globals :=
  if globals.status = statusSecundary then
    { globals with status := statusPrimary, state := stateDown }
  else globals

/-- The process, and the kernel's connections in the order in which it accepts them. -/
structure ServerState where
  argc : ℤ
  /-- What the file `secundary` holds. -/
  file : Option CString
  slots : Slots
  globals : Globals
  peers : Peers
  descriptors : ℤ → ℕ
  sockets : ℕ → Socket
  numberAccepted : ℕ

/-- The branch of the listening socket. -/
def ServerState.listen (polled : Polled) (s : ServerState) : ServerState :=
  match serveListening (polled.turn : Turn ℕ) s.slots with
  | ([], slots) => { s with slots := slots }
  | (_ :: _, slots) =>
    { s with
      slots := slots
      descriptors := Function.update s.descriptors polled.accepted s.numberAccepted
      numberAccepted := s.numberAccepted + 1 }

/-- Its text is put together in arrays of the caller. -/
def ServerState.writeFile (polled : Polled) (s : ServerState) : Mem ServerCell (Option CString) :=
  match serveListening (polled.turn : Turn ℕ) s.slots with
  | ([], _) => pure s.file
  | (_ :: _, _) =>
    if s.argc = 3 ∧ s.globals.status = statusSecundary ∧ polled.fileOpens = false then
      throw .null
    else parse (acceptPeer s.argc s.globals.status s.file polled.client)

/-- The branch of `stdin`. -/
def readCommand (polled : Polled) (tabela : Option ℕ) : Mem ServerCell Unit := do
  let print ← parse polled.printTyped
  if print then printStatus tabela else pure ()

/-- The body of the loop over the clients. -/
def serveClient (polled : Polled) (s : ServerState) (j : Fin maxSockets) :
    Mem ServerCell ServerState :=
  if polled.pollIn j then do
    let k := s.descriptors (s.slots.connections j)
    let (result, globals, peers, sock) ← networkReceiveSend s.globals s.peers (s.sockets k)
    let s := { s with globals, peers, sockets := Function.update s.sockets k sock }
    if result < 0 then
      pure { s with slots := s.slots.disconnected j, globals := s.globals.disconnected }
    else pure s
  else pure s

def serveClients (polled : Polled) :
    ServerState → List (Fin maxSockets) → Mem ServerCell ServerState
  | s, [] => pure s
  | s, j :: rest => do
    let s ← serveClient polled s j
    serveClients polled s rest

def mainIteration (polled : Polled) (s : ServerState) : Mem ServerCell ServerState :=
  if 0 < polled.result then do
    let file ← s.writeFile polled
    readCommand polled s.globals.tabela
    let s' := { s.listen polled with file := file }
    if 0 < (polled.turn : Turn ℕ).resultLeft s.slots then serveClients polled s' clientSlots
    else pure s'
  else pure s

def pollLoop : List Polled → ServerState → Mem ServerCell ServerState
  | [], s => pure s
  | polled :: rest, s => do
    let s ← mainIteration polled s
    pollLoop rest s

/-- What `table_skel_init` returns and the table that it makes. -/
def tableSkelInit (unset nLists : ℤ) : Mem ServerCell (ℤ × Option ℕ) :=
  if nLists ≤ 0 then pure (-1, none)
  else do
    let tabela ← onCells (tableCreate unset nLists)
    match tabela with
    | none => pure (-1, none)
    | some _ => pure (0, tabela)

def tableSkelDestroy (tabela : Option ℕ) : Mem ServerCell ℤ := do
  onCells (tableDestroy tabela)
  pure (if tabela = none then 0 else -1)

/-- `main` without `primary` and `secundary`, which only leave the globals and a connection. -/
def serverMain (unset nLists : ℤ) (polls : List Polled) (s : ServerState) :
    Mem ServerCell (Option ServerState) := do
  let (result, tabela) ← tableSkelInit unset nLists
  if result = -1 then pure none
  else do
    let s ← pollLoop polls { s with globals := { s.globals with tabela := tabela } }
    let _ ← tableSkelDestroy s.globals.tabela
    pure (some s)

/-! ### What a run leaves -/

def clientLeaked (polled : Polled) (s : MainState Peers ℕ) (j : Fin maxSockets) :
    Except RemoteTable.Fault ℕ :=
  if polled.pollIn j then
    callLeaked s.server s.world (s.sockets (s.descriptors (s.slots.connections j)))
  else return 0

def clientsLeaked (polled : Polled) :
    MainState Peers ℕ → List (Fin maxSockets) → Except RemoteTable.Fault ℕ
  | _, [] => return 0
  | s, j :: rest => do
    let left ← clientLeaked polled s j
    let s ← RemoteTable.serveClient peersNet polled s j
    let more ← clientsLeaked polled s rest
    return left + more

/-- Only an empty table is printed. -/
def commandLeaked (polled : Polled) (tabela : TableT) : Except RemoteTable.Fault Unit := do
  if (← polled.printTyped) ∧ tabela.quantityEntry ≠ 0 then throw .outOfBounds else return ()

def iterationLeaked (polled : Polled) (s : MainState Peers ℕ) : Except RemoteTable.Fault ℕ :=
  if 0 < polled.result then do
    let file ← s.writeFile polled
    commandLeaked polled s.server.tabela
    let s' := { s.listen polled with file := file }
    if 0 < (polled.turn : Turn ℕ).resultLeft s.slots then clientsLeaked polled s' clientSlots
    else return 0
  else return 0

def loopLeaked : List Polled → MainState Peers ℕ → Except RemoteTable.Fault ℕ
  | [], _ => return 0
  | polled :: rest, s => do
    let left ← iterationLeaked polled s
    let s ← RemoteTable.mainIteration peersNet polled s
    let more ← loopLeaked rest s
    return left + more

/-! ### The state over bytes -/

/-- The process over its blocks and the one over bytes have the same connections, and what has
passed over each of them is the same. -/
structure ServerState.Shows (s : ServerState) (t : ℕ) (s' : MainState Peers ℕ) : Prop where
  argc : s.argc = s'.argc
  file : s.file = s'.file
  slots : s.slots = s'.slots
  globals : s.globals.Shows t s'.server
  peers : s.peers = s'.world
  descriptors : s.descriptors = s'.descriptors
  sockets : s.sockets = s'.sockets
  numberAccepted : s.numberAccepted = s'.numberAccepted

def serverAt (t : ℕ) (n : ℤ) (s' : MainState Peers ℕ) (s : ServerState) : Assertion ServerCell :=
  only (s.Shows t s') *
    (tabelaAt t n s'.server.tabela * backupAt s.globals.currentBackup s'.server.currentBackup)

/-- The state over bytes before the first iteration. -/
def ServerState.started (s : ServerState) (tabela : TableT) (backup : Option ℕ) :
    MainState Peers ℕ where
  argc := s.argc
  file := s.file
  slots := s.slots
  server := ⟨tabela, s.globals.status, s.globals.state, backup⟩
  world := s.peers
  descriptors := s.descriptors
  sockets := s.sockets
  numberAccepted := s.numberAccepted

section
variable {t left : ℕ} {n : ℤ} {polled : Polled} {polls : List Polled} {s : ServerState}
  {m m' : MainState Peers ℕ} {j : Fin maxSockets} {server : Server ℕ} {globals : Globals}

lemma Globals.Shows.disconnected (h : globals.Shows t server) :
    globals.disconnected.Shows t server.disconnected := by
  rw [Globals.disconnected, Server.disconnected, h.status]
  split
  · exact ⟨h.tabela, rfl, rfl⟩
  · exact h

lemma globals_disconnected_backup (globals : Globals) :
    globals.disconnected.currentBackup = globals.currentBackup := by
  rw [Globals.disconnected]
  split
  · rfl
  · rfl

lemma server_disconnected_eq (server : Server ℕ) :
    server.disconnected.tabela = server.tabela ∧
      server.disconnected.currentBackup = server.currentBackup := by
  rw [Server.disconnected]
  split
  · exact ⟨rfl, rfl⟩
  · exact ⟨rfl, rfl⟩

lemma serverAt_intro {P F : Assertion ServerCell} (h : s.Shows t m)
    (hp : P = tabelaAt t n m.server.tabela *
      backupAt s.globals.currentBackup m.server.currentBackup * F) :
    P ≤ F * serverAt t n m s := by
  rw [hp, serverAt, only_mul_of h, mul_comm]

/-- One call of `network_receive_send`, after which the connection may be given up. -/
lemma serveClient_triple (h : RemoteTable.serveClient peersNet polled m j = .ok m')
    (hleft : clientLeaked polled m j = .ok left) :
    Triple (serverAt t n m s) (serveClient polled s j) fun r =>
      held left * serverAt t n m' r := by
  refine triple_only fun hshows => ?_
  rw [RemoteTable.serveClient] at h
  rw [clientLeaked] at hleft
  rw [serveClient]
  by_cases hpoll : polled.pollIn j = true
  · rw [if_pos hpoll] at h hleft
    rw [if_pos hpoll, hshows.descriptors, hshows.slots, hshows.peers, hshows.sockets]
    obtain ⟨⟨result, server, peers, sock⟩, hcall, hdone⟩ := bind_eq_ok h
    have hglobals : tabelaAt t n m.server.tabela *
        backupAt s.globals.currentBackup m.server.currentBackup =
        globalsAt t n m.server s.globals := (only_mul_of hshows.globals _).symm
    rw [hglobals]
    refine (networkReceiveSend_triple t n s.globals hcall hleft).bind
      fun r => ?_
    obtain ⟨result', globals, world, sock'⟩ := r
    refine triple_only fun hr => ?_
    obtain ⟨rfl, hr⟩ := hr
    cases hr
    rw [mul_comm]
    refine triple_globals fun hshows' => ?_
    by_cases hfailed : result' < 0
    · simp only [if_pos hfailed] at hdone ⊢
      cases hdone
      refine triple_pure (serverAt_intro ?_ ?_)
      · exact ⟨hshows.argc, hshows.file, rfl, hshows'.disconnected, rfl, rfl, rfl,
          hshows.numberAccepted⟩
      · rw [globals_disconnected_backup, (server_disconnected_eq server).1,
          (server_disconnected_eq server).2]
    · simp only [if_neg hfailed] at hdone ⊢
      cases hdone
      refine triple_pure (serverAt_intro ?_ rfl)
      exact ⟨hshows.argc, hshows.file, rfl, hshows', rfl, rfl, rfl, hshows.numberAccepted⟩
  · rw [if_neg hpoll] at h hleft
    rw [if_neg hpoll]
    cases h
    cases hleft
    refine triple_pure ((only_mul_of hshows _).ge.trans (le_held_zero_mul _))

lemma serveClients_triple {order : List (Fin maxSockets)}
    (h : RemoteTable.serveClients peersNet polled m order = .ok m')
    (hleft : clientsLeaked polled m order = .ok left) :
    Triple (serverAt t n m s) (serveClients polled s order) fun r =>
      held left * serverAt t n m' r := by
  induction order generalizing m s left with
  | nil =>
    cases h
    cases hleft
    exact triple_pure (le_held_zero_mul _)
  | cons j order ih =>
    obtain ⟨m₁, hfirst, hrest⟩ := bind_eq_ok h
    obtain ⟨one, hone, hleft⟩ := bind_eq_ok hleft
    obtain ⟨m₂, hfirst', hleft⟩ := bind_eq_ok hleft
    rw [hfirst] at hfirst'
    cases hfirst'
    obtain ⟨more, hmore, hleft⟩ := bind_eq_ok hleft
    cases hleft
    refine (serveClient_triple hfirst hone).bind fun s₁ => ?_
    refine (ih hrest hmore).last (held one) (mul_comm _ _) fun r => ?_
    rw [mul_right_comm, mul_comm (held more)]
    exact mul_le_mul_left (held_mul_le one more) _

/-- The branch of the listening socket has nothing to do with blocks. -/
lemma ServerState.Shows.listen (h : s.Shows t m) (polled : Polled) :
    (s.listen polled).Shows t (m.listen polled) ∧
      (s.listen polled).globals = s.globals ∧ (m.listen polled).server = m.server := by
  rw [ServerState.listen, MainState.listen, h.slots]
  rcases serveListening (polled.turn : Turn ℕ) m.slots with ⟨events, slots⟩
  cases events with
  | nil =>
    exact ⟨⟨h.argc, h.file, rfl, h.globals, h.peers, h.descriptors, h.sockets, h.numberAccepted⟩,
      rfl, rfl⟩
  | cons event events =>
    refine ⟨⟨h.argc, h.file, rfl, h.globals, h.peers, ?_, h.sockets, ?_⟩, rfl, rfl⟩
    · simp only [h.descriptors, h.numberAccepted]
    · simp only [h.numberAccepted]

/-- The file is written alike. -/
lemma ServerState.Shows.writeFile (h : s.Shows t m) {file : Option CString}
    (hfile : m.writeFile polled = .ok file) (P : Assertion ServerCell) :
    Reads P (s.writeFile polled) file := by
  rw [MainState.writeFile] at hfile
  rw [ServerState.writeFile, h.argc, h.file, h.slots, h.globals.status]
  generalize serveListening (polled.turn : Turn ℕ) m.slots = listened at hfile ⊢
  obtain ⟨events, slots⟩ := listened
  cases events with
  | nil =>
    cases hfile
    exact reads_pure P _
  | cons event events =>
    simp only at hfile ⊢
    split at hfile
    · cases hfile
    · rename_i hopens
      rw [if_neg hopens]
      exact reads_parse hfile

lemma readCommand_triple {tabela : TableT}
    (h : RemoteTable.readCommand polled tabela = .ok ())
    (hleft : commandLeaked polled tabela = .ok ()) :
    Triple (tabelaAt t n tabela) (readCommand polled (some t)) fun _ => tabelaAt t n tabela := by
  obtain ⟨print, hprint, -⟩ := bind_eq_ok h
  rw [commandLeaked, hprint, ok_bind] at hleft
  refine (reads_parse hprint).bind ?_
  cases print with
  | false => exact triple_pure le_rfl
  | true =>
    by_cases hempty : tabela.quantityEntry = 0
    · exact printStatus_triple t n hempty
    · rw [if_pos ⟨rfl, hempty⟩] at hleft
      cases hleft

lemma serverAt_listen_le (polled : Polled) (file : Option CString) :
    serverAt t n m s ≤ serverAt t n { m.listen polled with file := file }
      { s.listen polled with file := file } := by
  refine only_mul_le fun hshows => ?_
  obtain ⟨hlisten, hglobals, hserver⟩ := hshows.listen polled
  have hboth : ({ s.listen polled with file := file } : ServerState).Shows t
      { m.listen polled with file := file } :=
    ⟨hlisten.argc, rfl, hlisten.slots, hlisten.globals, hlisten.peers, hlisten.descriptors,
      hlisten.sockets, hlisten.numberAccepted⟩
  rw [serverAt, only_mul_of hboth]
  simp only [hglobals, hserver]
  exact le_rfl

lemma mainIteration_triple (h : RemoteTable.mainIteration peersNet polled m = .ok m')
    (hleft : iterationLeaked polled m = .ok left) :
    Triple (serverAt t n m s) (mainIteration polled s) fun r =>
      held left * serverAt t n m' r := by
  refine triple_only fun hshows => ?_
  rw [RemoteTable.mainIteration] at h
  rw [iterationLeaked] at hleft
  rw [mainIteration, hshows.slots, hshows.globals.tabela]
  by_cases hresult : 0 < polled.result
  · rw [if_pos hresult] at h hleft
    rw [if_pos hresult]
    obtain ⟨file, hfile, h⟩ := bind_eq_ok h
    obtain ⟨_, hcommand, h⟩ := bind_eq_ok h
    rw [hfile, ok_bind] at hleft
    obtain ⟨_, hprint, hleft⟩ := bind_eq_ok hleft
    refine (hshows.writeFile hfile _).bind ?_
    refine (readCommand_triple hcommand hprint).step _ rfl fun _ => ?_
    refine Triple.weaken (P := serverAt t n m s) ?_ (only_mul_of hshows _).ge
    refine Triple.weaken ?_ (serverAt_listen_le polled file)
    by_cases hclients : 0 < (polled.turn : Turn ℕ).resultLeft m.slots
    · simp only [if_pos hclients] at h hleft ⊢
      exact serveClients_triple h hleft
    · simp only [if_neg hclients] at h hleft ⊢
      cases h
      cases hleft
      exact triple_pure (le_held_zero_mul _)
  · rw [if_neg hresult] at h hleft
    rw [if_neg hresult]
    cases h
    cases hleft
    exact triple_pure ((only_mul_of hshows _).ge.trans (le_held_zero_mul _))

theorem pollLoop_triple (h : RemoteTable.pollLoop peersNet polls m = .ok m')
    (hleft : loopLeaked polls m = .ok left) :
    Triple (serverAt t n m s) (pollLoop polls s) fun r => held left * serverAt t n m' r := by
  induction polls generalizing m s left with
  | nil =>
    cases h
    cases hleft
    exact triple_pure (le_held_zero_mul _)
  | cons polled polls ih =>
    obtain ⟨m₁, hfirst, hrest⟩ := bind_eq_ok h
    obtain ⟨one, hone, hleft⟩ := bind_eq_ok hleft
    obtain ⟨m₂, hfirst', hleft⟩ := bind_eq_ok hleft
    rw [hfirst] at hfirst'
    cases hfirst'
    obtain ⟨more, hmore, hleft⟩ := bind_eq_ok hleft
    cases hleft
    refine (mainIteration_triple hfirst hone).bind fun s₁ => ?_
    refine (ih hrest hmore).last (held one) (mul_comm _ _) fun r => ?_
    rw [mul_right_comm, mul_comm (held more)]
    exact mul_le_mul_left (held_mul_le one more) _

/-! ### From the start to the end -/

variable {unset nLists : ℤ} {created : TableT} {final : MainState Peers ℕ}

lemma tableSkelInit_triple (hcreate : RemoteTable.tableCreate nLists = some created) :
    Triple 1 (tableSkelInit unset nLists) fun r =>
      ex fun t => only (r = (0, some t)) * tabelaAt t nLists created := by
  have hpos := pos_of_tableCreate hcreate
  obtain ⟨table, htable, hsize, hw, -⟩ := contents_tableCreate hpos
  rw [hcreate, Option.some.injEq] at htable
  subst htable
  have hmake := triple_lift cells (tableCreate_triple unset hcreate)
  simp only [embed_one, embed_returned] at hmake
  rw [tableSkelInit, if_neg (not_le.mpr hpos)]
  refine hmake.step 1 (mul_one _).symm fun r => triple_returned ?_
  rintro t rfl
  rw [mul_one]
  refine triple_pure (le_trans ?_ (le_ex _ t))
  rw [only_mul_of rfl]
  exact tabelaAt_intro ⟨hw, hsize, rfl⟩ t

lemma tableSkelDestroy_triple (t : ℕ) (n : ℤ) (tabela : TableT) :
    Triple (tabelaAt t n tabela) (tableSkelDestroy (some t)) fun _ => 1 := by
  refine triple_only fun hr => ?_
  have hlen : tabela.buckets.length = tabela.size.toNat := by
    rw [hr.wellFormed.size_eq, Int.toNat_natCast]
  have hdestroy := triple_lift cells (tableDestroy_triple t hlen)
  rw [embed_one] at hdestroy
  exact hdestroy.bind fun _ => triple_pure le_rfl

theorem serverMain_triple {backup : Option ℕ}
    (hcreate : RemoteTable.tableCreate nLists = some created)
    (h : RemoteTable.pollLoop peersNet polls (s.started created backup) = .ok final)
    (hleft : loopLeaked polls (s.started created backup) = .ok left) :
    Triple (backupAt s.globals.currentBackup backup) (serverMain unset nLists polls s) fun r =>
      only (∃ s' t, r = some s' ∧ s'.Shows t final) *
        held (left + final.server.currentBackup.toList.length) := by
  refine (tableSkelInit_triple hcreate).step _ (one_mul _).symm fun r => ?_
  rw [ex_mul]
  refine triple_ex fun t => ?_
  rw [mul_assoc]
  apply triple_only
  rintro rfl
  have hstart : tabelaAt t nLists created * backupAt s.globals.currentBackup backup ≤
      serverAt t nLists (s.started created backup)
        { s with globals := { s.globals with tabela := some t } } :=
    (only_mul_of ⟨rfl, rfl, rfl, ⟨rfl, rfl, rfl⟩, rfl, rfl, rfl, rfl⟩ _).ge
  refine Triple.weaken ?_ hstart
  refine (pollLoop_triple h hleft).bind fun s' => ?_
  rw [mul_comm, serverAt, mul_assoc]
  refine triple_only fun hshows => ?_
  rw [hshows.globals.tabela]
  refine (tableSkelDestroy_triple t nLists final.server.tabela).step _ (mul_assoc _ _ _)
    fun _ => triple_pure ?_
  rw [one_mul, only_mul_of ⟨s', t, rfl, hshows⟩, mul_comm]
  exact (mul_le_mul' le_rfl (backupAt_le_held _ _)).trans (held_mul_le _ _)

/-- A server process from the making of its table to its end, in a heap with no refusals that
holds its connection to a backup, if there is one, and whatever else, whatever bytes come on its
connections and however they are cut. While its run over bytes is defined and the requests that
come are those of the table, but no listing of a table that has keys, it uses no released block;
it writes on every connection what the run over bytes writes; what was live beside its
connection stays as it is; and with that are live at the end the blocks that the requests left
and the last connection to a backup. -/
theorem serverMain_accounts (unset nLists : ℤ) {created : TableT}
    (hcreate : RemoteTable.tableCreate nLists = some created) (polls : List Polled)
    (s : ServerState) (backup : Option ℕ) {final : MainState Peers ℕ}
    (hrun : RemoteTable.pollLoop peersNet polls (s.started created backup) = .ok final) {left : ℕ}
    (hleft : loopLeaked polls (s.started created backup) = .ok left) (h : Heap ServerCell)
    (hg : h.Granted) (others : ℕ → Option ServerCell)
    (hbackup : h.cells ∈ backupAt s.globals.currentBackup backup * exactly others) :
    ∃ s' t h', serverMain unset nLists polls s h = .ok (some s', h') ∧ s'.Shows t final ∧
      (∀ p, others p ≠ none → h'.cells p = others p) ∧
      {p | h'.cells p ≠ none ∧ others p = none}.ncard =
        left + final.server.currentBackup.toList.length := by
  obtain ⟨r, h', hmain, ⟨s', t, rfl, hshows⟩, hkept, hlive⟩ :=
    (serverMain_triple hcreate hrun hleft).leaves_beside h hg hbackup
  exact ⟨s', t, h', hmain, hshows, hkept, hlive⟩

end

/-! ### A client and a backup -/

/-- A key is put twice, read, and removed from both servers. -/
def busyCalls : List Call :=
  [.request (.put letterA), .request (.put letterA), .request (.get letterA.key),
    .request (.del letterA.key)]

/-- The backup answers two of the three writes. -/
def busyState : ServerState where
  argc := 4
  file := none
  slots := (pollStart 3 0 emptyServer).slots
  globals := ⟨none, statusPrimary, stateUp, some 0⟩
  peers := ⟨fun _ => openSocket (frame (wireFormat ⟨ocPut + 1, .result 0⟩) ++
    frame (wireFormat ⟨ocPut + 1, .result (-10)⟩)), 1, fun _ => true, fun _ _ _ => true⟩
  descriptors _ := 0
  sockets _ := openSocket (framesOf busyCalls)
  numberAccepted := 0

/-- `print` is typed while the table is empty. -/
def printPolled : Polled :=
  ⟨1, fun j => j = stdinPos, -1, ⟨0, 0, 0, 0⟩, true, some [112, 114, 105, 110, 116, 10]⟩

def busyPolls : List Polled :=
  [printPolled, acceptPolled, servePolled, servePolled, servePolled, servePolled]

/-- The connection to the backup. -/
def backupBlock : Heap ServerCell :=
  ⟨Function.update noCells 0 (some (.server (some 0))), 1, fun _ => true, fun p hp => by
    rw [Function.update_of_ne (Nat.one_le_iff_ne_zero.mp hp)]
    rfl⟩

/-- Two buffers for each request, the value that the second PUT reads, the copy of a key, two
answers of the backup, a buffer that it did not answer, and the connection to it. -/
theorem serverMain_accounts_busy :
    ∃ s' h', serverMain 0 1 busyPolls busyState backupBlock = .ok (some s', h') ∧
      {p | h'.cells p ≠ none ∧ noCells (α := ServerCell) p = none}.ncard = 15 := by
  obtain ⟨final, hrun, hbackup⟩ : ∃ final, RemoteTable.pollLoop peersNet busyPolls
      (busyState.started ⟨[RemoteTable.listCreate], 1, 0⟩ (some 0)) = .ok final ∧
        final.server.currentBackup = some 0 := ⟨_, rfl, rfl⟩
  have hleft : loopLeaked busyPolls
      (busyState.started ⟨[RemoteTable.listCreate], 1, 0⟩ (some 0)) = .ok 14 := rfl
  have hown : backupBlock.cells ∈ backupAt (some 0) (some 0) * exactly noCells := by
    refine ⟨_, le_returned (fun p => cell p (ServerCell.server (some 0))) 0 rfl, noCells, rfl,
      apart_noCells _, ?_⟩
    rw [join_noCells]
    rfl
  obtain ⟨s', t, h', hmain, -, -, hlive⟩ := serverMain_accounts 0 1 rfl busyPolls busyState
    (some 0) hrun hleft backupBlock (fun _ => rfl) noCells hown
  rw [hbackup] at hlive
  exact ⟨s', h', hmain, hlive⟩

end Pointers

end RemoteTable
