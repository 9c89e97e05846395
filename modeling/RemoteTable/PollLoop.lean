import RemoteTable.Roles

/-!
# The poll loop of the server

The array `connections` of `main` and the counter beside it: `accept` fills a free slot, a
connection that ends empties its slot. The two only change together, and the first two slots
belong to the listening socket and to `stdin`.
-/

namespace RemoteTable

def listeningSocketPos : Fin maxSockets := ⟨0, by decide⟩
def stdinPos : Fin maxSockets := ⟨1, by decide⟩

/-- `connections[i].fd`, where -1 marks a free slot, and `number_clients`. -/
structure Slots where
  connections : Fin maxSockets → ℤ
  numberClients : ℤ

structure PollServer (δ : Type) where
  slots : Slots
  server : Server δ

/-- What the calls of one iteration return: `poll` with POLLIN in `revents`, `accept`, and
`network_receive_send` for each slot. -/
structure Turn (δ : Type) where
  result : ℤ
  pollIn : Fin maxSockets → Bool
  accepted : ℤ
  received : Fin maxSockets → Server δ → ℤ × Server δ

inductive SlotEvent
  | accepted (j : Fin maxSockets) (fd : ℤ)
  | closed (j : Fin maxSockets) (fd : ℤ)
  deriving DecidableEq

def SlotEvent.slot : SlotEvent → Fin maxSockets
  | .accepted j _ => j
  | .closed j _ => j

variable {δ : Type}

/-- The slots from `N_POS_NOT_FREE` on. -/
def clientSlots : List (Fin maxSockets) := (List.finRange maxSockets).filter (nPosNotFree ≤ ·.val)

def findFreeConnection (conn : Fin maxSockets → ℤ) : Option (Fin maxSockets) :=
  clientSlots.find? fun k => conn k = -1

/-- The branch of a new connection; what `accept` returns goes into the slot in any case. -/
def acceptClient (accepted : ℤ) (slots : Slots) : List SlotEvent × Slots :=
  match findFreeConnection slots.connections with
  | none => ([], slots)
  | some freeIndex =>
    let connections := Function.update slots.connections freeIndex accepted
    if 0 < accepted then
      ([.accepted freeIndex accepted], ⟨connections, slots.numberClients + 1⟩)
    else ([], ⟨connections, slots.numberClients⟩)

def Slots.disconnected (slots : Slots) (j : Fin maxSockets) : Slots :=
  ⟨Function.update slots.connections j (-1), slots.numberClients - 1⟩

/-- The body of the loop over the clients. -/
def serveSlot (turn : Turn δ) (s : PollServer δ) (j : Fin maxSockets) :
    List SlotEvent × PollServer δ :=
  if turn.pollIn j then
    let (result, server) := turn.received j s.server
    if result < 0 then
      ([.closed j (s.slots.connections j)], ⟨s.slots.disconnected j, server.disconnected⟩)
    else ([], ⟨s.slots, server⟩)
  else ([], s)

def serveSlots (turn : Turn δ) : PollServer δ → List (Fin maxSockets) →
    List SlotEvent × PollServer δ
  | s, [] => ([], s)
  | s, j :: rest =>
    let (events, s) := serveSlot turn s j
    let (more, s) := serveSlots turn s rest
    (events ++ more, s)

/-- The test for a new connection. -/
def Turn.Listens (turn : Turn δ) (slots : Slots) : Prop :=
  turn.pollIn listeningSocketPos ∧ slots.numberClients - nPosNotFree < maxSockets

instance (turn : Turn δ) (slots : Slots) : Decidable (turn.Listens slots) :=
  inferInstanceAs (Decidable (_ ∧ _))

/-- `result` after a new connection and a line on `stdin` have been counted off. -/
def Turn.resultLeft (turn : Turn δ) (slots : Slots) : ℤ :=
  turn.result - (if turn.Listens slots then 1 else 0) - (if turn.pollIn stdinPos then 1 else 0)

/-- The branches of the listening socket. -/
def serveListening (turn : Turn δ) (slots : Slots) : List SlotEvent × Slots :=
  if turn.Listens slots then acceptClient turn.accepted slots else ([], slots)

/-- One iteration. The loop over the clients tests `result`, which it does not change. -/
def pollIteration (turn : Turn δ) (s : PollServer δ) : List SlotEvent × PollServer δ :=
  if 0 < turn.result then
    let (events, slots) := serveListening turn s.slots
    let (closed, s) :=
      if 0 < turn.resultLeft s.slots then serveSlots turn ⟨slots, s.server⟩ clientSlots
      else ([], ⟨slots, s.server⟩)
    (events ++ closed, s)
  else ([], s)

/-- The array before the first iteration. -/
def pollStart (listeningSocket stdin : ℤ) (server : Server δ) : PollServer δ :=
  ⟨⟨Function.update (Function.update (fun _ => -1) listeningSocketPos listeningSocket)
    stdinPos stdin, 0⟩, server⟩

/-- `poll` reports nothing for free slots, and `accept` fails or returns a descriptor that is
not open. -/
structure Turn.Possible (turn : Turn δ) (slots : Slots) : Prop where
  polled : ∀ j, turn.pollIn j → slots.connections j ≠ -1
  accepts : turn.accepted = -1 ∨ 0 < turn.accepted ∧ ∀ j, slots.connections j ≠ turn.accepted

def PollServer.Iterates (s : PollServer δ) (events : List SlotEvent) (s' : PollServer δ) : Prop :=
  ∃ turn : Turn δ, turn.Possible s.slots ∧ pollIteration turn s = (events, s')

/-- The slots of clients that are in use. -/
def Slots.occupied (slots : Slots) : Finset (Fin maxSockets) :=
  Finset.univ.filter fun j => nPosNotFree ≤ j.val ∧ slots.connections j ≠ -1

/-- The counter tells how many slots are in use, and no client shares its descriptor. -/
structure Slots.Kept (listeningSocket stdin : ℤ) (slots : Slots) : Prop where
  counted : slots.numberClients = slots.occupied.card
  listening : slots.connections listeningSocketPos = listeningSocket
  stdin : slots.connections stdinPos = stdin
  unshared : ∀ i j : Fin maxSockets, nPosNotFree ≤ j.val → slots.connections j ≠ -1 →
    slots.connections i = slots.connections j → i = j

/-- A descriptor is in its slot up to the iteration that closes it. -/
def StaysUntilClosed (j : Fin maxSockets) (fd : ℤ) : List (List SlotEvent × PollServer δ) → Prop
  | [] => True
  | (events, s) :: rest =>
    SlotEvent.closed j fd ∈ events ∧ s.slots.connections j = -1 ∨
      s.slots.connections j = fd ∧ StaysUntilClosed j fd rest

/-- What holds between two iterations, and of the iterations that follow. -/
structure PollServer.Lawful (listeningSocket stdin : ℤ) (s : PollServer δ) : Prop where
  kept : s.slots.Kept listeningSocket stdin
  bounded : 0 ≤ s.slots.numberClients ∧ s.slots.numberClients ≤ maxSockets - nPosNotFree
  unshared : listeningSocket ≠ stdin → ∀ i j, s.slots.connections j ≠ -1 →
    s.slots.connections i = s.slots.connections j → i = j
  accepts : ∀ events s', s.Iterates events s' → ∀ j fd, SlotEvent.accepted j fd ∈ events →
    s.slots.connections j = -1 ∧ s'.slots.connections j = fd
  stays : ∀ steps, Machine.Trace PollServer.Iterates s steps → ∀ j,
    s.slots.connections j ≠ -1 → StaysUntilClosed j (s.slots.connections j) steps

/-! ### Changes of the slots -/

lemma mem_clientSlots {j : Fin maxSockets} : j ∈ clientSlots ↔ nPosNotFree ≤ j.val := by
  simp [clientSlots]

lemma clientSlots_nodup : clientSlots.Nodup := (List.nodup_finRange maxSockets).filter _

lemma findFreeConnection_some {conn : Fin maxSockets → ℤ} {j : Fin maxSockets}
    (h : findFreeConnection conn = some j) : nPosNotFree ≤ j.val ∧ conn j = -1 := by
  refine ⟨mem_clientSlots.mp (List.mem_of_find?_eq_some h), ?_⟩
  simpa using List.find?_some h

/-- The two ways in which an iteration changes a slot. -/
inductive Slots.Change : Slots → SlotEvent → Slots → Prop
  | accept {slots : Slots} {j : Fin maxSockets} {fd : ℤ} (hslot : nPosNotFree ≤ j.val)
      (hfree : slots.connections j = -1) (hpos : 0 < fd)
      (hnew : ∀ i, slots.connections i ≠ fd) :
      Change slots (.accepted j fd)
        ⟨Function.update slots.connections j fd, slots.numberClients + 1⟩
  | close {slots : Slots} {j : Fin maxSockets} (hslot : nPosNotFree ≤ j.val)
      (hused : slots.connections j ≠ -1) :
      Change slots (.closed j (slots.connections j)) (slots.disconnected j)

inductive Slots.Changes : Slots → List SlotEvent → Slots → Prop
  | nil (slots : Slots) : Changes slots [] slots
  | cons {slots slots' slots'' : Slots} {event : SlotEvent} {events : List SlotEvent}
      (h : slots.Change event slots') (hrest : Changes slots' events slots'') :
      Changes slots (event :: events) slots''

lemma Slots.Changes.append {slots slots' slots'' : Slots} {events more : List SlotEvent}
    (h : slots.Changes events slots') (h' : slots'.Changes more slots'') :
    slots.Changes (events ++ more) slots'' := by
  induction h with
  | nil => exact h'
  | cons h _ ih => exact .cons h (ih h')

lemma serveListening_changes {turn : Turn δ} {slots : Slots} (h : turn.Possible slots) :
    slots.Changes (serveListening turn slots).1 (serveListening turn slots).2 ∧
      ∀ j, slots.connections j ≠ -1 →
        (serveListening turn slots).2.connections j = slots.connections j := by
  have hkept : slots.Changes [] slots ∧
      ∀ j, slots.connections j ≠ -1 → slots.connections j = slots.connections j :=
    ⟨.nil slots, fun _ _ => rfl⟩
  rw [serveListening]
  by_cases hready : turn.Listens slots
  · rw [if_pos hready, acceptClient]
    cases hfind : findFreeConnection slots.connections with
    | none => exact hkept
    | some j =>
      obtain ⟨hslot, hfree⟩ := findFreeConnection_some hfind
      rcases h.accepts with hfail | ⟨hpos, hnew⟩
      · -- the slot gets the -1 that it had
        have hsame : Function.update slots.connections j (-1) = slots.connections := by
          rw [← hfree, Function.update_eq_self]
        have hle : ¬(0 : ℤ) < -1 := by decide
        simp only [hfail, hle, if_false, hsame]
        exact ⟨.nil slots, fun _ _ => trivial⟩
      · simp only [hpos, if_true]
        refine ⟨.cons (.accept hslot hfree hpos hnew) (.nil _), ?_⟩
        intro i hi
        apply Function.update_of_ne
        rintro rfl
        exact hi hfree
  · rw [if_neg hready]
    exact hkept

lemma serveSlot_spec (turn : Turn δ) (s : PollServer δ) {j : Fin maxSockets}
    (hslot : nPosNotFree ≤ j.val) (hpolled : turn.pollIn j → s.slots.connections j ≠ -1) :
    s.slots.Changes (serveSlot turn s j).1 (serveSlot turn s j).2.slots ∧
      ∀ i, i ≠ j → (serveSlot turn s j).2.slots.connections i = s.slots.connections i := by
  rw [serveSlot]
  by_cases hin : turn.pollIn j
  · rw [if_pos hin]
    rcases turn.received j s.server with ⟨result, server⟩
    by_cases hresult : result < 0
    · simp only [hresult, if_true]
      refine ⟨.cons (.close hslot (hpolled hin)) (.nil _), ?_⟩
      intro i hi
      exact Function.update_of_ne hi _ _
    · simp only [hresult, if_false]
      exact ⟨.nil _, fun _ _ => trivial⟩
  · rw [if_neg hin]
    exact ⟨.nil _, fun _ _ => rfl⟩

/-- A slot is served once, so it still holds what `poll` saw there. -/
lemma serveSlots_changes (turn : Turn δ) {order : List (Fin maxSockets)} (horder : order.Nodup)
    (hslots : ∀ j ∈ order, nPosNotFree ≤ j.val) {s : PollServer δ}
    (hpolled : ∀ j ∈ order, turn.pollIn j → s.slots.connections j ≠ -1) :
    s.slots.Changes (serveSlots turn s order).1 (serveSlots turn s order).2.slots := by
  induction order generalizing s with
  | nil => exact .nil _
  | cons j order ih =>
    obtain ⟨hj, horder⟩ := List.nodup_cons.mp horder
    obtain ⟨hchanges, hothers⟩ :=
      serveSlot_spec turn s (hslots j List.mem_cons_self) (hpolled j List.mem_cons_self)
    rw [serveSlots]
    apply hchanges.append
    apply ih horder fun i hi => hslots i (List.mem_cons_of_mem j hi)
    intro i hi hin
    rw [hothers i (fun hij => hj (hij ▸ hi))]
    exact hpolled i (List.mem_cons_of_mem j hi) hin

/-- An iteration only makes such changes. -/
lemma pollIteration_changes {turn : Turn δ} {s : PollServer δ} (h : turn.Possible s.slots) :
    s.slots.Changes (pollIteration turn s).1 (pollIteration turn s).2.slots := by
  rw [pollIteration]
  by_cases hresult : 0 < turn.result
  · rw [if_pos hresult]
    obtain ⟨hfirst, hkept⟩ := serveListening_changes h
    by_cases hgo : 0 < turn.resultLeft s.slots
    · simp only [hgo, if_true]
      apply hfirst.append
      apply serveSlots_changes turn clientSlots_nodup (fun j hj => mem_clientSlots.mp hj)
        (s := ⟨(serveListening turn s.slots).2, s.server⟩)
      intro j _ hin
      rw [hkept j (h.polled j hin)]
      exact h.polled j hin
    · simp only [hgo, if_false]
      exact hfirst.append (.nil _)
  · rw [if_neg hresult]
    exact .nil _

/-! ### What the changes keep -/

section
variable {listeningSocket stdin : ℤ} {slots slots' : Slots} {event : SlotEvent}
  {events : List SlotEvent}

lemma Slots.mem_occupied {j : Fin maxSockets} :
    j ∈ slots.occupied ↔ nPosNotFree ≤ j.val ∧ slots.connections j ≠ -1 := by
  simp [Slots.occupied]

lemma Slots.occupied_accept {j : Fin maxSockets} {fd : ℤ} (hslot : nPosNotFree ≤ j.val)
    (hfd : fd ≠ -1) (numberClients : ℤ) :
    Slots.occupied ⟨Function.update slots.connections j fd, numberClients⟩ =
      insert j slots.occupied := by
  ext i
  rw [Finset.mem_insert, Slots.mem_occupied, Slots.mem_occupied]
  by_cases hij : i = j
  · subst hij
    simp [hslot, hfd]
  · simp [hij]

lemma Slots.occupied_close (j : Fin maxSockets) :
    (slots.disconnected j).occupied = slots.occupied.erase j := by
  ext i
  rw [Finset.mem_erase, Slots.mem_occupied, Slots.mem_occupied, Slots.disconnected]
  by_cases hij : i = j
  · subst hij
    simp
  · simp [hij]

lemma Slots.occupied_card_le (slots : Slots) :
    slots.occupied.card ≤ maxSockets - nPosNotFree := by
  have hsubset : slots.occupied ⊆ Finset.univ.filter fun j => nPosNotFree ≤ j.val := by
    intro j hj
    simpa using (Slots.mem_occupied.mp hj).1
  exact Finset.card_le_card hsubset

lemma ne_of_client {i j : Fin maxSockets} (hi : i.val < nPosNotFree) (hj : nPosNotFree ≤ j.val) :
    i ≠ j := by
  rintro rfl
  omega

lemma Slots.Change.kept (h : slots.Change event slots') (hs : slots.Kept listeningSocket stdin) :
    slots'.Kept listeningSocket stdin := by
  cases h with
  | accept hslot hfree hpos hnew =>
    rename_i j fd
    have hfd : fd ≠ -1 := by omega
    have hmem : j ∉ slots.occupied := fun hj => (Slots.mem_occupied.mp hj).2 hfree
    constructor
    · rw [Slots.occupied_accept hslot hfd, Finset.card_insert_of_notMem hmem, hs.counted]
      push_cast
      rfl
    · rw [← hs.listening]
      exact Function.update_of_ne (ne_of_client (by decide) hslot) _ _
    · rw [← hs.stdin]
      exact Function.update_of_ne (ne_of_client (by decide) hslot) _ _
    · intro i k hk hused hshared
      simp only at hused hshared
      by_cases hkj : k = j
      · by_contra hik
        rw [hkj] at hik
        rw [hkj, Function.update_of_ne hik, Function.update_self] at hshared
        exact hnew i hshared
      · rw [Function.update_of_ne hkj] at hused hshared
        by_cases hij : i = j
        · rw [hij, Function.update_self] at hshared
          exact absurd hshared.symm (hnew k)
        · rw [Function.update_of_ne hij] at hshared
          exact hs.unshared i k hk hused hshared
  | close hslot hused =>
    rename_i j
    have hmem : j ∈ slots.occupied := Slots.mem_occupied.mpr ⟨hslot, hused⟩
    constructor
    · have hcard := Finset.card_erase_add_one hmem
      rw [Slots.occupied_close, Slots.disconnected]
      simp only [hs.counted]
      omega
    · rw [← hs.listening]
      exact Function.update_of_ne (ne_of_client (by decide) hslot) _ _
    · rw [← hs.stdin]
      exact Function.update_of_ne (ne_of_client (by decide) hslot) _ _
    · intro i k hk hkused hshared
      simp only [Slots.disconnected] at hkused hshared
      by_cases hkj : k = j
      · rw [hkj, Function.update_self] at hkused
        exact absurd rfl hkused
      · rw [Function.update_of_ne hkj] at hkused hshared
        by_cases hij : i = j
        · rw [hij, Function.update_self] at hshared
          exact absurd hshared.symm hkused
        · rw [Function.update_of_ne hij] at hshared
          exact hs.unshared i k hk hkused hshared

lemma Slots.Changes.kept (h : slots.Changes events slots')
    (hs : slots.Kept listeningSocket stdin) : slots'.Kept listeningSocket stdin := by
  induction h with
  | nil => exact hs
  | cons h _ ih => exact ih (h.kept hs)

/-- What became of one slot, when no slot changed twice. -/
lemma Slots.Changes.slot_cases (h : slots.Changes events slots')
    (honce : (events.map SlotEvent.slot).Nodup) (j : Fin maxSockets) :
    (∀ event ∈ events, event.slot ≠ j) ∧ slots'.connections j = slots.connections j ∨
      (∃ fd, SlotEvent.accepted j fd ∈ events ∧ slots.connections j = -1 ∧
        slots'.connections j = fd) ∨
      SlotEvent.closed j (slots.connections j) ∈ events ∧ slots.connections j ≠ -1 ∧
        slots'.connections j = -1 := by
  induction h with
  | nil => exact Or.inl ⟨by simp, rfl⟩
  | cons h hrest ih =>
    rename_i slots slots₁ slots₂ event events
    rw [List.map_cons, List.nodup_cons] at honce
    obtain ⟨hfirst, honce⟩ := honce
    by_cases hj : event.slot = j
    · -- the rest leaves this slot alone
      have hlast : slots₂.connections j = slots₁.connections j := by
        rcases ih honce with ⟨-, hsame⟩ | ⟨fd, hmem, -⟩ | ⟨hmem, -⟩
        · exact hsame
        · exact absurd (List.mem_map.mpr ⟨_, hmem, hj.symm⟩) hfirst
        · exact absurd (List.mem_map.mpr ⟨_, hmem, hj.symm⟩) hfirst
      rw [hlast]
      cases h with
      | accept hslot hfree hpos hnew =>
        rename_i i fd
        obtain rfl : i = j := hj
        exact Or.inr (Or.inl ⟨fd, List.mem_cons_self, hfree, Function.update_self _ _ _⟩)
      | close hslot hused =>
        rename_i i
        obtain rfl : i = j := hj
        exact Or.inr (Or.inr ⟨List.mem_cons_self, hused, Function.update_self _ _ _⟩)
    · have hsame : slots₁.connections j = slots.connections j := by
        cases h with
        | accept => exact Function.update_of_ne (Ne.symm hj) _ _
        | close => exact Function.update_of_ne (Ne.symm hj) _ _
      have hcases := ih honce
      rw [hsame] at hcases
      rcases hcases with ⟨hnone, hkept⟩ | ⟨fd, hmem, hfree, hfd⟩ | ⟨hmem, hused, hclosed⟩
      · exact Or.inl ⟨List.forall_mem_cons.mpr ⟨hj, hnone⟩, hkept⟩
      · exact Or.inr (Or.inl ⟨fd, List.mem_cons_of_mem _ hmem, hfree, hfd⟩)
      · exact Or.inr (Or.inr ⟨List.mem_cons_of_mem _ hmem, hused, hclosed⟩)

end

/-! ### Runs of the loop -/

section
variable {turn : Turn δ} {s s' : PollServer δ} {events : List SlotEvent}

lemma serveSlot_slots (turn : Turn δ) (s : PollServer δ) (j : Fin maxSockets) :
    (serveSlot turn s j).1 = [] ∨
      turn.pollIn j ∧ (serveSlot turn s j).1.map SlotEvent.slot = [j] := by
  rw [serveSlot]
  by_cases hin : turn.pollIn j
  · rw [if_pos hin]
    rcases turn.received j s.server with ⟨result, server⟩
    by_cases hresult : result < 0
    · simp only [hresult, if_true]
      exact Or.inr ⟨hin, rfl⟩
    · simp only [hresult, if_false]
      exact Or.inl trivial
  · rw [if_neg hin]
    exact Or.inl rfl

lemma serveSlots_slots (turn : Turn δ) (s : PollServer δ) (order : List (Fin maxSockets)) :
    ((serveSlots turn s order).1.map SlotEvent.slot).Sublist (order.filter turn.pollIn) := by
  induction order generalizing s with
  | nil => exact List.Sublist.refl _
  | cons j order ih =>
    rw [serveSlots]
    simp only [List.map_append]
    have hrest := ih (serveSlot turn s j).2
    rcases serveSlot_slots turn s j with hnone | ⟨hin, hone⟩
    · rw [hnone, List.map_nil, List.nil_append]
      exact hrest.trans ((List.sublist_cons_self j order).filter _)
    · rw [hone, List.singleton_append, List.filter_cons_of_pos hin]
      exact hrest.cons_cons j

lemma serveListening_slots (turn : Turn δ) (slots : Slots) :
    (serveListening turn slots).1 = [] ∨
      ∃ j, (serveListening turn slots).1.map SlotEvent.slot = [j] ∧
        slots.connections j = -1 := by
  rw [serveListening]
  by_cases hready : turn.Listens slots
  · rw [if_pos hready, acceptClient]
    cases hfind : findFreeConnection slots.connections with
    | none => exact Or.inl rfl
    | some j =>
      by_cases hpos : 0 < turn.accepted
      · simp only [hpos, if_true]
        exact Or.inr ⟨j, rfl, (findFreeConnection_some hfind).2⟩
      · simp only [hpos, if_false]
        exact Or.inl trivial
  · rw [if_neg hready]
    exact Or.inl rfl

/-- An iteration changes a slot at most once. -/
lemma pollIteration_once (h : turn.Possible s.slots) :
    ((pollIteration turn s).1.map SlotEvent.slot).Nodup := by
  rw [pollIteration]
  by_cases hresult : 0 < turn.result
  · rw [if_pos hresult]
    have hserved := serveSlots_slots turn ⟨(serveListening turn s.slots).2, s.server⟩ clientSlots
    have honce : ((serveSlots turn ⟨(serveListening turn s.slots).2, s.server⟩
        clientSlots).1.map SlotEvent.slot).Nodup := hserved.nodup (clientSlots_nodup.filter _)
    rcases serveListening_slots turn s.slots with hnone | ⟨j, hone, hfree⟩
    · by_cases hgo : 0 < turn.resultLeft s.slots
      · simpa only [hgo, if_true, hnone, List.nil_append] using honce
      · simp only [hgo, if_false, hnone, List.append_nil, List.map_nil, List.nodup_nil]
    · by_cases hgo : 0 < turn.resultLeft s.slots
      · simp only [hgo, if_true, List.map_append, hone, List.singleton_append, List.nodup_cons]
        refine ⟨fun hmem => ?_, honce⟩
        have hin : turn.pollIn j := (List.mem_filter.mp (hserved.subset hmem)).2
        exact h.polled j hin hfree
      · simp only [hgo, if_false, List.append_nil, hone, List.nodup_singleton]
  · rw [if_neg hresult]
    exact List.nodup_nil

lemma PollServer.Iterates.changes (h : s.Iterates events s') :
    s.slots.Changes events s'.slots ∧ (events.map SlotEvent.slot).Nodup := by
  obtain ⟨turn, hpossible, hturn⟩ := h
  have hchanges := pollIteration_changes hpossible
  have honce := pollIteration_once hpossible
  rw [hturn] at hchanges honce
  exact ⟨hchanges, honce⟩

lemma PollServer.Iterates.accepts (h : s.Iterates events s') {j : Fin maxSockets} {fd : ℤ}
    (hmem : SlotEvent.accepted j fd ∈ events) :
    s.slots.connections j = -1 ∧ s'.slots.connections j = fd := by
  obtain ⟨hchanges, honce⟩ := h.changes
  have hsame : ∀ event ∈ events, event.slot = j → event = .accepted j fd := by
    intro event hevent hslot
    exact List.inj_on_of_nodup_map honce hevent hmem hslot
  rcases hchanges.slot_cases honce j with ⟨hnone, -⟩ | ⟨fd', hmem', hfree, hfd⟩ | ⟨hmem', -⟩
  · exact absurd rfl (hnone _ hmem)
  · have heq := hsame _ hmem' rfl
    simp only [SlotEvent.accepted.injEq, true_and] at heq
    exact ⟨hfree, hfd.trans heq⟩
  · exact absurd (hsame _ hmem' rfl) (by simp)

lemma PollServer.Iterates.stays (h : s.Iterates events s') {j : Fin maxSockets}
    (hused : s.slots.connections j ≠ -1) :
    SlotEvent.closed j (s.slots.connections j) ∈ events ∧ s'.slots.connections j = -1 ∨
      s'.slots.connections j = s.slots.connections j := by
  obtain ⟨hchanges, honce⟩ := h.changes
  rcases hchanges.slot_cases honce j with ⟨-, hsame⟩ | ⟨fd, -, hfree, -⟩ | ⟨hmem, -, hclosed⟩
  · exact Or.inr hsame
  · exact absurd hfree hused
  · exact Or.inl ⟨hmem, hclosed⟩

lemma stays_of_trace {steps : List (List SlotEvent × PollServer δ)}
    (h : Machine.Trace PollServer.Iterates s steps) {j : Fin maxSockets}
    (hused : s.slots.connections j ≠ -1) : StaysUntilClosed j (s.slots.connections j) steps := by
  induction h with
  | nil => trivial
  | cons h _ ih =>
    rw [StaysUntilClosed]
    rcases h.stays hused with hclosed | hsame
    · exact Or.inl hclosed
    · rw [hsame] at ih
      exact Or.inr ⟨hsame, ih hused⟩

end

lemma pollStart_kept (listeningSocket stdin : ℤ) (server : Server δ) :
    (pollStart listeningSocket stdin server).slots.Kept listeningSocket stdin := by
  have hfree : ∀ j : Fin maxSockets, nPosNotFree ≤ j.val →
      (pollStart listeningSocket stdin server).slots.connections j = -1 := by
    intro j hj
    rw [pollStart]
    simp only
    rw [Function.update_of_ne (ne_of_client (by decide) hj).symm,
      Function.update_of_ne (ne_of_client (by decide) hj).symm]
  constructor
  · have hempty : (pollStart listeningSocket stdin server).slots.occupied = ∅ := by
      apply Finset.eq_empty_of_forall_notMem
      intro j hj
      obtain ⟨hslot, hused⟩ := Slots.mem_occupied.mp hj
      exact hused (hfree j hslot)
    rw [hempty]
    rfl
  · have hne : listeningSocketPos ≠ stdinPos := by decide
    simp [pollStart, hne]
  · simp [pollStart]
  · intro i j hj hused
    exact absurd (hfree j hj) hused

lemma Slots.Kept.unshared_all {listeningSocket stdin : ℤ} {slots : Slots}
    (h : slots.Kept listeningSocket stdin) (hne : listeningSocket ≠ stdin) {i j : Fin maxSockets}
    (hused : slots.connections j ≠ -1) (hshared : slots.connections i = slots.connections j) :
    i = j := by
  by_cases hj : nPosNotFree ≤ j.val
  · exact h.unshared i j hj hused hshared
  · by_cases hi : nPosNotFree ≤ i.val
    · exact (h.unshared j i hi (hshared ▸ hused) hshared.symm).symm
    · have hfirst : ∀ k : Fin maxSockets, ¬nPosNotFree ≤ k.val →
          k = listeningSocketPos ∨ k = stdinPos := by decide
      rcases hfirst i hi with rfl | rfl <;> rcases hfirst j hj with rfl | rfl
      · rfl
      · rw [h.listening, h.stdin] at hshared
        exact absurd hshared hne
      · rw [h.listening, h.stdin] at hshared
        exact absurd hshared.symm hne
      · rfl

/-- The law of the slots, in every state that the loop reaches. -/
theorem pollLoop_lawful (listeningSocket stdin : ℤ) (server : Server δ) {s : PollServer δ}
    (hrun : Relation.ReflTransGen (fun s s' => ∃ events, PollServer.Iterates s events s')
      (pollStart listeningSocket stdin server) s) : s.Lawful listeningSocket stdin := by
  have hkept : s.slots.Kept listeningSocket stdin := by
    apply Machine.reachable_invariant (fun s : PollServer δ =>
      s.slots.Kept listeningSocket stdin) _ (pollStart_kept listeningSocket stdin server) hrun
    rintro s s' hs ⟨events, hstep⟩
    exact hstep.changes.1.kept hs
  have hbound := s.slots.occupied_card_le
  constructor
  · exact hkept
  · rw [hkept.counted]
    exact ⟨Int.natCast_nonneg _, Int.ofNat_le.mpr hbound⟩
  · exact fun hne i j hused hshared => hkept.unshared_all hne hused hshared
  · exact fun events s' hstep j fd hmem => hstep.accepts hmem
  · exact fun steps htrace j hused => stays_of_trace htrace hused

/-- A client comes and goes: slot 2 holds descriptor 5 for one iteration. -/
theorem pollLoop_lawful_client : (pollStart 3 0 emptyServer).Lawful 3 0 ∧
    ∃ s s' : PollServer Unit, (s.Lawful 3 0 ∧ s.slots.numberClients = 1) ∧
      s.Iterates [.closed ⟨2, by decide⟩ 5] s' ∧ s'.Lawful 3 0 ∧ s'.slots.numberClients = 0 := by
  let comes : Turn Unit := ⟨1, fun j => j = listeningSocketPos, 5, fun _ server => (0, server)⟩
  let goes : Turn Unit := ⟨1, fun j => j.val = 2, -1, fun _ server => (-1, server)⟩
  have hcomes : comes.Possible (pollStart 3 0 emptyServer).slots := by
    constructor
    · intro j hj
      simp only [comes, decide_eq_true_eq] at hj
      subst hj
      decide
    · exact Or.inr ⟨by decide, by decide⟩
  let s := (pollIteration comes (pollStart 3 0 emptyServer)).2
  have hfirst : (pollStart 3 0 emptyServer).Iterates
      (pollIteration comes (pollStart 3 0 emptyServer)).1 s := ⟨comes, hcomes, rfl⟩
  have hgoes : goes.Possible s.slots := by
    constructor
    · intro j hj
      simp only [goes, decide_eq_true_eq] at hj
      obtain rfl : j = ⟨2, by decide⟩ := Fin.ext hj
      decide
    · exact Or.inl rfl
  have hevents : (pollIteration goes s).1 = [.closed ⟨2, by decide⟩ 5] := by decide
  have hsecond : s.Iterates [.closed ⟨2, by decide⟩ 5] (pollIteration goes s).2 :=
    ⟨goes, hgoes, by rw [← hevents]⟩
  have hrun := Relation.ReflTransGen.single
    (r := fun s s' => ∃ events, PollServer.Iterates s events s') ⟨_, hfirst⟩
  exact ⟨pollLoop_lawful 3 0 emptyServer .refl, s, _,
    ⟨pollLoop_lawful 3 0 emptyServer hrun, by decide⟩, hsecond,
    pollLoop_lawful 3 0 emptyServer (hrun.tail ⟨_, hsecond⟩), by decide⟩

end RemoteTable
