import RemoteTable.KeyArrays
import RemoteTable.BucketIndex
import RemoteTable.StateTransfer

/-!
# The layout of a table

What holds of the buckets and the counter after any calls, and that nothing of the calls but
the contents they lead to is left in the layout.
-/

namespace RemoteTable
open KeyedList

variable {table table' : TableT} {n : ℤ} {m : KeyMap}

/-! ### The invariants of the structure -/

/-- The buckets and the counter of a table with `n` rows, as `struct table_t` describes them. -/
structure TableT.LaidOut (table : TableT) (n : ℤ) : Prop where
  rows : table.HasRows n
  placed : ∀ (i : ℕ) list, table.buckets[i]? = some list → ∀ e ∈ list.head, keyHash e.key n = i
  distinct : (table.entries.map EntryT.key).Nodup
  descending : ∀ list ∈ table.buckets, list.head.Pairwise (fun a b => 0 < strcmp a.key b.key)
  sizes : ∀ list ∈ table.buckets, list.size = list.head.length
  total : table.quantityEntry = (table.buckets.map ListT.size).sum
  keyCount : table.quantityEntry = (table.entries.map EntryT.key).toFinset.card

lemma TableT.Represents.laidOut (hr : table.Represents n m) : table.LaidOut n where
  rows := ⟨hr.size, hr.size ▸ hr.wellFormed.size_eq⟩
  placed := hr.size ▸ hr.wellFormed.placed
  distinct := nodup_keys_entries hr.wellFormed
  descending list hlist := by
    simp only [strcmp_pos_iff]
    exact (hr.wellFormed.bucket list hlist).descending
  sizes list hlist := (hr.wellFormed.bucket list hlist).counted
  total := hr.wellFormed.counted
  keyCount := by
    rw [List.toFinset_card_of_nodup (nodup_keys_entries hr.wellFormed), List.length_map,
      length_entries hr.wellFormed]

/-- Calls on a new table are answered, and leave a table that is laid out as it should be. -/
theorem tableCalls_laidOut (n : ℤ) (hn : 0 < n) (calls : List TableCall)
    (hk : ∀ call ∈ calls, ∀ key ∈ call.keys, 0 ≤ keyHash key n) :
    ∃ created returns table, tableCreate n = some created ∧
      Machine.run tableCall created calls = .ok (returns, table) ∧ table.LaidOut n := by
  obtain ⟨created, table, hc, hrun, hr⟩ := tableCalls_represent hn calls hk
  exact ⟨created, _, table, hc, hrun, hr.laidOut⟩

theorem tableCalls_laidOut_colliding :
    ∃ created returns table, tableCreate 2 = some created ∧
      Machine.run tableCall created collidingCalls = .ok (returns, table) ∧ table.LaidOut 2 :=
  tableCalls_laidOut 2 (by decide) collidingCalls (by decide)

/-! ### The layout is a function of the contents -/

/-- A bucket holds the pairs of the contents whose key has its index as hash. -/
lemma mem_bucket_iff (hr : table.Represents n m) {i : ℕ} {list : ListT}
    (hi : table.buckets[i]? = some list) (e : EntryT) :
    e ∈ list.head ↔ keyHash e.key n = i ∧ m.lookup e.key = some e.value := by
  have hw := hr.wellFormed
  have hdesc := (hw.bucket list (List.mem_of_getElem? hi)).descending
  have hlook : keyHash e.key n = i →
      m.lookup e.key = (lookupKey EntryT.key e.key list.head).map EntryT.value := by
    intro hhash
    rw [← hr.contents, lookup_contents_bucket hw, hr.size, hhash, if_pos (Int.natCast_nonneg i),
      Int.toNat_natCast, hi, Option.bind_some, listGet_eq]
  constructor
  · intro he
    have hhash : keyHash e.key n = i := hr.size ▸ hw.placed i list hi e he
    rw [hlook hhash, lookup_of_mem hdesc he]
    exact ⟨hhash, rfl⟩
  · rintro ⟨hhash, hm⟩
    rw [hlook hhash] at hm
    obtain ⟨e', hget, hvalue⟩ := Option.map_eq_some_iff.mp hm
    have hsame : e' = e := EntryT.ext (key_of_lookup hget) hvalue
    exact hsame ▸ mem_of_lookup hget

/-- Two tables with the same number of rows that store the same map are the same table. -/
theorem TableT.Represents.unique (hr : table.Represents n m) (hr' : table'.Represents n m) :
    table = table' := by
  have hlen : table.buckets.length = table'.buckets.length := by
    have h := hr.wellFormed.size_eq
    have h' := hr'.wellFormed.size_eq
    rw [hr.size] at h
    rw [hr'.size] at h'
    omega
  have hbuckets : table.buckets = table'.buckets := by
    apply List.ext_getElem hlen
    intro i hi hi'
    have hget := List.getElem?_eq_getElem hi
    have hget' := List.getElem?_eq_getElem hi'
    have hwf := hr.wellFormed.bucket _ (List.getElem_mem hi)
    have hwf' := hr'.wellFormed.bucket _ (List.getElem_mem hi')
    have hhead : table.buckets[i].head = table'.buckets[i].head := by
      apply eq_of_mem_iff hwf.descending hwf'.descending
      intro e
      rw [mem_bucket_iff hr hget, mem_bucket_iff hr' hget']
    apply ListT.ext
    · rw [hwf.counted, hwf'.counted, hhead]
    · exact hhead
  apply TableT.ext hbuckets (hr.size.trans hr'.size.symm)
  rw [hr.wellFormed.counted, hr'.wellFormed.counted, hbuckets]

/-! ### Tables rebuilt from a listing -/

/-- A put of every pair, in the order of the listing. -/
def rebuildCalls (table : TableT) : List TableCall :=
  table.entries.map (fun e => .put e.key e.value)

lemma lookup_answers_puts {es : List EntryT} (hnodup : (es.map EntryT.key).Nodup)
    (hnew : ∀ e ∈ es, e.key ∉ m) (key : CString) :
    (Machine.answers mapCall m (es.map (fun e => .put e.key e.value))).2.lookup key =
      ((lookupKey EntryT.key key es).map EntryT.value).or (m.lookup key) := by
  induction es generalizing m with
  | nil => rfl
  | cons e es ih =>
    rw [List.map_cons, List.nodup_cons] at hnodup
    have hfresh := hnew e List.mem_cons_self
    have hnew' : ∀ e' ∈ es, e'.key ∉ m.insert e.key e.value := by
      intro e' he' hin
      rcases Finmap.mem_insert.mp hin with heq | hin
      · exact hnodup.1 (heq ▸ List.mem_map_of_mem he')
      · exact hnew e' (List.mem_cons_of_mem e he') hin
    have hstep : (Machine.answers mapCall m
        ((e :: es).map (fun e => .put e.key e.value))).2 =
        (Machine.answers mapCall (m.insert e.key e.value)
          (es.map (fun e => .put e.key e.value))).2 := by
      simp only [List.map_cons, Machine.answers, mapCall, mapPut, if_neg hfresh]
    rw [hstep, ih hnodup.2 hnew', lookup_cons]
    by_cases hkey : e.key = key
    · have hnone : lookupKey EntryT.key key es = none := by
        rw [lookup_eq_none]
        intro e' he' heq
        exact hnodup.1 (hkey.trans heq.symm ▸ List.mem_map_of_mem he')
      rw [if_pos hkey, hnone, ← hkey, Finmap.lookup_insert]
      rfl
    · rw [if_neg hkey, Finmap.lookup_insert_of_ne _ (Ne.symm hkey)]

lemma hash_of_mem_entries (hr : table.Represents n m) {e : EntryT} (he : e ∈ table.entries) :
    0 ≤ keyHash e.key n := by
  obtain ⟨b, hb, he⟩ := List.mem_flatten.mp he
  obtain ⟨i, hi⟩ := List.mem_iff_getElem?.mp hb
  have := hr.wellFormed.placed_head i b hi e he
  rw [hr.size] at this
  omega

/-- A put of every pair of a table, into a new one with as many rows, makes the same table. -/
theorem rebuildCalls_run (hr : table.Represents n m) :
    ∃ created returns, tableCreate n = some created ∧
      Machine.run tableCall created (rebuildCalls table) = .ok (returns, table) := by
  have hn : 0 < n := hr.size ▸ hr.wellFormed.size_pos
  have hk : ∀ call ∈ rebuildCalls table, ∀ key ∈ call.keys, 0 ≤ keyHash key n := by
    intro call hcall key hkey
    obtain ⟨e, he, rfl⟩ := List.mem_map.mp hcall
    rw [List.mem_singleton.mp hkey]
    exact hash_of_mem_entries hr he
  obtain ⟨created, rebuilt, hc, hrun, hr'⟩ := tableCalls_represent hn (rebuildCalls table) hk
  have hcontents : (Machine.answers mapCall ∅ (rebuildCalls table)).2 = m := by
    apply Finmap.ext_lookup
    intro key
    rw [rebuildCalls, lookup_answers_puts (nodup_keys_entries hr.wellFormed)
      (fun _ _ => Finmap.notMem_empty), Finmap.lookup_empty, Option.or_none, ← lookup_contents,
      hr.contents]
  rw [hcontents] at hr'
  rw [hr'.unique hr] at hrun
  exact ⟨created, _, hc, hrun⟩

/-- A server that joins with as many rows ends with the table of the other one. -/
theorem updateState_rebuilds {σ δ : Type} (net : Net σ δ) {remote : Server δ} (world : σ)
    {backup : TableT} {pointerLow : Content → Int32} (hremote : remote.tabela.Reachable n)
    (hbackup : backup.Reachable n) (hempty : backup.contents = ∅)
    (ht : remote.tabela.Transferable) (hptr : ∀ content, pointerLow content ≠ 0) :
    updateState (peerNet net) pointerLow (some ()) backup (remote, world) =
      .ok (0, remote.tabela, (remote, world)) := by
  have hr := hremote.represents
  have hhash : ∀ key ∈ remote.tabela.contents, 0 ≤ keyHash key n ∧ 0 ≤ keyHash key n := by
    intro key hkey
    rw [← Finmap.mem_keys, mem_keys_contents] at hkey
    obtain ⟨e, he, rfl⟩ := List.mem_map.mp hkey
    exact ⟨hash_of_mem_entries hr he, hash_of_mem_entries hr he⟩
  obtain ⟨copied, hrun, hc⟩ := updateState_represents net world hremote hbackup hempty ht hhash hptr
  rw [hrun, hc.unique hr]

/-! ### What a listing sends -/

/-- The bytes of the reply to OC_GET "!". -/
def listingBytes (tabela : TableT) : Except Fault (List UInt8 × ℤ) := do
  match ← invoke tabela ⟨ocGet, .key bang⟩ with
  | (.unset, _) => throw .uninitialised
  | (.message reply, _) => messageToBuffer (some reply)

/-- Equal contents leave nothing to tell two tables apart: neither their structure, nor their
listing and the bytes that send it, and puts in the order of one listing make the other. -/
theorem layout_of_contents (h : table.Reachable n) (h' : table'.Reachable n)
    (hsame : table.contents = table'.contents) :
    table = table' ∧ tableGetKeys table = tableGetKeys table' ∧
      tableKeyArray table = tableKeyArray table' ∧ listingBytes table = listingBytes table' ∧
      ∃ created returns, tableCreate n = some created ∧
        Machine.run tableCall created (rebuildCalls table) = .ok (returns, table') := by
  have hr := h.represents
  have hequal : table = table' := hr.unique (hsame ▸ h'.represents)
  subst hequal
  exact ⟨rfl, rfl, rfl, rfl, rebuildCalls_run hr⟩

/-- Two keys of one bucket, put in either order. -/
theorem layout_of_contents_colliding :
    let a : EntryT := ⟨.ofBytes [97], ⟨[4], by decide, by decide⟩⟩
    let c : EntryT := ⟨.ofBytes [99], ⟨[2, 3], by decide, by decide⟩⟩
    let table : TableT := ⟨[listCreate, (listAdd (listAdd listCreate a).2 c).2], 2, 2⟩
    let table' : TableT := ⟨[listCreate, (listAdd (listAdd listCreate c).2 a).2], 2, 2⟩
    table = table' ∧ tableGetKeys table = tableGetKeys table' ∧
      tableKeyArray table = tableKeyArray table' ∧ listingBytes table = listingBytes table' ∧
      ∃ created returns, tableCreate 2 = some created ∧
        Machine.run tableCall created (rebuildCalls table) = .ok (returns, table') := by
  intro a c table table'
  have h : table.Reachable 2 :=
    ⟨_, [.put a.key a.value, .put c.key c.value], [.code 0, .code 0], rfl, by decide, by decide⟩
  have h' : table'.Reachable 2 :=
    ⟨_, [.put c.key c.value, .put a.key a.value], [.code 0, .code 0], rfl, by decide, by decide⟩
  have hsame : table.contents = table'.contents := rfl
  exact layout_of_contents h h' hsame

end RemoteTable
