import RemoteTable.EntryCopies

/-!
# Tables in memory

The places of the nodes that a table holds, what its reads return, and how a node is added to
a table or the value of a node replaced.
-/

namespace RemoteTable.Allocation
open Memory KeyedList

/-- A node with its entry. -/
structure Stored where
  node : ℕ
  entry : ℕ
  pair : Pair
  value : DataT
  accepted : pair.accepted = some value

structure Stored.At (s : Stored) (h : Heap Block) : Prop where
  node : h.cells s.node = some (.node (some s.entry))
  entry : EntryAt h s.entry s.pair

def Stored.key (s : Stored) : CString := s.pair.text

def Stored.held (s : Stored) : EntryT := ⟨s.key, s.value⟩

def Stored.blocks (s : Stored) : List ℕ := s.node :: s.entry :: s.pair.blocks

structure StoredList where
  size : ℤ
  nodes : List Stored

def StoredList.heap (list : StoredList) : HeapList := ⟨list.size, list.nodes.map Stored.node⟩

def StoredList.list (list : StoredList) : ListT := ⟨list.size, list.nodes.map Stored.held⟩

structure StoredTable where
  buckets : List StoredList
  size : ℤ
  quantityEntry : ℤ

def StoredTable.heap (g : StoredTable) : HeapTable :=
  ⟨g.buckets.map StoredList.heap, g.size, g.quantityEntry⟩

def StoredTable.table (g : StoredTable) : TableT :=
  ⟨g.buckets.map StoredList.list, g.size, g.quantityEntry⟩

def StoredTable.nodes (g : StoredTable) : List Stored := g.buckets.flatMap StoredList.nodes

def StoredTable.blocks (g : StoredTable) : List ℕ := g.nodes.flatMap Stored.blocks

structure StoredTable.At (g : StoredTable) (h : Heap Block) : Prop where
  nodes : ∀ s ∈ g.nodes, s.At h
  distinct : g.blocks.Nodup

/-- A table of `n` buckets that stores `m` in blocks of its own, none of them in `others`. -/
def TableAt (h : Heap Block) (table : HeapTable) (n : ℤ) (m : KeyMap) (others : List ℕ) : Prop :=
  ∃ g : StoredTable, g.heap = table ∧ g.table.Represents n m ∧ g.At h ∧
    ∀ p ∈ others, p ∉ g.blocks

section
variable {h h' : Heap Block} {s : Stored} {g : StoredTable} {n : ℤ} {m : KeyMap} {k p : ℕ}

/-! ### Nodes -/

lemma Stored.At.live (hs : s.At h) (hp : p ∈ s.blocks) : h.cells p ≠ none := by
  rcases List.mem_cons.mp hp with rfl | hp
  · simp [hs.node]
  · exact hs.entry.live hp

lemma Stored.At.of_cells (hs : s.At h) (hcells : ∀ p ∈ s.blocks, h'.cells p = h.cells p) :
    s.At h' := by
  refine ⟨?_, ?_, hs.entry.pair.of_cells (fun p hp => hcells p (by simp [Stored.blocks, hp]))⟩
  · rw [hcells _ (by simp [Stored.blocks])]
    exact hs.node
  · rw [hcells _ (by simp [Stored.blocks])]
    exact hs.entry.entry

/-- Blocks with different contents are different blocks. -/
lemma Stored.At.nodup (hs : s.At h) : s.blocks.Nodup := by
  have hcontents : (s.blocks.map h.cells).Nodup := by
    obtain ⟨⟨b, hb⟩, -⟩ := accepted_eq_some s.accepted
    simp only [Stored.blocks, Pair.blocks, hb, Option.toList_some, List.map_cons, List.map_nil,
      hs.node, hs.entry.entry, hs.entry.pair.key, hs.entry.pair.value, hs.entry.pair.bytes b hb]
    simp
  exact hcontents.of_map

lemma nodeKey_run (hs : s.At h) : nodeKey s.node h = .ok (s.key, h) := by
  rw [nodeKey, bind_of_ok (readNode_run hs.node), bind_of_ok (readEntry_run hs.entry.entry)]
  exact readString_run hs.entry.pair.key

/-! ### Lists -/

lemma key_held (s : Stored) : s.held.key = s.key := rfl

lemma lookup_list (key : CString) (nodes : List Stored) :
    lookupKey EntryT.key key (nodes.map Stored.held) =
      (lookupKey Stored.key key nodes).map Stored.held :=
  lookup_map key_held key nodes

lemma listGet_list (list : StoredList) (key : CString) :
    listGet list.list key = (lookupKey Stored.key key list.nodes).map Stored.held := by
  rw [listGet_eq]
  exact lookup_list key list.nodes

lemma listGetLoop_run (key : CString) {nodes : List Stored} (hnodes : ∀ s ∈ nodes, s.At h) :
    listGetLoop key (nodes.map Stored.node) h =
      .ok ((lookupKey Stored.key key nodes).map Stored.entry, h) := by
  induction nodes with
  | nil => rfl
  | cons s nodes ih =>
    have hs := hnodes s List.mem_cons_self
    rw [List.map_cons, listGetLoop, bind_of_ok (nodeKey_run hs), lookup_cons]
    simp only [strcmp_eq_zero_iff]
    by_cases hkey : s.key = key
    · rw [if_pos hkey, if_pos hkey, readNode_run hs.node]
      rfl
    · rw [if_neg hkey, if_neg hkey]
      exact ih (fun x hx => hnodes x (List.mem_cons_of_mem _ hx))

/-- The loop of `list_add` with a key that no node has: the walk is that of
`RemoteTable.listAddLoop`, and the blocks are only read. -/
lemma listAddLoop_run (size : ℤ) {new : Stored} (entry : Option ℕ) (front : List Stored)
    (current : Stored) (rest : List Stored) (hnew : new.At h)
    (hnodes : ∀ s ∈ current :: rest, s.At h) (hd : Descending Stored.key (current :: rest))
    (hfront : front ≠ [] → new.key ≤ current.key)
    (habsent : lookupKey Stored.key new.key (current :: rest) = none) :
    listAddLoop size new.node entry (front.map Stored.node)
        ((current :: rest).map Stored.node) h =
      .ok ((0, ⟨size + 1,
        (front ++ insertKeyed Stored.key new (current :: rest)).map Stored.node⟩), h) := by
  induction rest generalizing front current with
  | nil =>
    have heq : current.key ≠ new.key := lookup_eq_none.mp habsent current List.mem_cons_self
    rw [List.map_cons, listAddLoop, bind_of_ok (nodeKey_run (hnodes current List.mem_cons_self)),
      bind_of_ok (nodeKey_run hnew)]
    simp only [strcmp_eq_zero_iff, strcmp_neg_iff, insertKeyed, if_neg heq, List.map_nil]
    by_cases hlt : current.key < new.key
    · have hnil : front = [] := by
        by_contra hne
        exact absurd (hfront hne) (not_le.mpr hlt)
      simp only [if_pos hlt, hnil, pure_run]
      rfl
    · simp only [if_neg hlt, pure_run, List.map_append, List.map_cons, List.map_nil]
  | cons next rest ih =>
    obtain ⟨hcur, htail⟩ := descending_cons.mp hd
    have heq : current.key ≠ new.key := lookup_eq_none.mp habsent current List.mem_cons_self
    have hnext := hnodes next (List.mem_cons_of_mem _ List.mem_cons_self)
    have habsent' : lookupKey Stored.key new.key (next :: rest) = none := by
      rwa [lookup_cons, if_neg heq] at habsent
    rw [List.map_cons, listAddLoop, bind_of_ok (nodeKey_run (hnodes current List.mem_cons_self)),
      bind_of_ok (nodeKey_run hnew)]
    simp only [strcmp_eq_zero_iff, strcmp_neg_iff, strcmp_pos_iff, if_neg heq, List.map_cons]
    by_cases hlt : current.key < new.key
    · have hnil : front = [] := by
        by_contra hne
        exact absurd (hfront hne) (not_le.mpr hlt)
      simp only [if_pos hlt, hnil, pure_run, insertKeyed, if_neg heq]
      rfl
    · have hgt : new.key < current.key := lt_of_le_of_ne (not_lt.mp hlt) (Ne.symm heq)
      rw [if_neg hlt, bind_of_ok (nodeKey_run hnext)]
      by_cases hbelow : next.key < new.key
      · simp only [hgt, hbelow, and_self, if_true, pure_run, insertKeyed, if_neg heq, if_neg hlt,
          if_neg hbelow.ne, List.map_append, List.map_cons]
      · rw [if_neg (fun hboth => hbelow hboth.2)]
        have hloop := ih (front ++ [current]) next
          (fun x hx => hnodes x (List.mem_cons_of_mem _ hx)) htail
          (fun _ => not_lt.mp hbelow) habsent'
        rw [List.map_append, List.map_cons, List.map_nil, List.map_cons] at hloop
        rw [hloop, insert_of_lt _ hgt, List.append_assoc]
        rfl

/-- The loop of `list_add` ends at a node with 0, or goes on to the next node. -/
lemma listAddLoop_cases {size : ℤ} {newNode : ℕ} {entry : Option ℕ} {front rest : List ℕ}
    {current : ℕ} {r : ℤ × HeapList}
    (hrun : listAddLoop size newNode entry front (current :: rest) h = .ok (r, h')) :
    r.1 = 0 ∨ ∃ next rest' h₁, rest = next :: rest' ∧
      listAddLoop size newNode entry (front ++ [current]) rest h₁ = .ok (r, h') := by
  rw [listAddLoop.eq_def] at hrun
  obtain ⟨key, h₁, -, hrun⟩ := bind_inv hrun
  obtain ⟨newKey, h₂, -, hrun⟩ := bind_inv hrun
  by_cases heq : strcmp key newKey = 0
  · rw [if_pos heq] at hrun
    obtain ⟨_, _, -, hrun⟩ := bind_inv hrun
    obtain ⟨_, _, -, hrun⟩ := bind_inv hrun
    obtain ⟨_, _, -, hrun⟩ := bind_inv hrun
    obtain ⟨_, _, -, hrun⟩ := bind_inv hrun
    obtain ⟨_, _, -, hrun⟩ := bind_inv hrun
    cases hrun
    exact Or.inl rfl
  · rw [if_neg heq] at hrun
    by_cases hlt : strcmp key newKey < 0
    · rw [if_pos hlt] at hrun
      cases hrun
      exact Or.inl rfl
    · rw [if_neg hlt] at hrun
      cases rest with
      | nil =>
        cases hrun
        exact Or.inl rfl
      | cons next rest =>
        obtain ⟨nextKey, h₃, -, hrun⟩ := bind_inv hrun
        split at hrun
        · cases hrun
          exact Or.inl rfl
        · exact Or.inr ⟨next, rest, h₃, rfl, hrun⟩

/-- On a list with nodes the loop of `list_add` returns 0, whatever it does. -/
lemma listAddLoop_zero {size : ℤ} {newNode : ℕ} {entry : Option ℕ} {front rest : List ℕ}
    {current : ℕ} {r : ℤ × HeapList}
    (hrun : listAddLoop size newNode entry front (current :: rest) h = .ok (r, h')) :
    r.1 = 0 := by
  induction rest generalizing front current h with
  | nil =>
    rcases listAddLoop_cases hrun with hzero | ⟨next, rest, h₁, hnil, -⟩
    · exact hzero
    · cases hnil
  | cons next rest ih =>
    rcases listAddLoop_cases hrun with hzero | ⟨_, _, h₁, -, hrest⟩
    · exact hzero
    · exact ih hrest

/-! ### Tables -/

/-- `buckets` with another list at `i`. -/
def StoredTable.setBucket (g : StoredTable) (i : ℕ) (list : StoredList) (quantity : ℤ) :
    StoredTable :=
  ⟨g.buckets.set i list, g.size, quantity⟩

/-- The nodes of the other buckets stay. -/
lemma nodes_setBucket {i : ℕ} {list : StoredList} (hb : g.buckets[i]? = some list) :
    ∃ others, g.nodes.Perm (list.nodes ++ others) ∧ ∀ list' quantity,
      (g.setBucket i list' quantity).nodes.Perm (list'.nodes ++ others) := by
  obtain ⟨hlt, hget⟩ := List.getElem?_eq_some_iff.mp hb
  have hset : ∀ list' quantity, (g.setBucket i list' quantity).nodes.Perm (list'.nodes ++
      ((g.buckets.take i).flatMap StoredList.nodes ++
        (g.buckets.drop (i + 1)).flatMap StoredList.nodes)) := by
    intro list' quantity
    simp only [StoredTable.nodes, StoredTable.setBucket, List.set_eq_take_append_cons_drop,
      if_pos hlt, List.flatMap_append, List.flatMap_cons]
    exact List.perm_append_comm_assoc _ _ _
  refine ⟨_, ?_, hset⟩
  have hself : g.setBucket i list g.quantityEntry = g := by
    rw [StoredTable.setBucket, ← hget, List.set_getElem_self]
  have hnodes := hset list g.quantityEntry
  rwa [hself] at hnodes

lemma StoredTable.At.live (hg : g.At h) (hp : p ∈ g.blocks) : h.cells p ≠ none := by
  obtain ⟨s, hs, hps⟩ := List.mem_flatMap.mp hp
  exact (hg.nodes s hs).live hps

lemma StoredTable.At.of_cells (hg : g.At h) (hcells : ∀ p ∈ g.blocks, h'.cells p = h.cells p) :
    g.At h' :=
  ⟨fun s hs => (hg.nodes s hs).of_cells
    (fun p hp => hcells p (List.mem_flatMap.mpr ⟨s, hs, hp⟩)), hg.distinct⟩

lemma StoredTable.At.of_kept (hg : g.At h) (hkept : ∀ p < h.next, h'.cells p = h.cells p) :
    g.At h' :=
  hg.of_cells (fun p hp => hkept p (Heap.lt_next (hg.live hp)))

lemma StoredTable.At.extends (hg : g.At h) (he : Extends k h h') : g.At h' := hg.of_kept he.kept

lemma exists_stored {i node : ℕ} {list : HeapList} (hget : g.heap.buckets[i]? = some list)
    (hnode : node ∈ list.head) : ∃ s ∈ g.nodes, s.node = node := by
  simp only [StoredTable.heap, List.getElem?_map] at hget
  obtain ⟨stored, hstored, rfl⟩ := Option.map_eq_some_iff.mp hget
  obtain ⟨s, hs, rfl⟩ := List.mem_map.mp hnode
  exact ⟨s, List.mem_flatMap.mpr ⟨stored, List.mem_of_getElem? hstored, hs⟩, rfl⟩

/-- A node beside nodes that share no block with it. -/
lemma StoredTable.At.of_perm {rest : List Stored} (hnodes : g.nodes.Perm (s :: rest))
    (hs : s.At h) (hrest : ∀ x ∈ rest, x.At h) (hdistinct : (rest.flatMap Stored.blocks).Nodup)
    (hdisjoint : ∀ p ∈ s.blocks, p ∉ rest.flatMap Stored.blocks) : g.At h := by
  refine ⟨fun x hx => ?_, ?_⟩
  · rcases List.mem_cons.mp (hnodes.mem_iff.mp hx) with rfl | hx
    · exact hs
    · exact hrest x hx
  · have hblocks : g.blocks.Perm (s.blocks ++ rest.flatMap Stored.blocks) :=
      hnodes.flatMap_right _
    rw [hblocks.nodup_iff, List.nodup_append']
    exact ⟨hs.nodup, hdistinct, fun p hp hrest => hdisjoint p hp hrest⟩

/-- The list behind the bucket of a key. -/
structure BucketOf (g : StoredTable) (m : KeyMap) (key : CString) (list : StoredList) : Prop where
  get : g.buckets[(keyHash key g.size).toNat]? = some list
  run : ∀ h, bucketAt g.heap (keyHash key g.size) h = .ok (list.heap, h)
  bucket : RemoteTable.bucketAt g.table (keyHash key g.size) = .ok list.list
  wellFormed : list.list.WellFormed
  lookup : m.lookup key = (lookupKey Stored.key key list.nodes).map Stored.value

lemma exists_bucketOf (hr : g.table.Represents n m) {key : CString} (hk : 0 ≤ keyHash key n) :
    ∃ list, BucketOf g m key list := by
  obtain ⟨bucket, hb, hw, hlook, -⟩ := hr.exists_bucketAt hk
  obtain ⟨hpos, hget⟩ := bucketAt_eq_ok.mp hb
  change 0 ≤ keyHash key g.size at hpos
  simp only [StoredTable.table, List.getElem?_map] at hget
  obtain ⟨list, hlist, rfl⟩ := Option.map_eq_some_iff.mp hget
  refine ⟨list, hlist, fun h => ?_, hb, hw, ?_⟩
  · have hheap : g.heap.buckets[(keyHash key g.size).toNat]? = some list.heap := by
      simp only [StoredTable.heap, List.getElem?_map, hlist, Option.map_some]
    rw [bucketAt, if_neg (not_lt.mpr hpos), hheap]
    rfl
  · rw [hlook, listGet_list, Option.map_map]
    rfl

lemma BucketOf.mem {key : CString} {list : StoredList} (hb : BucketOf g m key list)
    (hs : s ∈ list.nodes) : s ∈ g.nodes :=
  List.mem_flatMap.mpr ⟨list, List.mem_of_getElem? hb.get, hs⟩

lemma BucketOf.lookup_none {key : CString} {list : StoredList} (hb : BucketOf g m key list)
    (hnot : key ∉ m) : lookupKey Stored.key key list.nodes = none := by
  have hnone := Finmap.lookup_eq_none.mpr hnot
  rwa [hb.lookup, Option.map_eq_none_iff] at hnone

lemma BucketOf.lookup_some {key : CString} {list : StoredList} (hb : BucketOf g m key list)
    (hmem : key ∈ m) : ∃ s ∈ list.nodes, s.key = key ∧
      lookupKey Stored.key key list.nodes = some s := by
  cases hlook : lookupKey Stored.key key list.nodes with
  | none =>
    have hnone := hb.lookup
    rw [hlook, Option.map_none, Finmap.lookup_eq_none] at hnone
    exact absurd hmem hnone
  | some s => exact ⟨s, mem_of_lookup hlook, key_of_lookup hlook, rfl⟩

/-! ### Reads of a table -/

section
variable {key : ℕ} {text : CString}

lemma tableGet_started {list : StoredList} (hg : g.At h) (hb : BucketOf g m text list)
    (hkey : h.cells key = some (.string text)) :
    tableGet g.heap (some key) h = (do
      match (lookupKey Stored.key text list.nodes).map Stored.entry with
      | none => pure none
      | some p => do
        let (_, value) ← readEntry (some p)
        dataDup value : Mem Block (Option ℕ)) h := by
  have hget := listGetLoop_run text (fun s hs => hg.nodes s (hb.mem hs))
  rw [tableGet, if_neg (by simp), bind_of_ok (readString_run hkey)]
  exact (bind_of_ok (hb.run h)).trans (bind_of_ok hget)

lemma tableGet_absent (hg : g.At h) (hr : g.table.Represents n m) (hk : 0 ≤ keyHash text n)
    (hkey : h.cells key = some (.string text)) (hnot : text ∉ m) :
    tableGet g.heap (some key) h = .ok (none, h) := by
  obtain ⟨list, hb⟩ := exists_bucketOf hr hk
  rw [tableGet_started hg hb hkey, hb.lookup_none hnot]
  rfl

/-- For a key of the table `table_get` is the copy of a stored value. -/
lemma tableGet_present (hg : g.At h) (hr : g.table.Represents n m) (hk : 0 ≤ keyHash text n)
    (hkey : h.cells key = some (.string text)) (hmem : text ∈ m) :
    ∃ s ∈ g.nodes, tableGet g.heap (some key) h = dataDup (some s.pair.value) h := by
  obtain ⟨list, hb⟩ := exists_bucketOf hr hk
  obtain ⟨s, hs, -, hlook⟩ := hb.lookup_some hmem
  refine ⟨s, hb.mem hs, ?_⟩
  rw [tableGet_started hg hb hkey, hlook]
  exact bind_of_ok (readEntry_run (hg.nodes s (hb.mem hs)).entry.entry)

/-- A negative hash is no index. -/
lemma bucketAt_negative {i : ℤ} (hi : i < 0) (table : HeapTable) (h : Heap Block) :
    Faults (bucketAt table i) h := by
  rw [bucketAt, if_pos hi]
  exact ⟨.outside, rfl⟩

lemma tableGet_negative (hr : g.table.Represents n m) (hk : keyHash text n < 0)
    (hkey : h.cells key = some (.string text)) : Faults (tableGet g.heap (some key)) h := by
  have hsize : g.heap.size = n := hr.size
  rw [tableGet, if_neg (by simp)]
  apply faults_of_ok (readString_run hkey)
  exact (bucketAt_negative (hsize ▸ hk) _ _).bind

lemma tableGet_extends (hg : g.At h) (hr : g.table.Represents n m)
    (hkey : h.cells key = some (.string text)) {r : Option ℕ}
    (hrun : tableGet g.heap (some key) h = .ok (r, h')) : ∃ k, Extends k h h' := by
  by_cases hk : 0 ≤ keyHash text n
  · by_cases hmem : text ∈ m
    · obtain ⟨s, hs, heq⟩ := tableGet_present hg hr hk hkey hmem
      rw [heq] at hrun
      exact dataDup_extends (hg.nodes s hs).entry.pair hrun
    · rw [tableGet_absent hg hr hk hkey hmem] at hrun
      cases hrun
      exact ⟨0, Extends.refl h⟩
  · exact absurd hrun (tableGet_negative hr (not_le.mp hk) hkey).ne_ok

end

/-! ### Changes of a table -/

/-- The table with a new node in the bucket `list` of its key. -/
def StoredTable.addNode (g : StoredTable) (list : StoredList) (new : Stored) : StoredTable :=
  g.setBucket (keyHash new.key g.size).toNat
    ⟨list.size + 1, insertKeyed Stored.key new list.nodes⟩ (g.quantityEntry + 1)

section
variable {list : StoredList} {new : Stored}

lemma addNode_nodes (hb : BucketOf g m new.key list) (hnot : new.key ∉ m) :
    (g.addNode list new).nodes.Perm (new :: g.nodes) := by
  obtain ⟨others, hnodes, hset⟩ := nodes_setBucket hb.get
  exact ((hset _ _).trans ((insert_perm (hb.lookup_none hnot)).append_right others)).trans
    (hnodes.symm.cons new)

lemma addNode_at (hg : g.At h) (hb : BucketOf g m new.key list) (hnot : new.key ∉ m)
    (hnew : new.At h) (hfresh : ∀ p ∈ new.blocks, p ∉ g.blocks) : (g.addNode list new).At h :=
  StoredTable.At.of_perm (addNode_nodes hb hnot) hnew hg.nodes hg.distinct hfresh

lemma mem_addNode_blocks (hb : BucketOf g m new.key list) (hnot : new.key ∉ m) :
    p ∈ (g.addNode list new).blocks ↔ p ∈ new.blocks ∨ p ∈ g.blocks := by
  have hblocks : (g.addNode list new).blocks.Perm (new.blocks ++ g.blocks) :=
    (addNode_nodes hb hnot).flatMap_right _
  rw [hblocks.mem_iff, List.mem_append]

lemma addNode_heap : (g.addNode list new).heap =
    ⟨g.heap.buckets.set (keyHash new.key g.size).toNat
      ⟨list.size + 1, (insertKeyed Stored.key new list.nodes).map Stored.node⟩, g.size,
      g.quantityEntry + 1⟩ := by
  simp only [StoredTable.addNode, StoredTable.setBucket, StoredTable.heap, List.map_set]
  rfl

lemma addNode_represents (hr : g.table.Represents n m) (hk : 0 ≤ keyHash new.key n)
    (hb : BucketOf g m new.key list) (hnot : new.key ∉ m) :
    (g.addNode list new).table.Represents n (m.insert new.key new.value) := by
  obtain ⟨table', hput, hrep⟩ := tablePut_refines hr hk new.value
  have hnone : m.lookup new.key = none := Finmap.lookup_eq_none.mpr hnot
  have hget : listGet list.list new.key = none := by
    rw [listGet_list, hb.lookup_none hnot]
    rfl
  have hadd := listAdd_eq hb.wellFormed new.held
  rw [key_held, if_pos hget] at hadd
  have hbucket : RemoteTable.bucketAt g.table (keyHash new.key g.table.size) = .ok list.list :=
    hb.bucket
  simp only [Stored.held] at hadd
  simp only [RemoteTable.tablePut, tableGet_refines hr hk, hnone, hbucket, hadd, Bind.bind,
    Except.bind, ne_eq, not_true_eq_false, if_false, if_true, mapPut, if_neg hnot] at hput hrep
  simp only [pure, Except.pure, Except.ok.injEq, Prod.mk.injEq] at hput
  rw [← hput.2] at hrep
  convert hrep using 1
  simp only [StoredTable.addNode, StoredTable.setBucket, StoredTable.table, RemoteTable.setBucket,
    List.map_set, StoredList.list, map_insert key_held]
  rfl

end

/-- The node with another value in its entry. -/
def Stored.withCopy (p b : ℕ) (v : DataT) (s : Stored) : Stored where
  node := s.node
  entry := s.entry
  pair := newPair s.pair.key s.pair.text p b v
  value := v
  accepted := accepted_newPair _ _ _ _ _

/-- The table with another value at a key of the bucket `list`. -/
def StoredTable.withCopy (g : StoredTable) (list : StoredList) (key : CString) (p b : ℕ)
    (v : DataT) : StoredTable :=
  g.setBucket (keyHash key g.size).toNat
    ⟨list.size, modifyKey Stored.key key (Stored.withCopy p b v) list.nodes⟩ g.quantityEntry

section
variable {list : StoredList} {key : CString} {b : ℕ} {v : DataT}

lemma withCopy_nodes (hb : BucketOf g m key list)
    (hlook : lookupKey Stored.key key list.nodes = some s) (p b : ℕ) (v : DataT) :
    ∃ rest, g.nodes.Perm (s :: rest) ∧
      (g.withCopy list key p b v).nodes.Perm (s.withCopy p b v :: rest) := by
  obtain ⟨others, hnodes, hset⟩ := nodes_setBucket hb.get
  obtain ⟨rest, hrest, hmodify⟩ := modify_perm hlook (Stored.withCopy p b v)
  exact ⟨rest ++ others, hnodes.trans (hrest.append_right others),
    (hset _ _).trans (hmodify.append_right others)⟩

lemma mem_withCopy {q : ℕ} (hq : q ∈ (s.withCopy p b v).blocks) : q ∈ s.blocks ∨ q = p ∨ q = b := by
  simp only [Stored.blocks, Stored.withCopy, Pair.blocks, newPair, Option.toList_some,
    List.mem_cons, List.not_mem_nil, or_false] at hq
  rcases hq with rfl | rfl | rfl | rfl | rfl
  · exact Or.inl List.mem_cons_self
  · exact Or.inl (by simp [Stored.blocks])
  · exact Or.inl (by simp [Stored.blocks, Pair.blocks])
  · exact Or.inr (Or.inl rfl)
  · exact Or.inr (Or.inr rfl)

/-- When only blocks of the node change, the other nodes stay. -/
lemma withCopy_at (hg : g.At h) (hb : BucketOf g m key list)
    (hlook : lookupKey Stored.key key list.nodes = some s) (hp : p ∉ g.blocks) (hb' : b ∉ g.blocks)
    (hcells : ∀ q, q ∉ s.blocks → h'.cells q = h.cells q) (hs : (s.withCopy p b v).At h') :
    (g.withCopy list key p b v).At h' ∧
      ∀ q ∈ (g.withCopy list key p b v).blocks, q ∈ g.blocks ∨ q = p ∨ q = b := by
  obtain ⟨rest, hnodes, hnodes'⟩ := withCopy_nodes hb hlook p b v
  have hblocks : g.blocks.Perm (s.blocks ++ rest.flatMap Stored.blocks) :=
    hnodes.flatMap_right _
  have hblocks' : (g.withCopy list key p b v).blocks.Perm
      ((s.withCopy p b v).blocks ++ rest.flatMap Stored.blocks) := hnodes'.flatMap_right _
  obtain ⟨-, hdistinct, hdisjoint⟩ := List.nodup_append'.mp (hblocks.nodup_iff.mp hg.distinct)
  have hrest : ∀ q ∈ rest.flatMap Stored.blocks, q ∈ g.blocks := fun q hq =>
    hblocks.mem_iff.mpr (List.mem_append_right _ hq)
  refine ⟨StoredTable.At.of_perm hnodes' hs (fun x hx => ?_) hdistinct (fun q hq hin => ?_),
    fun q hq => ?_⟩
  · have hx' : x ∈ g.nodes := hnodes.mem_iff.mpr (List.mem_cons_of_mem _ hx)
    exact (hg.nodes x hx').of_cells (fun q hq =>
      hcells q (fun hqs => hdisjoint hqs (List.mem_flatMap.mpr ⟨x, hx, hq⟩)))
  · rcases mem_withCopy hq with hqs | rfl | rfl
    · exact hdisjoint hqs hin
    · exact hp (hrest q hin)
    · exact hb' (hrest q hin)
  · rcases List.mem_append.mp (hblocks'.mem_iff.mp hq) with hq | hq
    · rcases mem_withCopy hq with hqs | hnew
      · exact Or.inl (hblocks.mem_iff.mpr (List.mem_append_left _ hqs))
      · exact Or.inr hnew
    · exact Or.inl (hrest q hq)

/-- The nodes and their entries stay where they are. -/
lemma withCopy_heap (hb : BucketOf g m key list) (p b : ℕ) (v : DataT) :
    (g.withCopy list key p b v).heap = g.heap := by
  obtain ⟨hlt, hget⟩ := List.getElem?_eq_some_iff.mp hb.get
  have hnodes : (modifyKey Stored.key key (Stored.withCopy p b v) list.nodes).map Stored.node =
      list.nodes.map Stored.node :=
    map_modify_of_fixed (f := Stored.withCopy p b v) (fun _ => rfl) _
  have hset : g.buckets.set (keyHash key g.size).toNat list = g.buckets := by
    rw [← hget, List.set_getElem_self]
  simp only [StoredTable.withCopy, StoredTable.setBucket, StoredTable.heap, List.map_set,
    StoredList.heap, hnodes]
  conv_rhs => rw [← hset, List.map_set]
  rfl

lemma withCopy_represents (hr : g.table.Represents n m) (hk : 0 ≤ keyHash key n)
    (hb : BucketOf g m key list) (hmem : key ∈ m) (p b : ℕ) (v : DataT) :
    (g.withCopy list key p b v).table.Represents n (m.insert key v) := by
  obtain ⟨table', hupdate, hrep⟩ := tableUpdate_refines hr hk v
  obtain ⟨s, -, -, hlook⟩ := hb.lookup_some hmem
  have hget : listGet list.list key = some s.held := by
    rw [listGet_list, hlook]
    rfl
  have hbucket : RemoteTable.bucketAt g.table (keyHash key g.table.size) = .ok list.list :=
    hb.bucket
  have hnodes : (modifyKey Stored.key key (Stored.withCopy p b v) list.nodes).map Stored.held =
      modifyKey EntryT.key key (EntryT.withValue v) (list.nodes.map Stored.held) :=
    map_modify key_held (fun _ => rfl) _ _
  simp only [RemoteTable.tableUpdate, hbucket, hget, Bind.bind, Except.bind, mapUpdate,
    if_pos hmem] at hupdate hrep
  simp only [pure, Except.pure, Except.ok.injEq, Prod.mk.injEq] at hupdate
  rw [← hupdate.2] at hrep
  convert hrep using 1
  simp only [StoredTable.withCopy, StoredTable.setBucket, StoredTable.table,
    RemoteTable.setBucket, List.map_set, StoredList.list, listSetValue, setValueLoop_eq, hnodes]

end

end

end RemoteTable.Allocation
