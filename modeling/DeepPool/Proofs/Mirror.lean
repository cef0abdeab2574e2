import DeepPool.Proofs.Archive
import DeepPool.Proofs.Checkpoint

/-! The tables mirror the archive. A write refines one addition to it, provided that
each known pool's part of the block is either all old or all new, and that what is new
finds the LP supply where its line left it. -/

namespace DeepPool.Indexer
open Library

def Archive.line (archive : Archive) (pubkey : String) : List DecodedEvent := (archive pubkey).getD []

section Kept
variable {Data : Type} {key : Data → EventKey} {pool : Data → Nat} {kind : DecodedEvent → Bool}
  {spec : Nat → List DecodedEvent → List Data} {archive : Archive} {events line : List DecodedEvent}
  {pubkey : String} {pools grown : Table NewPoolRow.pubkey} {table : Table key} {proposed : List Data}

/-- What one write may bring to an archive. -/
structure Delivery (archive : Archive) (events : List DecodedEvent) : Prop where
  timed : ∀ de ∈ events, de.blockTime.isSome
  distinct : (events.map DecodedEvent.key).Nodup
  owned : ∀ pubkey, ∀ de ∈ archive.line pubkey, poolPubkey de.event = pubkey
  matching : ∀ pubkey, ∀ old ∈ archive.line pubkey, ∀ de ∈ events, old.key = de.key → old = de
  whole : ∀ pubkey, (∀ de ∈ eventsOf pubkey events, de ∈ archive.line pubkey) ∨
    ∀ de ∈ eventsOf pubkey events, de ∉ archive.line pubkey

/-- How a table writes a line down: some events become rows, under their own keys. -/
structure Column (key : Data → EventKey) (kind : DecodedEvent → Bool) (spec : Nat → List DecodedEvent → List Data) :
    Prop where
  nil : ∀ poolId, spec poolId [] = []
  keys : ∀ poolId line, (spec poolId line).map key = (line.filter kind).map DecodedEvent.key

/-- The rows of one pool, in the order of their insertion. -/
def rowsOf (pool : Data → Nat) (table : Table key) (poolId : Nat) : List Data :=
  (table.rows.map Stored.data).filter (pool · = poolId)

structure Kept (pool : Data → Nat) (spec : Nat → List DecodedEvent → List Data) (archive : Archive)
    (pools : Table NewPoolRow.pubkey) (table : Table key) : Prop where
  lines : ∀ row ∈ pools.rows, rowsOf pool table row.id = spec row.id (archive.line row.data.pubkey)
  owned : ∀ stored ∈ table.rows, ∃ row ∈ pools.rows, row.id = pool stored.data

/-- What a write offers to a table. -/
structure Proposal (pool : Data → Nat) (key : Data → EventKey) (kind : DecodedEvent → Bool)
    (grown : Table NewPoolRow.pubkey) (events : List DecodedEvent) (proposed : List Data) : Prop where
  distinct : (proposed.map key).Nodup
  addressed : ∀ data ∈ proposed, ∃ row ∈ grown.rows, row.id = pool data
  keys : ∀ row ∈ grown.rows, (proposed.filter (pool · = row.id)).map key =
    ((eventsOf row.data.pubkey events).filter kind).map DecodedEvent.key

/-- New pools come on top of the known ones. -/
structure Growth (archive : Archive) (pools grown : Table NewPoolRow.pubkey) : Prop where
  keeps : ∀ row ∈ pools.rows, row ∈ grown.rows
  fresh : ∀ row ∈ grown.rows, row ∈ pools.rows ∨ archive row.data.pubkey = none

theorem Archive.add_line (added : archive.add events pubkey = some line) :
    line = archive.line pubkey ++ (eventsOf pubkey events).filter (· ∉ archive.line pubkey) := by
  unfold Archive.line
  rcases Archive.add_some added with ⟨old, known, same⟩ | ⟨unknown, same, _⟩
  · rw [known]
    exact same
  · rw [unknown, same]
    simp

theorem Kept.empty : Kept pool spec (fun _ => none) .empty (.empty : Table key) where
  lines := fun _ impossible => by cases impossible
  owned := fun _ impossible => by cases impossible

theorem Kept.before (column : Column key kind spec) (kept : Kept pool spec archive pools table)
    (growth : Growth archive pools grown) {row : Stored NewPoolRow} (member : row ∈ grown.rows) :
    rowsOf pool table row.id = spec row.id (archive.line row.data.pubkey) := by
  rcases growth.fresh row member with old | new
  · exact kept.lines row old
  · by_cases old : row ∈ pools.rows
    · exact kept.lines row old
    · rw [Archive.line, new, Option.getD_none, column.nil, rowsOf, List.filter_eq_nil_iff]
      intro data listed
      obtain ⟨stored, present, rfl⟩ := List.mem_map.mp listed
      obtain ⟨owner, known, same⟩ := kept.owned stored present
      simp only [decide_eq_true_eq]
      intro equal
      have identical := Table.id_inj (growth.keeps owner known) member (same.trans equal)
      exact old (identical ▸ known)

theorem Kept.holds (kept : Kept pool spec archive pools table) (column : Column key kind spec) {taken : EventKey}
    (holds : table.Holds taken) : ∃ row ∈ pools.rows, ∃ old ∈ archive.line row.data.pubkey, old.key = taken := by
  obtain ⟨stored, present, rfl⟩ := holds
  obtain ⟨row, member, same⟩ := kept.owned stored present
  have listed : stored.data ∈ rowsOf pool table row.id :=
    List.mem_filter.mpr ⟨List.mem_map_of_mem present, decide_eq_true same.symm⟩
  rw [kept.lines row member] at listed
  have keyed := List.mem_map_of_mem (f := key) listed
  rw [column.keys] at keyed
  obtain ⟨old, recorded, equal⟩ := List.mem_map.mp keyed
  exact ⟨row, member, old, List.mem_of_mem_filter recorded, equal⟩

theorem rowsOf_holds {poolId : Nat} {taken : EventKey} (keyed : taken ∈ (rowsOf pool table poolId).map key) :
    table.Holds taken := by
  obtain ⟨data, listed, rfl⟩ := List.mem_map.mp keyed
  obtain ⟨stored, present, rfl⟩ := List.mem_map.mp (List.mem_of_mem_filter listed)
  exact ⟨stored, present, rfl⟩

theorem Proposal.source (proposal : Proposal pool key kind grown events proposed) {row : Stored NewPoolRow}
    (member : row ∈ grown.rows) {data : Data} (offered : data ∈ proposed) (same : pool data = row.id) :
    ∃ de ∈ eventsOf row.data.pubkey events, kind de = true ∧ de.key = key data := by
  have keyed : key data ∈ (proposed.filter (pool · = row.id)).map key :=
    List.mem_map_of_mem (List.mem_filter.mpr ⟨offered, decide_eq_true same⟩)
  rw [proposal.keys row member] at keyed
  obtain ⟨de, listed, equal⟩ := List.mem_map.mp keyed
  obtain ⟨mine, records⟩ := List.mem_filter.mp listed
  exact ⟨de, mine, records, equal⟩

/-- An event that is not in its pool's line has a free key. -/
theorem Kept.free (kept : Kept pool spec archive pools table) (column : Column key kind spec)
    (delivery : Delivery archive events) {de : DecodedEvent} (member : de ∈ eventsOf pubkey events)
    (new : de ∉ archive.line pubkey) : ¬ table.Holds de.key := by
  intro holds
  obtain ⟨row, _, old, recorded, same⟩ := kept.holds column holds
  obtain ⟨delivered, mine⟩ := mem_eventsOf.mp member
  have equal := delivery.matching row.data.pubkey old recorded de delivered same
  rw [equal] at recorded
  rw [delivery.owned row.data.pubkey de recorded] at mine
  exact new (mine ▸ recorded)

/-- The insertion of a write's rows records its addition to the lines. -/
theorem Kept.insert (column : Column key kind spec) (kept : Kept pool spec archive pools table)
    (delivery : Delivery archive events) (growth : Growth archive pools grown)
    (listed : ∀ row ∈ grown.rows, ∃ line, archive.add events row.data.pubkey = some line)
    (proposal : Proposal pool key kind grown events proposed)
    (continues : ∀ row ∈ grown.rows, (∀ de ∈ eventsOf row.data.pubkey events, de ∉ archive.line row.data.pubkey) →
      spec row.id (archive.line row.data.pubkey ++ eventsOf row.data.pubkey events) =
        spec row.id (archive.line row.data.pubkey) ++ proposed.filter (pool · = row.id)) :
    Kept pool spec (archive.add events) grown (table.insert proposed).1 := by
  constructor
  · intro row member
    obtain ⟨line, added⟩ := listed row member
    have before := kept.before column growth member
    have grows : rowsOf pool (table.insert proposed).1 row.id =
        rowsOf pool table row.id ++ (proposed.filter fun data => ¬ table.Holds (key data)).filter (pool · = row.id) := by
      rw [rowsOf, Table.insert_rows, List.map_append, List.filter_append, Table.insert_data table proposal.distinct,
        rowsOf]
    rw [grows, Archive.line, added, Option.getD_some, Archive.add_line added, before]
    rcases delivery.whole row.data.pubkey with old | new
    · have taken : (proposed.filter fun data => ¬ table.Holds (key data)).filter (pool · = row.id) = [] := by
        rw [List.filter_eq_nil_iff]
        intro data kept_
        obtain ⟨offered, free⟩ := List.mem_filter.mp kept_
        rw [decide_eq_true_eq] at free ⊢
        intro same
        obtain ⟨de, mine, records, equal⟩ := proposal.source member offered same
        apply free
        have kept : key data ∈ (rowsOf pool table row.id).map key := by
          rw [before, column.keys, ← equal]
          exact List.mem_map_of_mem (List.mem_filter.mpr ⟨old de mine, records⟩)
        exact rowsOf_holds kept
      rw [filter_old old, taken, List.append_nil, List.append_nil]
    · have open_ : (proposed.filter fun data => ¬ table.Holds (key data)).filter (pool · = row.id) =
          proposed.filter (pool · = row.id) := by
        rw [List.filter_filter]
        apply List.filter_congr
        intro data offered
        by_cases same : pool data = row.id
        · obtain ⟨de, mine, _, equal⟩ := proposal.source member offered same
          have free := kept.free column delivery mine (new de mine)
          rw [equal] at free
          simp [free]
        · simp [same]
      rw [filter_new new, open_, continues row member new]
  · intro stored present
    rw [Table.insert_rows] at present
    rcases List.mem_append.mp present with old | new
    · obtain ⟨row, known, same⟩ := kept.owned stored old
      exact ⟨row, growth.keeps row known, same⟩
    · exact proposal.addressed stored.data (Table.insert_proposed new).1

end Kept

section Columns
variable {now : Int} {poolId : Nat} {de : DecodedEvent} {archive : Archive} {events : List DecodedEvent}
  {poolCache : String → Option Nat} {lpSupplyCache : Nat → Option Int} {grown : Table NewPoolRow.pubkey}

def reservesLine (poolId : Nat) (line : List DecodedEvent) : List NewReservesRow := reservesFrom 0 poolId none line
def swapLine (poolId : Nat) (line : List DecodedEvent) : List NewSwapRow := line.filterMap (swapRow 0 poolId)
def liquidityLine (poolId : Nat) (line : List DecodedEvent) :
    List NewLiquidityRow := line.filterMap (liquidityRow 0 poolId)

def recorded (_ : DecodedEvent) : Bool := true
def DecodedEvent.swaps (de : DecodedEvent) : Bool := (swapRow 0 0 de).isSome
def DecodedEvent.provides (de : DecodedEvent) : Bool := (liquidityRow 0 0 de).isSome

private theorem filter_recorded (line : List DecodedEvent) : line.filter recorded = line :=
  List.filter_eq_self.mpr fun _ _ => rfl

private theorem swapRow_key : (swapRow 0 poolId de).map NewSwapRow.key = if de.swaps then some de.key else none := by
  unfold DecodedEvent.swaps swapRow
  cases de.event <;> rfl

private theorem liquidityRow_key :
    (liquidityRow 0 poolId de).map NewLiquidityRow.key = if de.provides then some de.key else none := by
  unfold DecodedEvent.provides liquidityRow
  cases de.event <;> rfl

theorem swapLine_poolId {line : List DecodedEvent} {row : NewSwapRow} (member : row ∈ swapLine poolId line) :
    row.poolId = poolId := by
  obtain ⟨_, _, made⟩ := List.mem_filterMap.mp member
  exact swapRow_poolId made

theorem liquidityLine_poolId {line : List DecodedEvent} {row : NewLiquidityRow}
    (member : row ∈ liquidityLine poolId line) :
    row.poolId = poolId := by
  obtain ⟨_, _, made⟩ := List.mem_filterMap.mp member
  exact liquidityRow_poolId made

theorem reserves_column : Column NewReservesRow.key recorded reservesLine where
  nil := fun _ => rfl
  keys := fun _ line => by
    rw [reservesLine, reservesFrom_keys, filter_recorded]

theorem swaps_column : Column NewSwapRow.key DecodedEvent.swaps swapLine where
  nil := fun _ => rfl
  keys := fun _ line => column_keys (fun _ _ => swapRow_key) line

theorem liquidity_column : Column NewLiquidityRow.key DecodedEvent.provides liquidityLine where
  nil := fun _ => rfl
  keys := fun _ line => column_keys (fun _ _ => liquidityRow_key) line

/-- The cache of a write: it knows the pool of an event by the id of its row, and nothing else. -/
structure Addressed (poolCache : String → Option Nat) (grown : Table NewPoolRow.pubkey) (events : List DecodedEvent) :
    Prop where
  known : ∀ de ∈ events, ∀ row ∈ grown.rows,
    poolCache (poolPubkey de.event) = some row.id ↔ poolPubkey de.event = row.data.pubkey
  stored : ∀ de ∈ events, ∀ poolId, poolCache (poolPubkey de.event) = some poolId → ∃ row ∈ grown.rows, row.id = poolId

theorem reserves_proposal (addressed : Addressed poolCache grown events)
    (distinct : (events.map DecodedEvent.key).Nodup) :
    Proposal NewReservesRow.poolId NewReservesRow.key recorded grown events
      (batchesOf 0 poolCache lpSupplyCache events).reserves where
  distinct := by
    rw [batchesOf_reserves_keys]
    exact List.Nodup.sublist (List.filter_sublist.map _) distinct
  addressed := by
    intro data offered
    have listed := List.mem_map_of_mem (f := NewReservesRow.poolId) offered
    rw [batchesOf_reserves_pools] at listed
    obtain ⟨de, member, known⟩ := List.mem_filterMap.mp listed
    exact addressed.stored de member data.poolId known
  keys := by
    intro row member
    have rows := (fold_pool 0 (fun de listed => addressed.known de listed row member) ⟨lpSupplyCache, [], [],
      []⟩).1
    rw [batchesOf, rows, List.filter_nil, List.nil_append, reservesFrom_keys, filter_recorded]

section Column
variable {Row : Type} {pool : Row → Nat} {key : Row → EventKey} {row : Nat → DecodedEvent → Option Row}
  {kind : DecodedEvent → Bool}

theorem column_proposal (named : ∀ id de made, row id de = some made → pool made = id)
    (keyed : ∀ id de, (row id de).map key = if kind de then some de.key else none)
    (addressed : Addressed poolCache grown events) (distinct : (events.map DecodedEvent.key).Nodup) :
    Proposal pool key kind grown events
      (events.filterMap fun de => (poolCache (poolPubkey de.event)).bind fun id => row id de) where
  distinct := column_distinct keyed distinct
  addressed := by
    intro data offered
    obtain ⟨de, member, made⟩ := List.mem_filterMap.mp offered
    obtain ⟨id, known, found⟩ := Option.bind_eq_some_iff.mp made
    rw [named id de data found]
    exact addressed.stored de member id known
  keys := by
    intro stored member
    rw [column_pool named fun de listed => addressed.known de listed stored member, column_keys keyed]

end Column

theorem swaps_proposal (addressed : Addressed poolCache grown events) (distinct : (events.map DecodedEvent.key).Nodup) :
    Proposal NewSwapRow.poolId NewSwapRow.key DecodedEvent.swaps grown events
      (batchesOf 0 poolCache lpSupplyCache events).swaps := by
  rw [batchesOf_swaps]
  exact column_proposal (fun _ _ _ => swapRow_poolId) (fun _ _ => swapRow_key) addressed distinct

theorem liquidity_proposal (addressed : Addressed poolCache grown events)
    (distinct : (events.map DecodedEvent.key).Nodup) :
    Proposal NewLiquidityRow.poolId NewLiquidityRow.key DecodedEvent.provides grown events
      (batchesOf 0 poolCache lpSupplyCache events).liquidity := by
  rw [batchesOf_liquidity]
  exact column_proposal (fun _ _ _ => liquidityRow_poolId) (fun _ _ => liquidityRow_key) addressed distinct

end Columns

section Write
variable {env : Environment} {events : List DecodedEvent} {before after : Session} {written : Written} {archive : Archive}

/-- The tables hold the archive's lines. -/
structure Db.Mirrors (archive : Archive) (db : Db) : Prop where
  named : ∀ pubkey line, archive pubkey = some line → db.pools.Holds pubkey
  pools : ∀ row ∈ db.pools.rows, (archive.line row.data.pubkey).findSome? (poolRow 0) = some row.data
  reserves : Kept NewReservesRow.poolId reservesLine archive db.pools db.reserves
  swaps : Kept NewSwapRow.poolId swapLine archive db.pools db.swaps
  liquidity : Kept NewLiquidityRow.poolId liquidityLine archive db.pools db.liquidityEvents
  ascending : db.reserves.Ascending

/-- The caches speak of rows that exist. -/
structure Session.Tracks (session : Session) : Prop where
  cached : ∀ pubkey poolId, session.poolCache pubkey = some poolId →
    ∃ row ∈ session.db.pools.rows, row.data.pubkey = pubkey ∧ row.id = poolId
  supplied : ∀ poolId, (session.lpSupplyCache poolId).isSome → ∃ row ∈ session.db.pools.rows, row.id = poolId

private theorem Archive.known {pubkey : String} {row : NewPoolRow}
    (made : (archive.line pubkey).findSome? (poolRow 0) = some row) : ∃ line, archive pubkey = some line := by
  cases known : archive pubkey with
  | some line => exact ⟨line, rfl⟩
  | none =>
    rw [Archive.line, known] at made
    cases made

theorem Db.Mirrors.known {db : Db} (mirrors : db.Mirrors archive) {row : Stored NewPoolRow}
    (member : row ∈ db.pools.rows) :
    ∃ line, archive row.data.pubkey = some line := Archive.known (mirrors.pools row member)

theorem Ingested.growth (ingested : Ingested env events before after written) (mirrors : before.db.Mirrors archive) :
    Growth archive before.db.pools after.db.pools := by
  constructor
  · intro row member
    exact ingested.keeps_row member
  · intro row member
    rw [ingested.database.pools, Table.insert_rows] at member
    rcases List.mem_append.mp member with old | new
    · exact .inl old
    · right
      cases known : archive row.data.pubkey with
      | none => rfl
      | some line => exact absurd (mirrors.named _ line known) (Table.insert_proposed new).2

/-- A cache that names rows, and knows every stored pool of the events, finds each by its own id. -/
theorem Named.addressed {pools : Table NewPoolRow.pubkey} {poolCache : String → Option Nat}
    (named : Named pools poolCache)
    (known : ∀ de ∈ events, pools.Holds (poolPubkey de.event) → (poolCache (poolPubkey de.event)).isSome) :
    Addressed poolCache pools events := by
  constructor
  · intro de member row stored
    constructor
    · intro found
      obtain ⟨other, listed, pubkey, same⟩ := named _ _ found
      rw [← Table.id_inj listed stored same, pubkey]
    · intro pubkey
      obtain ⟨poolId, found⟩ := Option.isSome_iff_exists.mp (known de member ⟨row, stored, pubkey.symm⟩)
      obtain ⟨other, listed, named, same⟩ := named _ _ found
      rw [found, ← same, Table.key_inj listed stored (named.trans pubkey)]
  · intro de _ poolId found
    obtain ⟨row, listed, _, same⟩ := named _ _ found
    exact ⟨row, listed, same⟩

theorem Ingested.addressed (ingested : Ingested env events before after written)
    (named : Named before.db.pools before.poolCache) : Addressed after.poolCache after.db.pools events :=
  (ingested.caches named).addressed ingested.database.known

/-- A row that the write inserts is the first creation of its pool in the block. -/
theorem Ingested.pool (ingested : Ingested env events before after written) (mirrors : before.db.Mirrors archive)
    (delivery : Delivery archive events) {row : Stored NewPoolRow} (member : row ∈ after.db.pools.rows) :
    ((archive.add events).line row.data.pubkey).findSome? (poolRow 0) = some row.data := by
  rw [ingested.database.pools, Table.insert_rows] at member
  unfold Archive.line Archive.add
  rcases List.mem_append.mp member with old | new
  · obtain ⟨line, known⟩ := mirrors.known old
    have made := mirrors.pools row old
    rw [Archive.line, known, Option.getD_some] at made
    rw [known, Option.getD_some, List.findSome?_append, made, Option.some_or]
  · have first := Table.insert_first new
    have untaken := (Table.insert_proposed new).2
    rw [newPools_timed delivery.timed, newPools_find] at first
    have unknown : archive row.data.pubkey = none := by
      cases known : archive row.data.pubkey with
      | none => rfl
      | some line => exact absurd (mirrors.named _ line known) untaken
    obtain ⟨de, mine, made⟩ := List.exists_of_findSome?_eq_some first
    have creates : (eventsOf row.data.pubkey events).any DecodedEvent.creates = true := by
      rw [List.any_eq_true]
      exact ⟨de, mine, (poolRow_source made).1⟩
    rw [unknown]
    simp only [creates, if_true, Option.getD_some]
    exact first

/-- Where a known pool's part of the block is new, its supply is the one its line ends with. -/
def Session.Supplies (session : Session) (archive : Archive) (events : List DecodedEvent) : Prop :=
  ∀ row ∈ session.db.pools.rows, eventsOf row.data.pubkey events ≠ [] →
    (∀ de ∈ eventsOf row.data.pubkey events, de ∉ archive.line row.data.pubkey) →
    session.lpSupplyCache row.id = carry supply none (archive.line row.data.pubkey)

/-- A new pool starts without one. -/
theorem Session.Supplies.grown (supplies : before.Supplies archive events)
    (ingested : Ingested env events before after written) (mirrors : before.db.Mirrors archive) (tracks : before.Tracks)
    {row : Stored NewPoolRow} (member : row ∈ after.db.pools.rows) (some_ : eventsOf row.data.pubkey events ≠ [])
    (new : ∀ de ∈ eventsOf row.data.pubkey events, de ∉ archive.line row.data.pubkey) :
    before.lpSupplyCache row.id = carry supply none (archive.line row.data.pubkey) := by
  have growth := ingested.growth mirrors
  by_cases old : row ∈ before.db.pools.rows
  · exact supplies row old some_ new
  · have unknown := (growth.fresh row member).resolve_left old
    rw [Archive.line, unknown, Option.getD_none, carry_nil]
    by_contra held
    obtain ⟨other, known, same⟩ := tracks.supplied row.id (Option.isSome_iff_ne_none.mpr held)
    exact old (Table.id_inj (growth.keeps other known) member same ▸ known)

theorem Ingested.supply (ingested : Ingested env events before after written)
    (named : Named before.db.pools before.poolCache) {row : Stored NewPoolRow} (member : row ∈ after.db.pools.rows) :
    after.lpSupplyCache row.id = carry supply (before.lpSupplyCache row.id) (eventsOf row.data.pubkey events) := by
  rw [ingested.carried]
  exact (fold_pool _ (fun de listed => (ingested.addressed named).known de listed row member) _).2

theorem Ingested.mirrors (ingested : Ingested env events before after written) (mirrors : before.db.Mirrors archive)
    (tracks : before.Tracks) (delivery : Delivery archive events) (supplies : before.Supplies archive events) :
    after.db.Mirrors (archive.add events) := by
  have growth := ingested.growth mirrors
  have addressed := ingested.addressed tracks.cached
  have pools : ∀ row ∈ after.db.pools.rows, ((archive.add events).line row.data.pubkey).findSome? (poolRow 0) =
      some row.data := fun row member => ingested.pool mirrors delivery member
  have listed : ∀ row ∈ after.db.pools.rows, ∃ line, archive.add events row.data.pubkey = some line :=
    fun row member => Archive.known (pools row member)
  refine ⟨?_, pools, ?_, ?_, ?_, ?_⟩
  · intro pubkey line added
    rcases Archive.add_some added with ⟨old, known, _⟩ | ⟨_, _, de, mine, made⟩
    · exact ingested.database.keeps_pool (mirrors.named pubkey old known)
    · obtain ⟨member, named⟩ := mem_eventsOf.mp mine
      exact named ▸ ingested.database.creates member made
  · rw [ingested.database.reserves, batchesOf_timed delivery.timed]
    apply mirrors.reserves.insert reserves_column delivery growth listed (reserves_proposal addressed delivery.distinct)
    intro row member new
    have rows := (fold_pool 0 (fun de listed => addressed.known de listed row member)
      ⟨before.lpSupplyCache, [], [], []⟩).1
    rw [batchesOf, rows, List.filter_nil, List.nil_append, reservesLine, reservesFrom_append]
    cases mine : eventsOf row.data.pubkey events with
    | nil => rfl
    | cons de rest =>
      rw [← mine, ← supplies.grown ingested mirrors tracks member (by rw [mine]; exact List.cons_ne_nil _ _) new]
      rfl
  · rw [ingested.database.swaps, batchesOf_timed delivery.timed]
    apply mirrors.swaps.insert swaps_column delivery growth listed (swaps_proposal addressed delivery.distinct)
    intro row member _
    rw [batchesOf_swaps, column_pool (fun _ _ _ => swapRow_poolId) fun de listed => addressed.known de listed row member]
    exact List.filterMap_append
  · rw [ingested.database.liquidity, batchesOf_timed delivery.timed]
    apply mirrors.liquidity.insert liquidity_column delivery growth listed
      (liquidity_proposal addressed delivery.distinct)
    intro row member _
    rw [batchesOf_liquidity,
      column_pool (fun _ _ _ => liquidityRow_poolId) fun de listed => addressed.known de listed row member]
    exact List.filterMap_append
  · rw [ingested.database.reserves]
    exact mirrors.ascending.insert _

theorem Ingested.tracks (ingested : Ingested env events before after written) (tracks : before.Tracks) :
    after.Tracks := by
  refine ⟨ingested.caches tracks.cached, ?_⟩
  intro poolId supplied
  rw [ingested.carried] at supplied
  rcases fold_supplied _ supplied with old | ⟨de, member, found⟩
  · obtain ⟨row, member, same⟩ := tracks.supplied poolId old
    exact ⟨row, ingested.keeps_row member, same⟩
  · exact (ingested.addressed tracks.cached).stored de member poolId found

end Write
end DeepPool.Indexer
