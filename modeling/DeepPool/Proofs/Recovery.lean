import DeepPool.Proofs.Replay

/-! A block write that fails. The tables are rolled back and the caches are not, so what the
write learned before it failed must have been true without it. -/

namespace DeepPool.Indexer
open Library

/-- The caches speak of committed rows only. -/
structure Session.Consistent (session : Session) : Prop where
  pools : Named session.db.pools session.poolCache
  supplies : ∀ poolId held, session.lpSupplyCache poolId = some held →
    loadLpSupplyCache session.db poolId = some held

/-- What a writer learns from a block up to the failing statement is committed already: every
pool that the block creates, and the last LP supply that it states of each pool. -/
structure Db.Withstands (db : Db) (batch : BlockBatch) (stage : Stage) : Prop where
  pools : stage ≠ .begin → stage ≠ .setPools → ∀ de ∈ batch.events, de.creates → db.pools.Holds (poolPubkey de.event)
  supplies : stage ≠ .begin → stage ≠ .setPools → stage ≠ .listPools → ∀ row ∈ db.pools.rows, ∀ stated,
    carry supply none (eventsOf row.data.pubkey batch.processed) = some stated → loadLpSupplyCache db row.id = some stated

theorem Session.Consistent.load (db : Db) : (Session.load db).Consistent where
  pools _ _ found := loadPoolCache_stored found
  supplies _ _ found := found

variable {env : Environment} {stage : Stage} {before after : Session} {events : List DecodedEvent} {error : WriteError}

section Statements
variable {Result Row : Type} {run : Db → Except WriteError (Db × Result)} {db : Db}

theorem statement_failed (failed : statement env stage run before = .error error after) :
    after = before ∧ (env.fails stage ∧ error = .failed stage ∨ run before.db = .error error) := by
  unfold statement at failed
  split at failed
  next fails =>
    cases failed
    exact ⟨rfl, .inl ⟨fails, rfl⟩⟩
  · split at failed
    next refused =>
      cases failed
      exact ⟨rfl, .inr refused⟩
    · cases failed

theorem notice_failed (failed : notice env stage before = .error error after) :
    after = before ∧ env.fails stage ∧ error = .failed stage := by
  obtain ⟨same, reason⟩ := statement_failed failed
  rcases reason with broken | impossible
  · exact ⟨same, broken⟩
  · cases impossible

theorem insertion_failed {rows : List Row} {run : Db → Except WriteError (Db × List (Stored Row))}
    (failed : insertion env stage rows run before = .error error after) :
    after = before ∧ (env.fails stage ∧ error = .failed stage ∨ run before.db = .error error) := by
  unfold insertion at failed
  split at failed
  · exact absurd failed pure_failed
  · exact statement_failed failed

theorem backfillCache_failed (failed : backfillCache env events before = .error error after) :
    after = before ∧ env.fails .listPools ∧ error = .failed .listPools := by
  unfold backfillCache at failed
  rcases bind_failed.mp failed with impossible | ⟨session, _, read, failed⟩
  · exact absurd impossible get_failed
  · obtain ⟨rfl, rfl⟩ := get_done.mp read
    simp only at failed
    split at failed
    · exact absurd failed pure_failed
    · rcases bind_failed.mp failed with lists | ⟨_, _, _, remembers⟩
      · obtain ⟨same, reason⟩ := statement_failed lists
        rcases reason with broken | impossible
        · exact ⟨same, broken⟩
        · cases impossible
      · exact absurd remembers modify_failed

/-- A foreign key is missing only where a row names a pool that is not there. -/
theorem reservesSet_refused {rows : List NewReservesRow} (failed : db.reservesSet rows = .error error) :
    ∃ row ∈ rows, ¬ db.HasPool row.poolId := by
  unfold Db.reservesSet at failed
  simp only at failed
  split at failed
  · cases failed
  next orphaned =>
    simp only [not_forall] at orphaned
    obtain ⟨row, new, missing⟩ := orphaned
    exact ⟨row.data, (Table.insert_proposed new).1, missing⟩

theorem swapSet_refused {rows : List NewSwapRow} (failed : db.swapSet rows = .error error) :
    ∃ row ∈ rows, ¬ db.HasPool row.poolId := by
  unfold Db.swapSet at failed
  simp only at failed
  split at failed
  · cases failed
  next orphaned =>
    simp only [not_forall] at orphaned
    obtain ⟨row, new, missing⟩ := orphaned
    exact ⟨row.data, (Table.insert_proposed new).1, missing⟩

theorem liquiditySet_refused {rows : List NewLiquidityRow} (failed : db.liquiditySet rows = .error error) :
    ∃ row ∈ rows, ¬ db.HasPool row.poolId := by
  unfold Db.liquiditySet at failed
  simp only at failed
  split at failed
  · cases failed
  next orphaned =>
    simp only [not_forall] at orphaned
    obtain ⟨row, new, missing⟩ := orphaned
    exact ⟨row.data, (Table.insert_proposed new).1, missing⟩

/-- Rows of pools that the cache knows have their pools. -/
theorem batchesOf_linked {now : Int} {poolCache : String → Option Nat} {lpSupplyCache : Nat → Option Int}
    (linked : ∀ pubkey poolId, poolCache pubkey = some poolId → db.HasPool poolId) :
    (∀ row ∈ (batchesOf now poolCache lpSupplyCache events).reserves, db.HasPool row.poolId) ∧
      (∀ row ∈ (batchesOf now poolCache lpSupplyCache events).swaps, db.HasPool row.poolId) ∧
      ∀ row ∈ (batchesOf now poolCache lpSupplyCache events).liquidity, db.HasPool row.poolId := by
  refine ⟨?_, ?_, ?_⟩
  · intro row offered
    obtain ⟨de, _, poolId, carried, found, rfl⟩ := batchesOf_reserves offered
    rw [reservesRow_poolId]
    exact linked _ _ found
  · intro row offered
    rw [batchesOf_swaps] at offered
    obtain ⟨de, _, made⟩ := List.mem_filterMap.mp offered
    obtain ⟨poolId, found, made⟩ := Option.bind_eq_some_iff.mp made
    rw [swapRow_poolId made]
    exact linked _ _ found
  · intro row offered
    rw [batchesOf_liquidity] at offered
    obtain ⟨de, _, made⟩ := List.mem_filterMap.mp offered
    obtain ⟨poolId, found, made⟩ := Option.bind_eq_some_iff.mp made
    rw [liquidityRow_poolId made]
    exact linked _ _ found

/-- The rows of the second pass cannot fail to find their pools. -/
theorem insertions_failed {batches : Batches} {pools : List (Stored NewPoolRow)}
    (linked : (∀ row ∈ batches.reserves, before.db.HasPool row.poolId) ∧
      (∀ row ∈ batches.swaps, before.db.HasPool row.poolId) ∧ ∀ row ∈ batches.liquidity, before.db.HasPool row.poolId)
    (failed : (do
      let reserves ← insertion env .setReserves batches.reserves (Db.reservesSet batches.reserves)
      let swaps ← insertion env .setSwaps batches.swaps (Db.swapSet batches.swaps)
      let liquidity ← insertion env .setLiquidity batches.liquidity (Db.liquiditySet batches.liquidity)
      return { pools, reserves, swaps, liquidity } : Job Written) before = .error error after) :
    after.poolCache = before.poolCache ∧ after.lpSupplyCache = before.lpSupplyCache ∧ ∃ stage, env.fails stage ∧
    error = .failed stage ∧
      stage ∈ [.setReserves, .setSwaps, .setLiquidity] := by
  obtain ⟨reservesLinked, swapsLinked, liquidityLinked⟩ := linked
  rcases bind_failed.mp failed with setReserves | ⟨_, first, setReserves, failed⟩
  · obtain ⟨rfl, broken | refused⟩ := insertion_failed setReserves
    · exact ⟨rfl, rfl, .setReserves, broken.1, broken.2, by decide⟩
    · obtain ⟨row, offered, missing⟩ := reservesSet_refused refused
      exact absurd (reservesLinked row offered) missing
  obtain ⟨_, sent, rfl⟩ := insertion_done (by rintro empty db; rw [empty]; rfl) setReserves
  obtain ⟨rfl, rfl⟩ := reservesSet_done sent
  rcases bind_failed.mp failed with setSwaps | ⟨_, second, setSwaps, failed⟩
  · obtain ⟨rfl, broken | refused⟩ := insertion_failed setSwaps
    · exact ⟨rfl, rfl, .setSwaps, broken.1, broken.2, by decide⟩
    · obtain ⟨row, offered, missing⟩ := swapSet_refused refused
      exact absurd (swapsLinked row offered) missing
  obtain ⟨_, sent, rfl⟩ := insertion_done (by rintro empty db; rw [empty]; rfl) setSwaps
  obtain ⟨rfl, rfl⟩ := swapSet_done sent
  rcases bind_failed.mp failed with setLiquidity | ⟨_, third, _, impossible⟩
  · obtain ⟨rfl, broken | refused⟩ := insertion_failed setLiquidity
    · exact ⟨rfl, rfl, .setLiquidity, broken.1, broken.2, by decide⟩
    · obtain ⟨row, offered, missing⟩ := liquiditySet_refused refused
      exact absurd (liquidityLinked row offered) missing
  · exact absurd impossible pure_failed

end Statements

/-! How far a failed write got. -/

theorem newPools_creation {de : DecodedEvent} (now : Int) (member : de ∈ events) (creates : de.creates) :
    ∃ row ∈ newPools now events, row.pubkey = poolPubkey de.event := by
  unfold DecodedEvent.creates at creates
  cases kind : de.event with
  | poolCreated p => exact ⟨newPool now p de, List.mem_filterMap.mpr ⟨de, member, by rw [kind]⟩, rfl⟩
  | _ =>
    rw [kind] at creates
    cases creates

/-- A pool cache with the pools that the write saw, those it created itself among them. -/
structure Learned (env : Environment) (events : List DecodedEvent) (before : Session)
    (poolCache : String → Option Nat) : Prop where
  fresh : ∀ de ∈ events, de.creates → ¬ before.db.pools.Holds (poolPubkey de.event) →
    (poolCache (poolPubkey de.event)).isSome
  sound : ∀ pubkey poolId, poolCache pubkey = some poolId → before.poolCache pubkey = some poolId ∨
    ∃ row ∈ (before.db.pools.insert (newPools env.now events)).1.rows, row.data.pubkey = pubkey ∧ row.id = poolId

/-- Remembering the inserted pools. -/
theorem Learned.remembers {poolCache : String → Option Nat}
    (knows : ∀ pubkey, (before.poolCache pubkey).isSome ∨
      (∃ row ∈ (before.db.pools.insert (newPools env.now events)).2, row.data.pubkey = pubkey) →
        (poolCache pubkey).isSome)
    (learns : ∀ pubkey poolId, poolCache pubkey = some poolId → before.poolCache pubkey = some poolId ∨
      ∃ row ∈ (before.db.pools.insert (newPools env.now events)).2, row.data.pubkey = pubkey ∧ row.id = poolId) :
    Learned env events before poolCache where
  fresh := by
    intro de member creates free
    apply knows
    right
    obtain ⟨row, offered, named⟩ := newPools_creation env.now member creates
    rcases Table.holds_insert (Table.insert_holds before.db.pools offered) with held | ⟨new, inserted, same⟩
    · exact absurd (named ▸ held) free
    · exact ⟨new, inserted, same.trans named⟩
  sound := by
    intro pubkey poolId found
    rcases learns pubkey poolId found with already | ⟨row, new, named⟩
    · exact .inl already
    · refine .inr ⟨row, ?_, named⟩
      rw [Table.insert_rows]
      exact List.mem_append_right _ new

/-- Fetching the pools that are not remembered. -/
theorem Learned.fetches {poolCache filled : String → Option Nat} (learned : Learned env events before poolCache)
    (known : ∀ de ∈ events, (before.db.pools.insert (newPools env.now events)).1.Holds (poolPubkey de.event) →
      (filled (poolPubkey de.event)).isSome)
    (fetched : ∀ pubkey poolId, filled pubkey = some poolId → poolCache pubkey = some poolId ∨
      ∃ row ∈ (before.db.pools.insert (newPools env.now events)).1.rows, row.data.pubkey = pubkey ∧ row.id = poolId) :
    Learned env events before filled where
  fresh := by
    intro de member creates _
    obtain ⟨row, offered, named⟩ := newPools_creation env.now member creates
    exact known de member (named ▸ Table.insert_holds before.db.pools offered)
  sound := by
    intro pubkey poolId found
    rcases fetched pubkey poolId found with earlier | listed
    · exact learned.sound pubkey poolId earlier
    · exact .inr listed

theorem Learned.linked {poolCache : String → Option Nat} (learned : Learned env events before poolCache)
    (cached : Named before.db.pools before.poolCache) : ∀ pubkey poolId, poolCache pubkey = some poolId →
      ∃ row ∈ (before.db.pools.insert (newPools env.now events)).1.rows, row.id = poolId := by
  intro pubkey poolId found
  rcases learned.sound pubkey poolId found with held | ⟨row, listed, _, same⟩
  · obtain ⟨row, stored, _, same⟩ := cached pubkey poolId held
    refine ⟨row, ?_, same⟩
    rw [Table.insert_rows]
    exact List.mem_append_left _ stored
  · exact ⟨row, listed, same⟩

inductive Progress (env : Environment) (events : List DecodedEvent) (before after : Session) : Stage → Prop where
  | blind {stage : Stage} (early : stage = .begin ∨ stage = .setPools) (pools : after.poolCache = before.poolCache)
    (supplies : after.lpSupplyCache = before.lpSupplyCache) : Progress env events before after stage
  | listing (learned : Learned env events before after.poolCache)
    (supplies : after.lpSupplyCache = before.lpSupplyCache) : Progress env events before after .listPools
  | late {stage : Stage} (begun : stage ≠ .begin) (inserted : stage ≠ .setPools) (listed : stage ≠ .listPools)
    (learned : Learned env events before after.poolCache)
    (known : ∀ de ∈ events, (before.db.pools.insert (newPools env.now events)).1.Holds (poolPubkey de.event) →
      (after.poolCache (poolPubkey de.event)).isSome)
    (carried : after.lpSupplyCache = (batchesOf env.now after.poolCache before.lpSupplyCache events).lpSupplyCache) :
    Progress env events before after stage

/-- The tables have no part in it. -/
theorem Progress.caches {other : Session} (progress : Progress env events before after stage)
    (pools : other.poolCache = after.poolCache) (supplies : other.lpSupplyCache = after.lpSupplyCache) :
    Progress env events before other stage := by
  cases progress with
  | blind early same carried => exact .blind early (pools.trans same) (supplies.trans carried)
  | listing learned carried => exact .listing (pools ▸ learned) (supplies.trans carried)
  | late begun inserted listed learned known carried =>
    rw [← pools] at learned known carried
    exact .late begun inserted listed learned known (supplies.trans carried)

/-- With a pool cache that speaks of stored pools no foreign key is ever missing. -/
theorem ingest_failed (cached : Named before.db.pools before.poolCache)
    (failed : ingest env events before = .error error after) :
    ∃ stage, env.fails stage ∧ error = .failed stage ∧ Progress env events before after stage := by
  unfold ingest at failed
  rcases bind_failed.mp failed with setPools | ⟨pools, first, setPools, failed⟩
  · obtain ⟨rfl, broken | impossible⟩ := insertion_failed setPools
    · exact ⟨.setPools, broken.1, broken.2, .blind (.inr rfl) rfl rfl⟩
    · cases impossible
  obtain ⟨db, sent, rfl⟩ := insertion_done (by rintro empty db; rw [empty]; rfl) setPools
  obtain ⟨rfl, rfl⟩ := poolSet_done sent
  rcases bind_failed.mp failed with impossible | ⟨_, second, remembers, failed⟩
  · exact absurd impossible modify_failed
  obtain ⟨sameDb, sameSupply, knows, learns⟩ := remember_done remembers
  have remembered : Learned env events before second.poolCache := .remembers knows learns
  rcases bind_failed.mp failed with fills | ⟨_, third, fills, failed⟩
  · obtain ⟨rfl, broken⟩ := backfillCache_failed fills
    exact ⟨.listPools, broken.1, broken.2, .listing remembered sameSupply⟩
  obtain ⟨filledDb, filledSupply, known, fetches⟩ := backfillCache_done fills
  rcases bind_failed.mp failed with impossible | ⟨session, _, read, failed⟩
  · exact absurd impossible get_failed
  obtain ⟨rfl, rfl⟩ := get_done.mp read
  rw [sameDb] at filledDb known fetches
  rw [sameSupply] at filledSupply
  obtain ⟨_, poolCache, _⟩ := third
  obtain rfl := filledDb
  obtain rfl := filledSupply
  dsimp only at failed known fetches
  have learned : Learned env events before poolCache := remembered.fetches known fetches
  have linked := learned.linked cached
  rcases bind_failed.mp failed with impossible | ⟨_, fourth, carries, failed⟩
  · exact absurd impossible modify_failed
  obtain rfl := modify_done.mp carries
  obtain ⟨samePools, sameSupplies, stage, fails, broken, place⟩ := insertions_failed (batchesOf_linked linked) failed
  dsimp only at samePools sameSupplies
  have late : stage ≠ .begin ∧ stage ≠ .setPools ∧ stage ≠ .listPools := by
    refine ⟨?_, ?_, ?_⟩ <;> (rintro rfl; revert place; decide)
  rw [← samePools] at learned known sameSupplies
  exact ⟨stage, fails, broken, .late late.1 late.2.1 late.2.2 learned known sameSupplies⟩

/-- A write whose rows were all sent, and that failed afterwards. -/
theorem Ingested.progress {written : Written} (ingested : Ingested env events before after written)
    (late : stage ≠ .begin ∧ stage ≠ .setPools ∧ stage ≠ .listPools) : Progress env events before after stage := by
  have ingestion := ingested.database
  refine .late late.1 late.2.1 late.2.2 ⟨?_, ?_⟩ ?_ ingested.carried
  · intro de member creates _
    exact ingestion.known de member (ingestion.creates member creates)
  · intro pubkey poolId found
    rw [← ingestion.pools]
    exact ingested.cached pubkey poolId found
  · intro de member held
    rw [← ingestion.pools] at held
    exact ingestion.known de member held

theorem writeBlock_progress {batch : BlockBatch} (cached : Named before.db.pools before.poolCache)
    (failed : writeBlock env batch before = .error error after) :
    ∃ stage, env.fails stage ∧ error = .failed stage ∧ Progress env batch.processed before after stage := by
  obtain ⟨last, ran, same⟩ := transaction_failed failed
  have caches : after.poolCache = last.poolCache ∧ after.lpSupplyCache = last.lpSupplyCache := by
    rw [same]
    exact ⟨rfl, rfl⟩
  suffices reached : ∃ stage, env.fails stage ∧ error = .failed stage ∧ Progress env batch.processed before last stage by
    obtain ⟨stage, fails, broken, progress⟩ := reached
    exact ⟨stage, fails, broken, progress.caches caches.1 caches.2⟩
  rcases bind_failed.mp ran with begins | ⟨_, first, begins, ingesting⟩
  · obtain ⟨rfl, broken⟩ := notice_failed begins
    exact ⟨.begin, broken.1, broken.2, .blind (.inl rfl) rfl rfl⟩
  obtain rfl := notice_done begins
  rcases bind_failed.mp ingesting with ingests | ⟨written, second, ingests, marking⟩
  · exact ingest_failed cached ingests
  have ingested := ingest_done ingests
  rcases bind_failed.mp marking with marks | ⟨_, third, marks, committing⟩
  · obtain ⟨rfl, broken | impossible⟩ := statement_failed marks
    · exact ⟨.setCheckpoint, broken.1, broken.2, ingested.progress (by decide)⟩
    · cases impossible
  obtain ⟨_, _, rfl⟩ := statement_done marks
  rcases bind_failed.mp committing with commits | ⟨_, _, _, impossible⟩
  · obtain ⟨rfl, broken⟩ := notice_failed commits
    exact ⟨.commit, broken.1, broken.2, (ingested.progress (by decide)).caches rfl rfl⟩
  · exact absurd impossible pure_failed

section Consistent
variable {events : List DecodedEvent} {poolCache : String → Option Nat}

/-- A created pool is remembered under an id that is taken back, unless the row was there before. -/
theorem Learned.sound_iff (learned : Learned env events before poolCache) (consistent : before.Consistent) :
    Named before.db.pools poolCache ↔ ∀ de ∈ events, de.creates → before.db.pools.Holds (poolPubkey de.event) := by
  constructor
  · intro sound de member creates
    by_contra free
    obtain ⟨poolId, found⟩ := Option.isSome_iff_exists.mp (learned.fresh de member creates free)
    obtain ⟨row, stored, named, _⟩ := sound _ poolId found
    exact free ⟨row, stored, named⟩
  · intro held pubkey poolId found
    rcases learned.sound pubkey poolId found with old | ⟨row, listed, named, same⟩
    · exact consistent.pools pubkey poolId old
    · rw [Table.insert_rows] at listed
      rcases List.mem_append.mp listed with stored | new
      · exact ⟨row, stored, named, same⟩
      · obtain ⟨offered, free⟩ := Table.insert_proposed new
        obtain ⟨de, member, creates, pool⟩ := newPools_source offered
        exact absurd (pool ▸ held de member creates) free

/-- What the second pass leaves in the supply cache, for the stored pools and for all other ids. -/
theorem carried_supplies {pools : Table NewPoolRow.pubkey} (now : Int) (lpSupplyCache : Nat → Option Int)
    (named : Named pools poolCache)
    (known : ∀ de ∈ events, pools.Holds (poolPubkey de.event) → (poolCache (poolPubkey de.event)).isSome) :
    (∀ row ∈ pools.rows, (batchesOf now poolCache lpSupplyCache events).lpSupplyCache row.id =
        carry supply (lpSupplyCache row.id) (eventsOf row.data.pubkey events)) ∧
      ∀ poolId, (∀ row ∈ pools.rows, row.id ≠ poolId) →
        (batchesOf now poolCache lpSupplyCache events).lpSupplyCache poolId = lpSupplyCache poolId := by
  have addressed := named.addressed known
  constructor
  · intro row stored
    exact (fold_pool now (fun de member => addressed.known de member row stored) _).2
  · intro poolId none
    refine fold_untouched ?_ _
    intro de member found
    obtain ⟨row, stored, same⟩ := addressed.stored de member poolId found
    exact none row stored same

theorem Progress.consistent_iff {batch : BlockBatch} {last : Db}
    (progress : Progress env batch.processed before after stage)
    (consistent : before.Consistent) (rolled : after.db = before.db.rollback last) :
    after.Consistent ↔ before.db.Withstands batch stage := by
  have creations : (∀ de ∈ batch.processed, de.creates → before.db.pools.Holds (poolPubkey de.event)) ↔
      ∀ de ∈ batch.events, de.creates → before.db.pools.Holds (poolPubkey de.event) := by
    simp only [BlockBatch.mem_processed]
  obtain ⟨db, poolCache, lpSupplyCache⟩ := after
  obtain rfl := rolled
  cases progress with
  | blind early pools supplies =>
    obtain rfl := pools
    obtain rfl := supplies
    constructor
    · intro _
      refine ⟨fun begun inserted => ?_, fun begun inserted => ?_⟩ <;> exact (early.elim begun inserted).elim
    · intro _
      exact ⟨consistent.pools, consistent.supplies⟩
  | listing learned supplies =>
    obtain rfl := supplies
    have sound := learned.sound_iff consistent
    constructor
    · intro recovered
      exact ⟨fun _ _ => creations.mp (sound.mp recovered.pools), fun _ _ listed => absurd rfl listed⟩
    · intro withstands
      refine ⟨sound.mpr (creations.mpr (withstands.pools ?_ ?_)), consistent.supplies⟩ <;> decide
  | late begun inserted listed learned known carried =>
    dsimp only at learned known carried
    obtain rfl := carried
    have sound := learned.sound_iff consistent
    have kept : ∀ de ∈ batch.processed, before.db.pools.Holds (poolPubkey de.event) →
        (poolCache (poolPubkey de.event)).isSome := fun de member held => known de member (held.insert _)
    constructor
    · intro recovered
      refine ⟨fun _ _ => creations.mp (sound.mp recovered.pools), ?_⟩
      intro _ _ _ row stored stated last
      have supplies := (carried_supplies env.now before.lpSupplyCache recovered.pools kept).1 row stored
      apply recovered.supplies row.id stated
      dsimp only
      rw [supplies, carry_or, last, Option.some_or]
    · intro withstands
      have pools := sound.mpr (creations.mpr (withstands.pools begun inserted))
      refine ⟨pools, ?_⟩
      intro poolId held found
      obtain ⟨stored, others⟩ := carried_supplies env.now before.lpSupplyCache pools kept
      by_cases owned : ∃ row ∈ before.db.pools.rows, row.id = poolId
      · obtain ⟨row, member, rfl⟩ := owned
        dsimp only at found
        rw [stored row member, carry_or] at found
        cases last : carry supply none (eventsOf row.data.pubkey batch.processed) with
        | some stated =>
          rw [last, Option.some_or] at found
          rw [← found]
          exact withstands.supplies begun inserted listed row member stated last
        | none =>
          rw [last, Option.none_or] at found
          exact consistent.supplies row.id held found
      · dsimp only at found
        rw [others poolId fun row member same => owned ⟨row, member, same⟩] at found
        exact consistent.supplies poolId held found

end Consistent

/-! A writer whose caches speak of committed rows writes like one that has just loaded them. -/

/-- The tables and the supplies are the same, the pool caches may differ. -/
def SameContent (first last : Session) : Prop := first.db = last.db ∧ first.lpSupplyCache = last.lpSupplyCache

section Alike
variable {first last : Session} {Result Row : Type}

theorem statement_alike (same : SameContent first last) (run : Db → Except WriteError (Db × Result)) :
    Alike SameContent (statement env stage run first) (statement env stage run last) := by
  obtain ⟨database, supplies⟩ := same
  unfold statement
  rw [database]
  split
  · exact .error _ ⟨database, supplies⟩
  · split
    · exact .error _ ⟨database, supplies⟩
    · exact .ok _ ⟨rfl, supplies⟩

theorem insertion_alike (same : SameContent first last) (rows : List Row)
    (run : Db → Except WriteError (Db × List (Stored Row))) :
    Alike SameContent (insertion env stage rows run first) (insertion env stage rows run last) := by
  unfold insertion
  split
  · exact .ok _ same
  · exact statement_alike same run

theorem backfillCache_ok (lists : env.fails .listPools = false) (events : List DecodedEvent) (before : Session) :
    ∃ after, backfillCache env events before = .ok () after := by
  cases outcome : backfillCache env events before with
  | ok value after => exact ⟨after, rfl⟩
  | error failure after =>
    obtain ⟨_, fails, _⟩ := backfillCache_failed outcome
    rw [lists] at fails
    cases fails

theorem loadPoolCache_none {db : Db} {pubkey : String} (unknown : loadPoolCache db pubkey = none) :
    ¬ db.pools.Holds pubkey := by
  rintro ⟨row, stored, named⟩
  unfold loadPoolCache at unknown
  rw [Option.map_eq_none_iff, List.find?_eq_none] at unknown
  exact unknown row stored (decide_eq_true named)

/-- Of a stored pool there is only one id to know. -/
theorem cached_load {db : Db} {poolCache : String → Option Nat} {pubkey : String}
    (sound : Named db.pools poolCache)
    (known : db.pools.Holds pubkey → (poolCache pubkey).isSome) : poolCache pubkey = loadPoolCache db pubkey := by
  cases loaded : loadPoolCache db pubkey with
  | none =>
    cases found : poolCache pubkey with
    | none => rfl
    | some poolId =>
      obtain ⟨row, stored, named, _⟩ := sound pubkey poolId found
      exact absurd ⟨row, stored, named⟩ (loadPoolCache_none loaded)
  | some poolId =>
    obtain ⟨row, stored, named, same⟩ := loadPoolCache_stored loaded
    obtain ⟨other, found⟩ := Option.isSome_iff_exists.mp (known ⟨row, stored, named⟩)
    obtain ⟨twin, listed, pool, equal⟩ := sound pubkey other found
    rw [found, ← same, ← equal, Table.key_inj listed stored (pool.trans named.symm)]

theorem batchesOf_congr {now : Int} {poolCache cache : String → Option Nat} {lpSupplyCache : Nat → Option Int}
    (same : ∀ de ∈ events, poolCache (poolPubkey de.event) = cache (poolPubkey de.event)) :
    batchesOf now poolCache lpSupplyCache events = batchesOf now cache lpSupplyCache events := by
  apply List.foldl_ext
  intro batches de member
  rw [Batches.add, Batches.add, same de member]

theorem Named.grown {pools grown : Table NewPoolRow.pubkey} {poolCache : String → Option Nat}
    (named : Named pools poolCache) (keeps : ∀ row ∈ pools.rows, row ∈ grown.rows) : Named grown poolCache := by
  intro pubkey poolId found
  obtain ⟨row, stored, pool, same⟩ := named pubkey poolId found
  exact ⟨row, keeps row stored, pool, same⟩

/-- The pools of a block are remembered as they are stored. -/
theorem Named.created {rows : List NewPoolRow} {pools : List (Stored NewPoolRow)} {result : Unit} {middle : Session}
    (named : Named before.db.pools before.poolCache)
    (setPools : insertion env .setPools rows (Db.poolSet rows) before = .ok pools middle)
    (remembers : remember pools middle = .ok result after) : Named after.db.pools after.poolCache := by
  obtain ⟨db, sent, rfl⟩ := insertion_done (by rintro empty db; rw [empty]; rfl) setPools
  obtain ⟨rfl, rfl⟩ := poolSet_done sent
  obtain ⟨sameDb, _, _, learns⟩ := remember_done remembers
  rw [sameDb]
  intro pubkey poolId found
  simp only [Table.insert_rows]
  rcases learns pubkey poolId found with held | ⟨row, new, pool, same⟩
  · obtain ⟨row, stored, pool, same⟩ := named pubkey poolId held
    exact ⟨row, List.mem_append_left _ stored, pool, same⟩
  · exact ⟨row, List.mem_append_right _ new, pool, same⟩

/-- Afterwards every event's pool is looked up as the table has it. -/
theorem backfillCache_loads {result : Unit} (named : Named before.db.pools before.poolCache)
    (done : backfillCache env events before = .ok result after) :
    ∀ de ∈ events, after.poolCache (poolPubkey de.event) = loadPoolCache after.db (poolPubkey de.event) := by
  obtain ⟨sameDb, _, known, fetches⟩ := backfillCache_done done
  intro de member
  rw [sameDb]
  apply cached_load _ (known de member)
  intro pubkey poolId found
  rcases fetches pubkey poolId found with held | listed
  · exact named pubkey poolId held
  · exact listed

theorem backfillCache_alike (lists : env.fails .listPools = false) (same : SameContent first last) :
    Alike SameContent (backfillCache env events first) (backfillCache env events last) := by
  obtain ⟨middle, fills⟩ := backfillCache_ok lists events first
  obtain ⟨twin, twinFills⟩ := backfillCache_ok lists events last
  obtain ⟨sameDb, sameSupply, _⟩ := backfillCache_done fills
  obtain ⟨twinDb, twinSupply, _⟩ := backfillCache_done twinFills
  rw [fills, twinFills]
  refine .ok () ⟨?_, ?_⟩
  · rw [sameDb, twinDb, same.1]
  · rw [sameSupply, twinSupply, same.2]

theorem insertions_alike {batches twin : Batches} {pools : List (Stored NewPoolRow)} (equal : batches = twin)
    (same : SameContent first last) :
    Alike SameContent
      ((do
        modify fun session => { session with lpSupplyCache := batches.lpSupplyCache }
        let reserves ← insertion env .setReserves batches.reserves (Db.reservesSet batches.reserves)
        let swaps ← insertion env .setSwaps batches.swaps (Db.swapSet batches.swaps)
        let liquidity ← insertion env .setLiquidity batches.liquidity (Db.liquiditySet batches.liquidity)
        return { pools, reserves, swaps, liquidity } : Job Written) first)
      ((do
        modify fun session => { session with lpSupplyCache := twin.lpSupplyCache }
        let reserves ← insertion env .setReserves twin.reserves (Db.reservesSet twin.reserves)
        let swaps ← insertion env .setSwaps twin.swaps (Db.swapSet twin.swaps)
        let liquidity ← insertion env .setLiquidity twin.liquidity (Db.liquiditySet twin.liquidity)
        return { pools, reserves, swaps, liquidity } : Job Written) last) := by
  subst equal
  have carries : Alike SameContent
      ((modify fun session => { session with lpSupplyCache := batches.lpSupplyCache } : Job Unit) first)
      ((modify fun session => { session with lpSupplyCache := batches.lpSupplyCache } : Job Unit) last) :=
    .ok () ⟨same.1, rfl⟩
  refine carries.bind ?_
  intro _ _ _ _ _ same
  refine (insertion_alike same _ _).bind ?_
  intro reserves _ _ _ _ same
  refine (insertion_alike same _ _).bind ?_
  intro swaps _ _ _ _ same
  refine (insertion_alike same _ _).bind ?_
  intro liquidity _ _ _ _ same
  exact .ok _ same

theorem ingest_alike (lists : env.fails .listPools = false) (same : SameContent first last)
    (named : Named first.db.pools first.poolCache) (other : Named last.db.pools last.poolCache) :
    Alike SameContent (ingest env events first) (ingest env events last) := by
  unfold ingest
  refine (insertion_alike same _ _).bind ?_
  intro pools middle twin sets twinSets same
  have remembers : Alike SameContent (remember pools middle) (remember pools twin) := .ok () ⟨same.1, same.2⟩
  refine remembers.bind ?_
  intro _ next continued learns twinLearns same
  refine (backfillCache_alike lists same).bind ?_
  intro _ filled refilled fills twinFills same
  have loads := backfillCache_loads (named.created sets learns) fills
  have twinLoads := backfillCache_loads (other.created twinSets twinLearns) twinFills
  have batches : batchesOf env.now filled.poolCache filled.lpSupplyCache events =
      batchesOf env.now refilled.poolCache refilled.lpSupplyCache events := by
    rw [same.2]
    apply batchesOf_congr
    intro de member
    rw [loads de member, twinLoads de member, same.1]
  exact insertions_alike batches same

theorem transaction_alike {body : Job Result} (same : SameContent first last)
    (alike : Alike SameContent (body first) (body last)) :
    Alike SameContent (transaction body first) (transaction body last) := by
  unfold transaction
  generalize body first = outcome, body last = twin at alike ⊢
  cases alike with
  | ok result states => exact .ok result states
  | error failure states =>
    refine .error failure ⟨?_, states.2⟩
    rw [same.1, states.1]

theorem writeBlock_alike (lists : env.fails .listPools = false) (same : SameContent first last)
    (named : Named first.db.pools first.poolCache) (other : Named last.db.pools last.poolCache) (batch : BlockBatch) :
    Alike SameContent (writeBlock env batch first) (writeBlock env batch last) := by
  apply transaction_alike same
  refine (statement_alike same _).bind ?_
  intro _ middle twin begins twinBegins same
  obtain rfl := notice_done begins
  obtain rfl := notice_done twinBegins
  refine (ingest_alike lists same named other).bind ?_
  intro written _ _ _ _ same
  refine (statement_alike same _).bind ?_
  intro _ _ _ _ _ same
  refine (statement_alike same _).bind ?_
  intro _ _ _ _ _ same
  exact .ok written same

theorem receive_alike (lists : env.fails .listPools = false) (same : SameContent first last)
    (named : Named first.db.pools first.poolCache) (other : Named last.db.pools last.poolCache) (batch : BlockBatch) :
    (receive env batch first).2 = (receive env batch last).2 ∧
      (receive env batch first).1.db = (receive env batch last).1.db := by
  have alike := writeBlock_alike lists same named other batch
  unfold receive
  generalize writeBlock env batch first = outcome, writeBlock env batch last = twin at alike ⊢
  cases alike with
  | ok written states => exact ⟨rfl, states.1⟩
  | error failure states => exact ⟨rfl, states.1⟩

end Alike

theorem Progress.remembers (progress : Progress env events before after stage) {poolId : Nat}
    (held : (before.lpSupplyCache poolId).isSome) : (after.lpSupplyCache poolId).isSome := by
  cases progress with
  | blind _ _ supplies => rwa [supplies]
  | listing _ supplies => rwa [supplies]
  | late _ _ _ _ _ carried =>
    rw [carried]
    exact fold_remembers _ held

/-- The caches outlive a failed write exactly when it learned nothing that was not committed
before. Then, unless they missed a supply already, the next block is written as after a start. -/
theorem failed_write_recovers {batch : BlockBatch} (consistent : before.Consistent)
    (failed : writeBlock env batch before = .error error after) :
    ∃ stage, env.fails stage ∧ error = .failed stage ∧ (after.Consistent ↔ before.db.Withstands batch stage) ∧
      (after.Consistent → (∀ poolId, (loadLpSupplyCache before.db poolId).isSome → (before.lpSupplyCache poolId).isSome) →
        ∀ next later, next.fails .listPools = false →
          (receive next later after).2 = (receive next later (.load after.db)).2 ∧
            (receive next later after).1.db = (receive next later (.load after.db)).1.db) := by
  obtain ⟨stage, fails, broken, progress⟩ := writeBlock_progress consistent.pools failed
  obtain ⟨last, rolled⟩ := writeBlock_failed failed
  refine ⟨stage, fails, broken, progress.consistent_iff consistent rolled, ?_⟩
  intro recovered whole next later lists
  have same : SameContent after (.load after.db) := by
    refine ⟨rfl, funext fun poolId => ?_⟩
    change after.lpSupplyCache poolId = loadLpSupplyCache after.db poolId
    cases held : after.lpSupplyCache poolId with
    | some supply => exact (recovered.supplies poolId supply held).symm
    | none =>
      symm
      by_contra loaded
      have stored : (loadLpSupplyCache before.db poolId).isSome := by
        rw [rolled] at loaded
        exact Option.isSome_iff_ne_none.mpr loaded
      have kept := progress.remembers (whole poolId stored)
      rw [held] at kept
      cases kept
  exact receive_alike lists same recovered.pools (Session.Consistent.load after.db).pools later

theorem receive_failed {batch : BlockBatch} (failed : writeBlock env batch before = .error error after) :
    receive env batch before = (after, none) := by
  rw [receive, failed]

section Samples

def sampleDb : Db := (receive healthy ⟨100, [sampleCreated]⟩ (.load .empty)).1.db

theorem carry_swap (pubkey : String) : carry supply none (eventsOf pubkey [sampleSwap]) = none := by
  rw [eventsOf, List.filter_cons]
  split <;> rfl

theorem failed_write_recovers_sample : ∃ before after : Session, ∃ error,
    writeBlock broken ⟨101, [sampleSwap]⟩ before = .error error after ∧ after.Consistent ∧
      (receive healthy ⟨101, [sampleSwap]⟩ after).2 = (receive healthy ⟨101, [sampleSwap]⟩ (.load after.db)).2 := by
  have fails : (returned? (writeBlock broken ⟨101, [sampleSwap]⟩ (.load sampleDb))).isNone = true := by
    decide +kernel
  obtain ⟨error, after, failed⟩ := returned?_none.mp (Option.isNone_iff_eq_none.mp fails)
  obtain ⟨stage, _, _, iff, alike⟩ := failed_write_recovers (.load sampleDb) failed
  have recovered : after.Consistent := by
    apply iff.mpr
    refine ⟨?_, ?_⟩
    · intro _ _ de member creates
      obtain rfl := List.mem_singleton.mp member
      cases creates
    · intro _ _ _ row _ stated carried
      change carry supply none (eventsOf row.data.pubkey [sampleSwap]) = some stated at carried
      rw [carry_swap] at carried
      cases carried
  exact ⟨.load sampleDb, after, error, failed, recovered, (alike recovered (fun _ stored => stored) healthy _ rfl).1⟩

def Written.supplies (written : Written) : List Int := written.reserves.map (·.data.lpSupply)

/-- After a creation whose commit failed the next swap of that pool fails as well, and after a
failed deposit it is stored with an LP supply that never was. -/
theorem failed_write_lingers : (∀ db, (Session.load db).Consistent) ∧
    (∃ after error, writeBlock broken ⟨100, [sampleCreated]⟩ (.load .empty) = .error error after ∧
      ¬ after.Consistent ∧ (receive healthy ⟨101, [sampleSwap]⟩ after).2.isNone ∧
        (receive healthy ⟨101, [sampleSwap]⟩ (.load after.db)).2.isSome) ∧
    ∃ after error, writeBlock broken ⟨101, [sampleAdded]⟩ (.load sampleDb) = .error error after ∧ ¬ after.Consistent ∧
      (receive healthy ⟨102, [sampleSwap]⟩ after).2.map Written.supplies = some [158144505] ∧
        (receive healthy ⟨102, [sampleSwap]⟩ (.load after.db)).2.map Written.supplies = some [158112883] := by
  refine ⟨.load, ?_, ?_⟩
  · have fails : (returned? (writeBlock broken ⟨100, [sampleCreated]⟩ (.load .empty))).isNone = true := by
      decide +kernel
    obtain ⟨error, after, failed⟩ := returned?_none.mp (Option.isNone_iff_eq_none.mp fails)
    have reached : (receive broken ⟨100, [sampleCreated]⟩ (.load .empty)).1 = after := by rw [receive_failed failed]
    have cached : (after.poolCache (poolPubkey sampleCreated.event)).isSome ∧ after.db.pools.rows = [] := by
      rw [← reached]
      decide +kernel
    refine ⟨after, error, failed, ?_, ?_, ?_⟩
    · intro consistent
      obtain ⟨poolId, found⟩ := Option.isSome_iff_exists.mp cached.1
      obtain ⟨row, stored, _⟩ := consistent.pools _ poolId found
      rw [cached.2] at stored
      cases stored
    · rw [← reached]
      decide +kernel
    · rw [← reached]
      decide +kernel
  · have fails : (returned? (writeBlock broken ⟨101, [sampleAdded]⟩ (.load sampleDb))).isNone = true := by
      decide +kernel
    obtain ⟨error, after, failed⟩ := returned?_none.mp (Option.isNone_iff_eq_none.mp fails)
    have reached : (receive broken ⟨101, [sampleAdded]⟩ (.load sampleDb)).1 = after := by rw [receive_failed failed]
    have carried : after.lpSupplyCache 1 = some 158144505 ∧ loadLpSupplyCache after.db 1 = some 158112883 := by
      rw [← reached]
      decide +kernel
    refine ⟨after, error, failed, ?_, ?_, ?_⟩
    · intro consistent
      have loaded := consistent.supplies 1 158144505 carried.1
      rw [carried.2] at loaded
      cases loaded
    · rw [← reached]
      decide +kernel
    · rw [← reached]
      decide +kernel

end Samples
end DeepPool.Indexer
