import DeepPool.Library.Effects
import DeepPool.Indexer.Writer

/-! What a successful write did: every table was offered one batch of rows, and every
event of a pool that is in the table afterwards has its rows in those batches. -/

namespace DeepPool.Indexer
open Library

variable {env : Environment} {stage : Stage} {before after : Session} {events : List DecodedEvent} {written : Written}

section Statements
variable {Result Row : Type} {run : Db → Except WriteError (Db × Result)} {result : Result}

theorem statement_done (done : statement env stage run before = .ok result after) :
    ∃ db, run before.db = .ok (db, result) ∧ after = { before with db } := by
  unfold statement at done
  split at done
  · cases done
  · split at done
    · cases done
    next db last sent =>
      cases done
      exact ⟨db, sent, rfl⟩

theorem notice_done {result : Unit} (done : notice env stage before = .ok result after) : after = before := by
  obtain ⟨db, same, rfl⟩ := statement_done done
  cases same
  rfl

theorem insertion_done {rows : List Row} {run : Db → Except WriteError (Db × List (Stored Row))}
    {inserted : List (Stored Row)}
    (blank : rows = [] → ∀ db, run db = .ok (db, [])) (done : insertion env stage rows run before = .ok inserted after) :
    ∃ db, run before.db = .ok (db, inserted) ∧ after = { before with db } := by
  unfold insertion at done
  split at done
  next empty =>
    obtain ⟨rfl, rfl⟩ := pure_done.mp done
    exact ⟨before.db, blank (List.isEmpty_iff.mp empty) before.db, rfl⟩
  · exact statement_done done

theorem transaction_done {body : Job Result} (done : transaction body before = .ok result after) :
    body before = .ok result after := by
  unfold transaction at done
  split at done
  next ran =>
    rw [ran]
    exact done
  · cases done

theorem transaction_failed {body : Job Result} {error : WriteError}
    (failed : transaction body before = .error error after) :
    ∃ last, body before = .error error last ∧ after = { last with db := before.db.rollback last.db } := by
  unfold transaction at failed
  split at failed
  · cases failed
  next ran =>
    cases failed
    exact ⟨_, ran, rfl⟩

end Statements

section Tables
variable {db last : Db}

theorem poolSet_done {rows : List NewPoolRow} {inserted : List (Stored NewPoolRow)}
    (done : db.poolSet rows = .ok (last, inserted)) :
    last = { db with pools := (db.pools.insert rows).1 } ∧ inserted = (db.pools.insert rows).2 := by
  cases done
  exact ⟨rfl, rfl⟩

theorem reservesSet_done {rows : List NewReservesRow} {inserted : List (Stored NewReservesRow)}
    (done : db.reservesSet rows = .ok (last, inserted)) :
    last = { db with reserves := (db.reserves.insert rows).1 } ∧ inserted = (db.reserves.insert rows).2 := by
  unfold Db.reservesSet at done
  simp only at done
  split at done
  · cases done
    exact ⟨rfl, rfl⟩
  · cases done

theorem swapSet_done {rows : List NewSwapRow} {inserted : List (Stored NewSwapRow)}
    (done : db.swapSet rows = .ok (last, inserted)) :
    last = { db with swaps := (db.swaps.insert rows).1 } ∧ inserted = (db.swaps.insert rows).2 := by
  unfold Db.swapSet at done
  simp only at done
  split at done
  · cases done
    exact ⟨rfl, rfl⟩
  · cases done

theorem liquiditySet_done {rows : List NewLiquidityRow} {inserted : List (Stored NewLiquidityRow)}
    (done : db.liquiditySet rows = .ok (last, inserted)) :
    last = { db with liquidityEvents := (db.liquidityEvents.insert rows).1 } ∧
      inserted = (db.liquidityEvents.insert rows).2 := by
  unfold Db.liquiditySet at done
  simp only at done
  split at done
  · cases done
    exact ⟨rfl, rfl⟩
  · cases done

theorem mem_poolList {needed : List String} {row : Stored NewPoolRow} :
    row ∈ db.poolList { PoolFilter.all with pubkeys := some needed } ↔ row ∈ db.pools.rows ∧
    row.data.pubkey ∈ needed := by
  unfold Db.poolList
  simp only [PoolFilter.all, Option.elim_none, List.mem_insertionSort, List.mem_filter, PoolFilter.admits,
    Option.all_none, Option.all_some, Bool.true_and, Bool.and_true, decide_eq_true_eq]

end Tables

section Caches
variable {pubkey : String} {rows : List (Stored NewPoolRow)} {result : Unit}

private theorem remembered (cache : String → Option Nat)
    (known : (cache pubkey).isSome ∨ ∃ row ∈ rows, row.data.pubkey = pubkey) :
    (rows.foldl learn cache pubkey).isSome := by
  induction rows generalizing cache with
  | nil =>
    rcases known with cached | ⟨_, impossible, _⟩
    · exact cached
    · cases impossible
  | cons row rows ih =>
    apply ih
    by_cases same : pubkey = row.data.pubkey
    · left
      rw [same, learn, Function.update_self]
      rfl
    · rw [learn, Function.update_of_ne same]
      rcases known with cached | ⟨other, member, named⟩
      · exact .inl cached
      · rcases List.mem_cons.mp member with rfl | later
        · exact absurd named.symm same
        · exact .inr ⟨other, later, named⟩

private theorem learned (cache : String → Option Nat) {poolId : Nat}
    (cached : rows.foldl learn cache pubkey = some poolId) :
    cache pubkey = some poolId ∨ ∃ row ∈ rows, row.data.pubkey = pubkey ∧ row.id = poolId := by
  induction rows generalizing cache with
  | nil => exact .inl cached
  | cons row rows ih =>
    rcases ih _ cached with first | ⟨other, member, found⟩
    · by_cases same : pubkey = row.data.pubkey
      · rw [same, learn, Function.update_self] at first
        exact .inr ⟨row, List.mem_cons_self, same.symm, Option.some.inj first⟩
      · rw [learn, Function.update_of_ne same] at first
        exact .inl first
    · exact .inr ⟨other, List.mem_cons_of_mem _ member, found⟩

theorem remember_done (done : remember rows before = .ok result after) :
    after.db = before.db ∧ after.lpSupplyCache = before.lpSupplyCache ∧
      (∀ pubkey, (before.poolCache pubkey).isSome ∨ (∃ row ∈ rows, row.data.pubkey = pubkey) →
        (after.poolCache pubkey).isSome) ∧
      ∀ pubkey poolId, after.poolCache pubkey = some poolId →
        before.poolCache pubkey = some poolId ∨ ∃ row ∈ rows, row.data.pubkey = pubkey ∧ row.id = poolId := by
  obtain rfl := modify_done.mp done
  exact ⟨rfl, rfl, fun pubkey known => remembered before.poolCache known, fun pubkey poolId cached => learned _ cached⟩

/-- Afterwards no event's pool is both in the table and out of the cache. -/
theorem backfillCache_done (done : backfillCache env events before = .ok result after) :
    after.db = before.db ∧ after.lpSupplyCache = before.lpSupplyCache ∧
      (∀ de ∈ events, before.db.pools.Holds (poolPubkey de.event) → (after.poolCache (poolPubkey de.event)).isSome) ∧
      ∀ pubkey poolId, after.poolCache pubkey = some poolId → before.poolCache pubkey = some poolId ∨
        ∃ row ∈ before.db.pools.rows, row.data.pubkey = pubkey ∧ row.id = poolId := by
  unfold backfillCache at done
  obtain ⟨session, _, read, done⟩ := bind_done.mp done
  obtain ⟨rfl, rfl⟩ := get_done.mp read
  have wanted : ∀ de ∈ events, (before.poolCache (poolPubkey de.event)).isSome ∨
      poolPubkey de.event ∈ ((((events.map fun de => poolPubkey de.event).filter fun pubkey =>
        (before.poolCache pubkey).isNone).insertionSort (· ≤ ·)).dedup) := by
    intro de member
    cases cached : before.poolCache (poolPubkey de.event) with
    | some poolId => exact .inl rfl
    | none =>
      right
      rw [List.mem_dedup, List.mem_insertionSort, List.mem_filter]
      exact ⟨List.mem_map_of_mem member, by rw [cached]; rfl⟩
  simp only at done
  split at done
  next none =>
    obtain ⟨_, rfl⟩ := pure_done.mp done
    refine ⟨rfl, rfl, ?_, fun pubkey poolId cached => .inl cached⟩
    intro de member _
    rcases wanted de member with cached | needed
    · exact cached
    · rw [List.isEmpty_iff.mp none] at needed
      cases needed
  next =>
    obtain ⟨rows, middle, sent, done⟩ := bind_done.mp done
    obtain ⟨db, same, rfl⟩ := statement_done sent
    cases same
    obtain ⟨database, carried, cached, sound⟩ := remember_done done
    refine ⟨database, carried, ?_, ?_⟩
    · rintro de member ⟨row, stored, named⟩
      apply cached
      rcases wanted de member with already | needed
      · exact .inl already
      · exact .inr ⟨row, mem_poolList.mpr ⟨stored, by rw [named]; exact needed⟩, named⟩
    · intro pubkey poolId found
      rcases sound pubkey poolId found with already | ⟨row, listed, named⟩
      · exact .inl already
      · exact .inr ⟨row, (mem_poolList.mp listed).1, named⟩

end Caches

section Batches
variable {now : Int} {poolCache : String → Option Nat} {lpSupplyCache : Nat → Option Int} {start : Batches}
  {de : DecodedEvent}

def poolRow (now : Int) (de : DecodedEvent) : Option NewPoolRow :=
  match de.event with
  | .poolCreated p => some (newPool now p de)
  | _ => none

def swapRow (now : Int) (poolId : Nat) (de : DecodedEvent) : Option NewSwapRow :=
  match de.event with
  | .swapExecuted s => some (newSwap now s poolId de)
  | _ => none

def liquidityRow (now : Int) (poolId : Nat) (de : DecodedEvent) : Option NewLiquidityRow :=
  match de.event with
  | .liquidityAdded la => some (newLiquidityAdd now la poolId de)
  | .liquidityRemoved lr => some (newLiquidityRemove now lr poolId de)
  | _ => none

theorem swapRow_poolId {poolId : Nat} {row : NewSwapRow} (made : swapRow now poolId de = some row) :
    row.poolId = poolId := by
  unfold swapRow at made
  split at made
  · cases made
    rfl
  · cases made

theorem liquidityRow_poolId {poolId : Nat} {row : NewLiquidityRow} (made : liquidityRow now poolId de = some row) :
    row.poolId = poolId := by
  unfold liquidityRow at made
  split at made
  · cases made
    rfl
  · cases made
    rfl
  · cases made

/-- The reserves an event leaves, with the LP supply it leaves or the one carried over a swap. -/
def reservesRow (now : Int) (poolId : Nat) (carried : Option Int) (de : DecodedEvent) : NewReservesRow :=
  match de.event with
  | .poolCreated p =>
    newReserves now poolId (asI64 p.solReserveAfter) (asI64 p.tokenReserveAfter) (asI64 p.lpSupplyAfter) de
  | .swapExecuted s => newReserves now poolId (asI64 s.solReserveAfter) (asI64 s.tokenReserveAfter) (carried.getD 0) de
  | .liquidityAdded la =>
    newReserves now poolId (asI64 la.solReserveAfter) (asI64 la.tokenReserveAfter) (asI64 la.lpSupplyAfter) de
  | .liquidityRemoved lr =>
    newReserves now poolId (asI64 lr.solReserveAfter) (asI64 lr.tokenReserveAfter) (asI64 lr.lpSupplyAfter) de

theorem reservesRow_key (now : Int) (poolId : Nat) (carried : Option Int) (de : DecodedEvent) :
    (reservesRow now poolId carried de).key = de.key := by
  unfold reservesRow
  split <;> rfl

theorem add_unknown (unknown : poolCache (poolPubkey de.event) = none) :
    start.add now poolCache de = start := by
  rw [Batches.add, unknown]

theorem add_rows {poolId : Nat} (known : poolCache (poolPubkey de.event) = some poolId) :
    (start.add now poolCache de).swaps = start.swaps ++ (swapRow now poolId de).toList ∧
      (start.add now poolCache de).liquidity = start.liquidity ++ (liquidityRow now poolId de).toList ∧
      (start.add now poolCache de).reserves =
        start.reserves ++ [reservesRow now poolId (start.lpSupplyCache poolId) de] := by
  rw [Batches.add, known]
  unfold swapRow liquidityRow reservesRow
  cases de.event with
  | poolCreated p => exact ⟨(List.append_nil _).symm, (List.append_nil _).symm, rfl⟩
  | swapExecuted s => exact ⟨rfl, (List.append_nil _).symm, rfl⟩
  | liquidityAdded la => exact ⟨(List.append_nil _).symm, rfl, rfl⟩
  | liquidityRemoved lr => exact ⟨(List.append_nil _).symm, rfl, rfl⟩

/-- A column of the batches that takes at most one row from each event of a known pool. -/
private theorem fold_column {Row : Type} {column : Batches → List Row} {row : Nat → DecodedEvent → Option Row}
    (adds : ∀ {start de poolId}, poolCache (poolPubkey de.event) = some poolId →
      column (start.add now poolCache de) = column start ++ (row poolId de).toList)
    (events : List DecodedEvent) (start : Batches) :
    column (events.foldl (Batches.add now poolCache) start) =
      column start ++ events.filterMap fun de => (poolCache (poolPubkey de.event)).bind fun poolId => row poolId de := by
  induction events generalizing start with
  | nil => exact (List.append_nil _).symm
  | cons de events ih =>
    rw [List.foldl_cons, ih, List.filterMap_cons]
    cases known : poolCache (poolPubkey de.event) with
    | none => rw [add_unknown known, Option.bind_none]
    | some poolId =>
      rw [adds known, Option.bind_some]
      cases row poolId de with
      | none => rw [Option.toList_none, List.append_nil]
      | some row => rw [Option.toList_some, List.append_assoc, List.singleton_append]

theorem batchesOf_swaps : (batchesOf now poolCache lpSupplyCache events).swaps =
    events.filterMap fun de => (poolCache (poolPubkey de.event)).bind fun poolId => swapRow now poolId de :=
  fold_column (fun known => (add_rows known).1) events _

theorem batchesOf_liquidity : (batchesOf now poolCache lpSupplyCache events).liquidity =
    events.filterMap fun de => (poolCache (poolPubkey de.event)).bind fun poolId => liquidityRow now poolId de :=
  fold_column (fun known => (add_rows known).2.1) events _

private theorem fold_reserves {row : NewReservesRow} (start : Batches)
    (member : row ∈ (events.foldl (Batches.add now poolCache) start).reserves) :
    row ∈ start.reserves ∨ ∃ de ∈ events, ∃ poolId carried, poolCache (poolPubkey de.event) = some poolId ∧
      row = reservesRow now poolId carried de := by
  induction events generalizing start with
  | nil => exact .inl member
  | cons de events ih =>
    rcases ih _ member with before | ⟨later, listed, made⟩
    · cases known : poolCache (poolPubkey de.event) with
      | none =>
        rw [add_unknown known] at before
        exact .inl before
      | some poolId =>
        rw [(add_rows known).2.2] at before
        rcases List.mem_append.mp before with old | new
        · exact .inl old
        · exact .inr ⟨de, List.mem_cons_self, poolId, _, known, List.mem_singleton.mp new⟩
    · exact .inr ⟨later, List.mem_cons_of_mem _ listed, made⟩

theorem batchesOf_reserves {row : NewReservesRow}
    (member : row ∈ (batchesOf now poolCache lpSupplyCache events).reserves) :
    ∃ de ∈ events, ∃ poolId carried, poolCache (poolPubkey de.event) = some poolId ∧
      row = reservesRow now poolId carried de := by
  rcases fold_reserves _ member with impossible | found
  · cases impossible
  · exact found

private theorem fold_keeps {row : NewReservesRow} (events : List DecodedEvent) {start : Batches}
    (member : row ∈ start.reserves) :
    row ∈ (events.foldl (Batches.add now poolCache) start).reserves := by
  induction events generalizing start with
  | nil => exact member
  | cons de events ih =>
    apply ih
    cases known : poolCache (poolPubkey de.event) with
    | none =>
      rw [add_unknown known]
      exact member
    | some poolId =>
      rw [(add_rows known).2.2]
      exact List.mem_append_left _ member

private theorem fold_offers (events : List DecodedEvent) (start : Batches) (member : de ∈ events)
    (known : (poolCache (poolPubkey de.event)).isSome) :
    ∃ row ∈ (events.foldl (Batches.add now poolCache) start).reserves, row.key = de.key := by
  induction events generalizing start with
  | nil => cases member
  | cons first events ih =>
    rcases List.mem_cons.mp member with rfl | later
    · obtain ⟨poolId, cached⟩ := Option.isSome_iff_exists.mp known
      refine ⟨_, fold_keeps events ?_, reservesRow_key now poolId (start.lpSupplyCache poolId) de⟩
      rw [(add_rows cached).2.2]
      exact List.mem_append_right _ List.mem_cons_self
    · exact ih _ later

theorem batchesOf_offers (now : Int) (lpSupplyCache : Nat → Option Int) (member : de ∈ events)
    (known : (poolCache (poolPubkey de.event)).isSome) :
    ∃ row ∈ (batchesOf now poolCache lpSupplyCache events).reserves, row.key = de.key :=
  fold_offers events _ member known

end Batches

/-- What a successful pass over the events did to the database. -/
structure Ingestion (env : Environment) (events : List DecodedEvent) (before after : Db) (poolCache : String → Option Nat)
    (batches : Batches) : Prop where
  pools : after.pools = (before.pools.insert (newPools env.now events)).1
  known : ∀ de ∈ events, after.pools.Holds (poolPubkey de.event) → (poolCache (poolPubkey de.event)).isSome
  reserves : after.reserves = (before.reserves.insert batches.reserves).1
  swaps : after.swaps = (before.swaps.insert batches.swaps).1
  liquidity : after.liquidityEvents = (before.liquidityEvents.insert batches.liquidity).1
  checkpoint : after.checkpoint = before.checkpoint

/-- The same for the whole session: what the caches hold afterwards, and what is handed on. -/
structure Ingested (env : Environment) (events : List DecodedEvent) (before after : Session) (written : Written) :
  Prop where
  database : Ingestion env events before.db after.db after.poolCache
    (batchesOf env.now after.poolCache before.lpSupplyCache events)
  carried : after.lpSupplyCache = (batchesOf env.now after.poolCache before.lpSupplyCache events).lpSupplyCache
  cached : ∀ pubkey poolId, after.poolCache pubkey = some poolId → before.poolCache pubkey = some poolId ∨
    ∃ row ∈ after.db.pools.rows, row.data.pubkey = pubkey ∧ row.id = poolId
  pools : written.pools = (before.db.pools.insert (newPools env.now events)).2
  reserves : written.reserves =
    (before.db.reserves.insert (batchesOf env.now after.poolCache before.lpSupplyCache events).reserves).2
  swaps : written.swaps = (before.db.swaps.insert (batchesOf env.now after.poolCache before.lpSupplyCache events).swaps).2
  liquidity : written.liquidity =
    (before.db.liquidityEvents.insert (batchesOf env.now after.poolCache before.lpSupplyCache events).liquidity).2

theorem loadPoolCache_stored {db : Db} {pubkey : String} {poolId : Nat} (found : loadPoolCache db pubkey = some poolId) :
    ∃ row ∈ db.pools.rows, row.data.pubkey = pubkey ∧ row.id = poolId := by
  obtain ⟨row, listed, same⟩ := Option.map_eq_some_iff.mp found
  have named := List.find?_some listed
  exact ⟨row, List.mem_of_find?_eq_some listed, of_decide_eq_true named, same⟩

/-- Every entry of a pool cache names a row. -/
abbrev Named (pools : Table NewPoolRow.pubkey) (poolCache : String → Option Nat) : Prop :=
  ∀ pubkey poolId, poolCache pubkey = some poolId → ∃ row ∈ pools.rows, row.data.pubkey = pubkey ∧ row.id = poolId

theorem Ingested.keeps_row (ingested : Ingested env events before after written) {row : Stored NewPoolRow}
    (member : row ∈ before.db.pools.rows) : row ∈ after.db.pools.rows := by
  rw [ingested.database.pools, Table.insert_rows]
  exact List.mem_append_left _ member

/-- A pool cache that speaks of rows that exist goes on doing so. -/
theorem Ingested.caches (ingested : Ingested env events before after written)
    (cached : Named before.db.pools before.poolCache) : Named after.db.pools after.poolCache := by
  intro pubkey poolId found
  rcases ingested.cached pubkey poolId found with old | new
  · obtain ⟨row, member, named⟩ := cached pubkey poolId old
    exact ⟨row, ingested.keeps_row member, named⟩
  · exact new

theorem ingest_done (done : ingest env events before = .ok written after) : Ingested env events before after written := by
  unfold ingest at done
  obtain ⟨pools, first, setPools, done⟩ := bind_done.mp done
  obtain ⟨db, sent, rfl⟩ := insertion_done (by rintro empty db; rw [empty]; rfl) setPools
  obtain ⟨rfl, rfl⟩ := poolSet_done sent
  obtain ⟨_, second, remembers, done⟩ := bind_done.mp done
  obtain ⟨sameDb, sameSupply, _, learns⟩ := remember_done remembers
  obtain ⟨_, third, fills, done⟩ := bind_done.mp done
  obtain ⟨filledDb, filledSupply, known, fetches⟩ := backfillCache_done fills
  obtain ⟨session, _, read, done⟩ := bind_done.mp done
  obtain ⟨rfl, rfl⟩ := get_done.mp read
  obtain ⟨_, fourth, carries, done⟩ := bind_done.mp done
  obtain rfl := modify_done.mp carries
  rw [sameDb] at filledDb known fetches
  rw [sameSupply] at filledSupply
  obtain ⟨_, poolCache, _⟩ := third
  obtain rfl := filledDb
  obtain rfl := filledSupply
  obtain ⟨reserves, fifth, setReserves, done⟩ := bind_done.mp done
  obtain ⟨db, sent, rfl⟩ := insertion_done (by rintro empty db; rw [empty]; rfl) setReserves
  obtain ⟨rfl, rfl⟩ := reservesSet_done sent
  obtain ⟨swaps, sixth, setSwaps, done⟩ := bind_done.mp done
  obtain ⟨db, sent, rfl⟩ := insertion_done (by rintro empty db; rw [empty]; rfl) setSwaps
  obtain ⟨rfl, rfl⟩ := swapSet_done sent
  obtain ⟨liquidity, seventh, setLiquidity, done⟩ := bind_done.mp done
  obtain ⟨db, sent, rfl⟩ := insertion_done (by rintro empty db; rw [empty]; rfl) setLiquidity
  obtain ⟨rfl, rfl⟩ := liquiditySet_done sent
  obtain ⟨rfl, rfl⟩ := pure_done.mp done
  refine ⟨⟨rfl, known, rfl, rfl, rfl, rfl⟩, rfl, ?_, rfl, rfl, rfl, rfl⟩
  intro pubkey poolId found
  rcases fetches pubkey poolId found with cached | listed
  · rcases learns pubkey poolId cached with already | ⟨row, inserted, named⟩
    · exact .inl already
    · refine .inr ⟨row, ?_, named⟩
      simp only [Table.insert_rows]
      exact List.mem_append_right _ inserted
  · exact .inr listed

theorem writeBlock_done {batch : BlockBatch} (done : writeBlock env batch before = .ok written after) :
    ∃ last, Ingested env (batch.events.insertionSort (DecodedEvent.before · ·)) before last written ∧
      after = { last with db := { last.db with checkpoint := some (asI64 batch.slot) } } := by
  obtain ⟨_, first, begins, begun⟩ := bind_done.mp (transaction_done done)
  obtain rfl := notice_done begins
  obtain ⟨_, second, ingests, ingested⟩ := bind_done.mp begun
  obtain ⟨_, third, marks, marked⟩ := bind_done.mp ingested
  obtain ⟨db, same, rfl⟩ := statement_done marks
  cases same
  obtain ⟨_, fourth, commits, committed⟩ := bind_done.mp marked
  obtain rfl := notice_done commits
  obtain ⟨rfl, rfl⟩ := pure_done.mp committed
  exact ⟨second, ingest_done ingests, rfl⟩

theorem writeBlock_failed {batch : BlockBatch} {error : WriteError}
    (failed : writeBlock env batch before = .error error after) :
    ∃ last, after.db = before.db.rollback last := by
  obtain ⟨last, _, rfl⟩ := transaction_failed failed
  exact ⟨last.db, rfl⟩

/-- An empty page sends nothing. -/
theorem applyPage_done {count : Nat} (done : applyPage env events before = .ok count after) :
    (events = [] ∧ count = 0 ∧ after = before) ∨
      ∃ written, Ingested env (events.insertionSort (DecodedEvent.earlier · ·)) before after written ∧
        count = written.pools.length + written.reserves.length + written.swaps.length + written.liquidity.length := by
  unfold applyPage at done
  split at done
  next empty =>
    obtain ⟨rfl, rfl⟩ := pure_done.mp done
    exact .inl ⟨List.isEmpty_iff.mp empty, rfl, rfl⟩
  · obtain ⟨_, first, begins, begun⟩ := bind_done.mp (transaction_done done)
    obtain rfl := notice_done begins
    obtain ⟨written, second, ingests, ingested⟩ := bind_done.mp begun
    obtain ⟨_, third, commits, committed⟩ := bind_done.mp ingested
    obtain rfl := notice_done commits
    obtain ⟨counted, rfl⟩ := pure_done.mp committed
    exact .inr ⟨written, ingest_done ingests, counted.symm⟩

theorem applyPage_failed {error : WriteError} (failed : applyPage env events before = .error error after) :
    ∃ last, after.db = before.db.rollback last := by
  unfold applyPage at failed
  split at failed
  · cases failed
  · obtain ⟨last, _, rfl⟩ := transaction_failed failed
    exact ⟨last.db, rfl⟩

end DeepPool.Indexer
