import Mathlib.Data.String.Basic
import DeepPool.Proofs.Replay

/-! The current reserves of a pool. The query finds the row that is newest by slot,
signature and place in the transaction, whichever transaction the chain executed last. -/

namespace DeepPool.Indexer
open Library

/-- A chain up to some slot. The events stand in the order of their execution: by block,
by transaction, and by place in the transaction. -/
structure History extends Feed where
  numbered : (blocks.flatMap BlockBatch.events).Pairwise fun earlier later =>
    earlier.signature = later.signature → earlier.innerIxIdx < later.innerIxIdx

def History.events (history : History) : List DecodedEvent := history.blocks.flatMap BlockBatch.events

def History.line (history : History) (pubkey : String) : List DecodedEvent := eventsOf pubkey history.events

section Records
variable {env : Environment} {batch : BlockBatch} {before after session : Session} {written : Written}
  {events : List DecodedEvent} {pass : List ((Environment × BlockBatch) × Written)} {pubkey : String}

/-- Every reserves row is that of an event of its pool, and every event of a stored pool has its row. -/
structure Session.Records (session : Session) (events : List DecodedEvent) : Prop where
  cached : ∀ pubkey poolId, session.poolCache pubkey = some poolId →
    ∃ row ∈ session.db.pools.rows, row.data.pubkey = pubkey ∧ row.id = poolId
  sourced : ∀ row ∈ session.db.reserves.rows, ∃ de ∈ events, ∃ pool ∈ session.db.pools.rows,
    pool.data.pubkey = poolPubkey de.event ∧ ∃ now carried, row.data = reservesRow now pool.id carried de
  committed : ∀ de ∈ events, session.db.pools.Holds (poolPubkey de.event) → session.db.reserves.Holds de.key
  created : ∀ de ∈ events, de.creates → session.db.pools.Holds (poolPubkey de.event)

theorem Session.Records.start : (Session.load .empty).Records [] where
  cached := fun _ _ impossible => by cases impossible
  sourced := fun _ impossible => by cases impossible
  committed := fun _ impossible => by cases impossible
  created := fun _ impossible => by cases impossible

theorem Session.Records.write (records : before.Records events) (done : before.write (env, batch) = .ok (after, written))
    (known : ∀ de ∈ events, ∀ creation ∈ batch.events,
    creation.creates → poolPubkey creation.event ≠ poolPubkey de.event) :
    after.Records (events ++ batch.events) := by
  obtain ⟨last, ingested, rfl⟩ := Session.write_done done
  have cached := ingested.caches records.cached
  refine ⟨cached, ?_, ?_, ?_⟩
  · intro row member
    simp only [ingested.database.reserves] at member
    rcases Table.mem_insert member with old | new
    · obtain ⟨de, listed, pool, stored, made⟩ := records.sourced row old
      exact ⟨de, List.mem_append_left _ listed, pool, ingested.keeps_row stored, made⟩
    · obtain ⟨de, listed, poolId, carried, found, made⟩ := batchesOf_reserves new
      obtain ⟨pool, stored, named, rfl⟩ := cached _ _ found
      exact ⟨de, List.mem_append_right _ (BlockBatch.mem_processed.mp listed), pool, stored, named, env.now, carried,
        made⟩
  · intro de member holds
    rcases List.mem_append.mp member with old | new
    · rcases ingested.database.holds_pool holds with stored | ⟨creation, listed, creates, same⟩
      · simp only [ingested.database.reserves]
        exact (records.committed de old stored).insert _
      · exact absurd same (known de old creation (BlockBatch.mem_processed.mp listed) creates)
    · exact (ingested.database.commits (BlockBatch.mem_processed.mpr new) holds).1
  · intro de member creates
    rcases List.mem_append.mp member with old | new
    · exact ingested.database.keeps_pool (records.created de old creates)
    · exact ingested.database.creates (BlockBatch.mem_processed.mpr new) creates

theorem Session.Records.run (records : session.Records events) (runs : Run Session.write session pass after)
    (created : (⟨0, events⟩ :: pass.map fun write => write.1.2).Pairwise fun earlier later => ∀ de ∈ earlier.events,
      ∀ creation ∈ later.events, creation.creates → poolPubkey creation.event ≠ poolPubkey de.event) :
    after.Records (events ++ (pass.map fun write => write.1.2).flatMap BlockBatch.events) := by
  induction runs generalizing events with
  | nil session =>
    rw [List.map_nil, List.flatMap_nil, List.append_nil]
    exact records
  | cons first rest ih =>
    rename_i before middle last event written trace
    obtain ⟨env, batch⟩ := event
    rw [List.map_cons, List.pairwise_cons, List.pairwise_cons] at created
    obtain ⟨known, later, remaining⟩ := created
    rw [List.map_cons, List.flatMap_cons, ← List.append_assoc]
    apply ih (records.write first (known batch List.mem_cons_self))
    apply List.pairwise_cons.mpr
    refine ⟨?_, remaining⟩
    intro next listed de member
    rcases List.mem_append.mp member with old | new
    · exact known next (List.mem_cons_of_mem _ listed) de old
    · exact later next listed de new

end Records

section Latest
variable {history : History} {collation : Collation} {session : Session} {pool : Stored NewPoolRow} {pubkey : String}
  {de other last : DecodedEvent} {row : Stored NewReservesRow} {poolIds : List Nat}

theorem History.key_inj (member : de ∈ history.events) (listed : other ∈ history.events) (same : de.key = other.key) :
    de = other := by
  have keys : (history.events.map DecodedEvent.key).Nodup := by
    rw [List.Nodup, List.pairwise_map]
    apply history.numbered.imp
    intro earlier later numbered equal
    have place : earlier.innerIxIdx = later.innerIxIdx := congrArg Prod.snd equal
    exact absurd place (ne_of_lt (numbered (congrArg Prod.fst equal)))
  exact List.inj_on_of_nodup_map keys member listed same

theorem History.last_numbered (ends : (history.line pubkey).getLast? = some last) (member : de ∈ history.line pubkey)
    (same : de.signature = last.signature) : de = last ∨ de.innerIxIdx < last.innerIxIdx := by
  have numbered := history.numbered.sublist (List.filter_sublist (p := fun de => poolPubkey de.event = pubkey))
  obtain ⟨earlier, split⟩ := List.getLast?_eq_some_iff.mp ends
  rw [History.line, History.events, eventsOf] at split
  rw [split] at numbered
  rw [History.line, History.events, eventsOf, split] at member
  rcases List.mem_append.mp member with before | only
  · exact .inr ((List.pairwise_append.mp numbered).2.2 de before last List.mem_cons_self same)
  · exact .inl (List.mem_singleton.mp only)

abbrev Collation.newestEvent (collation : Collation) : DecodedEvent → DecodedEvent → Prop :=
  collation.newest DecodedEvent.slot DecodedEvent.signature DecodedEvent.innerIxIdx

/-- The newest event is the last one if no other transaction of its slot has a greater signature. -/
theorem Collation.newest_last (member : de ∈ history.line pubkey) (ends : (history.line pubkey).getLast? = some last)
    (newest : ∀ other ∈ history.line pubkey, collation.newestEvent de other) :
    de = last ↔ ∀ other ∈ history.line pubkey, other.slot ≤ last.slot ∧
      (other.slot = last.slot → collation.rank other.signature ≤ collation.rank last.signature) := by
  constructor
  · rintro rfl other listed
    obtain ⟨slot, tied⟩ := newest other listed
    refine ⟨slot, ?_⟩
    intro same
    exact (tied (ge_of_eq same)).1
  · intro greatest
    obtain ⟨slot, tied⟩ := newest last (List.mem_of_getLast? ends)
    obtain ⟨below, signed⟩ := greatest de member
    obtain ⟨signature, numbers⟩ := tied below
    have equal := le_antisymm (signed (le_antisymm below slot)) signature
    rcases History.last_numbered ends member (collation.injective equal) with same | lower
    · exact same
    · exact absurd (numbers (le_of_eq equal)) (not_le.mpr lower)

theorem Session.Records.executed (records : session.Records history.events) (member : pool ∈ session.db.pools.rows)
    (stored : row ∈ session.db.reserves.rows) (mine : row.data.poolId = pool.id) :
    ∃ de ∈ history.line pool.data.pubkey, ∃ now carried, row.data = reservesRow now pool.id carried de := by
  obtain ⟨de, listed, owner, known, named, now, carried, made⟩ := records.sourced row stored
  rw [made, reservesRow_poolId] at mine
  obtain rfl := Table.id_inj known member mine
  exact ⟨de, mem_eventsOf.mpr ⟨listed, named.symm⟩, now, carried, made⟩

theorem Session.Records.stored (records : session.Records history.events) (member : pool ∈ session.db.pools.rows)
    (listed : de ∈ history.line pool.data.pubkey) : ∃ row ∈ session.db.reserves.rows,
      row.data.poolId = pool.id ∧ ∃ now carried, row.data = reservesRow now pool.id carried de := by
  obtain ⟨executed, named⟩ := mem_eventsOf.mp listed
  obtain ⟨row, stored, keyed⟩ := records.committed de executed ⟨pool, member, named.symm⟩
  obtain ⟨other, source, owner, known, same, now, carried, made⟩ := records.sourced row stored
  rw [made, reservesRow_key] at keyed
  obtain rfl := history.key_inj source executed keyed
  obtain rfl := Table.key_inj known member (same.trans named)
  exact ⟨row, stored, by rw [made, reservesRow_poolId], now, carried, made⟩

theorem Collation.newest_antisymm {Row : Type} {lastSlot : Row → Int} {signature : Row → String} {innerIxIdx : Row → Nat}
    {a b : Row} (forward : collation.newest lastSlot signature innerIxIdx a b)
    (backward : collation.newest lastSlot signature innerIxIdx b a) :
    lastSlot a = lastSlot b ∧ signature a = signature b ∧ innerIxIdx a = innerIxIdx b := by
  obtain ⟨later, tied⟩ := forward
  obtain ⟨earlier, level⟩ := backward
  obtain ⟨above, placed⟩ := tied earlier
  obtain ⟨below, numbered⟩ := level later
  exact ⟨le_antisymm earlier later, collation.injective (le_antisymm below above),
    le_antisymm (numbered above) (placed below)⟩

structure Db.Newest (db : Db) (collation : Collation) (poolId : Nat) (row : Stored NewReservesRow) : Prop where
  stored : row ∈ db.reserves.rows
  mine : row.data.poolId = poolId
  least : ∀ other ∈ db.reserves.rows, other.data.poolId = poolId → other = row ∨
    collation.newest (·.data.lastSlot) (·.data.signature) (·.data.innerIxIdx) row other

theorem Db.Newest.unique {db : Db} {poolId : Nat} {other : Stored NewReservesRow}
    (newest : db.Newest collation poolId row)
    (also : db.Newest collation poolId other) : other = row := by
  rcases newest.least other also.stored also.mine with same | forward
  · exact same
  · rcases also.least row newest.stored newest.mine with same | backward
    · exact same.symm
    · obtain ⟨_, signature, place⟩ := collation.newest_antisymm backward forward
      exact Table.key_inj also.stored newest.stored (Prod.ext signature place)

theorem Db.latest_newest (collation : Collation) {db : Db} {poolId : Nat} (asked : poolId ∈ poolIds)
    (stored : row ∈ db.reserves.rows)
    (mine : row.data.poolId = poolId) : ∃ newest, db.Newest collation poolId newest ∧
      (db.latestForPools collation poolIds).filter (·.data.poolId = poolId) = [newest] := by
  have some_ : poolIds.isEmpty = false := List.isEmpty_eq_false_iff.mpr (List.ne_nil_of_mem asked)
  have wanted : ∀ other ∈ db.reserves.rows, other.data.poolId = poolId →
      other ∈ db.reserves.rows.filter (·.data.poolId ∈ poolIds) := by
    intro other listed same
    exact List.mem_filter.mpr ⟨listed, by rw [same]; exact decide_eq_true asked⟩
  unfold Db.latestForPools
  rw [some_]
  simp only [Bool.false_eq_true, if_false, distinctOn_filter]
  cases first : List.find? (fun row : Stored NewReservesRow => decide (row.data.poolId = poolId))
      ((db.reserves.rows.filter (·.data.poolId ∈ poolIds)).insertionSort (thenBy (ascending (·.data.poolId))
        (collation.newest (·.data.lastSlot) (·.data.signature) (·.data.innerIxIdx)))) with
  | none =>
    have absent := List.find?_eq_none.mp first row ((List.mem_insertionSort _).mpr (wanted row stored mine))
    exact absurd (decide_eq_true mine) absent
  | some newest =>
    obtain ⟨member, same, least⟩ := find?_insertionSort first
    have equal : newest.data.poolId = poolId := of_decide_eq_true same
    refine ⟨newest, ⟨List.mem_of_mem_filter member, equal, ?_⟩, rfl⟩
    intro other listed also
    rcases least other (wanted other listed also) (decide_eq_true also) with identical | ⟨_, tied⟩
    · exact .inl identical
    · exact .inr (tied (le_of_eq (also.trans equal.symm)))

/-- Any query for the pool answers with the row of the event. -/
def Db.Shows (db : Db) (collation : Collation) (pool : Stored NewPoolRow) (de : DecodedEvent) : Prop :=
  ∀ poolIds, pool.id ∈ poolIds → ∃ row now carried,
    (db.latestForPools collation poolIds).filter (·.data.poolId = pool.id) = [row] ∧
      row.data = reservesRow now pool.id carried de

theorem newest_rows {rest : Stored NewReservesRow} {now clock : Int} {poolId : Nat} {carried brought : Option Int}
    (made : row.data = reservesRow now poolId carried de) (also : rest.data = reservesRow clock poolId brought other)
    (newest : collation.newest (·.data.lastSlot) (·.data.signature) (·.data.innerIxIdx) row rest) :
    collation.newestEvent de other := by
  have key := reservesRow_key now poolId carried de
  have second := reservesRow_key clock poolId brought other
  have slot : (reservesRow now poolId carried de).lastSlot = de.slot := reservesRow_supply.2
  have later : (reservesRow clock poolId brought other).lastSlot = other.slot := reservesRow_supply.2
  rw [← made] at key slot
  rw [← also] at second later
  have signature : row.data.signature = de.signature := congrArg Prod.fst key
  have place : row.data.innerIxIdx = de.innerIxIdx := congrArg Prod.snd key
  have signed : rest.data.signature = other.signature := congrArg Prod.fst second
  have numbered : rest.data.innerIxIdx = other.innerIxIdx := congrArg Prod.snd second
  simp only [thenBy, descending, slot, later, signature, signed, place, numbered] at newest
  exact newest

/-- The query shows the newest event of the pool. -/
theorem Session.Records.shows (records : session.Records history.events) (member : pool ∈ session.db.pools.rows)
    (touched : de ∈ history.line pool.data.pubkey) (collation : Collation) :
    ∃ newest ∈ history.line pool.data.pubkey, session.db.Shows collation pool newest ∧
      ∀ other ∈ history.line pool.data.pubkey, collation.newestEvent newest other := by
  obtain ⟨witness, present, mine, _⟩ := records.stored member touched
  obtain ⟨row, first, _⟩ := Db.latest_newest collation (List.mem_singleton_self pool.id) present mine
  obtain ⟨newest, executed, now, carried, made⟩ := records.executed member first.stored first.mine
  refine ⟨newest, executed, ?_, ?_⟩
  · intro poolIds asked
    obtain ⟨found, again, answer⟩ := Db.latest_newest collation asked present mine
    exact ⟨found, now, carried, answer, first.unique again ▸ made⟩
  · intro other listed
    obtain ⟨rest, kept, also, clock, brought, data⟩ := records.stored member listed
    rcases first.least rest kept also with rfl | older
    · have keyed : newest.key = other.key := by
        rw [← reservesRow_key now pool.id carried newest, ← made, data, reservesRow_key]
      rw [History.key_inj (mem_eventsOf.mp executed).1 (mem_eventsOf.mp listed).1 keyed]
      exact ⟨le_refl _, fun _ => ⟨le_refl _, fun _ => le_refl _⟩⟩
    · exact newest_rows made data older

theorem Db.Shows.unique {db : Db} (shows : db.Shows collation pool de) (also : db.Shows collation pool other) :
    de.key = other.key := by
  obtain ⟨row, now, carried, answer, made⟩ := shows [pool.id] (List.mem_singleton_self _)
  obtain ⟨found, clock, brought, again, data⟩ := also [pool.id] (List.mem_singleton_self _)
  obtain rfl := List.singleton_inj.mp (answer.symm.trans again)
  rw [← reservesRow_key now pool.id carried de, ← made, data, reservesRow_key]

/-- After a pass over the chain the current reserves of a pool are those of the event that
is newest by slot, signature and place in the transaction. They are those of the event
that executed last if no other transaction of its slot has a greater signature. -/
theorem latest_is_newest (collation : Collation) {pass : List ((Environment × BlockBatch) × Written)}
    {after : Session} {creation : DecodedEvent}
    (runs : Run Session.write (.load .empty) pass after) (whole : pass.map (fun write => write.1.2) = history.blocks)
    (made : creation ∈ history.events) (creates : creation.creates)
    (ends : (history.line (poolPubkey creation.event)).getLast? = some last) :
    ∃ pool ∈ after.db.pools.rows, pool.data.pubkey = poolPubkey creation.event ∧
      (∃ newest ∈ history.line pool.data.pubkey, after.db.Shows collation pool newest ∧
        ∀ other ∈ history.line pool.data.pubkey, collation.newestEvent newest other) ∧
      (after.db.Shows collation pool last ↔ ∀ other ∈ history.line pool.data.pubkey, other.slot ≤ last.slot ∧
        (other.slot = last.slot → collation.rank other.signature ≤ collation.rank last.signature)) := by
  have records : after.Records history.events := by
    have created : (⟨0, []⟩ :: pass.map fun write => write.1.2).Pairwise fun earlier later => ∀ de ∈ earlier.events,
        ∀ creation ∈ later.events, creation.creates → poolPubkey creation.event ≠ poolPubkey de.event := by
      rw [whole]
      exact List.pairwise_cons.mpr ⟨fun _ _ _ impossible => (by cases impossible), history.created⟩
    have recorded := Session.Records.start.run runs created
    rw [whole] at recorded
    exact recorded
  obtain ⟨pool, member, named⟩ := records.created creation made creates
  have touched : creation ∈ history.line pool.data.pubkey := mem_eventsOf.mpr ⟨made, named.symm⟩
  obtain ⟨newest, executed, shown, least⟩ := records.shows member touched collation
  rw [← named] at ends
  refine ⟨pool, member, named, ⟨newest, executed, shown, least⟩, ?_⟩
  rw [← collation.newest_last executed ends least]
  constructor
  · intro shows
    exact History.key_inj (mem_eventsOf.mp executed).1 (mem_eventsOf.mp (List.mem_of_getLast? ends)).1
      (shown.unique shows)
  · rintro rfl
    exact shown

end Latest

section Samples

def Collation.bytes : Collation := ⟨String, inferInstance, id, Function.injective_id⟩

def crossedHistory : History where
  blocks :=
    [⟨100, [sampleCreated]⟩,
      ⟨101, [{ sampleSwap with signature := "3C" }, { sampleSwap with
        event := .swapExecuted {
          pool := Vector.replicate 32 1, user := Vector.replicate 32 6, solSource := Vector.replicate 32 6, buy := true
          amountInGross := 1000, amountInNet := 998, amountOutGross := 1, amountOutNet := 1, fee := 2
          solReserveAfter := 5000002000, tokenReserveAfter := 4999998 } }]⟩]
  ordered := by decide +kernel
  created := by decide +kernel
  numbered := by decide +kernel

def crossedPass : List (Environment × BlockBatch) := crossedHistory.blocks.map fun batch => (healthy, batch)

theorem latest_is_newest_sample : ∃ after : Session, ∃ pool ∈ after.db.pools.rows,
    ∃ newest ∈ crossedHistory.line pool.data.pubkey, after.db.Shows .bytes pool newest := by
  have passed : accepts (execute Session.write (.load .empty) crossedPass)
      (fun result => result.1.db.reserves.rows.length = 3) = true := by decide +kernel
  obtain ⟨⟨after, pass⟩, done, _⟩ := accepts_iff.mp passed
  have ends : (crossedHistory.line (poolPubkey sampleCreated.event)).getLast?.map DecodedEvent.signature = some "2B" := by
    decide +kernel
  obtain ⟨last, found, _⟩ := Option.map_eq_some_iff.mp ends
  obtain ⟨pool, member, _, ⟨newest, executed, shown, _⟩, _⟩ := latest_is_newest .bytes (execute_run done)
    (passOf_blocks done) List.mem_cons_self rfl found
  exact ⟨after, pool, member, newest, executed, shown⟩

/-- The query shows the swap that executed first. -/
theorem latest_not_last : ∃ (pass : List ((Environment × BlockBatch) × Written)) (after : Session),
    Run Session.write (.load .empty) pass after ∧ pass.map (fun write => write.1.2) = crossedHistory.blocks ∧
      ∃ pool ∈ after.db.pools.rows, ∃ last, (crossedHistory.line pool.data.pubkey).getLast? = some last ∧
        ¬ after.db.Shows .bytes pool last := by
  have passed : accepts (execute Session.write (.load .empty) crossedPass)
      (fun result => result.1.db.pools.rows.map (fun row => (row.id, row.data.pubkey)) =
        [(1, poolPubkey sampleCreated.event)] ∧
          (result.1.db.latestForPools .bytes [1]).map (·.data.signature) = ["3C"]) = true := by decide +kernel
  obtain ⟨⟨after, pass⟩, done, facts⟩ := accepts_iff.mp passed
  obtain ⟨pools, answer⟩ := of_decide_eq_true facts
  have ends : (crossedHistory.line (poolPubkey sampleCreated.event)).getLast?.map DecodedEvent.signature = some "2B" := by
    decide +kernel
  obtain ⟨last, found, signed⟩ := Option.map_eq_some_iff.mp ends
  obtain ⟨pool, only⟩ := List.map_eq_singleton_iff.mp pools
  obtain ⟨stored, named⟩ := only
  have member : pool ∈ after.db.pools.rows := by
    rw [stored]
    exact List.mem_cons_self
  have first : pool.id = 1 := congrArg Prod.fst named
  have pubkey : pool.data.pubkey = poolPubkey sampleCreated.event := congrArg Prod.snd named
  refine ⟨pass, after, execute_run done, passOf_blocks done, pool, member, last, pubkey ▸ found, ?_⟩
  intro shows
  obtain ⟨row, now, carried, found, made⟩ := shows [1] (first ▸ List.mem_singleton_self _)
  have shown : row ∈ after.db.latestForPools .bytes [1] :=
    List.mem_of_mem_filter (found ▸ List.mem_singleton_self row)
  have other := List.mem_map_of_mem (f := fun row => row.data.signature) shown
  rw [answer, made] at other
  have keyed : (reservesRow now pool.id carried last).signature = last.signature :=
    congrArg Prod.fst (reservesRow_key now pool.id carried last)
  rw [keyed, signed] at other
  exact absurd other (by decide)

end Samples
end DeepPool.Indexer
