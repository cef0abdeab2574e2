import DeepPool.Proofs.Uninterrupted

/-! The LP supply of a swap's reserves row. It is that of the last event before the swap that
states one, in the order of slot, signature and place: over all blocks that the live writer took,
and on the page of the swap for the backfill. -/

namespace DeepPool.Indexer
open Library

/-- The LP supply that the last of the events states. -/
def latestSupply (events : List DecodedEvent) : Option Int := (events.filterMap supply).getLast?

def Feed.processed (feed : Feed) : List DecodedEvent := feed.blocks.flatMap BlockBatch.processed

def inOrder (events : List DecodedEvent) : List DecodedEvent := events.insertionSort (DecodedEvent.earlier · ·)

def Session.page (session : Session) : Environment × List DecodedEvent → Except ReplayError (Session × Nat)
  | (env, events) =>
    match applyPage env events session with
    | .ok count after => .ok (after, count)
    | .error _ _ => .error .failed

/-- The row of an event of the pool, with the supply that is stated last up to it, or else the fallback. -/
def Carried (fallback : Nat → Option Int) (pubkey : String) (events : List DecodedEvent) (row : NewReservesRow) : Prop :=
  ∃ early de late, events = early ++ de :: late ∧ poolPubkey de.event = pubkey ∧ row.key = de.key ∧
    row.lpSupply = ((supply de).or (carry supply (fallback row.poolId) (eventsOf pubkey early))).getD 0

/-- What the row of a swap has to store: the supply of the latest event of its pool before it, or else the fallback. -/
def StoresLatest (events : List DecodedEvent) (fallback : Option Int) (row : NewReservesRow) : Prop :=
  ∀ early de late s, events = early ++ de :: late → de.event = .swapExecuted s → row.key = de.key →
    row.lpSupply = ((latestSupply (eventsOf (poolPubkey de.event) early)).or fallback).getD 0

theorem Session.page_done {env : Environment} {session after : Session} {events : List DecodedEvent} {count : Nat}
    (done : session.page (env, events) = .ok (after, count)) : applyPage env events session = .ok count after := by
  unfold Session.page at done
  simp only at done
  split at done
  next outcome =>
    cases done
    exact outcome
  · cases done

section Line
variable {now : Int} {poolId : Nat} {pubkey : String} {carried : Option Int} {events line early late : List DecodedEvent}
  {row : NewReservesRow} {de : DecodedEvent} {fallback other : Nat → Option Int}

theorem mem_reservesFrom : row ∈ reservesFrom now poolId carried line ↔ ∃ early de late,
    line = early ++ de :: late ∧ row = reservesRow now poolId (carry supply carried early) de := by
  induction line generalizing carried with
  | nil => simp [reservesFrom]
  | cons first line ih =>
    rw [reservesFrom, List.mem_cons, ih]
    constructor
    · rintro (rfl | ⟨early, de, late, rfl, rfl⟩)
      · exact ⟨[], first, line, rfl, rfl⟩
      · exact ⟨first :: early, de, late, rfl, rfl⟩
    · rintro ⟨early, de, late, split, rfl⟩
      cases early with
      | nil =>
        cases split
        exact .inl rfl
      | cons first early =>
        cases split
        exact .inr ⟨early, de, late, rfl, rfl⟩

theorem eventsOf_split (split : eventsOf pubkey events = early ++ de :: late) :
    ∃ front back, events = front ++ de :: back ∧ eventsOf pubkey front = early := by
  obtain ⟨first, rest, rfl, before, after⟩ := List.filter_eq_append_iff.mp split
  obtain ⟨skipped, back, rfl, others, _, _⟩ := List.filter_eq_cons_iff.mp after
  refine ⟨first ++ skipped, back, by rw [List.append_assoc], ?_⟩
  rw [eventsOf, List.filter_append, before, List.filter_eq_nil_iff.mpr others, List.append_nil]

theorem eventsOf_append : eventsOf pubkey (early ++ late) = eventsOf pubkey early ++ eventsOf pubkey late :=
  List.filter_append _ _

theorem Carried.at (carries : Carried fallback pubkey events row) (distinct : (events.map DecodedEvent.key).Nodup)
    (split : events = early ++ de :: late) (same : row.key = de.key) :
    row.lpSupply = ((supply de).or (carry supply (fallback row.poolId) (eventsOf (poolPubkey de.event) early))).getD 0 := by
  obtain ⟨front, found, back, whole, rfl, keyed, stored⟩ := carries
  have equal : found = de := by
    refine List.inj_on_of_nodup_map distinct ?_ ?_ (keyed.symm.trans same)
    · rw [whole]
      exact List.mem_append_right _ List.mem_cons_self
    · rw [split]
      exact List.mem_append_right _ List.mem_cons_self
  subst equal
  have unique := distinct.of_map
  rw [whole, List.nodup_middle] at unique
  have outside := (List.nodup_cons.mp unique).1
  rw [List.mem_append, not_or] at outside
  obtain ⟨rfl, _⟩ := (List.append_cons_inj_of_notMem outside.1 outside.2).mp (whole.symm.trans split)
  exact stored

theorem Carried.latest (carries : Carried fallback pubkey events row) (distinct : (events.map DecodedEvent.key).Nodup) :
    StoresLatest events (fallback row.poolId) row := by
  intro early de late s split swaps same
  have silent : supply de = none := by rw [supply, swaps]
  rw [carries.at distinct split same, silent, Option.none_or, carry_last, latestSupply]

theorem Carried.within (carries : Carried fallback pubkey events row) (after : List DecodedEvent)
    (same : fallback row.poolId = carry supply (other row.poolId) (eventsOf pubkey line)) :
    Carried other pubkey (line ++ events ++ after) row := by
  obtain ⟨early, de, late, rfl, named, keyed, stored⟩ := carries
  refine ⟨line ++ early, de, late ++ after, by simp, named, keyed, ?_⟩
  rw [stored, same, eventsOf_append, carry_append]

end Line

section Write
variable {env : Environment} {batch : BlockBatch} {before after session : Session} {written : Written}
  {events : List DecodedEvent} {row : Stored NewReservesRow}

theorem Ingested.carries (ingested : Ingested env events before after written)
    (named : Named before.db.pools before.poolCache) (member : row ∈ written.reserves) :
    ∃ pool ∈ after.db.pools.rows, pool.id = row.data.poolId ∧
      Carried before.lpSupplyCache pool.data.pubkey events row.data := by
  rw [ingested.reserves] at member
  have offered := (Table.insert_proposed member).1
  obtain ⟨de, _, poolId, _, found, made⟩ := batchesOf_reserves offered
  have addressed : row.data.poolId = poolId := by rw [made, reservesRow_poolId]
  obtain ⟨pool, stored, _, rfl⟩ := ingested.caches named _ _ found
  have mine : row.data ∈ (batchesOf env.now after.poolCache before.lpSupplyCache events).reserves.filter
      (·.poolId = pool.id) := List.mem_filter.mpr ⟨offered, decide_eq_true addressed⟩
  rw [batchesOf, (fold_pool _ (fun de listed => (ingested.addressed named).known de listed pool stored) _).1,
    List.filter_nil, List.nil_append] at mine
  obtain ⟨early, event, late, split, same⟩ := mem_reservesFrom.mp mine
  obtain ⟨front, back, whole, skipped⟩ := eventsOf_split split
  have listed : event ∈ eventsOf pool.data.pubkey events := by
    rw [split]
    exact List.mem_append_right _ List.mem_cons_self
  refine ⟨pool, stored, addressed.symm, front, event, back, whole, (mem_eventsOf.mp listed).2, ?_, ?_⟩
  · rw [same, reservesRow_key]
  · rw [addressed, skipped]
    conv_lhs => rw [same]
    exact reservesRow_supply.1

/-- After the events, the supply cache holds what they state over what was loaded. -/
structure Session.Carries (db : Db) (session : Session) (events : List DecodedEvent) : Prop where
  named : Named session.db.pools session.poolCache
  stored : ∀ pool ∈ session.db.pools.rows, session.lpSupplyCache pool.id =
    carry supply (loadLpSupplyCache db pool.id) (eventsOf pool.data.pubkey events)
  free : ∀ poolId, (∀ pool ∈ session.db.pools.rows, pool.id ≠ poolId) →
    session.lpSupplyCache poolId = loadLpSupplyCache db poolId

theorem Session.Carries.load (db : Db) : (Session.load db).Carries db [] where
  named := fun _ _ found => loadPoolCache_stored found
  stored := fun _ _ => rfl
  free := fun _ _ => rfl

theorem Session.Carries.held {db : Db} (carries : before.Carries db events)
    (ingested : Ingested env batch.processed before after written)
    (known : ∀ de ∈ events, ∀ creation ∈ batch.events,
      creation.creates → poolPubkey creation.event ≠ poolPubkey de.event)
    {pool : Stored NewPoolRow} (member : pool ∈ after.db.pools.rows) : before.lpSupplyCache pool.id =
      carry supply (loadLpSupplyCache db pool.id) (eventsOf pool.data.pubkey events) := by
  by_cases old : pool ∈ before.db.pools.rows
  · exact carries.stored pool old
  · have unknown : eventsOf pool.data.pubkey events = [] := by
      rw [eventsOf, List.filter_eq_nil_iff]
      intro de listed same
      rw [ingested.database.pools, Table.insert_rows] at member
      have new := (Table.insert_proposed ((List.mem_append.mp member).resolve_left old)).1
      obtain ⟨creation, made, creates, named⟩ := newPools_source new
      exact known de listed creation (BlockBatch.mem_processed.mp made) creates
        (named.trans (of_decide_eq_true same).symm)
    rw [unknown, carry_nil]
    apply carries.free
    intro other stored same
    exact old (Table.id_inj (ingested.keeps_row stored) member same ▸ stored)

theorem Session.Carries.write {db : Db} (carries : before.Carries db events)
    (ingested : Ingested env batch.processed before after written)
    (known : ∀ de ∈ events, ∀ creation ∈ batch.events,
      creation.creates → poolPubkey creation.event ≠ poolPubkey de.event) :
    after.Carries db (events ++ batch.processed) := by
  refine ⟨ingested.caches carries.named, ?_, ?_⟩
  · intro pool member
    rw [ingested.supply carries.named member, carries.held ingested known member, eventsOf_append, carry_append]
  · intro poolId none
    have untouched : after.lpSupplyCache poolId = before.lpSupplyCache poolId := by
      rw [ingested.carried]
      refine fold_untouched ?_ _
      intro de member found
      obtain ⟨pool, stored, same⟩ := (ingested.addressed carries.named).stored de member poolId found
      exact none pool stored same
    rw [untouched]
    exact carries.free poolId fun pool stored => none pool (ingested.keeps_row stored)

theorem Session.Carries.run {db : Db} {pass : List ((Environment × BlockBatch) × Written)}
    (carries : session.Carries db events) (runs : Run Session.write session pass after)
    (created : (⟨0, events⟩ :: pass.map fun write => write.1.2).Pairwise fun earlier later => ∀ de ∈ earlier.events,
      ∀ creation ∈ later.events, creation.creates → poolPubkey creation.event ≠ poolPubkey de.event) :
    ∀ write ∈ pass, ∀ row ∈ write.2.reserves, ∃ pubkey, Carried (loadLpSupplyCache db) pubkey
      (events ++ (pass.map fun write => write.1.2).flatMap BlockBatch.processed) row.data := by
  induction runs generalizing events with
  | nil session =>
    intro _ impossible
    cases impossible
  | cons first rest ih =>
    rename_i before middle last event written trace
    obtain ⟨env, batch⟩ := event
    rw [List.map_cons, List.pairwise_cons, List.pairwise_cons] at created
    obtain ⟨known, later, remaining⟩ := created
    obtain ⟨reached, ingested, rfl⟩ := Session.write_done first
    rw [List.map_cons, List.flatMap_cons, ← List.append_assoc]
    intro write member row inserted
    rcases List.mem_cons.mp member with rfl | further
    · obtain ⟨pool, stored, same, carried⟩ := ingested.carries carries.named inserted
      refine ⟨pool.data.pubkey, carried.within _ ?_⟩
      rw [← same]
      exact carries.held ingested (known batch List.mem_cons_self) stored
    · have carries := carries.write ingested (known batch List.mem_cons_self)
      refine ih ⟨carries.named, carries.stored, carries.free⟩ ?_ write further row inserted
      apply List.pairwise_cons.mpr
      refine ⟨?_, remaining⟩
      intro next listed de member
      rcases List.mem_append.mp member with old | new
      · exact known next (List.mem_cons_of_mem _ listed) de old
      · exact later next listed de (BlockBatch.mem_processed.mp new)

/-- Of a run of pages every new row carries on within its own page. -/
theorem pages_carry {pages : List ((Environment × List DecodedEvent) × Nat)} (runs : Run Session.page session pages after)
    (named : Named session.db.pools session.poolCache) : ∀ row ∈ after.db.reserves.rows, row ∈ session.db.reserves.rows ∨
      ∃ page ∈ pages, ∃ fallback pubkey, Carried fallback pubkey (inOrder page.1.2) row.data := by
  induction runs with
  | nil session => exact fun row member => .inl member
  | cons first rest ih =>
    rename_i before middle last event count trace
    obtain ⟨env, events⟩ := event
    intro row member
    rcases applyPage_done (Session.page_done first) with ⟨_, _, rfl⟩ | ⟨written, ingested, _⟩
    · rcases ih named row member with old | ⟨page, listed, found⟩
      · exact .inl old
      · exact .inr ⟨page, List.mem_cons_of_mem _ listed, found⟩
    · rcases ih (ingested.caches named) row member with old | ⟨page, listed, found⟩
      · rw [ingested.database.reserves, Table.insert_rows, ← ingested.reserves] at old
        rcases List.mem_append.mp old with before | new
        · exact .inl before
        · obtain ⟨pool, _, _, carried⟩ := ingested.carries named new
          exact .inr ⟨_, List.mem_cons_self, _, _, carried⟩
      · exact .inr ⟨page, List.mem_cons_of_mem _ listed, found⟩

end Write

section Chain
variable {chain : Chronicle} {feed : Feed} {replay : Replay} {archive : Archive}

theorem Feed.processed_slice (feed : Feed) (pubkey : String) :
    eventsOf pubkey feed.processed = feed.slice pubkey 0 feed.blocks.length := by
  have whole := pick_flatMap (List.range feed.blocks.length) feed.blocks fun batch => eventsOf pubkey batch.processed
  rw [pick_all] at whole
  have blocks : eventsOf pubkey feed.processed = feed.blocks.flatMap fun batch => eventsOf pubkey batch.processed :=
    List.filter_flatMap ..
  rw [blocks, whole, Feed.slice, Nat.sub_zero, ← List.range_eq_range']
  apply List.flatMap_congr
  intro i inside
  rw [if_pos inside, Feed.part]
  cases feed.blocks[i]? <;> rfl

theorem Feed.slice_prefix (feed : Feed) (pubkey : String) (frontier : Nat) :
    feed.slice pubkey 0 frontier <+: eventsOf pubkey feed.processed := by
  rw [Feed.processed_slice]
  rcases le_total frontier feed.blocks.length with short | long
  · rw [← Feed.slice_append (Nat.zero_le _) short]
    exact List.prefix_append _ _
  · have past : feed.slice pubkey feed.blocks.length frontier = [] :=
      Feed.slice_nil fun k beyond _ => Feed.part_past beyond
    rw [← Feed.slice_append (Nat.zero_le _) long, past, List.append_nil]

theorem Replay.Follows.carries (follows : replay.Follows chain archive) {row : Stored NewReservesRow}
    (member : row ∈ replay.session.db.reserves.rows) :
    ∃ pubkey, Carried (fun _ => none) pubkey chain.processed row.data := by
  obtain ⟨pool, stored, same⟩ := follows.mirrors.reserves.owned row member
  obtain ⟨line, known⟩ := follows.mirrors.known stored
  obtain ⟨_, frontier, _, whole, _⟩ := follows.known _ _ known
  have mine : row.data ∈ rowsOf NewReservesRow.poolId replay.session.db.reserves pool.id :=
    List.mem_filter.mpr ⟨List.mem_map_of_mem member, decide_eq_true same.symm⟩
  rw [follows.mirrors.reserves.lines pool stored, Archive.line, known, Option.getD_some] at mine
  obtain ⟨early, de, late, split, made⟩ := mem_reservesFrom.mp mine
  obtain ⟨rest, further⟩ := chain.slice_prefix pool.data.pubkey frontier
  rw [← whole, split, List.append_assoc, List.cons_append] at further
  obtain ⟨front, back, processed, skipped⟩ := eventsOf_split further.symm
  have listed : de ∈ eventsOf pool.data.pubkey chain.processed := by
    rw [← further]
    exact List.mem_append_right _ List.mem_cons_self
  refine ⟨pool.data.pubkey, front, de, back, processed, (mem_eventsOf.mp listed).2, ?_, ?_⟩
  · rw [made, reservesRow_key]
  · rw [made, skipped]
    exact reservesRow_supply.1

theorem Feed.processed_keyed (keyed : ((feed.blocks.flatMap BlockBatch.events).map DecodedEvent.key).Nodup) :
    (feed.processed.map DecodedEvent.key).Nodup := by
  have same : feed.processed.Perm (feed.blocks.flatMap BlockBatch.events) :=
    List.Perm.flatMap_left _ fun batch _ => List.perm_insertionSort _ batch.events
  exact (same.map DecodedEvent.key).nodup_iff.mpr keyed

theorem page_unique {pages : List (List DecodedEvent)} {page other : List DecodedEvent} {de twin : DecodedEvent}
    (keyed : (pages.flatten.map DecodedEvent.key).Nodup) (listed : page ∈ pages) (also : other ∈ pages)
    (member : de ∈ page) (again : twin ∈ other) (same : de.key = twin.key) : page = other := by
  by_contra different
  have equal := List.inj_on_of_nodup_map keyed (List.mem_flatten_of_mem listed member)
    (List.mem_flatten_of_mem also again) same
  have symmetric : Std.Symm (@List.Disjoint DecodedEvent) := ⟨fun _ _ separate => separate.symm⟩
  have disjoint := (List.nodup_flatten.mp keyed.of_map).2.forall listed also different
  exact disjoint member (equal ▸ again)

/-- The row of a swap stores the supply of the last event before it, in the order of slot, signature and
place: for the live writer from any database, over any restarts, and on every page of the backfill. -/
theorem supply_carried :
    (∀ feed : Feed, ((feed.blocks.flatMap BlockBatch.events).map DecodedEvent.key).Nodup → ∀ db pass after,
      Run Session.write (.load db) pass after → pass.map (fun write => write.1.2) = feed.blocks →
        ∀ write ∈ pass, ∀ row ∈ write.2.reserves,
          StoresLatest feed.processed (loadLpSupplyCache db row.data.poolId) row.data) ∧
    (∀ chain : Chronicle, ∀ trace replay, Run (Replay.turn chain.toFeed) .start trace replay →
      ∀ row ∈ replay.session.db.reserves.rows, StoresLatest chain.processed none row.data) ∧
    ∀ db pages after, Run Session.page (.load db) pages after →
      (((pages.map fun page => page.1.2).flatten).map DecodedEvent.key).Nodup →
        ∀ row ∈ after.db.reserves.rows, row ∉ db.reserves.rows → ∀ page ∈ pages,
          ∃ fallback, StoresLatest (inOrder page.1.2) fallback row.data := by
  refine ⟨?_, ?_, ?_⟩
  · intro feed keyed db pass after runs whole write member row inserted
    have created : (⟨0, []⟩ :: pass.map fun write => write.1.2).Pairwise fun earlier later => ∀ de ∈ earlier.events,
        ∀ creation ∈ later.events, creation.creates → poolPubkey creation.event ≠ poolPubkey de.event := by
      rw [whole]
      exact List.pairwise_cons.mpr ⟨fun _ _ _ impossible => (by cases impossible), feed.created⟩
    obtain ⟨pubkey, carried⟩ := (Session.Carries.load db).run runs created write member row inserted
    rw [whole, List.nil_append] at carried
    exact carried.latest (feed.processed_keyed keyed)
  · intro chain trace replay runs row member
    obtain ⟨archive, follows⟩ := replay_follows runs
    obtain ⟨pubkey, carried⟩ := follows.carries member
    exact carried.latest (chain.processed_keyed chain.keyed)
  · intro db pages after runs keyed row member new page listed
    obtain ⟨other, also, fallback, pubkey, carried⟩ :=
      (pages_carry runs (Session.Carries.load db).named row member).resolve_left new
    refine ⟨fallback row.data.poolId, ?_⟩
    intro early de late s split swaps same
    have mine : de ∈ page.1.2 := by
      rw [← List.mem_insertionSort (r := (DecodedEvent.earlier · ·)), ← inOrder, split]
      exact List.mem_append_right _ List.mem_cons_self
    have placed := carried
    obtain ⟨front, found, back, whole, _, keys, _⟩ := placed
    have theirs : found ∈ other.1.2 := by
      rw [← List.mem_insertionSort (r := (DecodedEvent.earlier · ·)), ← inOrder, whole]
      exact List.mem_append_right _ List.mem_cons_self
    have one := page_unique keyed (List.mem_map_of_mem listed) (List.mem_map_of_mem also) mine theirs
      (same.symm.trans keys)
    rw [← one] at carried
    have distinct : ((inOrder page.1.2).map DecodedEvent.key).Nodup := by
      have sublist : page.1.2.Sublist (pages.map fun page => page.1.2).flatten :=
        List.sublist_flatten_of_mem (List.mem_map_of_mem listed)
      have own := List.Nodup.sublist (sublist.map DecodedEvent.key) keyed
      exact ((List.perm_insertionSort _ page.1.2).map DecodedEvent.key).nodup_iff.mpr own
    exact carried.latest distinct early de late s split swaps same

end Chain

section Samples

theorem supply_carried_sample : ∃ pass : List ((Environment × BlockBatch) × Written), ∃ write ∈ pass,
    ∃ row ∈ write.2.reserves, row.data.key = sampleSwap.key ∧ row.data.lpSupply = 158112883 := by
  have passed : accepts (execute Session.write (.load .empty) (passOf sampleFeed.blocks)) (fun result =>
      result.2.any fun write => write.2.reserves.any fun row => row.data.key = sampleSwap.key) = true := by
    decide +kernel
  obtain ⟨⟨after, pass⟩, done, found⟩ := accepts_iff.mp passed
  obtain ⟨write, member, found⟩ := List.any_eq_true.mp found
  obtain ⟨row, inserted, keyed⟩ := List.any_eq_true.mp found
  have same := of_decide_eq_true keyed
  have keys : ((sampleFeed.blocks.flatMap BlockBatch.events).map DecodedEvent.key).Nodup := by decide +kernel
  have split : sampleFeed.processed = [sampleCreated] ++ sampleSwap :: [] := by decide +kernel
  have stated : latestSupply (eventsOf (poolPubkey sampleSwap.event) [sampleCreated]) = some 158112883 := by
    decide +kernel
  have carried := supply_carried.1 sampleFeed keys .empty pass after (execute_run done) (passOf_blocks done) write member
    row inserted [sampleCreated] sampleSwap [] _ split rfl same
  rw [stated] at carried
  exact ⟨pass, write, member, row, inserted, same, carried⟩

def overtakenBlocks : List BlockBatch := [⟨100, [sampleCreated]⟩, ⟨101, [sampleAdded, sampleSwap]⟩]

/-- The row of the swap has the LP supply from before the deposit. -/
theorem supply_overtaken : ∃ (pass : List ((Environment × BlockBatch) × Written)) (after : Session),
    Run Session.write (.load .empty) pass after ∧ pass.map (fun write => write.1.2) = overtakenBlocks ∧
      overtakenBlocks.flatMap BlockBatch.events = [sampleCreated, sampleAdded] ++ sampleSwap :: [] ∧
      latestSupply (eventsOf (poolPubkey sampleSwap.event) [sampleCreated, sampleAdded]) = some 158144505 ∧
      ∃ row ∈ after.db.reserves.rows, row.data.key = sampleSwap.key ∧ row.data.lpSupply = 158112883 := by
  have passed : accepts (execute Session.write (.load .empty) (passOf overtakenBlocks)) (fun result =>
      result.1.db.reserves.rows.any fun row => row.data.key = sampleSwap.key ∧ row.data.lpSupply = 158112883) = true := by
    decide +kernel
  obtain ⟨⟨after, pass⟩, done, found⟩ := accepts_iff.mp passed
  obtain ⟨row, stored, facts⟩ := List.any_eq_true.mp found
  refine ⟨pass, after, execute_run done, passOf_blocks done, rfl, ?_, row, stored, of_decide_eq_true facts⟩
  decide +kernel

end Samples
end DeepPool.Indexer
