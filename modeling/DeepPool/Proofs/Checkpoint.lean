import DeepPool.Indexer.Live
import DeepPool.Library.Transition
import DeepPool.Proofs.Ingest

/-! The checkpoint and the data. A successful write stores every event of a known pool,
a failed one stores nothing, and the replay margin covers a failed block only while no
later block has moved the checkpoint past it. -/

namespace DeepPool.Indexer
open Library

section Commits
variable {env : Environment} {events : List DecodedEvent} {before after : Db} {poolCache : String → Option Nat}
  {lpSupplyCache : Nat → Option Int} {de : DecodedEvent}

theorem Db.Commits.created (commits : before.Commits de) (creates : de.creates) :
    before.pools.Holds (poolPubkey de.event) := by
  obtain ⟨_, row⟩ := commits
  unfold DecodedEvent.creates at creates
  cases kind : de.event with
  | poolCreated p =>
    rw [kind] at row
    exact row
  | _ =>
    rw [kind] at creates
    cases creates

theorem Ingestion.keeps_pool
    (ingestion : Ingestion env events before after poolCache (batchesOf env.now poolCache lpSupplyCache events))
    {pubkey : String} (known : before.pools.Holds pubkey) : after.pools.Holds pubkey := by
  rw [ingestion.pools]
  exact known.insert _

theorem Ingestion.keeps
    (ingestion : Ingestion env events before after poolCache (batchesOf env.now poolCache lpSupplyCache events))
    (commits : before.Commits de) : after.Commits de := by
  obtain ⟨reserves, row⟩ := commits
  refine ⟨?_, ?_⟩
  · rw [ingestion.reserves]
    exact reserves.insert _
  · cases kind : de.event with
    | poolCreated p =>
      rw [kind] at row
      exact ingestion.keeps_pool row
    | swapExecuted s =>
      rw [kind] at row
      simp only [ingestion.swaps]
      exact row.insert _
    | liquidityAdded la =>
      rw [kind] at row
      simp only [ingestion.liquidity]
      exact row.insert _
    | liquidityRemoved lr =>
      rw [kind] at row
      simp only [ingestion.liquidity]
      exact row.insert _

theorem Ingestion.creates
    (ingestion : Ingestion env events before after poolCache (batchesOf env.now poolCache lpSupplyCache events))
    (member : de ∈ events) (creates : de.creates) : after.pools.Holds (poolPubkey de.event) := by
  unfold DecodedEvent.creates at creates
  cases kind : de.event with
  | poolCreated p =>
    rw [ingestion.pools]
    have offered : newPool env.now p de ∈ newPools env.now events :=
      List.mem_filterMap.mpr ⟨de, member, by rw [kind]⟩
    exact Table.insert_holds before.pools offered
  | _ =>
    rw [kind] at creates
    cases creates

theorem poolRow_source {now : Int} {row : NewPoolRow} (made : poolRow now de = some row) :
    de.creates ∧ poolPubkey de.event = row.pubkey := by
  unfold DecodedEvent.creates
  unfold poolRow at made
  split at made
  next p created =>
    rw [← Option.some.inj made, created]
    exact ⟨rfl, rfl⟩
  · cases made

theorem newPools_source {now : Int} {row : NewPoolRow} (offered : row ∈ newPools now events) :
    ∃ de ∈ events, de.creates ∧ poolPubkey de.event = row.pubkey := by
  obtain ⟨de, member, made⟩ := List.mem_filterMap.mp offered
  exact ⟨de, member, poolRow_source made⟩

/-- A pool that was not there before is created by the write. -/
theorem Ingestion.holds_pool {batches : Batches} (ingestion : Ingestion env events before after poolCache batches)
    {pubkey : String} (holds : after.pools.Holds pubkey) :
    before.pools.Holds pubkey ∨ ∃ creation ∈ events, creation.creates ∧ poolPubkey creation.event = pubkey := by
  obtain ⟨row, member, rfl⟩ := holds
  rw [ingestion.pools] at member
  rcases Table.mem_insert member with old | new
  · exact .inl ⟨row, old, rfl⟩
  · obtain ⟨creation, listed, made⟩ := List.mem_filterMap.mp new
    exact .inr ⟨creation, listed, poolRow_source made⟩

/-- Every event of a pool that the cache knows is stored. -/
theorem Ingestion.commits_cached
    (ingestion : Ingestion env events before after poolCache (batchesOf env.now poolCache lpSupplyCache events))
    (member : de ∈ events) (cached : (poolCache (poolPubkey de.event)).isSome) : after.Commits de := by
  obtain ⟨poolId, found⟩ := Option.isSome_iff_exists.mp cached
  refine ⟨?_, ?_⟩
  · obtain ⟨row, offered, same⟩ := batchesOf_offers env.now lpSupplyCache member cached
    rw [ingestion.reserves, ← same]
    exact Table.insert_holds before.reserves offered
  · cases kind : de.event with
    | poolCreated p =>
      have creates : de.creates := by rw [DecodedEvent.creates, kind]
      have known := ingestion.creates member creates
      rw [kind] at known
      exact known
    | swapExecuted s =>
      have offered : newSwap env.now s poolId de ∈ (batchesOf env.now poolCache lpSupplyCache events).swaps := by
        rw [batchesOf_swaps]
        exact List.mem_filterMap.mpr ⟨de, member, by rw [found, Option.bind_some, swapRow, kind]⟩
      simp only [ingestion.swaps]
      exact Table.insert_holds before.swaps offered
    | liquidityAdded la =>
      have offered : newLiquidityAdd env.now la poolId de ∈
        (batchesOf env.now poolCache lpSupplyCache events).liquidity := by
        rw [batchesOf_liquidity]
        exact List.mem_filterMap.mpr ⟨de, member, by rw [found, Option.bind_some, liquidityRow, kind]⟩
      simp only [ingestion.liquidity]
      exact Table.insert_holds before.liquidityEvents offered
    | liquidityRemoved lr =>
      have offered : newLiquidityRemove env.now lr poolId de ∈
        (batchesOf env.now poolCache lpSupplyCache events).liquidity := by
        rw [batchesOf_liquidity]
        exact List.mem_filterMap.mpr ⟨de, member, by rw [found, Option.bind_some, liquidityRow, kind]⟩
      simp only [ingestion.liquidity]
      exact Table.insert_holds before.liquidityEvents offered

/-- Every event of a pool that is in the table is stored. -/
theorem Ingestion.commits
    (ingestion : Ingestion env events before after poolCache (batchesOf env.now poolCache lpSupplyCache events))
    (member : de ∈ events) (known : after.pools.Holds (poolPubkey de.event)) : after.Commits de :=
  ingestion.commits_cached member (ingestion.known de member known)

end Commits
theorem Db.rollback_commits {db last : Db} {de : DecodedEvent} : (db.rollback last).Commits de ↔ db.Commits de := Iff.rfl

section Receive
variable {env : Environment} {batch : BlockBatch} {before after : Session} {written : Written}

/-- What a committed block changed. -/
structure Received (batch : BlockBatch) (before after : Db) : Prop where
  keeps : ∀ de, before.Commits de → after.Commits de
  keepsPool : ∀ pubkey, before.pools.Holds pubkey → after.pools.Holds pubkey
  creates : ∀ de ∈ batch.events, de.creates → after.pools.Holds (poolPubkey de.event)
  commits : ∀ de ∈ batch.events, after.pools.Holds (poolPubkey de.event) → after.Commits de
  checkpoint : after.lastProcessedSlot = batch.slot

theorem receive_some (done : receive env batch before = (after, some written)) : Received batch before.db after.db := by
  unfold receive at done
  split at done
  next result last outcome =>
    cases done
    obtain ⟨last, ingested, same⟩ := writeBlock_done outcome
    have ingestion := ingested.database
    have sorted : ∀ de ∈ batch.events, de ∈ batch.events.insertionSort (DecodedEvent.before · ·) :=
      fun de member => (List.mem_insertionSort _).mpr member
    rw [same]
    refine ⟨?_, ?_, ?_, ?_, ?_⟩
    · exact fun de commits => ingestion.keeps commits
    · exact fun pubkey known => ingestion.keeps_pool known
    · exact fun de member creates => ingestion.creates (sorted de member) creates
    · exact fun de member known => ingestion.commits (sorted de member) known
    · exact asU64_asI64 batch.slot
  · cases done

theorem receive_none (done : receive env batch before = (after, none)) : ∃ last, after.db = before.db.rollback last := by
  unfold receive at done
  split at done
  · cases done
  next outcome =>
    cases done
    exact writeBlock_failed outcome

end Receive

section Feed
variable {feed : Feed} {earlier later : BlockBatch} {i j : Nat}

theorem Feed.slot_lt (first : feed.blocks[i]? = some earlier) (last : feed.blocks[j]? = some later) (before : i < j) :
    earlier.slot.val < later.slot.val := by
  obtain ⟨_, rfl⟩ := List.getElem?_eq_some_iff.mp first
  obtain ⟨_, rfl⟩ := List.getElem?_eq_some_iff.mp last
  exact List.pairwise_iff_getElem.mp feed.ordered i j _ _ before

theorem Feed.slot_le (first : feed.blocks[i]? = some earlier) (last : feed.blocks[j]? = some later) (before : i ≤ j) :
    earlier.slot.val ≤ later.slot.val := by
  rcases Nat.eq_or_lt_of_le before with rfl | less
  · obtain rfl := Option.some.inj (first.symm.trans last)
    exact le_refl _
  · exact le_of_lt (feed.slot_lt first last less)

theorem Feed.creation_le {de creation : DecodedEvent} (first : feed.blocks[i]? = some earlier)
    (last : feed.blocks[j]? = some later) (made : creation ∈ earlier.events) (creates : creation.creates)
    (member : de ∈ later.events) (same : poolPubkey creation.event = poolPubkey de.event) : i ≤ j := by
  by_contra before
  obtain ⟨_, rfl⟩ := List.getElem?_eq_some_iff.mp first
  obtain ⟨_, rfl⟩ := List.getElem?_eq_some_iff.mp last
  exact List.pairwise_iff_getElem.mp feed.created j i _ _ (not_le.mp before) de member creation made creates same

end Feed

section Run
variable {feed : Feed} {buffer : U64} {world : World} {db : Db} {tip : Nat}

/-- Each delivered event of a known pool is stored, or will be delivered again, or its
block lies at or after one that failed in this session; and the checkpoint is at most
the buffer ahead of the blocks still to come and of those that failed. -/
structure World.Tracked (feed : Feed) (buffer : U64) (world : World) : Prop where
  stored : ∀ index ∈ world.delivered, ∀ batch, feed.blocks[index]? = some batch →
    ∀ de ∈ batch.events, world.Knows feed de →
    world.session.db.Commits de ∨ world.next ≤ index ∨
      ∃ k ∈ world.failed, k ≤ index ∧ ∃ missed, feed.blocks[k]? = some missed ∧ missed.events ≠ []
  ahead : ∀ index batch, world.next ≤ index → feed.blocks[index]? = some batch →
    world.session.db.lastProcessedSlot.val ≤ batch.slot.val + buffer.val
  behind : ∀ k ∈ world.failed, ∀ missed, feed.blocks[k]? = some missed → missed.events ≠ [] →
    world.session.db.lastProcessedSlot.val ≤ missed.slot.val + buffer.val

theorem World.Tracked.covered (tracked : world.Tracked feed buffer) : world.Covered feed buffer := by
  intro index delivered batch found far de member known
  rcases tracked.stored index delivered batch found de member known
      with commits | again | ⟨k, failed, before, missed, block, events⟩
  · exact commits
  · have near := tracked.ahead index batch again found
    omega
  · have near := tracked.behind k failed missed block events
    have order := feed.slot_le block found before
    omega

theorem World.mem_missed {batch : BlockBatch} :
    batch ∈ world.missed feed ↔ (∃ k ∈ world.failed, feed.blocks[k]? = some batch) ∧ batch.events ≠ [] := by
  unfold World.missed
  rw [List.mem_filter, List.mem_filterMap, Bool.not_eq_true', List.isEmpty_eq_false_iff]

/-- A resumed stream starts no later than any block within the buffer of the checkpoint. -/
theorem Feed.resume_le {index : Nat} {batch : BlockBatch} (far : buffer.val < db.lastProcessedSlot.val)
    (found : feed.blocks[index]? = some batch) (near : db.lastProcessedSlot.val ≤ batch.slot.val + buffer.val) :
    feed.resume buffer tip db ≤ index := by
  obtain ⟨inside, rfl⟩ := List.getElem?_eq_some_iff.mp found
  have resumed := Word.saturatingSub_val db.lastProcessedSlot buffer
  unfold Feed.resume
  rw [if_pos (by omega)]
  by_contra late
  have before := List.not_of_lt_findIdx (not_le.mp late)
  rw [decide_eq_false_iff_not] at before
  omega

theorem Feed.resume_ahead {index : Nat} {batch : BlockBatch} (from_ : feed.resume buffer tip db ≤ index)
    (found : feed.blocks[index]? = some batch) : db.lastProcessedSlot.val ≤ batch.slot.val + buffer.val := by
  have resumed := Word.saturatingSub_val db.lastProcessedSlot buffer
  unfold Feed.resume at from_
  simp only at from_
  split at from_
  next positive =>
    have inside : feed.blocks.findIdx (fun block => (db.lastProcessedSlot.saturatingSub buffer).val ≤ block.slot.val) <
        feed.blocks.length := Nat.lt_of_le_of_lt from_ (List.getElem?_eq_some_iff.mp found).1
    have reached := List.findIdx_getElem (w := inside)
    have order := feed.slot_le (List.getElem?_eq_getElem inside) found from_
    rw [decide_eq_true_eq] at reached
    omega
  next => omega

theorem World.Tracked.start (feed : Feed) (buffer : U64) (tip : Nat) (db : Db) :
    (World.start feed buffer tip [] db).Tracked feed buffer where
  stored := fun _ impossible => by cases impossible
  ahead := fun _ _ from_ found => feed.resume_ahead from_ found
  behind := fun _ impossible => by cases impossible

/-- A restart redelivers everything that is not stored. -/
theorem World.Tracked.restart (tracked : world.Tracked feed buffer)
    (timely : world.Timely feed buffer (.restart tip) none) :
    (World.start feed buffer tip world.delivered world.session.db).Tracked feed buffer := by
  refine ⟨?_, fun _ _ from_ found => feed.resume_ahead from_ found, fun _ impossible => by cases impossible⟩
  intro index delivered batch found de member known
  rcases tracked.stored index delivered batch found de member known
      with commits | again | ⟨k, failed, before, missed, block, events⟩
  · exact .inl commits
  · rcases timely with far | ⟨_, done⟩
    · exact .inr (.inl (feed.resume_le far found (tracked.ahead index batch again found)))
    · exact absurd (done index delivered) (not_lt.mpr again)
  · rcases timely with far | ⟨none, _⟩
    · have reached : feed.resume buffer tip world.session.db ≤ k :=
        feed.resume_le far block (tracked.behind k failed missed block events)
      exact .inr (.inl (le_trans reached before))
    · have listed : missed ∈ world.missed feed := World.mem_missed.mpr ⟨⟨k, failed, block⟩, events⟩
      rw [List.isEmpty_iff.mp none] at listed
      cases listed

section Deliver
variable {batch block : BlockBatch} {session : Session} {after : World} {de : DecodedEvent} {index : Nat}

/-- An event of the block just written is stored, unless its pool's creation was lost. -/
private theorem World.Tracked.fresh (tracked : world.Tracked feed buffer) (found : feed.blocks[world.next]? = some batch)
    (received : Received batch world.session.db session.db) (grown : after.delivered = world.next :: world.delivered)
    (member : de ∈ batch.events) (known : after.Knows feed de) : session.db.Commits de ∨
      ∃ k ∈ world.failed, k ≤ world.next ∧ ∃ missed, feed.blocks[k]? = some missed ∧ missed.events ≠ [] := by
  obtain ⟨i, listed, first, block, creation, made, creates, same⟩ := known
  by_cases here : i = world.next
  · obtain rfl : batch = first := Option.some.inj (found.symm.trans (here ▸ block))
    left
    apply received.commits de member
    rw [← same]
    exact received.creates creation made creates
  · have order := feed.creation_le block found made creates member same
    rw [grown] at listed
    rcases List.mem_cons.mp listed with impossible | old
    · exact absurd impossible here
    rcases tracked.stored i old first block creation made ⟨i, old, first, block, creation, made, creates, rfl⟩
        with commits | again | ⟨k, failed, before, missed⟩
    · left
      apply received.commits de member
      rw [← same]
      exact received.keepsPool _ (commits.created creates)
    · exact absurd (le_antisymm order again) here
    · exact .inr ⟨k, failed, le_trans before order, missed⟩

/-- Knowing one more block changes nothing for the blocks before it. -/
private theorem World.Tracked.older (tracked : world.Tracked feed buffer)
    (grown : after.delivered = world.next :: world.delivered) (before : index < world.next)
    (listed : index ∈ world.delivered)
    (stands : feed.blocks[index]? = some block) (member : de ∈ block.events) (known : after.Knows feed de) :
    world.session.db.Commits de ∨
      ∃ k ∈ world.failed, k ≤ index ∧ ∃ missed, feed.blocks[k]? = some missed ∧ missed.events ≠ [] := by
  obtain ⟨i, creator, first, place, creation, made, creates, same⟩ := known
  have order := feed.creation_le place stands made creates member same
  rw [grown] at creator
  rcases List.mem_cons.mp creator with rfl | old
  · exact absurd before (not_lt.mpr order)
  rcases tracked.stored index listed block stands de member ⟨i, old, first, place, creation, made, creates, same⟩
      with commits | again | lost
  · exact .inl commits
  · exact absurd before (not_lt.mpr again)
  · exact .inr lost

theorem World.Tracked.committed (tracked : world.Tracked feed buffer) (found : feed.blocks[world.next]? = some batch)
    (received : Received batch world.session.db session.db)
    (timely : ∀ missed ∈ world.missed feed, batch.slot.val ≤ missed.slot.val + buffer.val) :
    World.Tracked feed buffer ⟨session, world.next + 1, world.next :: world.delivered, world.failed⟩ := by
  refine ⟨?_, ?_, ?_⟩
  · intro index listed block stands de member known
    rcases lt_trichotomy index world.next with before | rfl | after
    · have old := (List.mem_cons.mp listed).resolve_left (ne_of_lt before)
      rcases tracked.older rfl before old stands member known with commits | missed
      · exact .inl (received.keeps de commits)
      · exact .inr (.inr missed)
    · obtain rfl := Option.some.inj (found.symm.trans stands)
      rcases tracked.fresh found received rfl member known with commits | missed
      · exact .inl commits
      · exact .inr (.inr missed)
    · exact .inr (.inl after)
  · intro index block after stands
    rw [received.checkpoint]
    have order := feed.slot_lt found stands after
    omega
  · intro k failed missed stands events
    rw [received.checkpoint]
    exact timely missed (World.mem_missed.mpr ⟨⟨k, failed, stands⟩, events⟩)

theorem World.Tracked.lost (tracked : world.Tracked feed buffer) {last : Db}
    (rolled : session.db = world.session.db.rollback last) :
    World.Tracked feed buffer ⟨session, world.next + 1, world.next :: world.delivered, world.next :: world.failed⟩ := by
  have unmoved : session.db.lastProcessedSlot = world.session.db.lastProcessedSlot := by
    rw [rolled]
    rfl
  refine ⟨?_, ?_, ?_⟩
  · intro index listed block stands de member known
    rcases lt_trichotomy index world.next with before | rfl | after
    · have old := (List.mem_cons.mp listed).resolve_left (ne_of_lt before)
      rcases tracked.older rfl before old stands member known with commits | ⟨k, failed, missed⟩
      · left
        rw [rolled]
        exact Db.rollback_commits.mpr commits
      · exact .inr (.inr ⟨k, List.mem_cons_of_mem _ failed, missed⟩)
    · exact .inr (.inr ⟨world.next, List.mem_cons_self, le_refl _, block, stands, List.ne_nil_of_mem member⟩)
    · exact .inr (.inl after)
  · intro index block after stands
    rw [unmoved]
    exact tracked.ahead index block (le_of_lt after) stands
  · intro k failed missed stands events
    rw [unmoved]
    rcases List.mem_cons.mp failed with rfl | old
    · exact tracked.ahead world.next missed (le_refl _) stands
    · exact tracked.behind k old missed stands events

theorem World.Tracked.turn {turn : Turn} {written : Option Written} (tracked : world.Tracked feed buffer)
    (done : world.turn feed buffer turn = .ok (after, written)) (timely : world.Timely feed buffer turn written) :
    after.Tracked feed buffer := by
  cases turn with
  | restart tip =>
    cases done
    exact tracked.restart timely
  | deliver env =>
    unfold World.turn at done
    simp only at done
    split at done
    · cases done
    next batch found =>
      cases outcome : receive env batch world.session with
      | mk session result =>
        rw [outcome] at done
        cases done
        cases result with
        | none =>
          obtain ⟨last, rolled⟩ := receive_none outcome
          exact tracked.lost rolled
        | some rows =>
          apply tracked.committed found (receive_some outcome)
          have within := timely rfl
          rw [found] at within
          exact within

end Deliver

/-- A restart that resumes before the checkpoint delivers every failed block with events again. -/
def World.Redelivers (feed : Feed) (buffer : U64) (world : World) : Prop :=
  buffer.val < world.session.db.lastProcessedSlot.val →
    ∀ tip, ∀ k ∈ world.failed, ∀ missed, feed.blocks[k]? = some missed →
    missed.events ≠ [] → feed.resume buffer tip world.session.db ≤ k

theorem World.Tracked.redelivers (tracked : world.Tracked feed buffer) : world.Redelivers feed buffer := by
  intro far tip k failed missed stands events
  exact feed.resume_le far stands (tracked.behind k failed missed stands events)

/-- While no block is committed more than the buffer after one that failed, the
checkpoint never outruns the data, from any database and for any failures. -/
theorem checkpoint_never_outruns {trace : List (Turn × Option Written)}
    (runs : Run (restrict (World.turn feed buffer) (World.Timely feed buffer) .untimely) (.start feed buffer tip [] db)
      trace world) :
    world.Covered feed buffer ∧ world.Redelivers feed buffer := by
  have tracked : world.Tracked feed buffer := by
    refine runs.invariant (World.Tracked feed buffer) ?_ (.start feed buffer tip db)
    intro before turn after written _ tracked done
    obtain ⟨turned, timely⟩ := restrict_ok done
    exact tracked.turn turned timely
  exact ⟨tracked.covered, tracked.redelivers⟩

end Run

section Samples

def sampleCreated : DecodedEvent where
  signature := "2A"
  innerIxIdx := 0
  slot := 100
  blockTime := some 1700000000
  event := .poolCreated {
    pool := Vector.replicate 32 1, config := Vector.replicate 32 2, tokenMint := Vector.replicate 32 3
    lpMint := Vector.replicate 32 4, creator := Vector.replicate 32 5, solInGross := 5000000000, solInNet := 5000000000
    tokensInGross := 5000000, tokensInNet := 5000000, solReserveAfter := 5000000000, tokenReserveAfter := 5000000
    lpSupplyAfter := 158112883, lpToCreator := 126490307, lpLocked := 31622576 }

def sampleSwap : DecodedEvent where
  signature := "2B"
  innerIxIdx := 1
  slot := 101
  blockTime := some 1700000001
  event := .swapExecuted {
    pool := Vector.replicate 32 1, user := Vector.replicate 32 6, solSource := Vector.replicate 32 6, buy := true
    amountInGross := 1000, amountInNet := 998, amountOutGross := 1, amountOutNet := 1, fee := 2
    solReserveAfter := 5000001000, tokenReserveAfter := 4999999 }

def sampleAdded : DecodedEvent where
  signature := "2C"
  innerIxIdx := 0
  slot := 101
  blockTime := some 1700000001
  event := .liquidityAdded {
    pool := Vector.replicate 32 1, provider := Vector.replicate 32 6, solInGross := 1000000, solInNet := 1000000
    tokensInGross := 1000, tokensInNet := 1000, lpToProvider := 29251, lpLocked := 2371
    solReserveAfter := 5001000000, tokenReserveAfter := 5001000, lpSupplyAfter := 158144505 }

def sampleFeed : Feed where
  blocks := [⟨100, [sampleCreated]⟩, ⟨101, [sampleSwap]⟩, ⟨120, []⟩, ⟨140, []⟩]
  ordered := by decide +kernel
  created := by decide +kernel

def healthy : Environment := ⟨1700000100, fun _ => false⟩
def broken : Environment := ⟨1700000100, fun stage => stage = .commit⟩

theorem checkpoint_never_outruns_sample : ∃ world : World, world.session.db.lastProcessedSlot = 140 ∧
    1 ∈ world.delivered ∧ world.Covered sampleFeed 32 := by
  have found : accepts (execute (restrict (World.turn sampleFeed 32) (World.Timely sampleFeed 32) .untimely)
      (.start sampleFeed 32 0 [] .empty)
      [.deliver healthy, .deliver broken, .deliver healthy, .restart 3, .deliver healthy, .deliver healthy,
        .deliver healthy, .deliver healthy])
      (fun result => result.1.session.db.lastProcessedSlot = 140 ∧ 1 ∈ result.1.delivered) = true := by
    decide +kernel
  obtain ⟨⟨world, trace⟩, runs, facts⟩ := accepts_iff.mp found
  obtain ⟨moved, delivered⟩ := of_decide_eq_true facts
  exact ⟨world, moved, delivered, (checkpoint_never_outruns (execute_run runs)).1⟩

def lossyFeed : Feed where
  blocks := [⟨100, [sampleCreated]⟩, ⟨133, []⟩]
  ordered := by decide +kernel
  created := by decide +kernel

/-- One failed commit is enough when the next block is committed before a restart. -/
theorem failed_block_outrun : ∃ trace world, Run (World.turn lossyFeed 32) (.start lossyFeed 32 0 [] .empty) trace world ∧
    ¬ world.Covered lossyFeed 32 := by
  have found : accepts
      (execute (World.turn lossyFeed 32) (.start lossyFeed 32 0 [] .empty) [.deliver broken, .deliver healthy])
      (fun result => result.1.delivered = [1, 0] ∧ result.1.session.db.lastProcessedSlot.val = 133 ∧
        ¬ result.1.session.db.reserves.Holds sampleCreated.key) = true := by
    decide +kernel
  obtain ⟨⟨world, trace⟩, runs, facts⟩ := accepts_iff.mp found
  obtain ⟨delivered, moved, absent⟩ := of_decide_eq_true facts
  refine ⟨trace, world, execute_run runs, fun covered => absent ?_⟩
  have first : 0 ∈ world.delivered := by
    rw [delivered]
    decide
  have far : (100 : U64).val + (32 : U64).val < world.session.db.lastProcessedSlot.val := by
    rw [moved]
    decide
  exact (covered 0 first _ rfl far sampleCreated List.mem_cons_self
    ⟨0, first, _, rfl, sampleCreated, List.mem_cons_self, rfl, rfl⟩).1

end Samples
end DeepPool.Indexer
