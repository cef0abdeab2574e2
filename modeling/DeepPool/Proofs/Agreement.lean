import DeepPool.Proofs.Backfill
import DeepPool.Proofs.Provenance

/-! One transaction read by both sources. They number its events alike, so what one of them
has stored the other one leaves alone. -/

namespace DeepPool.Indexer
open Library

section Again
variable {env : Environment} {events others : List DecodedEvent} {before middle after : Session} {written : Written}
  {de : DecodedEvent}

/-- The session has written these events. -/
structure Session.Took (session : Session) (events : List DecodedEvent) : Prop where
  created : ∀ de ∈ events, de.creates → session.db.pools.Holds (poolPubkey de.event)
  known : ∀ de ∈ events, session.db.pools.Holds (poolPubkey de.event) → session.db.Commits de
  cached : ∀ de ∈ events, (session.poolCache (poolPubkey de.event)).isSome → session.db.Commits de

theorem Ingested.took (ingested : Ingested env events before after written) : after.Took events where
  created _ member creates := ingested.database.creates member creates
  known _ member holds := ingested.database.commits member holds
  cached _ member found := ingested.database.commits_cached member found

theorem Session.Took.subset (took : middle.Took events) (within : ∀ de ∈ others, de ∈ events) : middle.Took others where
  created de member := took.created de (within de member)
  known de member := took.known de (within de member)
  cached de member := took.cached de (within de member)

/-- Events that were written before are not written again. -/
theorem Session.Took.idle (took : middle.Took events) (ingested : Ingested env events middle after written) :
    written = ⟨[], [], [], []⟩ := by
  have pools : written.pools = [] := by
    rw [List.eq_nil_iff_forall_not_mem]
    intro row new
    rw [ingested.pools] at new
    obtain ⟨offered, free⟩ := Table.insert_proposed new
    obtain ⟨de, member, made⟩ := List.mem_filterMap.mp offered
    obtain ⟨creates, named⟩ := poolRow_source made
    exact free (named ▸ took.created de member creates)
  have same : after.db.pools.rows = middle.db.pools.rows := by
    rw [ingested.database.pools, Table.insert_rows, ← ingested.pools, pools, List.append_nil]
  have stored : ∀ de ∈ events, ∀ poolId, after.poolCache (poolPubkey de.event) = some poolId → middle.db.Commits de := by
    intro de member poolId found
    rcases ingested.cached _ _ found with old | ⟨row, listed, named, _⟩
    · exact took.cached de member (Option.isSome_of_eq_some old)
    · exact took.known de member ⟨row, same ▸ listed, named⟩
  have reserves : written.reserves = [] := by
    rw [List.eq_nil_iff_forall_not_mem]
    intro row new
    rw [ingested.reserves] at new
    obtain ⟨offered, free⟩ := Table.insert_proposed new
    obtain ⟨de, member, poolId, carried, found, made⟩ := batchesOf_reserves offered
    have keyed : row.data.key = de.key := by rw [made, reservesRow_key]
    exact free (keyed ▸ (stored de member poolId found).1)
  have swaps : written.swaps = [] := by
    rw [List.eq_nil_iff_forall_not_mem]
    intro row new
    rw [ingested.swaps, batchesOf_swaps] at new
    obtain ⟨offered, free⟩ := Table.insert_proposed new
    obtain ⟨de, member, made⟩ := List.mem_filterMap.mp offered
    obtain ⟨poolId, found, made⟩ := Option.bind_eq_some_iff.mp made
    obtain ⟨keyed, s, kind⟩ := swapRow_source made
    obtain ⟨_, held⟩ := stored de member poolId found
    rw [kind] at held
    exact free (keyed ▸ held)
  have liquidity : written.liquidity = [] := by
    rw [List.eq_nil_iff_forall_not_mem]
    intro row new
    rw [ingested.liquidity, batchesOf_liquidity] at new
    obtain ⟨offered, free⟩ := Table.insert_proposed new
    obtain ⟨de, member, made⟩ := List.mem_filterMap.mp offered
    obtain ⟨poolId, found, made⟩ := Option.bind_eq_some_iff.mp made
    obtain ⟨keyed, kind⟩ := liquidityRow_source made
    obtain ⟨_, held⟩ := stored de member poolId found
    rcases kind with ⟨la, kind⟩ | ⟨lr, kind⟩
    · rw [kind] at held
      exact free (keyed ▸ held)
    · rw [kind] at held
      exact free (keyed ▸ held)
  rw [← pools, ← reserves, ← swaps, ← liquidity]

theorem writeBlock_took {batch : BlockBatch} (done : writeBlock env batch before = .ok written after) :
    after.Took batch.events := by
  obtain ⟨last, ingested, rfl⟩ := writeBlock_done done
  have took := ingested.took.subset fun de member => (List.mem_insertionSort _).mpr member
  exact ⟨took.created, took.known, took.cached⟩

theorem applyPage_took {count : Nat} (done : applyPage env events before = .ok count after) : after.Took events := by
  rcases applyPage_done done with ⟨rfl, _, _⟩ | ⟨written, ingested, _⟩
  · constructor <;> intro de impossible <;> cases impossible
  · exact ingested.took.subset fun de member => (List.mem_insertionSort _).mpr member

theorem Session.Took.writeBlock {batch : BlockBatch} (took : middle.Took events)
    (within : ∀ de ∈ batch.events, de ∈ events) (done : writeBlock env batch middle = .ok written after) :
    written = ⟨[], [], [], []⟩ ∧ ∀ de, middle.db.Commits de → after.db.Commits de := by
  obtain ⟨last, ingested, rfl⟩ := writeBlock_done done
  exact ⟨(took.subset fun de member => within de ((List.mem_insertionSort _).mp member)).idle ingested,
    fun de => ingested.database.keeps⟩

theorem Session.Took.applyPage {count : Nat} (took : middle.Took events) (within : ∀ de ∈ others, de ∈ events)
    (done : applyPage env others middle = .ok count after) :
    count = 0 ∧ ∀ de, middle.db.Commits de → after.db.Commits de := by
  rcases applyPage_done done with ⟨_, rfl, rfl⟩ | ⟨written, ingested, rfl⟩
  · exact ⟨rfl, fun de commits => commits⟩
  · rw [(took.subset fun de member => within de ((List.mem_insertionSort _).mp member)).idle ingested]
    exact ⟨rfl, fun de => ingested.database.keeps⟩

end Again

section Sources
variable {program : Pubkey} {block : ConfirmedBlock} {tx other : ConfirmedTransaction} {de twin : DecodedEvent}

/-- Exactly one row of each kind stands for the event. -/
structure Db.StoresOnce (db : Db) (de : DecodedEvent) : Prop where
  commits : db.Commits de
  pools : ∀ row ∈ db.pools.rows, ∀ copy ∈ db.pools.rows, row.data.pubkey = copy.data.pubkey → row = copy
  reserves : ∀ row ∈ db.reserves.rows, row.data.key = de.key → ∀ copy ∈ db.reserves.rows, copy.data.key = de.key →
    row = copy
  swaps : ∀ row ∈ db.swaps.rows, row.data.key = de.key → ∀ copy ∈ db.swaps.rows, copy.data.key = de.key → row = copy
  liquidity : ∀ row ∈ db.liquidityEvents.rows, row.data.key = de.key →
    ∀ copy ∈ db.liquidityEvents.rows, copy.data.key = de.key → row = copy

theorem Db.Commits.once {db : Db} (commits : db.Commits de) : db.StoresOnce de where
  commits := commits
  pools _ member _ listed same := Table.key_inj member listed same
  reserves _ member keyed _ listed same := Table.key_inj member listed (keyed.trans same.symm)
  swaps _ member keyed _ listed same := Table.key_inj member listed (keyed.trans same.symm)
  liquidity _ member keyed _ listed same := Table.key_inj member listed (keyed.trans same.symm)

theorem decodeBlock_recorded : decodeBlock .compute program.toList block.update =
    ⟨block.slot, block.transactions.flatMap (block.recorded .compute program)⟩ := by
  unfold decodeBlock ConfirmedBlock.update
  simp only [List.flatMap_map, decodeUpdate_recorded]

/-- What `getTransaction` answers for a page of transactions. -/
def shownPage (shown : List (ConfirmedBlock × ConfirmedTransaction)) : List (SignatureEntry × Except TxError Value) :=
  shown.map fun (block, tx) => (block.entry tx, .ok tx.response)

/-- A page holds the events of its transactions, the oldest first. -/
theorem decodePage_recorded (shown : List (ConfirmedBlock × ConfirmedTransaction)) :
    decodePage .compute (encodeBase58 program.toList) (shownPage shown) =
      shown.reverse.flatMap fun (block, tx) => block.recorded .compute program tx := by
  unfold decodePage shownPage
  simp only [← List.map_reverse, List.flatMap_map, decodeTx_recorded]

/-- Different transactions never give two events one key. -/
theorem recorded_apart (different : tx.signature ≠ other.signature) (member : de ∈ block.recorded .compute program tx)
    (listed : twin ∈ block.recorded .compute program other) : de.key ≠ twin.key := by
  intro same
  have texts : tx.signatureText = other.signatureText := by
    rw [← recorded_signature member, ← recorded_signature listed]
    exact congrArg Prod.fst same
  exact different (Vector.toList_inj.mp (encodeBase58_inj.mp texts))

private theorem mem_page {shown : List (ConfirmedBlock × ConfirmedTransaction)} :
    de ∈ decodePage .compute (encodeBase58 program.toList) (shownPage shown) ↔
      ∃ item ∈ shown, de ∈ item.1.recorded .compute program item.2 := by
  rw [decodePage_recorded, List.mem_flatMap]
  simp only [List.mem_reverse]

private theorem mem_block : de ∈ (decodeBlock .compute program.toList block.update).events ↔
    ∃ tx ∈ block.transactions, de ∈ block.recorded .compute program tx := by
  rw [decodeBlock_recorded, List.mem_flatMap]

/-- Both sources read the same list from a transaction, and no two of its events, nor any two
events of different transactions, share a key. Whichever path writes second writes nothing. -/
theorem sources_agree (program : Pubkey) (block : ConfirmedBlock) :
    (∀ discs tx, decodeTx discs (encodeBase58 program.toList) (block.entry tx) (.ok tx.response) =
      .ok (decodeUpdate discs program.toList block.slot (block.blockTime.bind fromTimestamp) tx.update)) ∧
    (∀ tx, ((block.liveEvents program tx).map DecodedEvent.key).Nodup) ∧
    (∀ tx other, tx.signature ≠ other.signature → ∀ de ∈ block.liveEvents program tx,
      ∀ twin ∈ block.liveEvents program other, de.key ≠ twin.key) ∧
    (∀ (env later : Environment) (before middle after : Session) (shown : List (ConfirmedBlock × ConfirmedTransaction))
      written count, (∀ item ∈ shown, item.1 = block ∧ item.2 ∈ block.transactions) →
      writeBlock env (decodeBlock .compute program.toList block.update) before = .ok written middle →
      applyPage later (decodePage .compute (encodeBase58 program.toList) (shownPage shown)) middle = .ok count after →
      count = 0 ∧ ∀ tx ∈ block.transactions, ∀ de ∈ block.liveEvents program tx,
        middle.db.pools.Holds (poolPubkey de.event) → after.db.StoresOnce de) ∧
    ∀ (env later : Environment) (before middle after : Session) (shown : List (ConfirmedBlock × ConfirmedTransaction))
      written count, (∀ tx ∈ block.transactions, (block, tx) ∈ shown) →
      applyPage env (decodePage .compute (encodeBase58 program.toList) (shownPage shown)) before = .ok count middle →
      writeBlock later (decodeBlock .compute program.toList block.update) middle = .ok written after →
      written = ⟨[], [], [], []⟩ ∧ ∀ tx ∈ block.transactions, ∀ de ∈ block.liveEvents program tx,
        middle.db.pools.Holds (poolPubkey de.event) → after.db.StoresOnce de := by
  simp only [liveEvents_recorded]
  refine ⟨?_, fun tx => recorded_keys, ?_, ?_, ?_⟩
  · intro discs tx
    rw [decodeTx_recorded, decodeUpdate_recorded]
  · intro tx other different de member twin listed
    exact recorded_apart different member listed
  · intro env later before middle after shown written count within live page
    have took := writeBlock_took live
    have repeated : ∀ de ∈ decodePage .compute (encodeBase58 program.toList) (shownPage shown),
        de ∈ (decodeBlock .compute program.toList block.update).events := by
      intro de member
      obtain ⟨⟨shownBlock, tx⟩, listed, recorded⟩ := mem_page.mp member
      obtain ⟨rfl, present⟩ := within _ listed
      exact mem_block.mpr ⟨tx, present, recorded⟩
    obtain ⟨idle, keeps⟩ := took.applyPage repeated page
    refine ⟨idle, ?_⟩
    intro tx present de recorded known
    exact (keeps de (took.known de (mem_block.mpr ⟨tx, present, recorded⟩) known)).once
  · intro env later before middle after shown written count covers page live
    have took := applyPage_took page
    have repeated : ∀ de ∈ (decodeBlock .compute program.toList block.update).events,
        de ∈ decodePage .compute (encodeBase58 program.toList) (shownPage shown) := by
      intro de member
      obtain ⟨tx, present, recorded⟩ := mem_block.mp member
      exact mem_page.mpr ⟨_, covers tx present, recorded⟩
    obtain ⟨idle, keeps⟩ := took.writeBlock repeated live
    refine ⟨idle, ?_⟩
    intro tx present de recorded known
    exact (keeps de (took.known de (mem_page.mpr ⟨_, covers tx present, recorded⟩) known)).once

theorem sources_agree_sample : ∃ (after : Session) (count : Nat),
    count = 0 ∧ after.db.StoresOnce creatingEvent := by
  have live : decodeBlock .compute sampleProgram.toList creatingBlock.update = ⟨100, [creatingEvent]⟩ := by
    rw [decodeBlock_recorded]
    exact congrArg (BlockBatch.mk 100) ((List.append_nil _).trans creating_recorded)
  have page : decodePage .compute (encodeBase58 sampleProgram.toList) (shownPage [(creatingBlock, creatingTransaction)]) =
      [creatingEvent] := by
    rw [decodePage_recorded, List.reverse_singleton, List.flatMap_singleton]
    exact creating_recorded
  have runs : returned? ((do
      let _ ← writeBlock healthy ⟨100, [creatingEvent]⟩
      applyPage healthy [creatingEvent] : Job Nat) (.load .empty)) = some 0 := by decide +kernel
  obtain ⟨after, done⟩ := returned?_some.mp runs
  obtain ⟨written, middle, writes, applies⟩ := bind_done.mp done
  have known : middle.db.pools.Holds (poolPubkey creatingEvent.event) :=
    (writeBlock_took writes).created creatingEvent List.mem_cons_self rfl
  rw [← live] at writes
  rw [← page] at applies
  obtain ⟨idle, once⟩ := (sources_agree sampleProgram creatingBlock).2.2.2.1 healthy healthy _ _ _ _ _ _
    (by rintro item listed; obtain rfl := List.mem_singleton.mp listed; exact ⟨rfl, List.mem_cons_self⟩) writes applies
  refine ⟨after, 0, idle, once creatingTransaction List.mem_cons_self creatingEvent ?_ known⟩
  rw [liveEvents_recorded, creating_recorded]
  exact List.mem_cons_self

end Sources
end DeepPool.Indexer
