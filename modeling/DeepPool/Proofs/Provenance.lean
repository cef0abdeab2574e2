import DeepPool.Proofs.Ingest
import DeepPool.Proofs.Recording

/-! Where the rows come from. Every row of every table records one decoded event, but
neither source of events looks at the outcome of the transaction it decodes. -/

namespace DeepPool.Indexer
open Library

section Rows
variable {genuine : DecodedEvent → Prop} {db before after : Db} {env : Environment} {events : List DecodedEvent}
  {poolCache : String → Option Nat} {lpSupplyCache : Nat → Option Int}

/-- Every row is the translation of an event of the given kind. -/
structure Db.Sourced (genuine : DecodedEvent → Prop) (db : Db) : Prop where
  pools : ∀ row ∈ db.pools.rows, ∃ de, genuine de ∧ ∃ now, poolRow now de = some row.data
  reserves : ∀ row ∈ db.reserves.rows, ∃ de, genuine de ∧
    ∃ now poolId carried, row.data = reservesRow now poolId carried de
  swaps : ∀ row ∈ db.swaps.rows, ∃ de, genuine de ∧ ∃ now poolId, swapRow now poolId de = some row.data
  liquidity : ∀ row ∈ db.liquidityEvents.rows, ∃ de, genuine de ∧ ∃ now poolId, liquidityRow now poolId de = some row.data

theorem Db.Sourced.empty : Db.empty.Sourced genuine := by
  constructor <;> intro row member <;> cases member

theorem Db.Sourced.rollback (sourced : before.Sourced genuine) (after : Db) : (before.rollback after).Sourced genuine :=
  ⟨sourced.pools, sourced.reserves, sourced.swaps, sourced.liquidity⟩

theorem Db.Sourced.checkpointed (sourced : db.Sourced genuine) (checkpoint : Option Int) :
    Db.Sourced genuine { db with checkpoint } :=
  ⟨sourced.pools, sourced.reserves, sourced.swaps, sourced.liquidity⟩

theorem Ingestion.sourced
    (ingestion : Ingestion env events before after poolCache (batchesOf env.now poolCache lpSupplyCache events))
    (sourced : before.Sourced genuine) (all : ∀ de ∈ events, genuine de) : after.Sourced genuine := by
  constructor
  · intro row member
    rw [ingestion.pools] at member
    rcases Table.mem_insert member with old | new
    · exact sourced.pools row old
    · obtain ⟨de, listed, made⟩ := List.mem_filterMap.mp new
      exact ⟨de, all de listed, env.now, made⟩
  · intro row member
    rw [ingestion.reserves] at member
    rcases Table.mem_insert member with old | new
    · exact sourced.reserves row old
    · obtain ⟨de, listed, poolId, carried, _, made⟩ := batchesOf_reserves new
      exact ⟨de, all de listed, env.now, poolId, carried, made⟩
  · intro row member
    rw [ingestion.swaps] at member
    rcases Table.mem_insert member with old | new
    · exact sourced.swaps row old
    · rw [batchesOf_swaps] at new
      obtain ⟨de, listed, made⟩ := List.mem_filterMap.mp new
      obtain ⟨poolId, _, made⟩ := Option.bind_eq_some_iff.mp made
      exact ⟨de, all de listed, env.now, poolId, made⟩
  · intro row member
    rw [ingestion.liquidity] at member
    rcases Table.mem_insert member with old | new
    · exact sourced.liquidity row old
    · rw [batchesOf_liquidity] at new
      obtain ⟨de, listed, made⟩ := List.mem_filterMap.mp new
      obtain ⟨poolId, _, made⟩ := Option.bind_eq_some_iff.mp made
      exact ⟨de, all de listed, env.now, poolId, made⟩

end Rows

def finalState {State Failure Result : Type} : EStateM.Result Failure State Result → State
  | .ok _ state => state
  | .error _ state => state

theorem writeBlock_sourced {genuine : DecodedEvent → Prop} {session : Session} {batch : BlockBatch} (env : Environment)
    (sourced : session.db.Sourced genuine) (all : ∀ de ∈ batch.events, genuine de) :
    (finalState (writeBlock env batch session)).db.Sourced genuine := by
  cases outcome : writeBlock env batch session with
  | ok written after =>
    obtain ⟨last, ingested, same⟩ := writeBlock_done outcome
    rw [finalState, same]
    apply Db.Sourced.checkpointed
    exact ingested.database.sourced sourced fun de member => all de ((List.mem_insertionSort _).mp member)
  | error error after =>
    obtain ⟨last, same⟩ := writeBlock_failed outcome
    rw [finalState, same]
    exact sourced.rollback last

theorem applyPage_sourced {genuine : DecodedEvent → Prop} {session : Session} {events : List DecodedEvent}
    (env : Environment)
    (sourced : session.db.Sourced genuine) (all : ∀ de ∈ events, genuine de) :
    (finalState (applyPage env events session)).db.Sourced genuine := by
  cases outcome : applyPage env events session with
  | ok count after =>
    rw [finalState]
    rcases applyPage_done outcome with ⟨_, _, rfl⟩ | ⟨written, ingested, _⟩
    · exact sourced
    · exact ingested.database.sourced sourced fun de member => all de ((List.mem_insertionSort _).mp member)
  | error error after =>
    obtain ⟨last, same⟩ := applyPage_failed outcome
    rw [finalState, same]
    exact sourced.rollback last

section History
variable {history : List ConfirmedBlock} {program : Pubkey} {db : Db}

/-- What a `getTransaction` call for a transaction can return. -/
inductive Answer (tx : ConfirmedTransaction) : Except TxError Value → Prop where
  | found : Answer tx (.ok tx.response)
  | pruned : Answer tx (.ok (.object [("result", .null)]))
  | failed (error : TxError) : Answer tx (.error error)

/-- A page of the backfill over the history, in any order and with any gaps. -/
def PageOf (history : List ConfirmedBlock) (page : List (SignatureEntry × Except TxError Value)) : Prop :=
  ∀ item ∈ page, ∃ block ∈ history, ∃ tx ∈ block.transactions, item.1 = block.entry tx ∧ Answer tx item.2

/-- The databases that the live writer and the backfill can leave behind, in any
order, with any caches and any failures. -/
inductive Indexed (history : List ConfirmedBlock) (program : Pubkey) : Db → Prop where
  | empty : Indexed history program .empty
  | live {session : Session} {block : ConfirmedBlock} (env : Environment) (indexed : Indexed history program session.db)
      (member : block ∈ history) : Indexed history program
        (finalState (writeBlock env (decodeBlock .compute program.toList block.update) session)).db
  | backfill {session : Session} {page : List (SignatureEntry × Except TxError Value)} (env : Environment)
      (indexed : Indexed history program session.db) (shown : PageOf history page) : Indexed history program
        (finalState (applyPage env (decodePage .compute (encodeBase58 program.toList) page) session)).db

def ConfirmedBlock.liveEvents (program : Pubkey) (block : ConfirmedBlock) (tx : ConfirmedTransaction) :
    List DecodedEvent :=
  decodeUpdate .compute program.toList block.slot (block.blockTime.bind fromTimestamp) tx.update

/-- Everything the indexer decodes and stores comes from a transaction that succeeded. -/
structure OnlySuccessful (history : List ConfirmedBlock) (program : Pubkey) : Prop where
  live : ∀ block ∈ history, ∀ tx ∈ block.transactions, ∀ de ∈ block.liveEvents program tx, tx.Succeeded
  backfill : ∀ block ∈ history, ∀ tx ∈ block.transactions, ∀ events,
    decodeTx .compute (encodeBase58 program.toList) (block.entry tx) (.ok tx.response) = .ok events →
      ∀ de ∈ events, tx.Succeeded
  rows : ∀ db, Indexed history program db → db.Sourced fun de =>
    ∃ block ∈ history, ∃ tx ∈ block.transactions, tx.Succeeded ∧ de ∈ block.liveEvents program tx

/-- No failed transaction carries the bytes of an event in an instruction to the program. -/
def NoForgery (history : List ConfirmedBlock) (program : Pubkey) : Prop :=
  ∀ block ∈ history, ∀ tx ∈ block.transactions, ¬ tx.Succeeded → ∀ ix ∈ tx.innerInstructions.flatten,
    tx.Addresses ix program → ∀ event, ix.data ≠ eventBytes .compute event

private theorem decodeInner_iff {discs : Discriminators} (distinct : discs.Distinct) {programIdx : Nat}
    {decoded : Nat → DeepPoolEvent → DecodedEvent} {ix : CompiledInstruction} (flatIdx : Nat) :
    (∃ de, decodeInner discs programIdx decoded (ix, flatIdx) = some de) ↔
      ix.programIdIndex.toNat = programIdx ∧ ∃ event, ix.data = eventBytes discs event := by
  rw [← decodable_iff distinct]
  constructor
  · rintro ⟨de, found⟩
    rw [decodeInner] at found
    split at found
    next addressed =>
      split at found
      next event read => exact ⟨addressed, event, read⟩
      · cases found
    · cases found
  · rintro ⟨addressed, event, read⟩
    refine ⟨decoded flatIdx event, ?_⟩
    rw [decodeInner, if_pos addressed, read]

theorem recorded_iff {discs : Discriminators} (distinct : discs.Distinct) (block : ConfirmedBlock)
    (tx : ConfirmedTransaction) :
    (∃ de, de ∈ block.recorded discs program tx) ↔
      ∃ ix ∈ tx.innerInstructions.flatten, tx.Addresses ix program ∧ ∃ event, ix.data = eventBytes discs event := by
  unfold ConfirmedBlock.recorded ConfirmedTransaction.Addresses
  cases place : tx.keys.findIdx? (· == program) with
  | none =>
    constructor
    · rintro ⟨_, impossible⟩
      cases impossible
    · rintro ⟨_, _, impossible, _⟩
      cases impossible
  | some programIdx =>
    constructor
    · rintro ⟨de, member⟩
      obtain ⟨⟨ix, flatIdx⟩, listed, found⟩ := List.mem_filterMap.mp member
      obtain ⟨addressed, written⟩ := (decodeInner_iff distinct flatIdx).mp ⟨de, found⟩
      exact ⟨ix, List.fst_mem_of_mem_zipIdx listed, congrArg some addressed.symm, written⟩
    · rintro ⟨ix, listed, addressed, written⟩
      obtain ⟨flatIdx, inside, rfl⟩ := List.getElem_of_mem listed
      obtain ⟨de, found⟩ := (decodeInner_iff distinct flatIdx).mpr ⟨(Option.some.inj addressed).symm, written⟩
      exact ⟨de, List.mem_filterMap.mpr ⟨_, List.mk_mem_zipIdx_iff_getElem?.mpr (List.getElem?_eq_getElem inside), found⟩⟩

theorem liveEvents_recorded {block : ConfirmedBlock} {tx : ConfirmedTransaction} :
    block.liveEvents program tx = block.recorded .compute program tx := decodeUpdate_recorded

theorem NoForgery.succeeded (honest : NoForgery history program) {block : ConfirmedBlock} {tx : ConfirmedTransaction}
    {de : DecodedEvent} (within : block ∈ history) (member : tx ∈ block.transactions)
    (recorded : de ∈ block.recorded .compute program tx) : tx.Succeeded := by
  by_contra failed
  obtain ⟨ix, listed, addressed, event, written⟩ :=
      (recorded_iff Discriminators.compute_distinct block tx).mp ⟨de, recorded⟩
  exact honest block within tx member failed ix listed addressed event written

private theorem decodeBlock_events {block : ConfirmedBlock} {de : DecodedEvent}
    (member : de ∈ (decodeBlock .compute program.toList block.update).events) :
    ∃ tx ∈ block.transactions, de ∈ block.recorded .compute program tx := by
  obtain ⟨shown, listed, decoded⟩ := List.mem_flatMap.mp member
  obtain ⟨tx, within, rfl⟩ := List.mem_map.mp listed
  refine ⟨tx, within, ?_⟩
  rw [← decodeUpdate_recorded]
  exact decoded

private theorem decodePage_events {page : List (SignatureEntry × Except TxError Value)} {de : DecodedEvent}
    (shown : PageOf history page) (member : de ∈ decodePage .compute (encodeBase58 program.toList) page) :
    ∃ block ∈ history, ∃ tx ∈ block.transactions, de ∈ block.recorded .compute program tx := by
  obtain ⟨⟨entry, response⟩, listed, decoded⟩ := List.mem_flatMap.mp member
  obtain ⟨block, within, tx, present, rfl, answer⟩ := shown _ (List.mem_reverse.mp listed)
  cases answer with
  | found =>
    simp only [decodeTx_recorded] at decoded
    exact ⟨block, within, tx, present, decoded⟩
  | pruned =>
    simp only [decodeTx_pruned] at decoded
    cases decoded
  | failed error => cases decoded

theorem Indexed.sourced (indexed : Indexed history program db) (honest : NoForgery history program) :
    db.Sourced fun de => ∃ block ∈ history, ∃ tx ∈ block.transactions, tx.Succeeded ∧
    de ∈ block.liveEvents program tx := by
  induction indexed with
  | empty => exact Db.Sourced.empty
  | live env indexed within ih =>
    apply writeBlock_sourced env ih
    intro de member
    obtain ⟨tx, present, recorded⟩ := decodeBlock_events member
    exact ⟨_, within, tx, present, honest.succeeded within present recorded, liveEvents_recorded ▸ recorded⟩
  | backfill env indexed shown ih =>
    apply applyPage_sourced env ih
    intro de member
    obtain ⟨block, within, tx, present, recorded⟩ := decodePage_events shown member
    exact ⟨block, within, tx, present, honest.succeeded within present recorded, liveEvents_recorded ▸ recorded⟩

/-- Exactly the histories without such instructions are indexed as the chain executed them. -/
theorem only_successful_iff : OnlySuccessful history program ↔ NoForgery history program := by
  constructor
  · intro indexed block within tx present failed ix listed addressed event written
    obtain ⟨de, recorded⟩ := (recorded_iff Discriminators.compute_distinct block tx).mpr
      ⟨ix, listed, addressed, event, written⟩
    rw [← liveEvents_recorded] at recorded
    exact failed (indexed.live block within tx present de recorded)
  · intro honest
    refine ⟨?_, ?_, fun db indexed => indexed.sourced honest⟩
    · intro block within tx present de decoded
      rw [liveEvents_recorded] at decoded
      exact honest.succeeded within present decoded
    · intro block within tx present events decoded de member
      rw [decodeTx_recorded] at decoded
      cases decoded
      exact honest.succeeded within present member

/-- The event that a failed call of the program by anyone puts in the metadata. -/
def forgedTransaction : ConfirmedTransaction where
  signature := Vector.replicate 64 5
  cosignatures := []
  accountKeys := [Vector.replicate 32 1, Vector.replicate 32 7]
  loadedWritable := []
  loadedReadonly := []
  instructions := []
  innerInstructions := [[⟨1, eventIxTagLe ++ Discriminators.compute.liquidityRemoved.toList ++ List.replicate 128 0⟩]]
  err := some ⟨[], .string "ProgramFailedToComplete"⟩

theorem failed_transaction_decodes : ¬ OnlySuccessful [⟨100, none, [forgedTransaction]⟩] (Vector.replicate 32 7) := by
  intro indexed
  have decoded : (ConfirmedBlock.liveEvents (Vector.replicate 32 7) ⟨100, none, [forgedTransaction]⟩
      forgedTransaction).length = 1 := by
    decide +kernel
  obtain ⟨de, only⟩ := List.length_eq_one_iff.mp decoded
  have succeeded := indexed.live _ List.mem_cons_self forgedTransaction List.mem_cons_self de (only ▸ List.mem_cons_self)
  cases succeeded

end History
end DeepPool.Indexer
