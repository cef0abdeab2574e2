import DeepPool.Library.Effects
import DeepPool.Proofs.Checkpoint
import DeepPool.Proofs.Wire

/-! Which amounts survive the narrowing to the signed columns of the tables. Both writers
store rows of the translation and no others. -/

namespace DeepPool.Indexer
open Library

theorem asI64_exact {word : U64} : asI64 word = word.val ↔ word.val < 2 ^ 63 := by
  have bound := word.isLt
  unfold asI64
  split <;> omega

/-- Some amounts are stored as they are exactly when each of them is. -/
theorem map_asI64 {words : List U64} :
    words.map asI64 = words.map (fun word => (word.val : Int)) ↔ ∀ word ∈ words, word.val < 2 ^ 63 := by
  rw [List.map_inj_left]
  constructor
  · intro exactly_ word member
    exact asI64_exact.mp (exactly_ word member)
  · intro small word member
    exact asI64_exact.mpr (small word member)

/-! The amount columns of each table. -/

def NewPoolRow.amounts (row : NewPoolRow) : List Int := [row.solInitial, row.tokensInitial, row.lpSupplyInitial]

def NewSwapRow.amounts (row : NewSwapRow) : List Int :=
  [row.amountInGross, row.amountInNet, row.amountOutGross, row.amountOutNet, row.fee, row.solReserveAfter,
    row.tokenReserveAfter]

def NewLiquidityRow.amounts (row : NewLiquidityRow) : List Int :=
  [row.solAmountGross, row.solAmountNet, row.tokensAmountGross, row.tokensAmountNet, row.lpUserAmount, row.lpLocked,
    row.lpSupplyAfter]

/-- The columns that hold the event's own amounts. The LP supply beside a swap is carried
over from an earlier event. -/
def DecodedEvent.columns (now : Int) (poolId : Nat) (carried : Option Int) (de : DecodedEvent) : List Int :=
  let reserves := reservesRow now poolId carried de
  let supply := match de.event with
    | .swapExecuted _ => []
    | _ => [reserves.lpSupply]
  (poolRow now de).toList.flatMap NewPoolRow.amounts ++ (swapRow now poolId de).toList.flatMap NewSwapRow.amounts ++
    (liquidityRow now poolId de).toList.flatMap NewLiquidityRow.amounts ++
    [reserves.solReserve, reserves.tokenReserve] ++ supply

/-- The fields of the event on the chain that these columns are for. A withdrawal locks nothing. -/
def storedFields : DeepPool.DeepPoolEvent Pubkey → List U64
  | .poolCreated p =>
    [p.solInNet, p.tokensInNet, p.lpSupplyAfter, p.solReserveAfter, p.tokenReserveAfter, p.lpSupplyAfter]
  | .swapExecuted s =>
    [s.amountInGross, s.amountInNet, s.amountOutGross, s.amountOutNet, s.fee, s.solReserveAfter, s.tokenReserveAfter,
      s.solReserveAfter, s.tokenReserveAfter]
  | .liquidityAdded la =>
    [la.solInGross, la.solInNet, la.tokensInGross, la.tokensInNet, la.lpToProvider, la.lpLocked, la.lpSupplyAfter,
      la.solReserveAfter, la.tokenReserveAfter, la.lpSupplyAfter]
  | .liquidityRemoved lr =>
    [lr.solOutGross, lr.solOutNet, lr.tokensOutGross, lr.tokensOutNet, lr.lpBurned, 0, lr.lpSupplyAfter,
      lr.solReserveAfter, lr.tokenReserveAfter, lr.lpSupplyAfter]

theorem columns_eq (now : Int) (poolId : Nat) (carried : Option Int) (de : DecodedEvent) :
    de.columns now poolId carried = (storedFields de.event.emitted).map asI64 := by
  obtain ⟨signature, innerIxIdx, slot, blockTime, event⟩ := de
  cases event <;> rfl

/-- Every new row of the tables is the translation of one of the events. -/
structure Db.Adds (now : Int) (events : List DecodedEvent) (before after : Db) : Prop where
  pools : ∀ row ∈ after.pools.rows, row ∈ before.pools.rows ∨ ∃ de ∈ events, poolRow now de = some row.data
  swaps : ∀ row ∈ after.swaps.rows, row ∈ before.swaps.rows ∨
    ∃ de ∈ events, ∃ poolId, swapRow now poolId de = some row.data
  liquidity : ∀ row ∈ after.liquidityEvents.rows, row ∈ before.liquidityEvents.rows ∨
    ∃ de ∈ events, ∃ poolId, liquidityRow now poolId de = some row.data
  reserves : ∀ row ∈ after.reserves.rows, row ∈ before.reserves.rows ∨
    ∃ de ∈ events, ∃ poolId carried, reservesRow now poolId carried de = row.data

section Writers
variable {env : Environment} {events sorted : List DecodedEvent} {before after : Session} {written : Written}

theorem Ingested.adds (ingested : Ingested env sorted before after written) (same : ∀ de, de ∈ sorted ↔ de ∈ events) :
    Db.Adds env.now events before.db after.db := by
  have database := ingested.database
  constructor
  case pools =>
    intro row member
    rw [database.pools] at member
    rcases Table.mem_insert member with old | new
    · exact .inl old
    · obtain ⟨de, listed, made⟩ := List.mem_filterMap.mp new
      exact .inr ⟨de, (same de).mp listed, made⟩
  case swaps =>
    intro row member
    rw [database.swaps, batchesOf_swaps] at member
    rcases Table.mem_insert member with old | new
    · exact .inl old
    · obtain ⟨de, listed, made⟩ := List.mem_filterMap.mp new
      obtain ⟨poolId, _, made⟩ := Option.bind_eq_some_iff.mp made
      exact .inr ⟨de, (same de).mp listed, poolId, made⟩
  case liquidity =>
    intro row member
    rw [database.liquidity, batchesOf_liquidity] at member
    rcases Table.mem_insert member with old | new
    · exact .inl old
    · obtain ⟨de, listed, made⟩ := List.mem_filterMap.mp new
      obtain ⟨poolId, _, made⟩ := Option.bind_eq_some_iff.mp made
      exact .inr ⟨de, (same de).mp listed, poolId, made⟩
  case reserves =>
    intro row member
    rw [database.reserves] at member
    rcases Table.mem_insert member with old | new
    · exact .inl old
    · obtain ⟨de, listed, poolId, carried, _, made⟩ := batchesOf_reserves new
      exact .inr ⟨de, (same de).mp listed, poolId, carried, made.symm⟩

end Writers

/-- What an event is translated to holds its amounts exactly when they are below the sign bit, in
the live writer and in the backfill. -/
theorem stored_amounts_exact_iff {emitted : DeepPool.DeepPoolEvent Pubkey} {de : DecodedEvent}
    (decoded : tryDecodeEvent (eventBytes .compute emitted) .compute = .ok de.event) (now : Int) (poolId : Nat)
    (carried : Option Int) :
    (de.columns now poolId carried = (storedFields emitted).map (fun field => (field.val : Int)) ↔
      ∀ field ∈ storedFields emitted, field.val < 2 ^ 63) ∧
    (∀ (env : Environment) (batch : BlockBatch) (before after : Session) (written : Written),
      writeBlock env batch before = .ok written after → Db.Adds env.now batch.events before.db after.db) ∧
    ∀ (env : Environment) (events : List DecodedEvent) (before after : Session) (count : Nat),
      applyPage env events before = .ok count after → Db.Adds env.now events before.db after.db := by
  refine ⟨?_, ?_, ?_⟩
  · obtain ⟨event, rfl⟩ := DeepPoolEvent.emitted_surjective emitted
    have read : tryDecodeEvent (eventBytes .compute event.emitted) .compute = .ok event :=
      (tryDecodeEvent_ok Discriminators.compute_distinct).mpr rfl
    rw [← Except.ok.inj (decoded.symm.trans read), columns_eq]
    exact map_asI64
  · intro env batch before after written done
    obtain ⟨last, ingested, rfl⟩ := writeBlock_done done
    have adds : Db.Adds env.now batch.events before.db last.db := ingested.adds fun de => List.mem_insertionSort _
    exact ⟨adds.pools, adds.swaps, adds.liquidity, adds.reserves⟩
  · intro env events before after count done
    rcases applyPage_done done with ⟨_, _, rfl⟩ | ⟨written, ingested, _⟩
    · exact ⟨fun _ => .inl, fun _ => .inl, fun _ => .inl, fun _ => .inl⟩
    · exact ingested.adds fun de => List.mem_insertionSort _

/-- Five SOL against ten billion tokens of nine decimals. -/
def sampleLarge : PoolCreated where
  pool := Vector.replicate 32 1
  config := Vector.replicate 32 2
  tokenMint := Vector.replicate 32 3
  lpMint := Vector.replicate 32 4
  creator := Vector.replicate 32 5
  solInGross := 5000000000
  solInNet := 5000000000
  tokensInGross := 10000000000000000000
  tokensInNet := 10000000000000000000
  solReserveAfter := 5000000000
  tokenReserveAfter := 10000000000000000000
  lpSupplyAfter := 223606797748978
  lpToCreator := 178885438199183
  lpLocked := 44721359549795

theorem large_supply_stored_negative : ∃ de : DecodedEvent,
    tryDecodeEvent (eventBytes .compute (DeepPoolEvent.poolCreated sampleLarge).emitted) .compute = .ok de.event ∧
      de.columns 0 1 none ≠
        (storedFields (DeepPoolEvent.poolCreated sampleLarge).emitted).map (fun field => (field.val : Int)) ∧
      (reservesRow 0 1 none de).tokenReserve = -8446744073709551616 :=
  ⟨⟨"2A", 0, 100, none, .poolCreated sampleLarge⟩, (tryDecodeEvent_ok Discriminators.compute_distinct).mpr rfl,
    by decide +kernel, by decide +kernel⟩

theorem stored_amounts_exact_iff_sample :
    sampleCreated.columns 0 1 none = [5000000000, 5000000, 158112883, 5000000000, 5000000, 158112883] ∧
      (∃ after written, writeBlock healthy ⟨100, [sampleCreated]⟩ (.load .empty) = .ok written after ∧
        Db.Adds 1700000100 [sampleCreated] .empty after.db) ∧
      ∃ after, applyPage healthy [sampleCreated] (.load .empty) = .ok 2 after ∧
        Db.Adds 1700000100 [sampleCreated] .empty after.db := by
  have decoded : tryDecodeEvent (eventBytes .compute sampleCreated.event.emitted) .compute = .ok sampleCreated.event :=
    (tryDecodeEvent_ok Discriminators.compute_distinct).mpr rfl
  have small : (storedFields sampleCreated.event.emitted).all (fun field => field.val < 2 ^ 63) = true := by decide +kernel
  obtain ⟨exactly_, writes, pages⟩ := stored_amounts_exact_iff decoded 0 1 none
  have stored := exactly_.mpr fun field member =>
    of_decide_eq_true (List.all_eq_true.mp small field member)
  have written : (returned? (writeBlock healthy ⟨100, [sampleCreated]⟩ (.load .empty))).isSome = true := by decide +kernel
  obtain ⟨rows, returned⟩ := Option.isSome_iff_exists.mp written
  obtain ⟨after, done⟩ := returned?_some.mp returned
  have counted : returned? (applyPage healthy [sampleCreated] (.load .empty)) = some 2 := by decide +kernel
  obtain ⟨last, applied⟩ := returned?_some.mp counted
  exact ⟨stored.trans (by decide +kernel), ⟨after, rows, done, writes healthy _ _ _ _ done⟩, last, applied,
    pages healthy _ _ _ _ applied⟩

end DeepPool.Indexer
