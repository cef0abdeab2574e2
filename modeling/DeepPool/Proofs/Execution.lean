import DeepPool.Indexer.Execution
import DeepPool.Proofs.Emission
import DeepPool.Proofs.Backfill
import DeepPool.Proofs.Latest

/-! What the indexer decodes from the blocks are the events of the run, in their order. The
blocks of every run keep the order that the indexer relies on. -/

namespace DeepPool.Indexer
open Library

section Decoding
variable {program : Pubkey} {programIdx : Nat} {decoded : Nat → DeepPoolEvent → DecodedEvent}
  {block : ConfirmedBlock} {tx : ConfirmedTransaction} {events : List (DeepPool.DeepPoolEvent Pubkey)}

private theorem decoded_at (kept : ∀ flatIdx event, (decoded flatIdx event).event = event) (flatIdx : Nat)
    (ix : CompiledInstruction) :
    (decodeInner .compute programIdx decoded (ix, flatIdx)).map (fun de => de.event) =
      if ix.programIdIndex.toNat = programIdx then (tryDecodeEvent ix.data .compute).toOption else none := by
  rw [decodeInner]
  split
  · cases tryDecodeEvent ix.data .compute with
    | ok event => exact congrArg some (kept flatIdx event)
    | error error => rfl
  · rfl

/-- Only bytes with the tag decode. -/
private theorem untagged {data : Bytes} (other : eventIxTagLe.isPrefixOf data = false) :
    (tryDecodeEvent data .compute).toOption = none := by
  cases outcome : tryDecodeEvent data .compute with
  | ok event =>
    have written := (tryDecodeEvent_ok Discriminators.compute_distinct).mp outcome
    rw [written, eventBytes, List.append_assoc, List.isPrefixOf_iff_prefix.mpr (List.prefix_append _ _)] at other
    cases other
  | error error => rfl

private theorem decode_written (events : List (DeepPool.DeepPoolEvent Pubkey)) :
    ((events.map (eventBytes .compute)).filterMap fun data => (tryDecodeEvent data .compute).toOption).map
      DeepPoolEvent.emitted = events := by
  induction events with
  | nil => rfl
  | cons event events ih =>
    obtain ⟨found, rfl⟩ := DeepPoolEvent.emitted_surjective event
    have decodes : tryDecodeEvent (eventBytes .compute found.emitted) .compute = .ok found :=
      (tryDecodeEvent_ok Discriminators.compute_distinct).mpr rfl
    rw [List.map_cons, List.filterMap_cons, decodes]
    exact congrArg (found.emitted :: ·) ih

/-- Which instructions decode does not depend on their places. -/
private theorem decoded_all (programIdx : Nat) (kept : ∀ flatIdx event, (decoded flatIdx event).event = event)
    (instructions : List CompiledInstruction) :
    (instructions.zipIdx.filterMap (decodeInner .compute programIdx decoded)).map (fun de => de.event) =
      instructions.filterMap fun ix =>
        if some programIdx == some ix.programIdIndex.toNat && eventIxTagLe.isPrefixOf ix.data then
          (tryDecodeEvent ix.data .compute).toOption
        else none := by
  conv_rhs => rw [← List.zipIdx_map_fst 0 instructions]
  rw [List.map_filterMap, List.filterMap_map]
  apply List.filterMap_congr
  rintro ⟨ix, flatIdx⟩ _
  rw [decoded_at kept, Function.comp_apply]
  by_cases addressed : ix.programIdIndex.toNat = programIdx
  · rw [if_pos addressed, beq_iff_eq.mpr (congrArg some addressed.symm), Bool.true_and]
    cases tagged : eventIxTagLe.isPrefixOf ix.data with
    | true => rfl
    | false => exact untagged tagged
  · have different : (some programIdx == some ix.programIdIndex.toNat) = false :=
      beq_eq_false_iff_ne.mpr fun same => addressed (Option.some.inj same).symm
    rw [if_neg addressed, different, Bool.false_and]
    rfl

/-- The indexer reads the events that a transaction emitted. -/
theorem recorded_events (shown : tx.emissions program = events.map (eventBytes .compute)) :
    (block.recorded .compute program tx).map (fun de => de.event.emitted) = events := by
  rw [← decode_written events, ← shown, ConfirmedTransaction.emissions, ConfirmedBlock.recorded, List.filterMap_map,
    List.filterMap_filter]
  cases position : tx.keys.findIdx? (· == program) with
  | none => simp
  | some programIdx =>
    let decoded : Nat → DeepPoolEvent → DecodedEvent := fun flatIdx event =>
      ⟨tx.signatureText, flatIdx, asI64 block.slot, block.blockTime.bind fromTimestamp, event⟩
    have read := decoded_all programIdx (fun flatIdx event => (rfl : (decoded flatIdx event).event = event))
      tx.innerInstructions.flatten
    exact List.map_map.symm.trans (congrArg (List.map DeepPoolEvent.emitted) read)

/-- The events of one transaction are numbered in their order. -/
theorem recorded_numbered : (block.recorded .compute program tx).Pairwise fun earlier later =>
    earlier.innerIxIdx < later.innerIxIdx := by
  unfold ConfirmedBlock.recorded
  split
  · exact List.Pairwise.nil
  · have placed : (tx.innerInstructions.flatten.zipIdx).Pairwise fun earlier later => earlier.2 < later.2 := by
      rw [← List.pairwise_map, List.zipIdx_map_snd]
      exact List.pairwise_lt_range'
    rw [List.pairwise_filterMap]
    apply placed.imp
    rintro ⟨ix, flatIdx⟩ ⟨other, place⟩ less de found later also
    obtain ⟨_, rfl⟩ := decodeInner_place found
    obtain ⟨_, rfl⟩ := decodeInner_place also
    exact less

/-- The same event, named as the program names it. -/
theorem emitted_pool (event : DeepPoolEvent) : event.emitted.pool = poolBytes event := by
  cases event <;> rfl

theorem emitted_creates (de : DecodedEvent) : de.event.emitted.creates = de.creates := by
  unfold DecodedEvent.creates
  cases de.event <;> rfl

theorem poolPubkey_emitted (event : DeepPoolEvent) : poolPubkey event = b58 event.emitted.pool := by
  rw [emitted_pool]
  rfl

end Decoding

section Runs
variable {Key : Type} [DecidableEq Key] {derive : Derivation Key} {rents : Rents Key}
  {start before after : DeepPool.World Key}
  {annals : Annals Key} {performed : List (Execution Key × Program.Trace Key)}

theorem Execution.perform_run {execution : Execution Key} {trace : Program.Trace Key}
    (done : execution.perform derive rents before = .ok (after, trace)) :
    Run (Program.step derive rents) before trace after := by
  unfold Execution.perform at done
  split at done
  · exact execute_run done
  · cases done
    exact .nil _

theorem executions_run (runs : Run (Execution.perform derive rents) before performed after) :
    Run (Program.step derive rents) before (performed.flatMap Prod.snd) after := by
  induction runs with
  | nil => exact .nil _
  | cons accepted _ ih => exact (Execution.perform_run accepted).append ih

theorem ExecutedBlock.perform_ok {block : ExecutedBlock Key}
    (done : block.perform derive rents before = .ok (after, performed)) :
    (before.slot.val < block.slot.val ∧ block.slot.val ≤ after.slot.val) ∧ performed.map Prod.fst = block.executions ∧
      Run (Program.step derive rents) before ((.advance block.slot, none) :: performed.flatMap Prod.snd) after := by
  unfold ExecutedBlock.perform at done
  split at done
  next later =>
    have runs := executions_run (execute_run done)
    refine ⟨⟨later, slot_run runs⟩, execute_events done, ?_⟩
    apply Run.cons
    · exact if_pos (Nat.le_of_lt later)
    · exact runs
  · cases done

/-- The blocks record a run of the program. -/
theorem annals_run (runs : Run (ExecutedBlock.perform derive rents) start annals after) :
    Run (Program.step derive rents) start annals.trace after := by
  induction runs with
  | nil => exact .nil _
  | cons accepted _ ih => exact (ExecutedBlock.perform_ok accepted).2.2.append ih

theorem annals_performed (runs : Run (ExecutedBlock.perform derive rents) start annals after) :
    ∀ entry ∈ annals, entry.2.map Prod.fst = entry.1.executions := by
  induction runs with
  | nil =>
    intro _ impossible
    cases impossible
  | cons accepted _ ih => exact List.forall_mem_cons.mpr ⟨(ExecutedBlock.perform_ok accepted).2.1, ih⟩

theorem annals_ordered (runs : Run (ExecutedBlock.perform derive rents) start annals after) :
    (∀ entry ∈ annals, start.slot.val < entry.1.slot.val) ∧
      annals.Pairwise fun earlier later => earlier.1.slot.val < later.1.slot.val := by
  induction runs with
  | nil =>
    refine ⟨?_, List.Pairwise.nil⟩
    intro _ impossible
    cases impossible
  | @cons before middle after block performed annals accepted rest ih =>
    obtain ⟨⟨later, reached⟩, _⟩ := ExecutedBlock.perform_ok accepted
    obtain ⟨above, ordered⟩ := ih
    refine ⟨?_, List.pairwise_cons.mpr ⟨fun entry member => reached.trans_lt (above entry member), ordered⟩⟩
    intro entry member
    rcases List.mem_cons.mp member with rfl | further
    · exact later
    · exact (later.trans_le reached).trans (above entry further)

end Runs

section Blocks
variable {Key : Type} {bytes : Key → Pubkey} {program : Pubkey} {annals : Annals Key}

theorem rename_pool (event : DeepPool.DeepPoolEvent Key) : (event.rename bytes).pool = bytes event.pool := by
  cases event <;> rfl

theorem rename_creates (event : DeepPool.DeepPoolEvent Key) : (event.rename bytes).creates = event.creates := by
  cases event <;> rfl

theorem ExecutedBlock.batch_events (block : ExecutedBlock Key) : (block.batch program).events =
    block.executions.flatMap fun execution => block.confirmed.recorded .compute program execution.tx := by
  simp only [ExecutedBlock.batch, decodeBlock, ConfirmedBlock.update, confirmed, List.map_map, List.flatMap_map]
  apply List.flatMap_congr
  intro execution _
  exact (decodeUpdate_recorded : _ = block.confirmed.recorded .compute program execution.tx)

variable [DecidableEq Key] {derive : Derivation Key} {rents : Rents Key} {start after : DeepPool.World Key}
  (executed : Executed derive rents bytes program start annals after)
include executed

/-- The events of the blocks are those of the run. -/
theorem Executed.events : ((annals.map fun entry => entry.1.batch program).flatMap BlockBatch.events).map
    (fun de => de.event.emitted) = annals.events.map (DeepPoolEvent.rename bytes) := by
  rw [List.flatMap_map, List.map_flatMap, Annals.events, Annals.trace, List.filterMap_flatMap, List.map_flatMap]
  apply List.flatMap_congr
  rintro ⟨block, performed⟩ member
  have same : performed.map Prod.fst = block.executions := annals_performed executed.runs _ member
  rw [ExecutedBlock.batch_events, ← same, List.flatMap_map, List.map_flatMap, List.filterMap_cons, List.filterMap_flatMap,
    List.map_flatMap]
  apply List.flatMap_congr
  intro execution listed
  apply recorded_events
  rw [executed.shown _ member execution listed, List.map_map]
  rfl

/-- A pool's creation is decoded before all else of the pool. -/
theorem Executed.created : ((annals.map fun entry => entry.1.batch program).flatMap BlockBatch.events).Pairwise
    fun earlier later => later.creates → poolPubkey later.event ≠ poolPubkey earlier.event := by
  have first : (annals.events.map (DeepPoolEvent.rename bytes)).Pairwise fun earlier later =>
      later.creates → later.pool ≠ earlier.pool := by
    rw [List.pairwise_map]
    apply (creation_first (annals_run executed.runs)).imp_of_mem
    intro earlier later before after apart creates same
    rw [rename_pool, rename_pool] at same
    rw [rename_creates] at creates
    exact apart creates (executed.addressed _ after _ before same)
  rw [← executed.events, List.pairwise_map] at first
  apply first.imp
  intro earlier later apart creates same
  rw [poolPubkey_emitted, poolPubkey_emitted] at same
  exact apart ((emitted_creates later).trans creates) (encodeKey_inj.mp same)

theorem Executed.numbered : ((annals.map fun entry => entry.1.batch program).flatMap BlockBatch.events).Pairwise
    fun earlier later => earlier.signature = later.signature → earlier.innerIxIdx < later.innerIxIdx := by
  have signed := executed.signed
  rw [List.Nodup, List.map_flatMap, List.pairwise_flatMap] at signed
  obtain ⟨within, across⟩ := signed
  have apart : ∀ {first second : ConfirmedTransaction} {block other : ConfirmedBlock} {de later : DecodedEvent},
      first.signature ≠ second.signature → de ∈ block.recorded .compute program first →
        later ∈ other.recorded .compute program second → de.signature ≠ later.signature := by
    intro first second block other de later different member listed same
    rw [recorded_signature member, recorded_signature listed] at same
    exact different (Vector.toList_inj.mp (encodeBase58_inj.mp same))
  rw [List.flatMap_map, List.pairwise_flatMap]
  refine ⟨?_, ?_⟩
  · intro entry member
    rw [ExecutedBlock.batch_events, List.pairwise_flatMap]
    have numbered : ∀ execution ∈ entry.1.executions,
        (entry.1.confirmed.recorded .compute program execution.tx).Pairwise fun earlier later =>
          earlier.signature = later.signature → earlier.innerIxIdx < later.innerIxIdx := by
      intro execution _
      apply recorded_numbered.imp
      intro earlier later less _
      exact less
    refine ⟨numbered, ?_⟩
    apply (List.pairwise_map.mp (within entry member)).imp
    intro first second different de recorded later also same
    exact absurd same (apart different recorded also)
  · apply across.imp
    intro earlier later different de member other listed same
    rw [ExecutedBlock.batch_events] at member listed
    obtain ⟨first, performed, recorded⟩ := List.mem_flatMap.mp member
    obtain ⟨second, also, decoded⟩ := List.mem_flatMap.mp listed
    have signatures := different _ (List.mem_map_of_mem performed) _ (List.mem_map_of_mem also)
    exact absurd same (apart signatures recorded decoded)

/-- What the indexer assumes of the chain holds of every run of the program. -/
def Executed.history : History where
  blocks := annals.map fun entry => entry.1.batch program
  ordered := List.pairwise_map.mpr (annals_ordered executed.runs).2
  created := (List.pairwise_flatMap.mp executed.created).2.imp fun apart de member creation listed creates =>
    apart de member creation listed creates
  numbered := executed.numbered

end Blocks

section Samples
open Program (SampleKey sampleDerivation sampleRents sampleWorld sampleCreate)

def tagged (tag : UInt8) (key : Pubkey) : Pubkey := key.set 0 tag

def sampleBytes : SampleKey → Pubkey
  | .wallet number => Vector.replicate 32 (UInt8.ofNat (number + 16))
  | .pool config _ => tagged 1 (sampleBytes config)
  | .vault pool => tagged 2 (sampleBytes pool)
  | .lpMint pool => tagged 3 (sampleBytes pool)
  | .associated _ wallet _ => tagged 4 (sampleBytes wallet)

def sampleTransaction (signature : UInt8) (events : List (DeepPool.DeepPoolEvent SampleKey)) : ConfirmedTransaction where
  signature := Vector.replicate 64 signature
  cosignatures := []
  accountKeys := [Vector.replicate 32 5, Vector.replicate 32 7]
  loadedWritable := []
  loadedReadonly := []
  instructions := []
  innerInstructions := [events.map fun event => ⟨1, eventBytes .compute (event.rename sampleBytes)⟩]
  err := none

def samplePlan : List (ExecutedBlock SampleKey) :=
  [⟨1001, none, [⟨sampleTransaction 1 [], [sampleCreate 3]⟩, ⟨sampleTransaction 2 [], [sampleCreate 4]⟩]⟩,
    ⟨1200, none, [⟨sampleTransaction 3 [],
      [Program.sampleSwap 3 1 ⟨1000000, 0, true⟩, Program.sampleSwap 4 1 ⟨5000000, 0, false⟩]⟩]⟩]

/-- The planned blocks with the events that they turned out to emit. -/
def publish (annals : Annals SampleKey) : List (ExecutedBlock SampleKey) :=
  annals.map fun (block, performed) => { block with
    executions := performed.map fun (execution, trace) =>
      { execution with tx := { execution.tx with
        innerInstructions := (sampleTransaction 0 (trace.filterMap Prod.snd)).innerInstructions } } }

def sampleAnnals : Except Program.Refusal (DeepPool.World SampleKey × Annals SampleKey) := do
  let (_, planned) ← execute (ExecutedBlock.perform sampleDerivation sampleRents) sampleWorld samplePlan
  execute (ExecutedBlock.perform sampleDerivation sampleRents) sampleWorld (publish planned)

def Annals.consistent (annals : Annals SampleKey) : Bool :=
  decide ((annals.flatMap fun (block, _) => block.executions).map fun execution => execution.tx.signature).Nodup &&
    decide (∀ first ∈ annals.events, ∀ second ∈ annals.events,
      sampleBytes first.pool = sampleBytes second.pool → first.pool = second.pool) &&
    decide (∀ entry ∈ annals, ∀ performed ∈ entry.2, performed.1.tx.emissions (Vector.replicate 32 7) =
      (performed.2.filterMap Prod.snd).map fun event => eventBytes .compute (event.rename sampleBytes))

theorem sampleAnnals_executed {annals : Annals SampleKey} {after : DeepPool.World SampleKey}
    (done : sampleAnnals = .ok (after, annals)) (consistent : annals.consistent = true) :
    Executed sampleDerivation sampleRents sampleBytes (Vector.replicate 32 7) sampleWorld annals after := by
  obtain ⟨planned, _, done⟩ := bind_ok.mp done
  obtain ⟨checked, shown⟩ := (Bool.and_eq_true _ _).mp consistent
  obtain ⟨signed, addressed⟩ := (Bool.and_eq_true _ _).mp checked
  exact ⟨execute_run done, of_decide_eq_true signed, of_decide_eq_true addressed, of_decide_eq_true shown⟩

end Samples

end DeepPool.Indexer
