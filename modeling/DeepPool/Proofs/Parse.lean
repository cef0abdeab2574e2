import DeepPool.Sdk.Events
import DeepPool.Proofs.Backfill

/-! The SDK's parser beside the indexer's: both read the inner instructions in order, but
the parser finds the program of an instruction among the static keys alone. -/

namespace DeepPool.Sdk
open Library Indexer

variable {coder : TypesCoder} {program : Pubkey} {version : TransactionVersion} {block : ConfirmedBlock}
  {tx : ConfirmedTransaction} {ix : Indexer.CompiledInstruction} {keys : List Pubkey} {data : Bytes}

/-- The coder reads a well-formed payload as the fields that were written. -/
def Faithful (coder : TypesCoder) : Prop :=
  ∀ event : DeepPool.DeepPoolEvent Pubkey, coder (eventName event) (payloadBytes event) = some (fields event)

/-- Data with the event tag and one of the four discriminators. -/
def Tagged (data : Bytes) : Prop :=
  16 ≤ data.length ∧ data.take 8 = eventIxTag ∧ ∃ name, (name, (data.drop 8).take 8) ∈ eventDiscriminators

/-- The indexer reads the transaction, and the parser returns the same events in the same order. -/
def Agrees (coder : TypesCoder) (version : TransactionVersion) (program : Pubkey) (block : ConfirmedBlock)
    (tx : ConfirmedTransaction) : Prop :=
  ∃ events, decodeTx .compute (encodeBase58 program.toList) (block.entry tx) (.ok tx.response) = .ok events ∧
    parseEvents coder program (some (getTransaction version tx)) = .ok (events.map fun de => .of de.event.emitted)

/-- Every inner instruction names its program by a static key, and what the program's
instructions tag as an event is an event, of the program at its first place among the keys. -/
structure Readable (program : Pubkey) (tx : ConfirmedTransaction) : Prop where
  listed : ∀ ix ∈ tx.innerInstructions.flatten, ix.programIdIndex.toNat < tx.accountKeys.length
  written : ∀ ix ∈ tx.innerInstructions.flatten, tx.accountKeys[ix.programIdIndex.toNat]? = some program →
    Tagged ix.data → tx.Addresses ix program ∧ ∃ event, ix.data = eventBytes .compute event

section Data

theorem find_discriminator (event : DeepPool.DeepPoolEvent Pubkey) :
    eventDiscriminators.find? ((discriminator .compute event).toList = ·.2) =
      some (eventName event, (discriminator .compute event).toList) := by
  cases event with
  | poolCreated event => rfl
  | swapExecuted event => rfl
  | liquidityAdded event => rfl
  | liquidityRemoved event => rfl

theorem parseData_written (faithful : Faithful coder) (event : DeepPool.DeepPoolEvent Pubkey) :
    parseData coder (eventBytes .compute event) = .ok (some (.of event)) := by
  obtain ⟨long, tag, disc, body⟩ := @eventBytes_parts .compute event
  have tagged : (eventBytes .compute event).take 8 = eventIxTag := tag
  rw [parseData, if_neg (Nat.not_lt.mpr long), if_neg (not_not.mpr tagged), disc, find_discriminator, body]
  simp only [faithful event, DecodedEvent.of]

/-- The parser passes over data without a tag, and over no other. -/
theorem parseData_skips : parseData coder data = .ok none ↔ ¬ Tagged data := by
  unfold parseData Tagged
  split
  next short => exact iff_of_true rfl fun tagged => Nat.not_lt.mpr tagged.1 short
  next long =>
    split
    next other => exact iff_of_true rfl fun tagged => other tagged.2.1
    next same =>
      split
      next unknown =>
        refine iff_of_true rfl fun tagged => ?_
        obtain ⟨name, known⟩ := tagged.2.2
        exact absurd (decide_eq_true rfl) (List.find?_eq_none.mp unknown _ known)
      next name disc known =>
        have equal := List.find?_some known
        simp only [decide_eq_true_eq] at equal
        have tagged : 16 ≤ data.length ∧ data.take 8 = eventIxTag ∧
            ∃ name, (name, (data.drop 8).take 8) ∈ eventDiscriminators := by
          refine ⟨Nat.not_lt.mp long, not_not.mp same, name, ?_⟩
          rw [equal]
          exact List.mem_of_find?_eq_some known
        refine iff_of_false ?_ (not_not.mpr tagged)
        split
        · exact nofun
        · exact nofun

end Data

section Instruction

theorem parse_unlisted (beyond : keys.length ≤ ix.programIdIndex.toNat) :
    parseInstruction coder program keys (compiledInstruction ix) = .error .undefinedKey := by
  have absent : keys[(compiledInstruction ix).programIdIndex]? = none := List.getElem?_eq_none beyond
  rw [parseInstruction, absent]

theorem parse_inside {outcome : Option DecodedEvent}
    (done : parseInstruction coder program keys (compiledInstruction ix) = .ok outcome) :
    ix.programIdIndex.toNat < keys.length := by
  by_contra beyond
  rw [parse_unlisted (Nat.not_lt.mp beyond)] at done
  cases done

theorem parse_listed (inside : ix.programIdIndex.toNat < keys.length) :
    parseInstruction coder program keys (compiledInstruction ix) =
      if keys[ix.programIdIndex.toNat] ≠ program then .ok none else parseData coder ix.data := by
  have found : keys[(compiledInstruction ix).programIdIndex]? = some keys[ix.programIdIndex.toNat] :=
    List.getElem?_eq_getElem inside
  have bytes : decodeBase58 (compiledInstruction ix).data = some ix.data := decode_encodeBase58 ix.data
  rw [parseInstruction, found]
  simp only [bytes]

instance : Decidable (tx.Addresses ix program) := inferInstanceAs (Decidable (_ = _))

/-- What the indexer reads from one inner instruction, in the parser's terms. -/
def indexed (program : Pubkey) (tx : ConfirmedTransaction) (ix : Indexer.CompiledInstruction) : Option DecodedEvent :=
  if tx.Addresses ix program then (tryDecodeEvent ix.data .compute).toOption.map fun event => .of event.emitted else none

theorem indexed_some {parsed : DecodedEvent} : indexed program tx ix = some parsed ↔
    tx.Addresses ix program ∧ ∃ event, ix.data = eventBytes .compute event ∧ .of event = parsed := by
  unfold indexed
  constructor
  · intro read
    split at read
    next addressed =>
      obtain ⟨event, decoded, rfl⟩ := Option.map_eq_some_iff.mp read
      have accepted : tryDecodeEvent ix.data .compute = .ok event := by
        cases outcome : tryDecodeEvent ix.data .compute with
        | error error =>
          rw [outcome] at decoded
          cases decoded
        | ok other =>
          rw [outcome] at decoded
          cases decoded
          rfl
      exact ⟨addressed, event.emitted, (tryDecodeEvent_ok Discriminators.compute_distinct).mp accepted, rfl⟩
    next => cases read
  · rintro ⟨addressed, event, written, rfl⟩
    obtain ⟨found, rfl⟩ := Indexer.DeepPoolEvent.emitted_surjective event
    rw [if_pos addressed, (tryDecodeEvent_ok Discriminators.compute_distinct).mpr written]
    rfl

/-- An addressed program with a static place is found there by the parser. -/
theorem addressed_static (addressed : tx.Addresses ix program)
    (inside : ix.programIdIndex.toNat < tx.accountKeys.length) : tx.accountKeys[ix.programIdIndex.toNat] = program := by
  obtain ⟨within, named, _⟩ := List.findIdx?_eq_some_iff_getElem.mp addressed
  rw [← eq_of_beq named]
  simp only [ConfirmedTransaction.keys, List.append_assoc]
  exact (List.getElem_append_left inside).symm

/-- What the indexer reads at a static place, the parser reads too. -/
theorem parse_indexed {parsed : DecodedEvent} (faithful : Faithful coder)
    (inside : ix.programIdIndex.toNat < tx.accountKeys.length) (read : indexed program tx ix = some parsed) :
    parseInstruction coder program tx.accountKeys (compiledInstruction ix) = .ok (some parsed) := by
  obtain ⟨addressed, event, written, rfl⟩ := indexed_some.mp read
  rw [parse_listed inside, if_neg (not_not.mpr (addressed_static addressed inside)), written, parseData_written faithful]

theorem parse_alike (faithful : Faithful coder) :
    parseInstruction coder program tx.accountKeys (compiledInstruction ix) = .ok (indexed program tx ix) ↔
      ix.programIdIndex.toNat < tx.accountKeys.length ∧ (tx.accountKeys[ix.programIdIndex.toNat]? = some program →
        Tagged ix.data → tx.Addresses ix program ∧ ∃ event, ix.data = eventBytes .compute event) := by
  constructor
  · intro same
    have inside := parse_inside same
    refine ⟨inside, fun named tagged => ?_⟩
    have program_there : tx.accountKeys[ix.programIdIndex.toNat] = program :=
      Option.some.inj ((List.getElem?_eq_getElem inside).symm.trans named)
    rw [parse_listed inside, if_neg (not_not.mpr program_there)] at same
    cases read : indexed program tx ix with
    | none =>
      rw [read] at same
      exact absurd tagged (parseData_skips.mp same)
    | some parsed =>
      obtain ⟨addressed, event, written, _⟩ := indexed_some.mp read
      exact ⟨addressed, event, written⟩
  · rintro ⟨inside, written⟩
    cases read : indexed program tx ix with
    | some parsed => exact parse_indexed faithful inside read
    | none =>
      rw [parse_listed inside]
      split
      next => rfl
      next same =>
        have named : tx.accountKeys[ix.programIdIndex.toNat]? = some program := by
          rw [List.getElem?_eq_getElem inside, not_not.mp same]
        refine parseData_skips.mpr fun tagged => ?_
        obtain ⟨addressed, event, bytes⟩ := written named tagged
        rw [indexed_some.mpr ⟨addressed, event, bytes, rfl⟩] at read
        cases read

end Instruction

section Transaction

theorem parseEvents_flat : parseEvents coder program (some (getTransaction version tx)) =
    collect (fun ix => parseInstruction coder program tx.accountKeys (compiledInstruction ix)) []
      tx.innerInstructions.flatten := by
  have static : (version.message tx.accountKeys).accountKeys = tx.accountKeys := by
    cases version with
    | legacy => rfl
    | v0 => rfl
  rw [← collect_groups, parseEvents, getTransaction]
  simp only [Option.bind_some, static, List.foldlM_map]
  congr 1
  funext found group
  rw [collect, collect, List.foldlM_map]

theorem recorded_indexed : (block.recorded .compute program tx).map (fun de => .of de.event.emitted) =
    tx.innerInstructions.flatten.filterMap (indexed program tx) := by
  unfold ConfirmedBlock.recorded
  cases position : tx.keys.findIdx? (· == program) with
  | none =>
    refine (List.filterMap_eq_nil_iff.mpr fun ix _ => if_neg ?_).symm
    rw [ConfirmedTransaction.Addresses, position]
    exact nofun
  | some programIdx =>
    have places : tx.innerInstructions.flatten.zipIdx.map Prod.fst = tx.innerInstructions.flatten :=
      List.zipIdx_map_fst 0 _
    rw [List.map_filterMap, ← places, List.filterMap_map, places]
    refine List.filterMap_congr fun entry _ => ?_
    have addresses : tx.Addresses entry.1 program ↔ entry.1.programIdIndex.toNat = programIdx := by
      rw [ConfirmedTransaction.Addresses, position, Option.some_inj, eq_comm]
    simp only [decodeInner, Function.comp_apply, indexed, addresses]
    split
    next =>
      cases tryDecodeEvent entry.1.data .compute with
      | ok event => rfl
      | error error => rfl
    next => rfl

/-- The parser returns what the indexer extracts exactly from the readable transactions. -/
theorem parser_agrees_iff (faithful : Faithful coder) :
    Agrees coder version program block tx ↔ Readable program tx := by
  have parsed : Agrees coder version program block tx ↔ ∀ ix ∈ tx.innerInstructions.flatten,
      parseInstruction coder program tx.accountKeys (compiledInstruction ix) = .ok (indexed program tx ix) := by
    have only : Agrees coder version program block tx ↔
        parseEvents coder program (some (getTransaction version tx)) =
          .ok (tx.innerInstructions.flatten.filterMap (indexed program tx)) := by
      unfold Agrees
      rw [decodeTx_recorded, ← @recorded_indexed program block tx]
      constructor
      · rintro ⟨_, same, done⟩
        cases same
        exact done
      · exact fun done => ⟨_, rfl, done⟩
    rw [only, parseEvents_flat]
    apply collect_eq_filterMap
    intro ix _ outcome event done read
    exact Except.ok.inj (done.symm.trans (parse_indexed faithful (parse_inside done) read))
  rw [parsed]
  simp only [parse_alike faithful]
  exact ⟨fun each => ⟨fun ix member => (each ix member).1, fun ix member => (each ix member).2⟩,
    fun readable ix member => ⟨readable.listed ix member, readable.written ix member⟩⟩

end Transaction

section Samples

/-- Reads the fields in the order of `deep_pool.json` and ignores what follows them. -/
def idlCoder : TypesCoder := fun name payload =>
  (eventDiscriminators.lookup name).bind fun disc =>
    ((readEvent .compute disc payload).toOption).map fun (event, _) => fields event.emitted

theorem idlCoder_faithful : Faithful idlCoder := by
  intro event
  obtain ⟨found, rfl⟩ := Indexer.DeepPoolEvent.emitted_surjective event
  have disc : eventDiscriminators.lookup (eventName found.emitted) =
      some (discriminator .compute found.emitted).toList := by
    cases found with
    | poolCreated event => rfl
    | swapExecuted event => rfl
    | liquidityAdded event => rfl
    | liquidityRemoved event => rfl
  have read : readEvent .compute (discriminator .compute found.emitted).toList (payloadBytes found.emitted) =
      .ok (found, []) := by
    rw [readEvent_ok Discriminators.compute_distinct, List.append_nil]
    exact ⟨rfl, rfl⟩
  rw [idlCoder, disc, Option.bind_some, read]
  rfl

theorem parser_agrees_iff_sample : Agrees idlCoder .legacy sampleProgram creatingBlock creatingTransaction := by
  apply (parser_agrees_iff idlCoder_faithful).mpr
  constructor
  · decide
  · intro ix member _ _
    obtain rfl := List.mem_singleton.mp member
    exact ⟨by decide, sampleCreated.event.emitted, rfl⟩

/-- A router swaps, and takes the program from an address-lookup table. -/
def routedTransaction : ConfirmedTransaction where
  signature := Vector.replicate 64 6
  cosignatures := []
  accountKeys := [Vector.replicate 32 1, Vector.replicate 32 8]
  loadedWritable := []
  loadedReadonly := [sampleProgram]
  instructions := [⟨1, []⟩]
  innerInstructions :=
    [[⟨2, [248, 198, 158, 145, 225, 117, 135, 200, 232, 3, 0, 0, 0, 0, 0, 0, 0, 0, 0, 0, 0, 0, 0, 0, 1]⟩,
      ⟨2, eventBytes .compute sampleSwap.event.emitted⟩]]
  err := none

def routedBlock : ConfirmedBlock := ⟨101, some 1700000001, [routedTransaction]⟩

def routedEvent : Indexer.DecodedEvent := { sampleSwap with signature := routedTransaction.signatureText }

/-- The indexer reads the routed swap. The parser throws at the first inner instruction. -/
theorem routed_swap_throws : Faithful idlCoder ∧ routedTransaction.Succeeded ∧
    decodeTx .compute (encodeBase58 sampleProgram.toList) (routedBlock.entry routedTransaction)
      (.ok routedTransaction.response) = .ok [routedEvent] ∧
    parseEvents idlCoder sampleProgram (some (getTransaction .v0 routedTransaction)) = .error .undefinedKey := by
  have recorded : routedBlock.recorded .compute sampleProgram routedTransaction = [routedEvent] := by
    decide +kernel
  refine ⟨idlCoder_faithful, rfl, ?_, rfl⟩
  rw [decodeTx_recorded, recorded]

end Samples
end DeepPool.Sdk
