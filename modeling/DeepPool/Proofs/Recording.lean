import DeepPool.Indexer.Confirmed
import DeepPool.Proofs.Wire

/-! Both sources read the same events from a confirmed transaction, whatever its outcome. -/

namespace DeepPool.Indexer
open Library

variable {discs : Discriminators} {program : Pubkey} {block : ConfirmedBlock} {tx : ConfirmedTransaction}

section Keys

theorem encodeKey_inj {first second : Pubkey} :
    encodeBase58 first.toList = encodeBase58 second.toList ↔ first = second := by
  rw [encodeBase58_inj, Vector.toList_inj]

private theorem position_map {Key Text : Type} [BEq Key] [LawfulBEq Key] [BEq Text] [LawfulBEq Text] (shown : Key → Text)
    (injective : ∀ {first second}, shown first = shown second ↔ first = second) (keys : List Key) (key : Key) :
    (keys.map shown).findIdx? (· == shown key) = keys.findIdx? (· == key) := by
  rw [List.findIdx?_map]
  congr 1
  funext other
  rw [Bool.eq_iff_iff]
  simp only [Function.comp_apply, beq_iff_eq]
  exact injective

private theorem texts_of_keys (keys : List Pubkey) :
    (keys.map fun key => Value.string (encodeBase58 key.toList)).filterMap Value.asStr? =
      keys.map fun key => encodeBase58 key.toList := by
  rw [List.filterMap_map]
  exact congrFun List.filterMap_eq_map keys

private theorem collected : collectAccountKeys
    ⟨tx.signature.toList :: tx.cosignatures.map fun signature => signature.toList,
      some ⟨tx.accountKeys.map fun key => key.toList, tx.instructions⟩⟩
    ⟨tx.err.map TransactionError.encoded, tx.innerInstructions, tx.loadedWritable.map fun key => key.toList,
      tx.loadedReadonly.map fun key => key.toList⟩ = tx.keys.map fun key => key.toList := by
  simp only [collectAccountKeys, ConfirmedTransaction.keys, Option.elim_some, List.map_append]

end Keys

/-- A program that no inner instruction names has recorded nothing. -/
private theorem uninvoked {programIdx : Nat} {instructions : List CompiledInstruction}
    {decoded : Nat → DeepPoolEvent → DecodedEvent}
    (unnamed : instructions.any (·.programIdIndex.toNat == programIdx) = false) :
    instructions.zipIdx.filterMap (decodeInner discs programIdx decoded) = [] := by
  rw [List.filterMap_eq_nil_iff]
  rintro ⟨ix, flatIdx⟩ member
  have other : ix.programIdIndex.toNat ≠ programIdx := by
    have every := List.any_eq_false.mp unnamed ix (List.fst_mem_of_mem_zipIdx member)
    exact fun same => every (beq_iff_eq.mpr same)
  rw [decodeInner, if_neg other]

theorem decodeUpdate_recorded :
    decodeUpdate discs program.toList block.slot (block.blockTime.bind fromTimestamp) tx.update =
      block.recorded discs program tx := by
  have place := position_map (fun key : Pubkey => key.toList) Vector.toList_inj tx.keys program
  unfold decodeUpdate ConfirmedTransaction.update ConfirmedBlock.recorded
  simp only [collected, place]
  cases position : tx.keys.findIdx? (· == program) with
  | none => rfl
  | some programIdx =>
    simp only
    split
    next silent =>
      rw [Bool.and_eq_true, Bool.not_eq_true', Bool.not_eq_true'] at silent
      exact (uninvoked silent.2).symm
    next => rfl

section Json

private theorem loaded_texts (keys : List Pubkey) :
    (((some (ConfirmedTransaction.jsonKeys keys)).bind Value.asArray?).getD []).filterMap Value.asStr? =
      keys.map fun key => encodeBase58 key.toList := texts_of_keys keys

private theorem decodeJson_instruction {programIdx flatIdx : Nat} {decoded : Nat → DeepPoolEvent → DecodedEvent}
    (ix : CompiledInstruction) :
    decodeJson discs programIdx decoded (ConfirmedTransaction.jsonInstruction ix, flatIdx) =
      decodeInner discs programIdx decoded (ix, flatIdx) := by
  have index : (ConfirmedTransaction.jsonInstruction ix).get? "programIdIndex" =
      some (.number ix.programIdIndex.toNat) := by rfl
  have text : (ConfirmedTransaction.jsonInstruction ix).get? "data" = some (.string (encodeBase58 ix.data)) := by rfl
  have small : (ix.programIdIndex.toNat : Int) ≤ 18446744073709551615 := by
    have bound := ix.programIdIndex.toNat_lt
    omega
  have read : (Value.number ix.programIdIndex.toNat).asU64? = some ix.programIdIndex.toNat := by
    rw [Value.asU64?, if_pos ⟨Int.natCast_nonneg _, small⟩, Int.toNat_natCast]
  have bytes : decodeBase58 ((Value.string (encodeBase58 ix.data)).asStr?.getD "") = some ix.data :=
    decode_encodeBase58 ix.data
  by_cases addressed : ix.programIdIndex.toNat = programIdx
  · cases decoded : tryDecodeEvent ix.data discs with
    | ok event =>
      simp only [decodeJson, decodeInner, index, text, Option.bind_some, read, Option.getD_some, if_pos addressed,
        bytes, decoded]
    | error error =>
      simp only [decodeJson, decodeInner, index, text, Option.bind_some, read, Option.getD_some, if_pos addressed,
        bytes, decoded]
  · simp only [decodeJson, decodeInner, index, Option.bind_some, read, Option.getD_some, if_neg addressed]

private theorem flattened (groups : List (List CompiledInstruction)) :
    ((((some (ConfirmedTransaction.jsonInner groups)).bind Value.asArray?).getD []).flatMap fun group =>
      ((group.get? "instructions").bind Value.asArray?).getD []) =
        groups.flatten.map ConfirmedTransaction.jsonInstruction := by
  have group : ∀ items : List CompiledInstruction,
      (((Value.object [("instructions", .array (items.map ConfirmedTransaction.jsonInstruction))]).get?
        "instructions").bind Value.asArray?).getD [] = items.map ConfirmedTransaction.jsonInstruction := fun items => by rfl
  rw [ConfirmedTransaction.jsonInner, Option.bind_some, Value.asArray?, Option.getD_some, List.flatMap_map,
    List.map_flatten, List.flatMap_def]
  exact congrArg List.flatten (List.map_congr_left fun items _ => group items)

private theorem listed_keys :
    accountKeys tx.jsonMessage tx.jsonMeta = .ok (tx.keys.map fun key => encodeBase58 key.toList) := by
  have static : tx.jsonMessage.get? "accountKeys" = some (ConfirmedTransaction.jsonKeys tx.accountKeys) := by rfl
  have writable : (tx.jsonMeta.get? "loadedAddresses").bind (·.get? "writable") =
      some (ConfirmedTransaction.jsonKeys tx.loadedWritable) := by rfl
  have readonly : (tx.jsonMeta.get? "loadedAddresses").bind (·.get? "readonly") =
      some (ConfirmedTransaction.jsonKeys tx.loadedReadonly) := by rfl
  unfold accountKeys
  simp only [static, writable, readonly, loaded_texts]
  change Except.ok _ = _
  rw [ConfirmedTransaction.keys, List.map_append, List.map_append, texts_of_keys]

end Json

theorem decodeTx_recorded : decodeTx discs (encodeBase58 program.toList) (block.entry tx) (.ok tx.response) =
    .ok (block.recorded discs program tx) := by
  have none : tx.response.get? "error" = none := by rfl
  have result : (tx.response.get? "result").filter (!·.isNull) = some tx.result := by rfl
  have transaction : tx.result.get? "transaction" = some tx.jsonTransaction := by rfl
  have message : tx.jsonTransaction.get? "message" = some tx.jsonMessage := by rfl
  have status : tx.result.get? "meta" = some tx.jsonMeta := by rfl
  have inner : tx.jsonMeta.get? "innerInstructions" = some (ConfirmedTransaction.jsonInner tx.innerInstructions) := by rfl
  have place := position_map (fun key : Pubkey => encodeBase58 key.toList) encodeKey_inj tx.keys program
  unfold decodeTx ConfirmedBlock.recorded
  simp only [bind, Except.bind, none, result, transaction, message, status, orMalformed, Option.elim_some,
    listed_keys, place]
  cases position : tx.keys.findIdx? (· == program) with
  | none => rfl
  | some programIdx =>
    simp only [inner, flattened, List.zipIdx_map, List.filterMap_map]
    refine congrArg Except.ok (List.filterMap_congr fun entry _ => ?_)
    exact decodeJson_instruction entry.1

theorem decodeTx_pruned {programId : String} {entry : SignatureEntry} :
    decodeTx discs programId entry (.ok (.object [("result", .null)])) = .ok [] := by
  rfl

end DeepPool.Indexer
