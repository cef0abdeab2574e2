import DeepPool.Indexer.Wire

/-! The decoder accepts exactly the wire format: what it reads is what the program
wrote, field by field, and nothing else decodes. -/

namespace DeepPool.Indexer
open Library

theorem readKey_reads : Reads readKey fun key => key.toList := Reader.take_reads 32 BorshError.unexpectedLength

theorem fromLeBytes_val (bytes : Vector UInt8 8) :
    (fromLeBytes bytes).val = Nat.ofDigits 256 (Bytes.digits bytes.toList) := rfl

theorem fromLeBytes_iff {bytes : Vector UInt8 8} {word : U64} :
    fromLeBytes bytes = word ↔ bytes.toList = toLeBytes word := by
  constructor
  · rintro rfl
    have sized : (Bytes.digits bytes.toList).length = 8 := by
      rw [Bytes.digits, List.length_map, Vector.length_toList]
    have digits := littleEndian_ofDigits (Bytes.digits_lt bytes.toList)
    rw [sized] at digits
    rw [toLeBytes, fromLeBytes_val, digits, Bytes.ofNat_digits]
  · intro same
    have digits : Bytes.digits bytes.toList = littleEndian 256 8 word.val := by
      rw [same, toLeBytes, Bytes.digits, List.map_map]
      refine (List.map_congr_left fun digit member => ?_).trans (List.map_id _)
      exact UInt8.toNat_ofNat_of_lt' (littleEndian_lt (by decide) digit member)
    have fits : word.val < 256 ^ 8 := word.isLt
    apply Fin.ext
    rw [fromLeBytes_val, digits]
    exact ofDigits_littleEndian fits

theorem readU64_reads : Reads readU64 toLeBytes := by
  intro input word rest
  change (fromLeBytes <$> Reader.take 8 BorshError.unexpectedLength).run input = _ ↔ _
  rw [map_eq_pure_bind, (Reader.take_reads 8 BorshError.unexpectedLength).bind_ok]
  simp only [Reader.pure_ok, fromLeBytes_iff]
  constructor
  · rintro ⟨bytes, _, rfl, same, rfl⟩
    rw [same]
  · rintro rfl
    have sized : (toLeBytes word).length = 8 := by
      rw [toLeBytes, List.length_map, littleEndian_length]
    exact ⟨⟨(toLeBytes word).toArray, sized⟩, _, rfl, rfl, rfl⟩

private theorem single_byte (byte : Vector UInt8 1) (inside : 0 < 1) : byte.toList = [byte[0]] := by
  have sized : byte.toList.length = 1 := Vector.length_toList
  obtain ⟨first, only⟩ := List.length_eq_one_iff.mp sized
  have head : byte[0] = first := by
    rw [← Vector.getElem_toList (by rw [sized]; exact inside)]
    simp only [only, List.getElem_cons_zero]
  rw [only, head]

theorem readBool_reads : Reads readBool boolByte := by
  intro input value rest
  unfold readBool
  rw [(Reader.take_reads 1 BorshError.unexpectedLength).bind_ok]
  constructor
  · rintro ⟨byte, middle, rfl, done⟩
    rw [single_byte byte Nat.zero_lt_one]
    split at done
    next zero =>
      obtain ⟨rfl, rfl⟩ := Reader.pure_ok.mp done
      rw [zero]
      rfl
    next =>
      split at done
      next one =>
        obtain ⟨rfl, rfl⟩ := Reader.pure_ok.mp done
        rw [one]
        rfl
      next => cases done
  · rintro rfl
    cases value with
    | false => exact ⟨#v[0], rest, rfl, rfl⟩
    | true => exact ⟨#v[1], rest, rfl, rfl⟩

theorem PoolCreated.deserialize_reads : Reads PoolCreated.deserialize fun event => poolCreatedBytes event.emitted := by
  intro input event rest
  unfold PoolCreated.deserialize
  simp only [readKey_reads.bind_ok, readU64_reads.bind_ok, Reader.pure_ok]
  constructor
  · rintro ⟨_, _, rfl, _, _, rfl, _, _, rfl, _, _, rfl, _, _, rfl, _, _, rfl, _, _, rfl, _, _, rfl, _, _, rfl, _, _, rfl,
      _, _, rfl, _, _, rfl, _, _, rfl, _, _, rfl, rfl, rfl⟩
    simp only [poolCreatedBytes, emitted, List.append_assoc]
  · rintro rfl
    simp only [poolCreatedBytes, emitted, List.append_assoc]
    exact ⟨_, _, rfl, _, _, rfl, _, _, rfl, _, _, rfl, _, _, rfl, _, _, rfl, _, _, rfl, _, _, rfl, _, _, rfl, _, _, rfl,
      _, _, rfl, _, _, rfl, _, _, rfl, _, _, rfl, rfl, rfl⟩

theorem LiquidityAdded.deserialize_reads :
    Reads LiquidityAdded.deserialize fun event => liquidityAddedBytes event.emitted := by
  intro input event rest
  unfold LiquidityAdded.deserialize
  simp only [readKey_reads.bind_ok, readU64_reads.bind_ok, Reader.pure_ok]
  constructor
  · rintro ⟨_, _, rfl, _, _, rfl, _, _, rfl, _, _, rfl, _, _, rfl, _, _, rfl, _, _, rfl, _, _, rfl, _, _, rfl, _, _, rfl,
      _, _, rfl, rfl, rfl⟩
    simp only [liquidityAddedBytes, emitted, List.append_assoc]
  · rintro rfl
    simp only [liquidityAddedBytes, emitted, List.append_assoc]
    exact ⟨_, _, rfl, _, _, rfl, _, _, rfl, _, _, rfl, _, _, rfl, _, _, rfl, _, _, rfl, _, _, rfl, _, _, rfl, _, _, rfl,
      _, _, rfl, rfl, rfl⟩

theorem LiquidityRemoved.deserialize_reads :
    Reads LiquidityRemoved.deserialize fun event => liquidityRemovedBytes event.emitted := by
  intro input event rest
  unfold LiquidityRemoved.deserialize
  simp only [readKey_reads.bind_ok, readU64_reads.bind_ok, Reader.pure_ok]
  constructor
  · rintro ⟨_, _, rfl, _, _, rfl, _, _, rfl, _, _, rfl, _, _, rfl, _, _, rfl, _, _, rfl, _, _, rfl, _, _, rfl, _, _, rfl,
      rfl, rfl⟩
    simp only [liquidityRemovedBytes, emitted, List.append_assoc]
  · rintro rfl
    simp only [liquidityRemovedBytes, emitted, List.append_assoc]
    exact ⟨_, _, rfl, _, _, rfl, _, _, rfl, _, _, rfl, _, _, rfl, _, _, rfl, _, _, rfl, _, _, rfl, _, _, rfl, _, _, rfl,
      rfl, rfl⟩

theorem SwapExecuted.deserialize_reads :
    Reads SwapExecuted.deserialize fun event => swapExecutedBytes event.emitted := by
  intro input event rest
  unfold SwapExecuted.deserialize
  simp only [readKey_reads.bind_ok, readU64_reads.bind_ok, readBool_reads.bind_ok, Reader.pure_ok]
  constructor
  · rintro ⟨_, _, rfl, _, _, rfl, _, _, rfl, _, _, rfl, _, _, rfl, _, _, rfl, _, _, rfl, _, _, rfl, _, _, rfl, _, _, rfl,
      _, _, rfl, rfl, rfl⟩
    simp only [swapExecutedBytes, emitted, List.append_assoc]
  · rintro rfl
    simp only [swapExecutedBytes, emitted, List.append_assoc]
    exact ⟨_, _, rfl, _, _, rfl, _, _, rfl, _, _, rfl, _, _, rfl, _, _, rfl, _, _, rfl, _, _, rfl, _, _, rfl, _, _, rfl,
      _, _, rfl, rfl, rfl⟩

section Event
variable {discs : Discriminators} {data eventDisc payload rest : Bytes} {event : DeepPoolEvent}

/-- The four discriminators tell the events apart. -/
structure Discriminators.Distinct (discs : Discriminators) : Prop where
  swap_created : discs.swapExecuted ≠ discs.poolCreated
  added_created : discs.liquidityAdded ≠ discs.poolCreated
  removed_created : discs.liquidityRemoved ≠ discs.poolCreated
  added_swap : discs.liquidityAdded ≠ discs.swapExecuted
  removed_swap : discs.liquidityRemoved ≠ discs.swapExecuted
  removed_added : discs.liquidityRemoved ≠ discs.liquidityAdded

theorem Discriminators.compute_distinct : Discriminators.compute.Distinct :=
  ⟨by decide, by decide, by decide, by decide, by decide, by decide⟩

private theorem readPayload_ok {Event : Type} {make : Event → DeepPoolEvent} {reader : Deserialize Event}
    {encode : Event → Bytes}
    (reads : Reads reader encode) :
    readPayload make reader payload = .ok (event, rest) ↔ ∃ body, make body = event ∧ payload = encode body ++ rest := by
  unfold readPayload
  constructor
  · intro done
    split at done
    · cases done
    next body left first =>
      cases done
      exact ⟨body, rfl, (reads _ _ _).mp first⟩
  · rintro ⟨body, rfl, whole⟩
    rw [(reads _ _ _).mpr whole]

private theorem other {first second : Discriminator} (different : first ≠ second) : first.toList ≠ second.toList :=
  fun same => different (Vector.toList_inj.mp same)

theorem readEvent_ok (distinct : discs.Distinct) : readEvent discs eventDisc payload = .ok (event, rest) ↔
    eventDisc = (discriminator discs event.emitted).toList ∧ payload = payloadBytes event.emitted ++ rest := by
  constructor
  · intro done
    unfold readEvent at done
    split at done
    next created =>
      obtain ⟨body, rfl, whole⟩ := (readPayload_ok PoolCreated.deserialize_reads).mp done
      exact ⟨created, whole⟩
    split at done
    next swap =>
      obtain ⟨body, rfl, whole⟩ := (readPayload_ok SwapExecuted.deserialize_reads).mp done
      exact ⟨swap, whole⟩
    split at done
    next added =>
      obtain ⟨body, rfl, whole⟩ := (readPayload_ok LiquidityAdded.deserialize_reads).mp done
      exact ⟨added, whole⟩
    split at done
    next removed =>
      obtain ⟨body, rfl, whole⟩ := (readPayload_ok LiquidityRemoved.deserialize_reads).mp done
      exact ⟨removed, whole⟩
    · cases done
  · rintro ⟨rfl, whole⟩
    unfold readEvent
    cases event with
    | poolCreated event =>
      rw [DeepPoolEvent.emitted, discriminator, if_pos rfl]
      exact (readPayload_ok PoolCreated.deserialize_reads).mpr ⟨event, rfl, whole⟩
    | swapExecuted event =>
      rw [DeepPoolEvent.emitted, discriminator, if_neg (other distinct.swap_created), if_pos rfl]
      exact (readPayload_ok SwapExecuted.deserialize_reads).mpr ⟨event, rfl, whole⟩
    | liquidityAdded event =>
      rw [DeepPoolEvent.emitted, discriminator, if_neg (other distinct.added_created), if_neg (other distinct.added_swap),
        if_pos rfl]
      exact (readPayload_ok LiquidityAdded.deserialize_reads).mpr ⟨event, rfl, whole⟩
    | liquidityRemoved event =>
      rw [DeepPoolEvent.emitted, discriminator, if_neg (other distinct.removed_created),
        if_neg (other distinct.removed_swap), if_neg (other distinct.removed_added), if_pos rfl]
      exact (readPayload_ok LiquidityRemoved.deserialize_reads).mpr ⟨event, rfl, whole⟩

/-- Tag, discriminator and payload stand one after the other. -/
theorem eventBytes_parts (emitted : DeepPool.DeepPoolEvent Pubkey) :
    16 ≤ (eventBytes discs emitted).length ∧ (eventBytes discs emitted).take 8 = eventIxTagLe ∧
      ((eventBytes discs emitted).drop 8).take 8 = (discriminator discs emitted).toList ∧
      (eventBytes discs emitted).drop 16 = payloadBytes emitted := by
  have whole : eventBytes discs emitted =
      eventIxTagLe ++ ((discriminator discs emitted).toList ++ payloadBytes emitted) := List.append_assoc _ _ _
  have after : (eventBytes discs emitted).drop 8 = (discriminator discs emitted).toList ++ payloadBytes emitted := by
    rw [whole]
    exact List.drop_left' rfl
  have twice : (eventBytes discs emitted).drop (8 + 8) = ((eventBytes discs emitted).drop 8).drop 8 :=
    List.drop_drop.symm
  refine ⟨?_, ?_, ?_, ?_⟩
  · rw [eventBytes, List.length_append, List.length_append, Vector.length_toList]
    exact Nat.le_add_right (8 + 8) _
  · rw [whole]
    exact List.take_left' rfl
  · rw [after]
    exact List.take_left' Vector.length_toList
  · rw [twice, after]
    exact List.drop_left' Vector.length_toList

theorem tryDecodeEvent_ok (distinct : discs.Distinct) :
    tryDecodeEvent data discs = .ok event ↔ data = eventBytes discs event.emitted := by
  constructor
  · intro done
    unfold tryDecodeEvent at done
    split at done
    · cases done
    split at done
    · cases done
    next long tagged =>
      split at done
      · cases done
      next read payload found =>
        split at done
        · cases done
        next consumed =>
          cases done
          obtain rfl := not_not.mp consumed
          obtain ⟨disc, body⟩ := (readEvent_ok distinct).mp found
          rw [List.append_nil] at body
          have after : data.drop (8 + 8) = (data.drop 8).drop 8 := List.drop_drop.symm
          rw [eventBytes, List.append_assoc, ← not_not.mp tagged, ← disc, ← body, after, List.take_append_drop,
            List.take_append_drop]
  · rintro rfl
    obtain ⟨long, tagged, disc, body⟩ := eventBytes_parts event.emitted
    have found : readEvent discs (((eventBytes discs event.emitted).drop 8).take 8)
        ((eventBytes discs event.emitted).drop 16) = .ok (event, []) := by
      rw [readEvent_ok distinct, List.append_nil]
      exact ⟨disc, body⟩
    rw [tryDecodeEvent, if_neg (Nat.not_lt.mpr long), if_neg (not_not.mpr tagged), found]
    rfl

theorem DeepPoolEvent.emitted_surjective (event : DeepPool.DeepPoolEvent Pubkey) : ∃ found :
    DeepPoolEvent, found.emitted = event := by
  cases event with
  | poolCreated event =>
    exact ⟨.poolCreated ⟨event.pool, event.config, event.tokenMint, event.lpMint, event.creator, event.solInGross,
      event.solInNet,
      event.tokensInGross, event.tokensInNet, event.solReserveAfter, event.tokenReserveAfter, event.lpSupplyAfter,
      event.lpToCreator, event.lpLocked⟩, rfl⟩
  | swapExecuted event =>
    exact ⟨.swapExecuted ⟨event.pool, event.user, event.solSource, event.buy, event.amountInGross, event.amountInNet,
      event.amountOutGross, event.amountOutNet, event.fee, event.solReserveAfter, event.tokenReserveAfter⟩, rfl⟩
  | liquidityAdded event =>
    exact ⟨.liquidityAdded ⟨event.pool, event.provider, event.solInGross, event.solInNet, event.tokensInGross,
      event.tokensInNet,
      event.lpToProvider, event.lpLocked, event.solReserveAfter, event.tokenReserveAfter, event.lpSupplyAfter⟩, rfl⟩
  | liquidityRemoved event =>
    exact ⟨.liquidityRemoved ⟨event.pool, event.provider, event.lpBurned, event.solOutGross, event.solOutNet,
      event.tokensOutGross,
      event.tokensOutNet, event.solReserveAfter, event.tokenReserveAfter, event.lpSupplyAfter⟩, rfl⟩

/-- Some event decodes from the bytes exactly when the program could have written them. -/
theorem decodable_iff (distinct : discs.Distinct) :
    (∃ event, tryDecodeEvent data discs = .ok event) ↔ ∃ event, data = eventBytes discs event := by
  constructor
  · rintro ⟨event, decoded⟩
    exact ⟨event.emitted, (tryDecodeEvent_ok distinct).mp decoded⟩
  · rintro ⟨event, rfl⟩
    obtain ⟨found, rfl⟩ := DeepPoolEvent.emitted_surjective event
    exact ⟨found, (tryDecodeEvent_ok distinct).mpr rfl⟩

/-- Whatever the program emits is read back field by field, and nothing else is read. -/
theorem wire_round_trips (distinct : discs.Distinct) :
    (∀ emitted : DeepPool.DeepPoolEvent Pubkey, ∃ event : DeepPoolEvent,
      tryDecodeEvent (eventBytes discs emitted) discs = .ok event ∧ event.emitted = emitted) ∧
      ∀ (data : Bytes) (event : DeepPoolEvent), tryDecodeEvent data discs = .ok event →
        data = eventBytes discs event.emitted := by
  constructor
  · intro emitted
    obtain ⟨event, rfl⟩ := DeepPoolEvent.emitted_surjective emitted
    exact ⟨event, (tryDecodeEvent_ok distinct).mpr rfl, rfl⟩
  · intro data event decoded
    exact (tryDecodeEvent_ok distinct).mp decoded

theorem wire_round_trips_sample :
    (∀ emitted : DeepPool.DeepPoolEvent Pubkey, ∃ event : DeepPoolEvent,
      tryDecodeEvent (eventBytes .compute emitted) .compute = .ok event ∧ event.emitted = emitted) ∧
      ∀ (data : Bytes) (event : DeepPoolEvent), tryDecodeEvent data .compute = .ok event →
        data = eventBytes .compute event.emitted :=
  wire_round_trips Discriminators.compute_distinct

end Event
end DeepPool.Indexer
