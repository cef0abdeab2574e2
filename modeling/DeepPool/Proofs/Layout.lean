import DeepPool.Layout
import DeepPool.Proofs.Wire

/-! The data of a pool account says all about the pool and decodes from nothing else. -/

namespace DeepPool
open Library
open Indexer (Bytes Pubkey readKey_reads)

theorem readWord_reads (count : Nat) : Reads (readWord count) (Word.toBytes count) := Reader.word_reads count _

theorem Observation.deserialize_reads : Reads Observation.deserialize Observation.serialize := by
  intro input observation rest
  unfold Observation.deserialize
  simp only [(readWord_reads _).bind_ok, Reader.pure_ok]
  constructor
  · rintro ⟨_, _, rfl, _, _, rfl, _, _, rfl, rfl, rfl⟩
    simp only [serialize, List.append_assoc]
  · rintro rfl
    simp only [serialize, List.append_assoc]
    exact ⟨_, _, rfl, _, _, rfl, _, _, rfl, rfl, rfl⟩

namespace Pool
variable {data : Bytes} {pool other : Pool Pubkey}

theorem deserialize_reads : Reads deserialize serialize := by
  intro input pool rest
  unfold deserialize
  simp only [readKey_reads.bind_ok, (readWord_reads _).bind_ok, (Observation.deserialize_reads.array _).bind_ok,
    Reader.pure_ok]
  constructor
  · rintro ⟨_, _, rfl, _, _, rfl, _, _, rfl, _, _, rfl, _, _, rfl, _, _, rfl, _, _, rfl, _, _, rfl, _, _, rfl, _, _, rfl,
      _, _, rfl, _, _, rfl, rfl, rfl⟩
    simp only [serialize, List.append_assoc]
  · rintro rfl
    simp only [serialize, List.append_assoc]
    exact ⟨_, _, rfl, _, _, rfl, _, _, rfl, _, _, rfl, _, _, rfl, _, _, rfl, _, _, rfl, _, _, rfl, _, _, rfl, _, _, rfl,
      _, _, rfl, _, _, rfl, rfl, rfl⟩

theorem tryDeserialize_ok : tryDeserialize data = .ok pool ↔ ∃ rest, data = pool.data ++ rest := by
  unfold tryDeserialize Pool.data
  constructor
  · intro done
    split at done
    · cases done
    next long =>
      split at done
      · cases done
      next tagged =>
        split at done
        next found rest read =>
          cases done
          have written := (deserialize_reads _ _ _).mp read
          refine ⟨rest, ?_⟩
          rw [List.append_assoc, ← written, ← not_not.mp tagged, List.take_append_drop]
        · cases done
  · rintro ⟨rest, rfl⟩
    have tag : poolDiscriminator.toList.length = 8 := rfl
    have read : deserialize.run (pool.serialize ++ rest) = .ok (pool, rest) := (deserialize_reads _ _ _).mpr rfl
    rw [if_neg, List.append_assoc, List.take_left' tag, if_neg (not_not.mpr rfl), List.drop_left' tag, read]
    rw [List.length_append, List.length_append, tag]
    omega

theorem length_data : pool.data.length = len := by
  have ring : (pool.observations.toList.flatMap Observation.serialize).length = 16 * 40 := by
    rw [List.length_flatMap, List.map_congr_left (g := fun _ => 40), List.map_const', List.sum_replicate,
      Vector.length_toList]
    · rfl
    · intro observation _
      simp [Observation.serialize]
  simp [Pool.data, serialize, ring, len]

/-- The mint is the second key after the discriminator. -/
theorem data_tokenMint : (pool.data.drop 40).take 32 = pool.tokenMint.toList := by
  have front : (poolDiscriminator.toList ++ pool.config.toList).length = 40 := by
    rw [List.length_append, Vector.length_toList, Vector.length_toList]
  simp only [Pool.data, serialize, List.append_assoc]
  rw [← List.append_assoc, List.drop_left' front, List.take_left' Vector.length_toList]

/-- Data decodes to a pool exactly when it starts with what that pool is written as. In the
size of the account there is one pool to each data and one data to each pool. -/
theorem account_data_exact (pool : Pool Pubkey) (data : Bytes) :
    (tryDeserialize data = .ok pool ↔ ∃ rest, data = pool.data ++ rest) ∧
      (data.length = len → (tryDeserialize data = .ok pool ↔ data = pool.data)) ∧ pool.data.length = len := by
  refine ⟨tryDeserialize_ok, ?_, length_data⟩
  intro sized
  rw [tryDeserialize_ok]
  constructor
  · rintro ⟨rest, rfl⟩
    rw [List.length_append, length_data, Nat.add_eq_left, List.length_eq_zero_iff] at sized
    rw [sized, List.append_nil]
  · rintro rfl
    exact ⟨[], (List.append_nil _).symm⟩

end Pool
end DeepPool
