import Mathlib.Data.Vector.Basic
import DeepPool.Library.Radix
import DeepPool.Library.Reader
import DeepPool.Library.Word

/-! Words in little-endian bytes and arrays of a fixed length, as encoded and as read. -/

namespace Library
variable {Token Failure A : Type} {count : Nat}

/-- The bytes of a word, lowest first. -/
def Word.toBytes (count : Nat) (word : Word (8 * count)) : List UInt8 := (littleEndian 256 count word.val).map UInt8.ofNat

private theorem digits_lt (bytes : List UInt8) : ∀ digit ∈ bytes.map UInt8.toNat, digit < 256 := by
  intro digit member
  obtain ⟨byte, _, rfl⟩ := List.mem_map.mp member
  exact byte.toNat_lt

def Word.ofBytes (bytes : Vector UInt8 count) : Word (8 * count) where
  val := Nat.ofDigits 256 (bytes.toList.map UInt8.toNat)
  isLt := by
    have bound := Nat.ofDigits_lt_base_pow_length (by decide) (digits_lt bytes.toList)
    rwa [List.length_map, Vector.length_toList, show 256 = 2 ^ 8 by decide, ← Nat.pow_mul] at bound

@[simp] theorem Word.length_toBytes (word : Word (8 * count)) : (word.toBytes count).length = count := by
  rw [toBytes, List.length_map, littleEndian_length]

theorem Word.ofBytes_iff {bytes : Vector UInt8 count} {word : Word (8 * count)} :
    Word.ofBytes bytes = word ↔ bytes.toList = word.toBytes count := by
  constructor
  · rintro rfl
    have sized : (bytes.toList.map UInt8.toNat).length = count := by rw [List.length_map, Vector.length_toList]
    have digits := littleEndian_ofDigits (digits_lt bytes.toList)
    rw [sized] at digits
    rw [toBytes, ofBytes, digits, List.map_map]
    exact ((List.map_congr_left fun byte _ => UInt8.ofNat_toNat).trans (List.map_id _)).symm
  · intro same
    have digits : bytes.toList.map UInt8.toNat = littleEndian 256 count word.val := by
      rw [same, toBytes, List.map_map]
      refine (List.map_congr_left fun digit member => ?_).trans (List.map_id _)
      exact UInt8.toNat_ofNat_of_lt' (littleEndian_lt (by decide) digit member)
    have fits : word.val < 256 ^ count := by
      rw [show 256 = 2 ^ 8 by decide, ← Nat.pow_mul]
      exact word.isLt
    apply Fin.ext
    change Nat.ofDigits 256 (bytes.toList.map UInt8.toNat) = word.val
    rw [digits]
    exact ofDigits_littleEndian fits

def Reader.word (count : Nat) (failure : Failure) : Reader UInt8 Failure (Word (8 * count)) :=
  Word.ofBytes <$> Reader.take count failure

theorem Reader.word_reads (count : Nat) (failure : Failure) : Reads (Reader.word count failure) (Word.toBytes count) := by
  intro input word rest
  rw [Reader.word, map_eq_pure_bind, (Reader.take_reads count failure).bind_ok]
  simp only [Reader.pure_ok, Word.ofBytes_iff]
  constructor
  · rintro ⟨bytes, _, rfl, same, rfl⟩
    rw [same]
  · rintro rfl
    exact ⟨⟨(word.toBytes count).toArray, word.length_toBytes⟩, _, rfl, rfl, rfl⟩

/-- An array of a known length. -/
def Reader.array (reader : Reader Token Failure A) : (count : Nat) → Reader Token Failure (Vector A count)
  | 0 => pure #v[]
  | count + 1 => do
    let first ← reader
    let rest ← Reader.array reader count
    return ⟨(first :: rest.toList).toArray, by rw [List.size_toArray, List.length_cons, Vector.length_toList]⟩

theorem Reads.array {reader : Reader Token Failure A} {encode : A → List Token} (reads : Reads reader encode)
    (count : Nat) : Reads (reader.array count) (fun items : Vector A count => items.toList.flatMap encode) := by
  induction count with
  | zero =>
    intro input items rest
    rw [Reader.array, Reader.pure_ok, show items = #v[] from Vector.eq_empty]
    exact ⟨fun done => done.2, fun same => ⟨rfl, same⟩⟩
  | succ count ih =>
    intro input items rest
    rw [Reader.array]
    simp only [reads.bind_ok, ih.bind_ok, Reader.pure_ok]
    constructor
    · rintro ⟨first, _, rfl, others, _, rfl, rfl, rfl⟩
      exact (List.append_assoc _ _ _).symm
    · rintro rfl
      have sized : items.toList.length = count + 1 := Vector.length_toList
      obtain ⟨first, others, split⟩ := List.exists_cons_of_length_eq_add_one sized
      rw [split, List.length_cons] at sized
      refine ⟨first, others.flatMap encode ++ rest, ?_, ⟨others.toArray, Nat.succ.inj sized⟩, rest, rfl, ?_, rfl⟩
      · rw [split, List.flatMap_cons, List.append_assoc]
      · exact Vector.toList_inj.mp split.symm

end Library
