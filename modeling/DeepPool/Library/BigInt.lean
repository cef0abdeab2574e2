import Mathlib.Data.Int.Bitwise
import Mathlib.Tactic.Ring
import DeepPool.Library.Word

/-! Fixed-width arithmetic on integers without a width: an operation followed by a mask
of the low bits, in two's complement, is the wrapping operation on words. -/

namespace Library

private theorem ldiff_mask (m bits : Nat) : Nat.ldiff (2 ^ bits - 1) m = 2 ^ bits - (m % 2 ^ bits + 1) := by
  apply Nat.eq_of_testBit_eq
  intro i
  rw [Nat.testBit_ldiff, Nat.testBit_two_pow_sub_one, Nat.testBit_two_pow_sub_succ (Nat.mod_lt _ (Nat.two_pow_pos _)),
    Nat.testBit_mod_two_pow]
  by_cases low : i < bits
  · simp [low]
  · simp [low]

theorem land_mask (a : Int) (bits : Nat) : Int.land a (2 ^ bits - 1) = a % 2 ^ bits := by
  have positive := Nat.two_pow_pos bits
  have mask : (2 ^ bits - 1 : Int) = ((2 ^ bits - 1 : Nat) : Int) := by
    rw [Nat.cast_sub positive]
    norm_cast
  rw [mask]
  cases a with
  | ofNat m =>
    have masked : Int.land (Int.ofNat m) ((2 ^ bits - 1 : Nat) : Int) = ((m &&& (2 ^ bits - 1) : Nat) : Int) := rfl
    rw [masked, Nat.and_two_pow_sub_one_eq_mod]
    rfl
  | negSucc m =>
    have masked : Int.land (Int.negSucc m) ((2 ^ bits - 1 : Nat) : Int) =
        ((Nat.ldiff (2 ^ bits - 1) m : Nat) : Int) := rfl
    have small : m % 2 ^ bits + 1 ≤ 2 ^ bits := Nat.mod_lt m positive
    rw [masked, ldiff_mask, Int.negSucc_emod m (by exact_mod_cast positive), Nat.cast_sub small]
    push_cast
    ring

namespace Word
variable {bits : Nat}

theorem wrappingAdd_mask (a b : Word bits) : Int.land (a.val + b.val) (2 ^ bits - 1) = (a.wrappingAdd b).val := by
  rw [land_mask, wrappingAdd_val]
  norm_cast

theorem wrappingMul_mask (a b : Word bits) : Int.land (a.val * b.val) (2 ^ bits - 1) = (a.wrappingMul b).val := by
  rw [land_mask, wrappingMul_val]
  norm_cast

theorem wrappingSub_mask (a b : Word bits) : Int.land (a.val - b.val) (2 ^ bits - 1) = (a.wrappingSub b).val := by
  have large := le_of_lt b.isLt
  have shifted : (a.val : Int) - b.val = ((a.val + (2 ^ bits - b.val) : Nat) : Int) - (2 ^ bits : Nat) := by
    rw [Nat.cast_add, Nat.cast_sub large]
    ring
  have base : (2 ^ bits : Int) = ((2 ^ bits : Nat) : Int) := by norm_cast
  rw [land_mask, shifted, base, Int.sub_emod_right]
  exact (Int.natCast_emod _ _).symm

/-- The difference that a comparison guards is the saturating one. -/
theorem saturatingSub_guard (a b : Word bits) :
    (if (b.val : Int) < a.val then (a.val : Int) - b.val else 0) = (a.saturatingSub b).val := by
  rw [saturatingSub_val]
  split <;> omega

end Word
end Library
