import DeepPool.Math
import Mathlib.Tactic.Linarith

/-! Each arithmetic function as the natural number it computes. Rounding shows up
once, here, as a quotient; the proofs about the pool use only its two bounds. -/

namespace DeepPool
open Library

@[simp] theorem widen_val (a : U64) : (widen a).val = a.val := rfl

private theorem widen_mul {a b : U64} {c : U128} : (widen a).checkedMul (widen b) = some c ↔ c.val = a.val * b.val :=
  Word.checkedMul_eq_some

theorem widen_mul_some (a b : U64) : ∃ c : U128, (widen a).checkedMul (widen b) = some c ∧ c.val = a.val * b.val :=
  Word.checkedMul_widen a b

theorem swapFeeBps_val : swapFeeBps.val = 25 := rfl
theorem feeDenominator_val : feeDenominator.val = 10000 := rfl
theorem minLiquidity_val : minLiquidity.val = 1000 := rfl
theorem minInitialSol_val : minInitialSol.val = 5000000000 := rfl
theorem minInitialTokens_val : minInitialTokens.val = 5000000 := rfl
theorem minPoolReserveSol_val : minPoolReserveSol.val = 100000000 := rfl
theorem minPoolReserveTokens_val : minPoolReserveTokens.val = 1000000 := rfl
theorem lpLockCreatorBps_val : lpLockCreatorBps.val = 2000 := rfl
theorem lpLockProviderBps_val : lpLockProviderBps.val = 750 := rfl
theorem minSpotReserve_val : minSpotReserve.val = 5000000000 := rfl

/-- A charged fee is at least one unit and never more than the amount. -/
theorem calcSwapFee_some {amount fee : U64} (positive : 0 < amount.val) (charged : calcSwapFee amount = some fee) :
    fee.val = max (amount.val * 25 / 10000) 1 ∧ 0 < fee.val ∧ fee.val ≤ amount.val := by
  have nonzero : amount ≠ 0 := by
    intro same
    rw [same] at positive
    exact absurd positive (by decide)
  simp only [calcSwapFee, if_neg nonzero, Option.bind_eq_bind, Option.bind_eq_some_iff, Option.pure_def,
    Option.some.injEq] at charged
  obtain ⟨product, multiplied, quotient, divided, rfl⟩ := charged
  rw [Word.checkedMul_eq_some, swapFeeBps_val] at multiplied
  rw [Word.checkedDiv_eq_some, feeDenominator_val] at divided
  have value : (quotient.max 1).val = max (amount.val * 25 / 10000) 1 := by
    rw [Word.max_val, divided.2, multiplied]
    rfl
  omega

/-- The unchecked narrowing of the quotient loses nothing. -/
theorem calcSwapOutput_some {effectiveIn inputReserve outputReserve out : U64}
    (computed : calcSwapOutput effectiveIn inputReserve outputReserve = some out) :
    0 < inputReserve.val + effectiveIn.val ∧
      out.val = effectiveIn.val * outputReserve.val / (inputReserve.val + effectiveIn.val) := by
  simp only [calcSwapOutput, Option.bind_eq_bind, Option.bind_eq_some_iff, Option.pure_def,
    Option.some.injEq] at computed
  obtain ⟨numerator, multiplied, denominator, added, quotient, divided, rfl⟩ := computed
  rw [widen_mul] at multiplied
  rw [Word.checkedAdd_eq_some, widen_val, widen_val] at added
  rw [Word.checkedDiv_eq_some, multiplied, added] at divided
  have bounded : effectiveIn.val * outputReserve.val / (inputReserve.val + effectiveIn.val) ≤ outputReserve.val :=
    Nat.div_le_of_le_mul (Nat.mul_le_mul_right _ (Nat.le_add_left _ _))
  have reserve := outputReserve.isLt
  refine ⟨divided.1, ?_⟩
  rw [Word.truncate_val (by omega)]
  exact divided.2

private theorem quotient_some {product : U128} {divisor : U64} {result : U64}
    (computed : ((product.checkedDiv (widen divisor)).bind fun quotient => quotient.tryNarrow) = some result) :
    0 < divisor.val ∧ result.val = product.val / divisor.val := by
  simp only [Option.bind_eq_some_iff] at computed
  obtain ⟨quotient, divided, narrowed⟩ := computed
  rw [Word.checkedDiv_eq_some] at divided
  rw [Word.tryNarrow_eq_some] at narrowed
  exact ⟨divided.1, narrowed.trans divided.2⟩

theorem calcLpMint_some {lpSupply deposit reserve minted : U64}
    (computed : calcLpMint lpSupply deposit reserve = some minted) :
    0 < reserve.val ∧ minted.val = lpSupply.val * deposit.val / reserve.val := by
  simp only [calcLpMint, Option.bind_eq_bind] at computed
  obtain ⟨product, multiplied, computed⟩ := Option.bind_eq_some_iff.mp computed
  rw [widen_mul] at multiplied
  simpa only [multiplied] using quotient_some computed

theorem calcLpRedeem_some {lpAmount reserve lpSupply paid : U64}
    (computed : calcLpRedeem lpAmount reserve lpSupply = some paid) :
    0 < lpSupply.val ∧ paid.val = lpAmount.val * reserve.val / lpSupply.val := by
  simp only [calcLpRedeem, Option.bind_eq_bind] at computed
  obtain ⟨product, multiplied, computed⟩ := Option.bind_eq_some_iff.mp computed
  rw [widen_mul] at multiplied
  simpa only [multiplied] using quotient_some computed

/-- A redemption of no more than the supply always has a value, within the reserve. -/
theorem calcLpRedeem_isSome {lpAmount lpSupply : U64} (reserve : U64) (part : lpAmount.val ≤ lpSupply.val)
    (positive : 0 < lpSupply.val) :
    ∃ paid, calcLpRedeem lpAmount reserve lpSupply = some paid ∧
      paid.val = lpAmount.val * reserve.val / lpSupply.val ∧ paid.val ≤ reserve.val := by
  obtain ⟨product, multiplied, value⟩ := widen_mul_some lpAmount reserve
  obtain ⟨quotient, divided, same⟩ := Word.checkedDiv_widen product (b := widen lpSupply) positive
  have bounded : lpAmount.val * reserve.val / lpSupply.val ≤ reserve.val :=
    Nat.div_le_of_le_mul (Nat.mul_le_mul_right _ part)
  have fits := reserve.isLt
  rw [value, widen_val] at same
  have small : quotient.val < 2 ^ 64 := by omega
  obtain ⟨paid, narrowed, equal⟩ := Word.ofNat?_isSome quotient.val (small : quotient.val < 2 ^ 64)
  refine ⟨paid, ?_, equal.trans same, by omega⟩
  simp only [calcLpRedeem, multiplied, divided, Option.bind_eq_bind, Option.bind_some]
  exact narrowed

theorem calcProportionalCeil_some {input reserveA reserveB charge : U64}
    (computed : calcProportionalCeil input reserveA reserveB = some charge) :
    0 < reserveA.val ∧ charge.val = (input.val * reserveB.val + (reserveA.val - 1)) / reserveA.val := by
  simp only [calcProportionalCeil, Option.bind_eq_bind] at computed
  obtain ⟨product, multiplied, computed⟩ := Option.bind_eq_some_iff.mp computed
  obtain ⟨lower, lowered, computed⟩ := Option.bind_eq_some_iff.mp computed
  obtain ⟨raised, added, computed⟩ := Option.bind_eq_some_iff.mp computed
  rw [widen_mul] at multiplied
  rw [Word.checkedSub_eq_some, widen_val] at lowered
  rw [Word.checkedAdd_eq_some, multiplied] at added
  obtain ⟨positive, value⟩ := quotient_some computed
  refine ⟨positive, ?_⟩
  have one : (1 : U128).val = 1 := rfl
  have same : lower.val = reserveA.val - 1 := by omega
  rw [value, added, same]

/-- The ceiling charge covers the exact proportion. -/
theorem calcProportionalCeil_covers {input reserveA reserveB charge : U64}
    (computed : calcProportionalCeil input reserveA reserveB = some charge) :
    input.val * reserveB.val ≤ charge.val * reserveA.val := by
  obtain ⟨positive, value⟩ := calcProportionalCeil_some computed
  have next := Nat.lt_mul_div_succ (input.val * reserveB.val + (reserveA.val - 1)) positive
  rw [← value, Nat.mul_add, Nat.mul_one, Nat.mul_comm reserveA.val charge.val] at next
  omega

theorem priceQ64_some (reserveOut : U64) {reserveIn : U64} (positive : 0 < reserveIn.val) :
    ∃ price, priceQ64 reserveOut reserveIn = some price ∧ price.val = reserveOut.val * 2 ^ 64 / reserveIn.val := by
  obtain ⟨price, divided, value⟩ := Word.checkedDiv_widen
    (⟨reserveOut.val * 2 ^ 64, by have := reserveOut.isLt; omega⟩ : U128) (b := widen reserveIn) positive
  exact ⟨price, divided, value⟩

/-- Newton's next guess is never below the root. -/
private theorem newton_above {n x y : Nat} (positive : 0 < x) (next : y = (x + n / x) / 2) : n < (y + 1) * (y + 1) := by
  have whole := Nat.lt_mul_div_succ n positive
  have mean : x + (n / x + 1) ≤ 2 * (y + 1) := by omega
  have square : 4 * (x * (n / x + 1)) ≤ (2 * (y + 1)) * (2 * (y + 1)) := by
    apply le_trans _ (Nat.mul_le_mul mean mean)
    generalize n / x + 1 = quotient
    zify
    linarith [sq_nonneg ((x : ℤ) - quotient)]
  linarith

private theorem integerSqrt_loop_some {n x y root : U128} (positive : 0 < x.val)
    (next : y.val = (x.val + n.val / x.val) / 2) (above : n.val < (x.val + 1) * (x.val + 1))
    (computed : integerSqrt.loop n x y = some root) :
    root.val * root.val ≤ n.val ∧ n.val < (root.val + 1) * (root.val + 1) := by
  induction x, y using integerSqrt.loop.induct with
  | case1 x y shrinks ih =>
    rw [integerSqrt.loop, if_pos shrinks] at computed
    simp only [Option.bind_eq_bind, Option.bind_eq_some_iff] at computed
    obtain ⟨quotient, divided, sum, added, half, halved, computed⟩ := computed
    rw [Word.checkedDiv_eq_some] at divided halved
    rw [Word.checkedAdd_eq_some, divided.2] at added
    rw [added] at halved
    exact ih half divided.1 halved.2 (newton_above positive next) computed
  | case2 x y settled =>
    rw [integerSqrt.loop, if_neg settled] at computed
    cases computed
    refine ⟨?_, above⟩
    have below : root.val ≤ n.val / root.val := by omega
    exact le_trans (Nat.mul_le_mul_left _ below) (Nat.mul_div_le _ _)

theorem integerSqrt_some {n root : U128} (computed : integerSqrt n = some root) :
    root.val * root.val ≤ n.val ∧ n.val < (root.val + 1) * (root.val + 1) := by
  unfold integerSqrt at computed
  split at computed
  next zero =>
    cases computed
    rw [zero]
    exact ⟨le_refl _, by decide⟩
  next nonzero =>
    have positive : 0 < n.val := Nat.pos_of_ne_zero fun zero => nonzero (Fin.ext zero)
    simp only [Option.bind_eq_bind, Option.bind_eq_some_iff] at computed
    obtain ⟨sum, added, half, halved, computed⟩ := computed
    rw [Word.checkedAdd_eq_some] at added
    rw [Word.checkedDiv_eq_some, added] at halved
    refine integerSqrt_loop_some positive ?_ ?_ computed
    · rw [Nat.div_self positive]
      exact halved.2
    · linarith [Nat.zero_le (n.val * n.val)]

end DeepPool
