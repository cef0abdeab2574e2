import DeepPool.Proofs.CreatePool
import DeepPool.Proofs.System
import Mathlib.Data.Nat.Sqrt

/-! The square root that seeds the LP supply, on every product of two words. -/

namespace DeepPool
open Library

/-- From any guess between one and the operand, no sum leaves the width, and the next guess is
again between one and the operand. -/
private theorem newton_between {n y : ℕ} (positive : 0 < y) (within : y ≤ n) :
    y + n / y ≤ n + 1 ∧ 0 < (y + n / y) / 2 ∧ (y + n / y) / 2 ≤ n := by
  have once : 1 ≤ n / y := (Nat.one_le_div_iff positive).mpr within
  have sum : y + n / y ≤ n + 1 := by
    have whole := Nat.div_mul_le_self n y
    generalize n / y = quotient at once whole
    obtain ⟨rest, rfl⟩ := Nat.exists_eq_add_of_le once
    obtain ⟨more, rfl⟩ := Nat.exists_eq_add_of_le positive
    have product : (1 + rest) * (1 + more) = 1 + rest + more + rest * more := by ring
    rw [product] at whole
    have nonnegative := Nat.zero_le (rest * more)
    omega
  omega

private theorem integerSqrt_loop_isSome {n x y : U128} (positive : 0 < y.val) (within : y.val ≤ n.val)
    (room : n.val + 1 < 2 ^ 128) : ∃ root, integerSqrt.loop n x y = some root := by
  induction x, y using integerSqrt.loop.induct with
  | case1 x y shrinks ih =>
    obtain ⟨bounded, lower, upper⟩ := newton_between positive within
    obtain ⟨quotient, divided, ratio⟩ := Word.checkedDiv_widen n positive
    obtain ⟨sum, added, total⟩ := @Word.ofNat?_isSome 128 (y.val + quotient.val) (by omega)
    obtain ⟨half, halved, value⟩ := Word.checkedDiv_widen sum (b := (2 : U128)) (by decide)
    have two : (2 : U128).val = 2 := rfl
    rw [total, ratio, two] at value
    rw [integerSqrt.loop, if_pos shrinks, divided]
    simp only [Option.bind_eq_bind, Option.bind_some, Word.checkedAdd, added, halved]
    exact ih half (by omega) (by omega)
  | case2 x y settled =>
    rw [integerSqrt.loop, if_neg settled]
    exact ⟨x, rfl⟩

/-- The iteration ends, and no step of it overflows, below the greatest operand. -/
theorem integerSqrt_isSome {n : U128} (room : n.val + 1 < 2 ^ 128) : ∃ root, integerSqrt n = some root := by
  unfold integerSqrt
  split
  next zero => exact ⟨0, rfl⟩
  next nonzero =>
    have positive : 0 < n.val := Nat.pos_of_ne_zero fun zero => nonzero (Fin.ext zero)
    obtain ⟨sum, added, total⟩ := @Word.ofNat?_isSome 128 (n.val + 1) room
    obtain ⟨half, halved, value⟩ := Word.checkedDiv_widen sum (b := (2 : U128)) (by decide)
    have one : (1 : U128).val = 1 := rfl
    have two : (2 : U128).val = 2 := rfl
    rw [total, two] at value
    simp only [Option.bind_eq_bind, Option.bind_some, Word.checkedAdd, one, added, halved]
    exact integerSqrt_loop_isSome (by omega) (by omega) room

/-- The root of a product of two words is a word. -/
theorem integerSqrt_product (a b : U64) : ∃ product root, (widen a).checkedMul (widen b) = some product ∧
    product.val = a.val * b.val ∧ integerSqrt product = some root ∧ root.val * root.val ≤ a.val * b.val ∧
    a.val * b.val < (root.val + 1) * (root.val + 1) ∧ root.val < 2 ^ 64 := by
  obtain ⟨product, multiplied, value⟩ := widen_mul_some a b
  have first := a.isLt
  have second := b.isLt
  have largest : a.val * b.val ≤ (2 ^ 64 - 1) * (2 ^ 64 - 1) := Nat.mul_le_mul (by omega) (by omega)
  obtain ⟨root, rooted⟩ := integerSqrt_isSome (n := product) (by omega)
  obtain ⟨below, above⟩ := integerSqrt_some rooted
  rw [value] at below above
  refine ⟨product, root, multiplied, value, rooted, below, above, ?_⟩
  by_contra wide
  have square := Nat.mul_le_mul (not_lt.mp wide) (not_lt.mp wide)
  omega

/-- The square root terminates without an overflow and is exact on everything that a creation
feeds it, and the first LP is what it leaves over the minimum. -/
theorem created_supply_is_root :
    (∀ a b : U64, ∃ product root, (widen a).checkedMul (widen b) = some product ∧ product.val = a.val * b.val ∧
      integerSqrt product = some root ∧ root.val * root.val ≤ a.val * b.val ∧
      a.val * b.val < (root.val + 1) * (root.val + 1) ∧ root.val ≤ 2 ^ 64 - 1 ∧
      (Word.truncate root : U64).val = root.val) ∧
    ∀ (Key : Type) [DecidableEq Key] (rent : U64) (transferFee : TransferFee) (mint : MintAccount)
      (accounts : CreatePoolAccounts Key) (args : CreatePoolArgs) (ground : Ground Key) (born : Chain Key)
      (event : PoolCreated Key), createPool rent transferFee mint accounts args ground = .ok (born, event) →
      ∃ product root, (widen args.initialSolAmount).checkedMul (widen event.tokensInNet) = some product ∧
        integerSqrt product = some root ∧ 1000 < root.val ∧
        event.lpToCreator.val + event.lpLocked.val = root.val - 1000 ∧
        event.lpLocked.val = (root.val - 1000) / 5 := by
  constructor
  · intro a b
    obtain ⟨product, root, multiplied, value, rooted, below, above, narrow⟩ := integerSqrt_product a b
    exact ⟨product, root, multiplied, value, rooted, below, above, by omega, Word.truncate_val narrow⟩
  · intro Key _ rent transferFee mint accounts args ground born event done
    have created := createPool_ok done
    obtain ⟨product, root, multiplied, _, rooted, below, above, _⟩ :=
      integerSqrt_product args.initialSolAmount event.tokensInNet
    have found : root.val = Nat.sqrt (args.initialSolAmount.val * event.tokensInNet.val) :=
      Nat.eq_sqrt.mpr ⟨below, above⟩
    have minted : born.lp.supply.val + 1000 = Nat.sqrt (args.initialSolAmount.val * event.tokensInNet.val) := by
      refine Nat.eq_sqrt'.mpr ⟨created.belowRoot, ?_⟩
      exact created.aboveRoot
    have credited := created.lpCredited
    have supply := created.supply
    have lock := created.lock
    exact ⟨product, root, multiplied, rooted, by omega, by omega, by omega⟩

theorem created_supply_is_root_sample : (∃ product root, integerSqrt product = some root ∧
    root.val * root.val ≤ 30000000000000000 ∧ 30000000000000000 < (root.val + 1) * (root.val + 1)) ∧
    ∃ (born : Chain ℕ) (event : PoolCreated ℕ), sampleCreation .none ⟨5000000, 5000000000⟩ = .ok (born, event) ∧
      event.lpToCreator.val + event.lpLocked.val = 158112883 := by
  obtain ⟨roots, creations⟩ := created_supply_is_root
  obtain ⟨product, root, _, _, rooted, below, above, _⟩ := roots 5000000 6000000000
  have made : accepts (sampleCreation .none ⟨5000000, 5000000000⟩) (fun result =>
      result.2.tokensInNet = 5000000) = true := by decide +kernel
  obtain ⟨⟨born, event⟩, done, net⟩ := accepts_iff.mp made
  obtain ⟨area, seed, multiplied, found, _, supply, _⟩ := creations _ _ _ _ _ _ _ _ _ done
  rw [of_decide_eq_true net] at multiplied
  have value : area.val = 5000000000 * 5000000 := Word.checkedMul_eq_some.mp multiplied
  obtain ⟨under, past⟩ := integerSqrt_some found
  have exactly : seed.val = 158113883 := by nlinarith
  exact ⟨⟨product, root, rooted, below, above⟩, born, event, done, by omega⟩

end DeepPool
