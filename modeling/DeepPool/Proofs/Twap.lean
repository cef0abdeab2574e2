import DeepPool.Library.BigInt
import DeepPool.Proofs.Math
import DeepPool.Sdk.Twap

/-! The SDK reads the oracle exactly as the program does. -/

namespace DeepPool.Sdk
open Library

variable {Key : Type} {pool : Pool Key} {solReserveNow tokenReserveNow : U64}

def bigint {bits : Nat} (word : Word bits) : Int := word.val

def observation (o : Observation) : TwapObservation := ⟨bigint o.slot, bigint o.cumSolPerTok, bigint o.cumTokPerSol⟩

theorem bigint_zero {bits : Nat} {word : Word bits} : bigint word = 0 ↔ word.val = 0 := by
  unfold bigint
  omega

theorem bigint_lt {bits : Nat} {a b : Word bits} : bigint a < bigint b ↔ a.val < b.val := by
  unfold bigint
  omega

private theorem mask128_eq : mask128 = 2 ^ 128 - 1 := by decide

theorem wrapMul_bigint (a b : U128) : wrapMul (bigint a) (bigint b) = bigint (a.wrappingMul b) := by
  rw [wrapMul, mask128_eq]
  exact Word.wrappingMul_mask a b

theorem wrapAdd_bigint (a b : U128) : wrapAdd (bigint a) (bigint b) = bigint (a.wrappingAdd b) := by
  rw [wrapAdd, mask128_eq]
  exact Word.wrappingAdd_mask a b

theorem wrapSub_bigint (a b : U128) : wrapSub (bigint a) (bigint b) = bigint (a.wrappingSub b) := by
  rw [wrapSub, mask128_eq]
  exact Word.wrappingSub_mask a b

/-- Both prices are the shifted reserve over the other one, rounded down. -/
theorem price_bigint {price : U128} (priced : priceQ64 solReserveNow tokenReserveNow = some price) :
    (bigint solReserveNow <<< (64 : Nat)).tdiv (bigint tokenReserveNow) = bigint price := by
  obtain ⟨_, value⟩ := Word.checkedDiv_eq_some.mp priced
  simp only [bigint, value, Int.shiftLeft_eq, widen_val]
  norm_cast

/-- Both quotients are rounded down, and the widened divisor is the same number. -/
theorem quotient_bigint (a : U128) {elapsed : U64} (positive : elapsed.val ≠ 0) :
    some ((bigint a).tdiv (bigint elapsed)) = (a.checkedDiv (widen elapsed)).map bigint := by
  obtain ⟨quotient, divided, value⟩ := Word.checkedDiv_widen a (b := widen elapsed) (Nat.pos_of_ne_zero positive)
  rw [divided, Option.map_some, Option.some.injEq]
  simp only [bigint, value, widen_val]
  norm_cast

theorem windowStart_bigint (target : U64) (start : Option Observation) (o : Observation) :
    windowStart (bigint target) (start.map observation) (observation o) =
      (Pool.windowStart target start o).map observation := by
  unfold windowStart Pool.windowStart
  simp only [observation, bigint_zero, bigint_lt]
  split
  · rfl
  · cases start with
    | none => rfl
    | some chosen =>
      simp only [Option.map_some, observation, bigint_lt]
      split <;> rfl

theorem scan_bigint (target : U64) (observations : List Observation) (start : Option Observation) :
    (observations.map observation).foldl (windowStart (bigint target)) (start.map observation) =
      (observations.foldl (Pool.windowStart target) start).map observation := by
  induction observations generalizing start with
  | nil => rfl
  | cons first rest ih => rw [List.map_cons, List.foldl_cons, List.foldl_cons, windowStart_bigint, ih]

/-- For every account and all arguments both reads agree, `null` with `None` and number with number. -/
theorem twap_mirror_faithful (pool : Pool Key) (solReserveNow tokenReserveNow now lookback : U64) :
    readTwapSolPerTok (twapStateFromDecodedPool pool) (solReserveNow.val : Int) (tokenReserveNow.val : Int)
      (now.val : Int) (lookback.val : Int) =
      (pool.readTwapSolPerTok solReserveNow tokenReserveNow now lookback).map fun mark => (mark.val : Int) := by
  change readTwapSolPerTok ⟨bigint pool.cumSolPerTok, bigint pool.lastCumSlot, pool.observations.toList.map observation⟩
    (bigint solReserveNow) (bigint tokenReserveNow) (bigint now) (bigint lookback) = Option.map bigint _
  simp only [readTwapSolPerTok, Pool.readTwapSolPerTok, Option.bind_eq_bind, bigint_zero]
  by_cases drained : tokenReserveNow.val = 0
  · have unpriced : priceQ64 solReserveNow tokenReserveNow = none := by
      rw [priceQ64, Word.checkedDiv, widen_val, if_pos drained]
    rw [if_pos drained, unpriced]
    rfl
  · obtain ⟨price, priced, _⟩ := priceQ64_some solReserveNow (Nat.pos_of_ne_zero drained)
    have gap : (if bigint pool.lastCumSlot < bigint now then bigint now - bigint pool.lastCumSlot else 0) =
        bigint (widen (now.saturatingSub pool.lastCumSlot)) := Word.saturatingSub_guard now pool.lastCumSlot
    have target : (if bigint lookback < bigint now then bigint now - bigint lookback else 0) =
        bigint (now.saturatingSub lookback) := Word.saturatingSub_guard now lookback
    have scanned := scan_bigint (now.saturatingSub lookback) pool.observations.toList none
    rw [Option.map_none] at scanned
    rw [if_neg drained, priced, Option.bind_some, price_bigint priced, gap, target, scanned, wrapMul_bigint,
      wrapAdd_bigint]
    cases pool.observations.toList.foldl (Pool.windowStart (now.saturatingSub lookback)) none with
    | none => rfl
    | some start =>
      have elapsed : (if bigint start.slot < bigint now then bigint now - bigint start.slot else 0) =
          bigint (now.saturatingSub start.slot) := Word.saturatingSub_guard now start.slot
      simp only [Option.map_some, Option.bind_some, observation, elapsed, bigint_zero, wrapSub_bigint]
      split
      · rfl
      next positive => exact quotient_bigint _ positive

end DeepPool.Sdk
