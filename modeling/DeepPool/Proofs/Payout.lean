import DeepPool.Proofs.Guards
import DeepPool.Proofs.Quote
import Mathlib.Order.Bounds.Basic

/-! The pricing of one crossing of the curve, for every amount. The payout is the best that the
curve allows, and the steps before it fail for large inputs only. -/

namespace DeepPool
open Library

variable {Key : Type} {rent : U64} {transferFee : TransferFee} {accounts : SwapAccounts Key} {args : SwapArgs}
  {before after : Chain Key} {event : SwapExecuted Key}

/-- The payouts that leave the product of the reserves no smaller. -/
def payouts (reserveIn reserveOut effectiveIn : ℕ) : Set ℤ :=
  {out | (reserveIn * reserveOut : ℤ) ≤ (reserveIn + effectiveIn) * (reserveOut - out)}

theorem payouts_greatest {reserveIn reserveOut effectiveIn : ℕ} (positive : 0 < reserveIn + effectiveIn) :
    IsGreatest (payouts reserveIn reserveOut effectiveIn)
      ((effectiveIn * reserveOut / (reserveIn + effectiveIn) : ℕ) : ℤ) := by
  have within : ∀ out : ℤ, out ∈ payouts reserveIn reserveOut effectiveIn ↔
      out ≤ (effectiveIn * reserveOut : ℤ) / (reserveIn + effectiveIn : ℤ) := by
    intro out
    rw [Int.le_ediv_iff_mul_le (by exact_mod_cast positive)]
    change (reserveIn * reserveOut : ℤ) ≤ (reserveIn + effectiveIn) * (reserveOut - out) ↔ _
    constructor <;> (intro bound; linarith)
  have quotient : ((effectiveIn * reserveOut / (reserveIn + effectiveIn) : ℕ) : ℤ) =
      (effectiveIn * reserveOut : ℤ) / (reserveIn + effectiveIn : ℤ) := by
    push_cast
    rfl
  rw [quotient]
  exact ⟨(within _).mpr (le_refl _), fun out kept => (within out).mp kept⟩

/-- Nothing in the formula overflows, and the narrowing keeps the whole quotient. -/
theorem calcSwapOutput_isSome (effectiveIn : U64) {inputReserve : U64} (outputReserve : U64)
    (input : 0 < inputReserve.val) : ∃ out, calcSwapOutput effectiveIn inputReserve outputReserve = some out := by
  obtain ⟨numerator, multiplied, _⟩ := widen_mul_some effectiveIn outputReserve
  have fits : (widen inputReserve).val + (widen effectiveIn).val < 2 ^ 128 := by
    have first := inputReserve.isLt
    have second := effectiveIn.isLt
    rw [widen_val, widen_val]
    omega
  obtain ⟨denominator, added, value⟩ := Word.ofNat?_isSome _ fits
  have positive : 0 < denominator.val := by
    rw [value, widen_val]
    omega
  obtain ⟨quotient, divided, _⟩ := Word.checkedDiv_widen numerator positive
  refine ⟨Word.truncate quotient, ?_⟩
  simp only [calcSwapOutput, multiplied, Word.checkedAdd, added, divided, Option.bind_eq_bind, Option.bind_some,
    Option.pure_def]

theorem Leg.best {reserveIn reserveOut inAfter outAfter : ℕ} (leg : Leg reserveIn reserveOut inAfter outAfter event)
    (positive : 0 < reserveIn) :
    IsGreatest (payouts reserveIn reserveOut (event.amountInNet.val - event.fee.val)) event.amountOutGross.val := by
  rw [leg.payout]
  exact payouts_greatest (Nat.add_pos_left positive _)

variable [DecidableEq Key]

/-- A crossing pays the greatest amount that keeps the curve, and so do the swaps in both directions. -/
theorem swap_pays_best :
    (∀ effectiveIn inputReserve outputReserve : U64, 0 < inputReserve.val → 0 < outputReserve.val →
      ∃ out, calcSwapOutput effectiveIn inputReserve outputReserve = some out ∧
        out.val = effectiveIn.val * outputReserve.val / (inputReserve.val + effectiveIn.val) ∧
        out.val < outputReserve.val ∧
        IsGreatest (payouts inputReserve.val outputReserve.val effectiveIn.val) out.val) ∧
    ∀ (rent : U64) (transferFee : TransferFee) (accounts : SwapAccounts Key) (args : SwapArgs)
      (before after : Chain Key) (event : SwapExecuted Key),
      swap rent transferFee accounts args before = .ok (after, event) →
      IsGreatest (if args.buy then
          payouts (before.solReserve rent).val before.tokenReserve.val (event.amountInNet.val - event.fee.val)
        else payouts before.tokenReserve.val (before.solReserve rent).val (event.amountInNet.val - event.fee.val))
        event.amountOutGross.val := by
  constructor
  · intro effectiveIn inputReserve outputReserve input output
    obtain ⟨out, computed⟩ := calcSwapOutput_isSome effectiveIn outputReserve input
    obtain ⟨positive, value⟩ := calcSwapOutput_some computed
    refine ⟨out, computed, value, calcSwapOutput_drains input output computed, ?_⟩
    rw [value]
    exact payouts_greatest positive
  · intro rent transferFee accounts args before after event done
    have traded := swap_ok done
    obtain ⟨_, direction, _⟩ := swap_priced done
    rcases traded.leg with bought | sold
    · rw [← direction, bought.direction, if_pos rfl]
      exact bought.leg.best traded.sol
    · rw [← direction, sold.direction, if_neg (by decide)]
      exact sold.leg.best traded.token

theorem swap_pays_best_sample : ∃ out, calcSwapOutput 997 10000 20000 = some out ∧
    IsGreatest (payouts 10000 20000 997) out.val ∧
    ∃ (before after : Chain ℕ) (event : SwapExecuted ℕ),
      swap 2000000 .none ⟨7, 7⟩ ⟨1000000, 0, true⟩ before = .ok (after, event) ∧
        IsGreatest (payouts 5000000000 5000000 997500) event.amountOutGross.val := by
  obtain ⟨curve, swaps⟩ := @swap_pays_best ℕ _
  obtain ⟨out, computed, _, _, best⟩ := curve 997 10000 20000 (by decide) (by decide)
  have found : accepts (sampleHistory .none ⟨5000000, 5000000000⟩ []) (fun start =>
      (start.1.solReserve 2000000).val = 5000000000 ∧ start.1.tokenReserve.val = 5000000 ∧
        accepts (swap 2000000 .none ⟨7, 7⟩ ⟨1000000, 0, true⟩ start.1) (fun result =>
          result.2.amountInNet.val - result.2.fee.val = 997500)) = true := by decide +kernel
  obtain ⟨⟨before, _⟩, _, facts⟩ := accepts_iff.mp found
  obtain ⟨sol, token, trades⟩ := of_decide_eq_true facts
  obtain ⟨⟨after, event⟩, done, effective⟩ := accepts_iff.mp trades
  have greatest := swaps _ _ _ _ _ _ _ done
  rw [if_pos rfl, sol, token, of_decide_eq_true effective] at greatest
  exact ⟨out, computed, best, before, after, event, done, greatest⟩

/-! Where the pricing fails. Only the fee is computed in the width of the amount. -/

theorem calcSwapFee_none {amount : U64} : calcSwapFee amount = none ↔ 2 ^ 64 ≤ amount.val * 25 := by
  unfold calcSwapFee
  split
  next zero =>
    constructor
    · intro impossible
      cases impossible
    · intro large
      have nothing : amount.val = 0 := congrArg Fin.val zero
      omega
  next nonzero =>
    by_cases fits : amount.val * swapFeeBps.val < 2 ^ 64
    · obtain ⟨product, multiplied, _⟩ := Word.ofNat?_isSome _ fits
      obtain ⟨quotient, divided, _⟩ := Word.checkedDiv_widen product (b := feeDenominator) (by decide)
      rw [swapFeeBps_val] at fits
      simp only [Word.checkedMul, multiplied, divided, Option.bind_eq_bind, Option.bind_some, Option.pure_def]
      constructor
      · intro impossible
        cases impossible
      · omega
    · have none : amount.checkedMul swapFeeBps = none := dif_neg fits
      rw [swapFeeBps_val] at fits
      simp only [none, Option.bind_eq_bind, Option.bind_none, true_iff]
      omega

/-- An input is priced unless its fee overflows. -/
theorem priced_iff {amount reserveIn reserveOut : U64} (input : 0 < amount.val) (active : 0 < reserveIn.val)
    (stocked : 0 < reserveOut.val) :
    (∃ fee out, Priced amount reserveIn reserveOut fee out) ↔ amount.val * 25 < 2 ^ 64 := by
  rw [← not_le, ← calcSwapFee_none]
  constructor
  · rintro ⟨fee, _, charged, _, _⟩ none
    rw [none] at charged
    cases charged
  · intro some_
    obtain ⟨fee, charged⟩ := Option.ne_none_iff_exists'.mp some_
    obtain ⟨_, _, feeLe⟩ := calcSwapFee_some input charged
    have reduced : amount.checkedSub fee = some (amount.saturatingSub fee) := Word.checkedSub_of_le (by omega)
    obtain ⟨out, computed⟩ := calcSwapOutput_isSome (amount.saturatingSub fee) reserveOut active
    exact ⟨fee, out, charged, ⟨_, reduced, computed⟩, calcSwapOutput_drains active stocked computed⟩

theorem handleBuy_overflows {solReserve tokenReserve : U64} (input : 0 < args.amountIn.val) (sol : 0 < solReserve.val)
    (token : 0 < tokenReserve.val) :
    handleBuy transferFee accounts args solReserve tokenReserve before = .error (.deepPool .mathOverflow) ↔
      2 ^ 64 ≤ args.amountIn.val * 25 := by
  constructor
  · contrapose!
    intro small
    obtain ⟨fee, out, charged, ⟨effective, reduced, computed⟩, _⟩ := (priced_iff input sol token).mpr small
    simp only [handleBuy, charged, reduced, computed, okOr_bind]
    simp only [ne_eq, bind_avoids, require_avoids, systemTransfer_avoids, transferChecked_avoids, pure_error, okOr_avoids,
      reduceCtorEq, IsEmpty.forall_iff, forall_const, implies_true, true_and, not_false_eq_true, and_true]
    intro _ _ _ _ paid moved delivered sent
    obtain ⟨lamports, rfl, _⟩ := systemTransfer_ok (by simp) moved
    obtain ⟨tokens, rfl, _, user, _⟩ := transferChecked_ok (by simp) sent
    have counted : (tokens (.wallet accounts.user)).checkedSub (before.tokens (.wallet accounts.user)) =
        some (transferFee.net out) := by
      rw [Word.checkedSub_eq_some, user]
      exact Nat.add_comm _ _
    simp [counted]
  · intro large
    simp only [handleBuy, calcSwapFee_none.mpr large]
    rfl

theorem handleSell_overflows {solReserve tokenReserve : U64} (input : 0 < (transferFee.net args.amountIn).val)
    (funds : args.amountIn.val ≤ (before.tokens (.wallet accounts.user)).val)
    (fits : before.tokenReserve.val + (transferFee.net args.amountIn).val < 2 ^ 64) (sol : 0 < solReserve.val)
    (token : 0 < tokenReserve.val) :
    handleSell rent transferFee accounts args solReserve tokenReserve before = .error (.deepPool .mathOverflow) ↔
      2 ^ 64 ≤ (transferFee.net args.amountIn).val * 25 := by
  obtain ⟨paid, sent⟩ : ∃ paid, before.transferChecked transferFee (.wallet accounts.user) .pool args.amountIn =
      .ok paid := transferChecked_isOk (by simp) funds fits
  obtain ⟨tokens, rfl, _, vault, _⟩ := transferChecked_ok (by simp) sent
  have counted : (tokens .pool).checkedSub (before.tokens .pool) = some (transferFee.net args.amountIn) := by
    rw [Word.checkedSub_eq_some, vault]
    exact Nat.add_comm _ _
  have arrives : require (0 < (transferFee.net args.amountIn).val) .zeroInput = .ok () := require_ok.mpr input
  have starts : ∀ rest : Chain Key → U64 → Except ProgramError (Chain Key × SwapMetrics),
      (do
        let chain ← before.transferChecked transferFee (.wallet accounts.user) .pool args.amountIn
        let net ← okOr (chain.tokenReserve.checkedSub before.tokenReserve) .mathOverflow
        require (0 < net.val) .zeroInput
        rest chain net) = rest { before with tokens } (transferFee.net args.amountIn) := by
    intro rest
    rw [sent]
    change (okOr ((tokens .pool).checkedSub (before.tokens .pool)) .mathOverflow >>= _) = _
    rw [counted, okOr_bind, arrives]
    rfl
  unfold handleSell
  rw [starts]
  constructor
  · contrapose!
    intro small
    obtain ⟨fee, out, charged, ⟨effective, reduced, computed⟩, _⟩ := (priced_iff input token sol).mpr small
    simp only [charged, reduced, computed, okOr_bind]
    simp only [ne_eq, bind_avoids, require_avoids, subLamports_avoids, addLamports_avoids, pure_error, reduceCtorEq,
      IsEmpty.forall_iff, implies_true, not_false_eq_true, and_true]
  · intro large
    simp only [calcSwapFee_none.mpr large]
    rfl

/-- The pricing succeeds, and the swap does not report an overflow, exactly when 25 times the
net input fits a word. -/
theorem swap_overflows_iff :
    (∀ amount reserveIn reserveOut : U64, 0 < amount.val → 0 < reserveIn.val → 0 < reserveOut.val →
      ((∃ fee out, Priced amount reserveIn reserveOut fee out) ↔ amount.val * 25 < 2 ^ 64)) ∧
    ∀ (rent : U64) (transferFee : TransferFee) (accounts : SwapAccounts Key) (args : SwapArgs) (before : Chain Key),
      before.pool.obsHead.val < twapRingSize → 0 < (before.solReserve rent).val → 0 < before.tokenReserve.val →
      (args.buy = true → 0 < args.amountIn.val → (before.lamports .pool).val + args.amountIn.val < 2 ^ 64 →
        (swap rent transferFee accounts args before ≠ .error (.deepPool .mathOverflow) ↔
          args.amountIn.val * 25 < 2 ^ 64)) ∧
      (args.buy = false → args.amountIn.val ≤ (before.tokens (.wallet accounts.user)).val →
        0 < (transferFee.net args.amountIn).val →
        before.tokenReserve.val + (transferFee.net args.amountIn).val < 2 ^ 64 →
        (swap rent transferFee accounts args before ≠ .error (.deepPool .mathOverflow) ↔
          (transferFee.net args.amountIn).val * 25 < 2 ^ 64)) := by
  refine ⟨fun _ _ _ => priced_iff, ?_⟩
  intro rent transferFee accounts args before inside sol token
  obtain ⟨pool, recorded⟩ := Pool.recordObservation_isOk before.slot inside sol token
  have reserves : require (0 < (before.solReserve rent).val ∧ 0 < before.tokenReserve.val) .emptyPool = .ok () :=
    require_ok.mpr ⟨sol, token⟩
  constructor
  · intro buy input _
    have starts : require (0 < args.amountIn.val) .zeroInput = .ok () := require_ok.mpr input
    have same : swap rent transferFee accounts args before = .error (.deepPool .mathOverflow) ↔
        handleBuy transferFee accounts args (before.solReserve rent) before.tokenReserve { before with pool } =
          .error (.deepPool .mathOverflow) := by
      simp only [swap, starts, reserves, recorded, if_pos buy]
      exact bind_error_of_total fun _ => ⟨_, rfl⟩
    rw [ne_eq, same, handleBuy_overflows input sol token, not_le]
  · intro sell funds input fits
    have starts : require (0 < args.amountIn.val) .zeroInput = .ok () :=
      require_ok.mpr (Nat.lt_of_lt_of_le input (transferFee.net_le _))
    have same : swap rent transferFee accounts args before = .error (.deepPool .mathOverflow) ↔
        handleSell rent transferFee accounts args (before.solReserve rent) before.tokenReserve { before with pool } =
          .error (.deepPool .mathOverflow) := by
      simp only [swap, starts, reserves, recorded, sell]
      exact bind_error_of_total fun _ => ⟨_, rfl⟩
    have overflows : handleSell rent transferFee accounts args (before.solReserve rent) before.tokenReserve
        { before with pool } = .error (.deepPool .mathOverflow) ↔ 2 ^ 64 ≤ (transferFee.net args.amountIn).val * 25 :=
      handleSell_overflows input funds fits sol token
    rw [ne_eq, same, overflows, not_le]

/-- The largest sale that is priced, by a holder of most of a large supply. -/
theorem swap_overflows_iff_sample : ∃ before : Chain ℕ, before.tokenReserve.val = 5000000 ∧
    swap 2000000 .none ⟨7, 7⟩ ⟨737869762948382064, 0, false⟩ before ≠ .error (.deepPool .mathOverflow) := by
  have found : accepts (sampleHistory .none ⟨5000000, 5000000000⟩ [.outside 7 0 1000000000000000000]) (fun start =>
      0 < (start.1.solReserve 2000000).val ∧ start.1.tokenReserve.val = 5000000 ∧
        (start.1.tokens (.wallet 7)).val = 1000000000000000000) = true := by decide +kernel
  obtain ⟨⟨before, _⟩, done, facts⟩ := accepts_iff.mp found
  obtain ⟨sol, token, held⟩ := of_decide_eq_true facts
  have inside := Jupiter.reachable_inside (sampleHistory_reachable done)
  obtain ⟨_, sells⟩ := (@swap_overflows_iff ℕ _).2 2000000 .none ⟨7, 7⟩ ⟨737869762948382064, 0, false⟩ before inside sol
    (by rw [token]; decide)
  refine ⟨before, token, (sells rfl ?_ (by decide) ?_).mpr (by decide)⟩
  · rw [held]
    decide
  · rw [token]
    decide

/-- One unit more, and the sale fails although the vault could take it. -/
theorem payable_swap_overflows : ∃ before : Chain ℕ, Reachable 2000000 before ∧
    737869762948382065 ≤ (before.tokens (.wallet 7)).val ∧ before.tokenReserve.val + 737869762948382065 < 2 ^ 64 ∧
      0 < (before.solReserve 2000000).val ∧
      swap 2000000 .none ⟨7, 7⟩ ⟨737869762948382065, 0, false⟩ before = .error (.deepPool .mathOverflow) := by
  have found : accepts (sampleHistory .none ⟨5000000, 5000000000⟩ [.outside 7 0 1000000000000000000]) (fun start =>
      737869762948382065 ≤ (start.1.tokens (.wallet 7)).val ∧ start.1.tokenReserve.val + 737869762948382065 < 2 ^ 64 ∧
        0 < (start.1.solReserve 2000000).val ∧
        refusal (swap 2000000 .none ⟨7, 7⟩ ⟨737869762948382065, 0, false⟩ start.1) =
          some (.deepPool .mathOverflow)) = true := by decide +kernel
  obtain ⟨⟨before, _⟩, done, facts⟩ := accepts_iff.mp found
  obtain ⟨held, room, sol, refused⟩ := of_decide_eq_true facts
  exact ⟨before, sampleHistory_reachable done, held, room, sol, refusal_iff.mp refused⟩

end DeepPool
