import DeepPool.Proofs.RemoveLiquidity
import DeepPool.Proofs.Request

/-! Whoever holds LP can leave. Only the two reserve floors and the party's own minimum
outputs stand in the way, and the payment is the floored share. -/

namespace DeepPool
open Library

/-- What the terms of a pool leave of a withdrawal: nothing depends on who asks. -/
structure Redeems (lpSupply solReserve tokenReserve : U64) (args : RemoveLiquidityArgs) : Prop where
  positive : 0 < args.lpAmount.val
  minimumSol : args.minSolOut.val ≤ args.lpAmount.val * solReserve.val / lpSupply.val
  minimumTokens : args.minTokensOut.val ≤ args.lpAmount.val * tokenReserve.val / lpSupply.val
  keepsSol : minPoolReserveSol.val + args.lpAmount.val * solReserve.val / lpSupply.val ≤ solReserve.val
  keepsTokens : minPoolReserveTokens.val + args.lpAmount.val * tokenReserve.val / lpSupply.val ≤ tokenReserve.val

section Own
variable {Key : Type} [DecidableEq Key] {rent : U64} {transferFee : TransferFee} {provider : Key}
  {args : RemoveLiquidityArgs} {before : Chain Key}

/-- A redemption within these terms goes through where the payments have room. -/
theorem removeLiquidity_isOk (live : Live rent before)
    (redeems : Redeems before.lp.supply (before.solReserve rent) before.tokenReserve args)
    (funds : args.lpAmount.val ≤ (before.lp.balance (.wallet provider)).val)
    (tokenRoom : (before.tokens (.wallet provider)).val + (before.tokens .pool).val < 2 ^ 64)
    (solRoom : (before.lamports (.wallet provider)).val + (before.lamports .pool).val < 2 ^ 64) :
    ∃ after event, removeLiquidity rent transferFee provider args before = .ok (after, event) := by
  have part := le_trans funds (live.balanced.le (.wallet provider))
  have supply : 0 < before.lp.supply.val := Nat.lt_of_lt_of_le redeems.positive part
  obtain ⟨solOut, solShare, solValue, solBound⟩ := calcLpRedeem_isSome (before.solReserve rent) part supply
  obtain ⟨tokensOut, tokenShare, tokenValue, tokenBound⟩ := calcLpRedeem_isSome before.tokenReserve part supply
  obtain ⟨positive, minimumSol, minimumTokens, keepsSol, keepsTokens⟩ := redeems
  rw [← solValue] at minimumSol keepsSol
  rw [← tokenValue] at minimumTokens keepsTokens
  have solKept : (before.solReserve rent).checkedSub solOut = some ((before.solReserve rent).saturatingSub solOut) :=
    Word.checkedSub_of_le (by omega)
  have tokensKept : before.tokenReserve.checkedSub tokensOut = some (before.tokenReserve.saturatingSub tokensOut) :=
    Word.checkedSub_of_le (by omega)
  have keeps : minPoolReserveSol.val ≤ ((before.solReserve rent).saturatingSub solOut).val ∧
      minPoolReserveTokens.val ≤ (before.tokenReserve.saturatingSub tokensOut).val := by
    rw [Word.saturatingSub_val, Word.saturatingSub_val]
    omega
  obtain ⟨lp, burned⟩ : ∃ lp, before.lp.burn (.wallet provider) args.lpAmount = some lp := by
    obtain ⟨balance, debited⟩ := Balances.debit_isSome funds
    have left : before.lp.supply.checkedSub args.lpAmount = some (before.lp.supply.saturatingSub args.lpAmount) :=
      Word.checkedSub_of_le (by omega)
    simp only [Ledger.burn, debited, left, Option.bind_eq_bind, Option.bind_some, Option.pure_def]
    exact ⟨_, rfl⟩
  have net := transferFee.net_le tokensOut
  have stocked : tokensOut.val ≤ (before.tokens .pool).val := tokenBound
  obtain ⟨delivered, sent⟩ : ∃ delivered, Chain.transferChecked transferFee { before with lp } .pool (.wallet provider)
      tokensOut = .ok delivered := transferChecked_isOk (by simp) stocked (by simp only; omega)
  obtain ⟨tokens, rfl, _, received, _⟩ := transferChecked_ok (by simp) sent
  have counted : (tokens (.wallet provider)).checkedSub (before.tokens (.wallet provider)) =
      some (transferFee.net tokensOut) := by
    rw [Word.checkedSub_eq_some, received]
    exact Nat.add_comm _ _
  rw [solReserve_val] at solBound
  obtain ⟨debited, spent⟩ : ∃ debited, Chain.subLamports { before with lp, tokens } .pool solOut = .ok debited :=
    subLamports_isOk (by simp only; omega)
  obtain ⟨debits, rfl, _, unspent⟩ := subLamports_ok spent
  have waits := unspent.others (.wallet provider) (by simp)
  obtain ⟨credited, earned⟩ : ∃ credited, Chain.addLamports { before with lp, tokens, lamports := debits }
      (.wallet provider) solOut = .ok credited := by
    apply addLamports_isOk
    simp only [waits]
    omega
  simp only [removeLiquidity, bind_ok, okOr_ok, require_ok, pure_ok, exists_const]
  exact ⟨_, _, funds, positive, ⟨live.sol, live.token⟩, supply, solOut, solShare, tokensOut, tokenShare, minimumSol,
    minimumTokens, _, solKept, _, tokensKept, keeps, _, bind_ok.mpr ⟨lp, orFail_ok.mpr burned, rfl⟩, _, sent, _, counted,
    _, spent, _, earned, rfl⟩

omit [DecidableEq Key] in
/-- And what goes through was within them. -/
theorem Withdrawn.redeems {after : Chain Key} {event : LiquidityRemoved Key}
    (withdrawn : Withdrawn rent transferFee provider args before after event) :
    Redeems before.lp.supply (before.solReserve rent) before.tokenReserve args := by
  have keepsSol := withdrawn.keepsSol
  have keepsTokens := withdrawn.keepsTokens
  have solPaid := withdrawn.solPaid
  have tokensPaid := withdrawn.tokensPaid
  have amount := withdrawn.lpAmount
  rw [solReserve_val] at keepsSol
  constructor
  case positive => exact amount ▸ withdrawn.positive
  case minimumSol =>
    rw [← amount, ← withdrawn.solShare]
    exact withdrawn.minimumSol
  case minimumTokens =>
    rw [← amount, ← withdrawn.tokenShare]
    exact withdrawn.minimumTokens
  case keepsSol =>
    rw [← amount, ← withdrawn.solShare, minPoolReserveSol_val, solReserve_val]
    omega
  case keepsTokens =>
    rw [← amount, ← withdrawn.tokenShare, minPoolReserveTokens_val]
    omega

end Own

variable {Key : Type} [DecidableEq Key] {derive : Derivation Key} {rents : Rents Key} {world : World Key} {key provider : Key}
  {pool : Pool Key} {args : RemoveLiquidityArgs} {total : ℕ}

instance (lpSupply solReserve tokenReserve : U64) (args : RemoveLiquidityArgs) :
    Decidable (Redeems lpSupply solReserve tokenReserve args) :=
  decidable_of_iff
    (0 < args.lpAmount.val ∧ args.minSolOut.val ≤ args.lpAmount.val * solReserve.val / lpSupply.val ∧
      args.minTokensOut.val ≤ args.lpAmount.val * tokenReserve.val / lpSupply.val ∧
      minPoolReserveSol.val + args.lpAmount.val * solReserve.val / lpSupply.val ≤ solReserve.val ∧
      minPoolReserveTokens.val + args.lpAmount.val * tokenReserve.val / lpSupply.val ≤ tokenReserve.val)
    ⟨fun ⟨positive, minimumSol, minimumTokens, keepsSol, keepsTokens⟩ =>
      ⟨positive, minimumSol, minimumTokens, keepsSol, keepsTokens⟩,
    fun redeems => ⟨redeems.positive, redeems.minimumSol, redeems.minimumTokens, redeems.keepsSol, redeems.keepsTokens⟩⟩

open Program (SampleKey sampleDerivation sampleRents samplePool sampleRun sampleBusy sampleRun_reachable
  sampleWorld_orderly)

def sampleWithdrawal : RemoveLiquidityArgs := ⟨1000000, 1, 1⟩

end DeepPool
