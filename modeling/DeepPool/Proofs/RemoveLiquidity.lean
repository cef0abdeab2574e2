import DeepPool.Instructions.RemoveLiquidity
import DeepPool.Proofs.Handlers
import DeepPool.Proofs.Math

/-! What a successful withdrawal did. -/

namespace DeepPool
open Library

variable {Key : Type} {rent : U64} {transferFee : TransferFee} {provider : Key} {args : RemoveLiquidityArgs}
  {before after : Chain Key} {event : LiquidityRemoved Key}

/-- Both sides pay the floored share of the burned LP, and at least the retention
floor stays behind. -/
structure Withdrawn (rent : U64) (transferFee : TransferFee) (provider : Key) (args : RemoveLiquidityArgs)
    (before after : Chain Key) (event : LiquidityRemoved Key) : Prop where
  sol : 0 < (before.solReserve rent).val
  token : 0 < before.tokenReserve.val
  supply : 0 < before.lp.supply.val
  lpAmount : event.lpBurned = args.lpAmount
  positive : 0 < event.lpBurned.val
  solPaid : (after.lamports .pool).val + event.solOutGross.val = (before.lamports .pool).val
  tokensPaid : after.tokenReserve.val + event.tokensOutGross.val = before.tokenReserve.val
  burned : after.lp.supply.val + event.lpBurned.val = before.lp.supply.val
  held : (after.lp.balance (.wallet provider)).val + event.lpBurned.val = (before.lp.balance (.wallet provider)).val
  others : ∀ owner, owner ≠ .wallet provider → after.lp.balance owner = before.lp.balance owner
  balanced : before.lp.Balanced → after.lp.Balanced
  solShare : event.solOutGross.val = event.lpBurned.val * (before.solReserve rent).val / before.lp.supply.val
  tokenShare : event.tokensOutGross.val = event.lpBurned.val * before.tokenReserve.val / before.lp.supply.val
  minimumSol : args.minSolOut.val ≤ event.solOutGross.val
  minimumTokens : args.minTokensOut.val ≤ event.tokensOutGross.val
  keepsSol : 100000000 ≤ (after.solReserve rent).val
  keepsTokens : 1000000 ≤ after.tokenReserve.val
  solReceived : event.solOutNet = event.solOutGross
  tokensReceived : event.tokensOutNet.val = (transferFee.net event.tokensOutGross).val
  oracle : after.pool = before.pool
  slot : after.slot = before.slot
  address : after.address = before.address
  solReported : event.solReserveAfter = after.solReserve rent
  tokenReported : event.tokenReserveAfter = after.tokenReserve
  supplyReported : event.lpSupplyAfter = after.lp.supply

variable [DecidableEq Key]

theorem removeLiquidity_ok (done : removeLiquidity rent transferFee provider args before = .ok (after, event)) :
    Withdrawn rent transferFee provider args before after event := by
  simp only [removeLiquidity, bind_ok, okOr_ok, require_ok, pure_ok, exists_const] at done
  obtain ⟨_, positive, ⟨sol, token⟩, supply, solOut, solShare, tokensOut, tokenShare, minimumSol, minimumTokens,
    solLeft, solKept, tokensLeft, tokensKept, ⟨keepsSol, keepsTokens⟩, burned, retired, delivered, sent, received,
    counted, spent, debited, earned, credited, same⟩ := done
  cases same
  obtain ⟨lp, rfl, fromProvider⟩ := burn_ok retired
  obtain ⟨tokens, rfl, vault, user, _⟩ := transferChecked_ok (by simp) sent
  obtain ⟨debits, rfl, pool, _⟩ := subLamports_ok debited
  obtain ⟨lamports, rfl, _, unearned⟩ := addLamports_ok credited
  obtain ⟨supplyLeft, heldLeft, changes⟩ := Ledger.burn_eq_some fromProvider
  rw [Word.checkedSub_eq_some] at solKept tokensKept counted
  rw [minPoolReserveSol_val] at keepsSol
  rw [minPoolReserveTokens_val] at keepsTokens
  have waits : lamports .pool = debits .pool := unearned.others .pool (by simp)
  have solLeft : (lamports .pool).val + solOut.val = (before.lamports .pool).val := by
    rw [waits]
    exact pool
  constructor
  case sol => exact sol
  case token => exact token
  case supply => exact supply
  case positive => exact positive
  case solPaid => exact solLeft
  case tokensPaid => exact vault
  case burned => exact supplyLeft
  case held => exact heldLeft
  case others => exact changes.others
  case balanced =>
    intro balanced
    exact balanced.burn fromProvider
  case solShare => exact (calcLpRedeem_some solShare).2
  case tokenShare => exact (calcLpRedeem_some tokenShare).2
  case minimumSol => exact minimumSol
  case minimumTokens => exact minimumTokens
  case keepsSol =>
    rw [solReserve_val] at solKept ⊢
    simp only
    omega
  case keepsTokens =>
    simp only [Chain.tokenReserve] at tokensKept vault ⊢
    omega
  case tokensReceived =>
    simp only at counted user ⊢
    omega
  all_goals rfl

end DeepPool
