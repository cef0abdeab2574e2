import DeepPool.Instructions.AddLiquidity
import DeepPool.Proofs.Handlers
import DeepPool.Proofs.Math

/-! What a successful deposit did. -/

namespace DeepPool
open Library

variable {Key : Type} {rent : U64} {transferFee : TransferFee} {provider : Key} {args : AddLiquidityArgs}
  {before after : Chain Key} {event : LiquidityAdded Key}

/-- The SOL side is charged by the ceiling of the tokens that arrived, and the LP they
mint is floored and split between the provider and the lock. -/
structure Deposited (rent : U64) (transferFee : TransferFee) (provider : Key) (args : AddLiquidityArgs)
    (before after : Chain Key) (event : LiquidityAdded Key) : Prop where
  sol : 0 < (before.solReserve rent).val
  token : 0 < before.tokenReserve.val
  supply : 0 < before.lp.supply.val
  solPaid : (after.lamports .pool).val = (before.lamports .pool).val + event.solInNet.val
  tokensPaid : after.tokenReserve.val = before.tokenReserve.val + event.tokensInNet.val
  minted : after.lp.supply.val = before.lp.supply.val + event.lpToProvider.val + event.lpLocked.val
  held : (after.lp.balance (.wallet provider)).val = (before.lp.balance (.wallet provider)).val + event.lpToProvider.val
  lock : after.locked.val = before.locked.val + event.lpLocked.val
  balanced : before.lp.Balanced → after.lp.Balanced
  tokensSent : event.tokensInGross = args.tokenAmount
  net : event.tokensInNet.val = (transferFee.net args.tokenAmount).val
  positive : 0 < event.tokensInNet.val
  charge : calcProportionalCeil event.tokensInNet before.tokenReserve (before.solReserve rent) = some event.solInNet
  charged : event.solInGross = event.solInNet
  lpAmount : event.lpToProvider.val + event.lpLocked.val =
    before.lp.supply.val * event.tokensInNet.val / before.tokenReserve.val
  lpLocked : event.lpLocked.val =
    max ((event.lpToProvider.val + event.lpLocked.val) * 750 / 10000) 1
  lpCredited : 0 < event.lpToProvider.val
  minimum : args.minLpOut.val ≤ event.lpToProvider.val + event.lpLocked.val
  oracle : after.pool = before.pool
  slot : after.slot = before.slot
  address : after.address = before.address
  solReported : event.solReserveAfter = after.solReserve rent
  tokenReported : event.tokenReserveAfter = after.tokenReserve
  supplyReported : event.lpSupplyAfter = after.lp.supply

theorem lpLock_some {lpAmount locked : U64} (computed : lpLock lpAmount = some locked) :
    locked.val = max (lpAmount.val * 750 / 10000) 1 := by
  simp only [lpLock, Option.bind_eq_bind, Option.bind_eq_some_iff, Option.pure_def, Option.some.injEq] at computed
  obtain ⟨product, multiplied, quotient, divided, rfl⟩ := computed
  rw [Word.checkedMul_eq_some, widen_val, widen_val, lpLockProviderBps_val] at multiplied
  rw [Word.checkedDiv_eq_some, multiplied] at divided
  have scale : (10000 : U128).val = 10000 := rfl
  have bounded := lpAmount.isLt
  rw [scale] at divided
  rw [Word.max_val, Word.truncate_val (by omega), divided.2]
  rfl

variable [DecidableEq Key]

theorem addLiquidity_ok (done : addLiquidity rent transferFee provider args before = .ok (after, event)) :
    Deposited rent transferFee provider args before after event := by
  simp only [addLiquidity, bind_ok, okOr_ok, require_ok, pure_ok, exists_const] at done
  obtain ⟨_, ⟨sol, token⟩, supply, _, _, _, _, funded, sent, net, counted, positive, charge, charged, _, paid, moved,
    lpAmount, computed, _, minimum, lpBurn, locked, lpToProvider, split, credited, provided, minted, last, burned,
    same⟩ := done
  cases same
  obtain ⟨tokens, rfl, _, vault, _⟩ := transferChecked_ok (by simp) sent
  obtain ⟨lamports, rfl, _, pool, _⟩ := systemTransfer_ok (by simp) moved
  obtain ⟨lp, rfl, toProvider⟩ := mintTo_ok minted
  obtain ⟨lp', rfl, toPool⟩ := mintTo_ok burned
  obtain ⟨supplyFirst, heldFirst, changesFirst⟩ := Ledger.mint_eq_some toProvider
  obtain ⟨supplyLast, heldLast, changesLast⟩ := Ledger.mint_eq_some toPool
  rw [Word.checkedSub_eq_some] at counted split
  have arrived : net.val = (transferFee.net args.tokenAmount).val := by
    simp only [Chain.tokenReserve] at counted
    omega
  have whole := calcLpMint_some computed
  have share := lpLock_some locked
  have keeps : lp'.balance (.wallet provider) = lp.balance (.wallet provider) := changesLast.others _ (by simp)
  have waits : lp.balance .pool = before.lp.balance .pool := changesFirst.others _ (by simp)
  simp only at supplyFirst heldFirst supplyLast heldLast
  constructor
  case sol => exact sol
  case token => exact token
  case supply => exact supply
  case solPaid => exact pool
  case tokensPaid => exact vault.trans (by rw [arrived]; rfl)
  case minted =>
    rw [supplyLast, supplyFirst]
  case held => rw [keeps, heldFirst]
  case lock => exact heldLast.trans (by rw [waits]; rfl)
  case balanced =>
    intro balanced
    exact (balanced.mint toProvider).mint toPool
  case tokensSent => rfl
  case net => exact arrived
  case positive => exact positive
  case charge => exact charged
  case charged => rfl
  case lpAmount => exact split.trans whole.2
  case lpLocked =>
    simp only [split]
    exact share
  case lpCredited => exact credited
  case minimum =>
    simp only [split]
    exact minimum
  all_goals rfl

end DeepPool
