import DeepPool.Instructions.Swap
import DeepPool.Proofs.Handlers
import DeepPool.Proofs.Math
import DeepPool.Library.Shares

/-! What a successful swap did, said once for both directions. -/

namespace DeepPool
open Library

variable {Key : Type} {rent : U64} {transferFee : TransferFee} {accounts : SwapAccounts Key}
  {args : SwapArgs} {before after : Chain Key} {event : SwapExecuted Key}

/-- One crossing of the curve: the input side grows by the net input, the output
side pays the floored constant-product quotient of the input after the pool fee. -/
structure Leg (reserveIn reserveOut inAfter outAfter : Nat) (event : SwapExecuted Key) : Prop where
  paidIn : inAfter = reserveIn + event.amountInNet.val
  paidOut : outAfter + event.amountOutGross.val = reserveOut
  input : 0 < event.amountInNet.val
  fee : event.fee.val = max (event.amountInNet.val * 25 / 10000) 1
  feeLe : event.fee.val ≤ event.amountInNet.val
  payout : event.amountOutGross.val =
    (event.amountInNet.val - event.fee.val) * reserveOut / (reserveIn + (event.amountInNet.val - event.fee.val))
  remains : 0 < outAfter

structure Bought (rent : U64) (transferFee : TransferFee) (accounts : SwapAccounts Key) (args : SwapArgs)
    (before after : Chain Key) (event : SwapExecuted Key) : Prop where
  leg : Leg (before.solReserve rent).val before.tokenReserve.val (after.solReserve rent).val after.tokenReserve.val event
  direction : event.buy = true
  gross : event.amountInGross = args.amountIn
  net : event.amountInNet = args.amountIn
  minimum : args.minimumOut.val ≤ event.amountOutGross.val
  received : event.amountOutNet.val = (transferFee.net event.amountOutGross).val
  payer : (after.solWallets accounts.solSource).val + args.amountIn.val = (before.solWallets accounts.solSource).val
  payerOnly : Balances.Changes before.solWallets after.solWallets accounts.solSource
  recipient : (after.tokenWallets accounts.user).val = (before.tokenWallets accounts.user).val + event.amountOutNet.val
  recipientOnly : Balances.Changes before.tokenWallets after.tokenWallets accounts.user

structure Sold (rent : U64) (transferFee : TransferFee) (accounts : SwapAccounts Key) (args : SwapArgs)
    (before after : Chain Key) (event : SwapExecuted Key) : Prop where
  leg : Leg before.tokenReserve.val (before.solReserve rent).val after.tokenReserve.val (after.solReserve rent).val event
  direction : event.buy = false
  gross : event.amountInGross = args.amountIn
  net : event.amountInNet.val = (transferFee.net args.amountIn).val
  minimum : args.minimumOut.val ≤ event.amountOutGross.val
  received : event.amountOutNet = event.amountOutGross
  payer : (after.tokenWallets accounts.user).val + args.amountIn.val = (before.tokenWallets accounts.user).val
  payerOnly : Balances.Changes before.tokenWallets after.tokenWallets accounts.user
  recipient : (after.solWallets accounts.solSource).val =
    (before.solWallets accounts.solSource).val + event.amountOutGross.val
  recipientOnly : Balances.Changes before.solWallets after.solWallets accounts.solSource

/-- Everything but the two reserves and the two wallets: the oracle is advanced with
the old reserves, the LP ledger is not touched, and the event shows the new state. -/
structure Traded (rent : U64) (transferFee : TransferFee) (accounts : SwapAccounts Key) (args : SwapArgs)
    (before after : Chain Key) (event : SwapExecuted Key) : Prop where
  sol : 0 < (before.solReserve rent).val
  token : 0 < before.tokenReserve.val
  oracle : before.pool.recordObservation (before.solReserve rent) before.tokenReserve before.slot = .ok after.pool
  lp : after.lp = before.lp
  slot : after.slot = before.slot
  address : after.address = before.address
  solReported : event.solReserveAfter = after.solReserve rent
  tokenReported : event.tokenReserveAfter = after.tokenReserve
  leg : Bought rent transferFee accounts args before after event ∨ Sold rent transferFee accounts args before after event

/-- A payout below the reserve comes with a positive remainder. -/
private theorem leg_of {reserveIn reserveOut inAfter outAfter net fee effective out : U64} {event : SwapExecuted Key}
    (input : 0 < net.val) (charged : calcSwapFee net = some fee) (reduced : net.checkedSub fee = some effective)
    (computed : calcSwapOutput effective reserveIn reserveOut = some out) (drained : out.val < reserveOut.val)
    (paidIn : inAfter.val = reserveIn.val + net.val) (paidOut : outAfter.val + out.val = reserveOut.val)
    (netReported : event.amountInNet = net) (feeReported : event.fee = fee) (outReported : event.amountOutGross = out) :
    Leg reserveIn.val reserveOut.val inAfter.val outAfter.val event := by
  subst netReported feeReported outReported
  obtain ⟨fee, _, feeLe⟩ := calcSwapFee_some input charged
  rw [Word.checkedSub_eq_some] at reduced
  have effectiveIn : effective.val = event.amountInNet.val - event.fee.val := by omega
  obtain ⟨_, payout⟩ := calcSwapOutput_some computed
  rw [effectiveIn] at payout
  exact ⟨paidIn, paidOut, input, fee, feeLe, payout, by omega⟩

variable [DecidableEq Key]

private theorem handleBuy_ok {metrics : SwapMetrics} (event : SwapExecuted Key)
    (active : 0 < (before.solReserve rent).val)
    (input : 0 < args.amountIn.val)
    (done : handleBuy transferFee accounts args (before.solReserve rent) before.tokenReserve before = .ok (after,
      metrics))
    (inGross : event.amountInGross = metrics.amountInGross) (inNet : event.amountInNet = metrics.amountInNet)
    (outGross : event.amountOutGross = metrics.amountOutGross) (outNet : event.amountOutNet = metrics.amountOutNet)
    (fee : event.fee = metrics.fee) (direction : event.buy = true) :
    Bought rent transferFee accounts args before after event ∧ after.pool = before.pool ∧ after.lp = before.lp ∧
      after.slot = before.slot ∧ after.address = before.address := by
  simp only [handleBuy, bind_ok, okOr_ok, require_ok, pure_ok, exists_const] at done
  obtain ⟨poolFee, charged, effective, reduced, out, computed, minimum, drained, paid, moved, delivered,
    sent, received, counted, same⟩ := done
  cases same
  obtain ⟨lamports, rfl, payer, pool, lamportsElsewhere⟩ := systemTransfer_ok (by simp) moved
  obtain ⟨tokens, rfl, vault, user, tokensElsewhere⟩ := transferChecked_ok (by simp) sent
  rw [Word.checkedSub_eq_some] at counted
  simp only at inGross inNet outGross outNet fee vault user counted
  rw [solReserve_val] at active
  refine ⟨⟨?_, direction, inGross, inNet, by rw [outGross]; exact minimum, ?_, payer, ⟨?_⟩, ?_, ⟨?_⟩⟩, rfl, rfl, rfl, rfl⟩
  · refine leg_of input charged reduced computed drained ?_ vault inNet fee outGross
    rw [solReserve_val, solReserve_val]
    simp only [pool]
    omega
  · rw [outNet, outGross]
    omega
  · intro other different
    exact lamportsElsewhere (.wallet other) (by simpa using different) (by simp)
  · rw [outNet]
    simp only [Chain.tokenWallets]
    omega
  · intro other different
    exact tokensElsewhere (.wallet other) (by simp) (by simpa using different)

private theorem handleSell_ok {metrics : SwapMetrics} (event : SwapExecuted Key)
    (done : handleSell rent transferFee accounts args (before.solReserve rent) before.tokenReserve before =
      .ok (after, metrics))
    (inGross : event.amountInGross = metrics.amountInGross) (inNet : event.amountInNet = metrics.amountInNet)
    (outGross : event.amountOutGross = metrics.amountOutGross) (outNet : event.amountOutNet = metrics.amountOutNet)
    (fee : event.fee = metrics.fee) (direction : event.buy = false) :
    Sold rent transferFee accounts args before after event ∧ after.pool = before.pool ∧ after.lp = before.lp ∧
      after.slot = before.slot ∧ after.address = before.address := by
  simp only [handleSell, bind_ok, okOr_ok, require_ok, pure_ok, exists_const] at done
  obtain ⟨paid, sent, net, counted, input, poolFee, charged, effective, reduced, out, computed, minimum, drained,
    _, debited, spent, credited, earned, same⟩ := done
  cases same
  obtain ⟨tokens, rfl, user, vault, elsewhere⟩ := transferChecked_ok (by simp) sent
  obtain ⟨debits, rfl, pool, unspent⟩ := subLamports_ok spent
  obtain ⟨lamports, rfl, recipient, unearned⟩ := addLamports_ok earned
  simp only [Chain.tokenReserve] at inGross inNet outGross outNet fee vault user pool recipient counted input drained computed
  rw [Word.checkedSub_eq_some] at counted
  refine ⟨⟨?_, direction, inGross, ?_, by rw [outGross]; exact minimum, by rw [outNet, outGross], user, ⟨?_⟩, ?_,
    ⟨?_⟩⟩, rfl, rfl, rfl, rfl⟩
  · refine leg_of input charged reduced computed drained ?_ ?_ inNet fee outGross
    · simp only [Chain.tokenReserve]
      omega
    · have kept := unearned.others .pool (by simp)
      rw [solReserve_val] at drained
      rw [solReserve_val, solReserve_val]
      simp only [kept]
      omega
  · rw [inNet]
    omega
  · intro other different
    exact elsewhere (.wallet other) (by simpa using different) (by simp)
  · have kept := unspent.others (.wallet accounts.solSource) (by simp)
    simp only [Chain.solWallets]
    rw [recipient, outGross, kept]
  · intro other different
    have earned := unearned.others (.wallet other) (by simpa using different)
    have spent := unspent.others (.wallet other) (by simp)
    exact earned.trans spent

theorem swap_ok (done : swap rent transferFee accounts args before = .ok (after, event)) :
    Traded rent transferFee accounts args before after event := by
  simp only [swap, bind_ok, require_ok, exists_const] at done
  obtain ⟨input, ⟨sol, token⟩, pool, recorded, done⟩ := done
  have active : 0 < (Chain.solReserve rent { before with pool }).val := sol
  split at done
  next buy =>
    obtain ⟨⟨last, metrics⟩, traded, same⟩ := bind_ok.mp done
    cases same
    obtain ⟨bought, rfl, lp, slot, address⟩ := handleBuy_ok ⟨_, _, _, _, _, _, _, _, _, _, _⟩ active input traded
      rfl rfl rfl rfl rfl buy
    exact ⟨sol, token, recorded, lp, slot, address, rfl, rfl,
      .inl ⟨bought.leg, bought.direction, bought.gross, bought.net,
      bought.minimum, bought.received, bought.payer, bought.payerOnly, bought.recipient, bought.recipientOnly⟩⟩
  next sell =>
    have direction : args.buy = false := by simpa using sell
    obtain ⟨⟨last, metrics⟩, traded, same⟩ := bind_ok.mp done
    cases same
    obtain ⟨sold, rfl, lp, slot, address⟩ := handleSell_ok ⟨_, _, _, _, _, _, _, _, _, _, _⟩ traded
      rfl rfl rfl rfl rfl direction
    exact ⟨sol, token, recorded, lp, slot, address, rfl, rfl, .inr ⟨sold.leg, sold.direction, sold.gross, sold.net,
      sold.minimum, sold.received, sold.payer, sold.payerOnly, sold.recipient, sold.recipientOnly⟩⟩

end DeepPool
