import DeepPool.Anchor
import DeepPool.Proofs.Quote

/-! The copies are reloaded where it matters: with them the handlers do what they do on the live
accounts. What the events report is then read off what each handler did. -/

namespace DeepPool
open Library

namespace Anchor
variable {Key : Type}

theorem Context.invoke_bind {Result : Type} (ctx : Context Key) (call : Chain Key → Except ProgramError (Chain Key))
    (next : Context Key → Except ProgramError Result) :
    (ctx.invoke call >>= next) = call ctx.live >>= fun live => next { ctx with live } := by
  unfold Context.invoke
  rw [bind_assoc]
  rfl

variable [DecidableEq Key]

/-! Both sides come down to the same sequence of debits, credits and checks. -/

theorem createPool_eq (rent : U64) (transferFee : TransferFee) (mint : MintAccount) (accounts : CreatePoolAccounts Key)
    (args : CreatePoolArgs) (ground : Ground Key) :
    createPool rent transferFee mint accounts args ground =
      DeepPool.createPool rent transferFee mint accounts args ground := by
  simp only [createPool, DeepPool.createPool, Context.invoke_bind, Context.load, Context.reloadTokenVault, Context.exit]
  simp only [Chain.transferChecked, Chain.systemTransfer, Chain.mintTo, bind_assoc, pure_bind]
  rfl

theorem swap_eq (rent : U64) (transferFee : TransferFee) (accounts : SwapAccounts Key) (args : SwapArgs)
    (chain : Chain Key) :
    swap rent transferFee accounts args chain = DeepPool.swap rent transferFee accounts args chain := by
  simp only [swap, handleBuy, handleSell, DeepPool.swap, DeepPool.handleBuy, DeepPool.handleSell, Context.invoke_bind,
    Context.load, Context.reloadTokenVault, Context.reloadTokenAccount, Context.exit]
  simp only [Chain.transferChecked, Chain.systemTransfer, Chain.subLamports, Chain.addLamports, bind_assoc, pure_bind]
  by_cases buy : args.buy = true
  · simp only [if_pos buy]
    rfl
  · simp only [if_neg buy]
    rfl

theorem addLiquidity_eq (rent : U64) (transferFee : TransferFee) (provider : Key) (args : AddLiquidityArgs)
    (chain : Chain Key) :
    addLiquidity rent transferFee provider args chain =
      DeepPool.addLiquidity rent transferFee provider args chain := by
  simp only [addLiquidity, DeepPool.addLiquidity, Context.invoke_bind, Context.load, Context.reloadTokenVault,
    Context.reloadLpMint, Context.exit]
  simp only [Chain.transferChecked, Chain.systemTransfer, Chain.mintTo, bind_assoc, pure_bind]
  rfl

theorem removeLiquidity_eq (rent : U64) (transferFee : TransferFee) (provider : Key) (args : RemoveLiquidityArgs)
    (chain : Chain Key) :
    removeLiquidity rent transferFee provider args chain =
      DeepPool.removeLiquidity rent transferFee provider args chain := by
  simp only [removeLiquidity, DeepPool.removeLiquidity, Context.invoke_bind, Context.load, Context.reloadTokenVault,
    Context.reloadLpMint, Context.reloadTokenAccount, Context.exit]
  simp only [Chain.transferChecked, Chain.burn, Chain.subLamports, Chain.addLamports, bind_assoc, pure_bind]
  rfl

end Anchor

variable {Key : Type} {rent : U64} {transferFee : TransferFee}

/-- The reserves of the event are the ones that the instruction leaves, and what it moved accounts for them. -/
structure PoolCreated.Truthful (rent : U64) (ground : Ground Key) (born : Chain Key) (event : PoolCreated Key) :
    Prop where
  sol : event.solReserveAfter = born.solReserve rent
  token : event.tokenReserveAfter = born.tokenReserve
  supply : event.lpSupplyAfter = born.lp.supply
  solFlow : event.solReserveAfter.val = ((ground.lamports .pool).val - rent.val) + event.solInNet.val
  tokenFlow : event.tokenReserveAfter.val = event.tokensInNet.val
  supplyFlow : event.lpSupplyAfter.val = event.lpToCreator.val + event.lpLocked.val
  vault : (born.tokens .pool).val = event.tokensInNet.val

structure SwapExecuted.Truthful (rent : U64) (accounts : SwapAccounts Key) (args : SwapArgs) (before after : Chain Key)
    (event : SwapExecuted Key) : Prop where
  direction : event.buy = args.buy
  sol : event.solReserveAfter = after.solReserve rent
  token : event.tokenReserveAfter = after.tokenReserve
  bought : args.buy = true →
    event.solReserveAfter.val = (before.solReserve rent).val + event.amountInNet.val ∧
      event.tokenReserveAfter.val + event.amountOutGross.val = before.tokenReserve.val ∧
      (after.tokens (.wallet accounts.user)).val =
        (before.tokens (.wallet accounts.user)).val + event.amountOutNet.val
  sold : args.buy = false →
    event.tokenReserveAfter.val = before.tokenReserve.val + event.amountInNet.val ∧
      event.solReserveAfter.val + event.amountOutGross.val = (before.solReserve rent).val ∧
      (after.tokens .pool).val = (before.tokens .pool).val + event.amountInNet.val

structure LiquidityAdded.Truthful (rent : U64) (before after : Chain Key) (event : LiquidityAdded Key) : Prop where
  sol : event.solReserveAfter = after.solReserve rent
  token : event.tokenReserveAfter = after.tokenReserve
  supply : event.lpSupplyAfter = after.lp.supply
  solFlow : event.solReserveAfter.val = (before.solReserve rent).val + event.solInNet.val
  tokenFlow : event.tokenReserveAfter.val = before.tokenReserve.val + event.tokensInNet.val
  supplyFlow : event.lpSupplyAfter.val = before.lp.supply.val + event.lpToProvider.val + event.lpLocked.val
  vault : (after.tokens .pool).val = (before.tokens .pool).val + event.tokensInNet.val

structure LiquidityRemoved.Truthful (rent : U64) (provider : Key) (before after : Chain Key)
    (event : LiquidityRemoved Key) : Prop where
  sol : event.solReserveAfter = after.solReserve rent
  token : event.tokenReserveAfter = after.tokenReserve
  supply : event.lpSupplyAfter = after.lp.supply
  solFlow : event.solReserveAfter.val + event.solOutGross.val = (before.solReserve rent).val
  tokenFlow : event.tokenReserveAfter.val + event.tokensOutGross.val = before.tokenReserve.val
  supplyFlow : event.lpSupplyAfter.val + event.lpBurned.val = before.lp.supply.val
  provider : (after.tokens (.wallet provider)).val = (before.tokens (.wallet provider)).val + event.tokensOutNet.val

variable [DecidableEq Key]

theorem createPool_truthful {mint : MintAccount} {accounts : CreatePoolAccounts Key} {args : CreatePoolArgs}
    {ground : Ground Key} {born : Chain Key} {event : PoolCreated Key}
    (done : createPool rent transferFee mint accounts args ground = .ok (born, event)) :
    event.Truthful rent ground born := by
  have created := createPool_ok done
  have lamports := created.sol
  constructor
  case sol => exact created.solReported
  case token => exact created.tokenReported
  case supply => exact created.supplyReported
  case solFlow =>
    rw [created.solReported, solReserve_val, created.solIn.2]
    omega
  case tokenFlow =>
    rw [created.tokenReported]
    exact created.token
  case supplyFlow =>
    rw [created.supplyReported]
    exact created.supply.symm
  case vault => exact created.token

theorem swap_truthful {accounts : SwapAccounts Key} {args : SwapArgs} {before after : Chain Key}
    {event : SwapExecuted Key} (done : swap rent transferFee accounts args before = .ok (after, event)) :
    event.Truthful rent accounts args before after := by
  have traded := swap_ok done
  obtain ⟨_, direction, _⟩ := swap_priced done
  constructor
  case direction => exact direction
  case sol => exact traded.solReported
  case token => exact traded.tokenReported
  case bought =>
    intro buy
    rw [traded.solReported, traded.tokenReported]
    rcases traded.leg with bought | sold
    · exact ⟨bought.leg.paidIn, bought.leg.paidOut, bought.recipient⟩
    · exact absurd (sold.direction.symm.trans (direction.trans buy)) (by decide)
  case sold =>
    intro sell
    rw [traded.solReported, traded.tokenReported]
    rcases traded.leg with bought | sold
    · exact absurd (bought.direction.symm.trans (direction.trans sell)) (by decide)
    · exact ⟨sold.leg.paidIn, sold.leg.paidOut, sold.leg.paidIn⟩

theorem addLiquidity_truthful {provider : Key} {args : AddLiquidityArgs} {before after : Chain Key}
    {event : LiquidityAdded Key} (done : addLiquidity rent transferFee provider args before = .ok (after, event)) :
    event.Truthful rent before after := by
  have deposited := addLiquidity_ok done
  have positive := deposited.sol
  have paid := deposited.solPaid
  rw [solReserve_val] at positive
  constructor
  case sol => exact deposited.solReported
  case token => exact deposited.tokenReported
  case supply => exact deposited.supplyReported
  case solFlow =>
    rw [deposited.solReported, solReserve_val, solReserve_val]
    omega
  case tokenFlow =>
    rw [deposited.tokenReported]
    exact deposited.tokensPaid
  case supplyFlow =>
    rw [deposited.supplyReported]
    exact deposited.minted
  case vault => exact deposited.tokensPaid

/-- The provider's balance gains what the event shows as received. -/
theorem removeLiquidity_receives {provider : Key} {args : RemoveLiquidityArgs} {before after : Chain Key}
    {event : LiquidityRemoved Key}
    (done : removeLiquidity rent transferFee provider args before = .ok (after, event)) :
    (after.tokens (.wallet provider)).val = (before.tokens (.wallet provider)).val + event.tokensOutNet.val := by
  simp only [removeLiquidity, bind_ok, okOr_ok, require_ok, pure_ok, exists_const] at done
  obtain ⟨_, _, _, _, solOut, _, tokensOut, _, _, _, _, _, _, _, _, burned, retired, delivered, sent, received,
    counted, spent, debited, earned, credited, same⟩ := done
  cases same
  obtain ⟨_, rfl, _⟩ := burn_ok retired
  obtain ⟨tokens, rfl, _⟩ := transferChecked_ok (by simp) sent
  obtain ⟨_, rfl, _⟩ := subLamports_ok debited
  obtain ⟨_, rfl, _⟩ := addLamports_ok credited
  rw [Word.checkedSub_eq_some] at counted
  simp only at counted ⊢
  omega

theorem removeLiquidity_truthful {provider : Key} {args : RemoveLiquidityArgs} {before after : Chain Key}
    {event : LiquidityRemoved Key}
    (done : removeLiquidity rent transferFee provider args before = .ok (after, event)) :
    event.Truthful rent provider before after := by
  have withdrawn := removeLiquidity_ok done
  have positive := withdrawn.keepsSol
  have paid := withdrawn.solPaid
  rw [solReserve_val] at positive
  constructor
  case sol => exact withdrawn.solReported
  case token => exact withdrawn.tokenReported
  case supply => exact withdrawn.supplyReported
  case solFlow =>
    rw [withdrawn.solReported, solReserve_val, solReserve_val]
    omega
  case tokenFlow =>
    rw [withdrawn.tokenReported]
    exact withdrawn.tokensPaid
  case supplyFlow =>
    rw [withdrawn.supplyReported]
    exact withdrawn.burned
  case provider => exact removeLiquidity_receives done

/-- Whatever Anchor's copies held in between, every event of a successful instruction shows the
state that it left, and the flows that lead there. -/
theorem events_are_truthful :
    (∀ (rent : U64) (transferFee : TransferFee) (mint : MintAccount) (accounts : CreatePoolAccounts Key)
      (args : CreatePoolArgs) (ground : Ground Key) (born : Chain Key) (event : PoolCreated Key),
      Anchor.createPool rent transferFee mint accounts args ground = .ok (born, event) →
      event.Truthful rent ground born) ∧
    (∀ (rent : U64) (transferFee : TransferFee) (accounts : SwapAccounts Key) (args : SwapArgs)
      (before after : Chain Key) (event : SwapExecuted Key),
      Anchor.swap rent transferFee accounts args before = .ok (after, event) →
      event.Truthful rent accounts args before after) ∧
    (∀ (rent : U64) (transferFee : TransferFee) (provider : Key) (args : AddLiquidityArgs)
      (before after : Chain Key) (event : LiquidityAdded Key),
      Anchor.addLiquidity rent transferFee provider args before = .ok (after, event) →
      event.Truthful rent before after) ∧
    ∀ (rent : U64) (transferFee : TransferFee) (provider : Key) (args : RemoveLiquidityArgs)
      (before after : Chain Key) (event : LiquidityRemoved Key),
      Anchor.removeLiquidity rent transferFee provider args before = .ok (after, event) →
      event.Truthful rent provider before after := by
  refine ⟨?_, ?_, ?_, ?_⟩
  · intro rent transferFee mint accounts args ground born event done
    rw [Anchor.createPool_eq] at done
    exact createPool_truthful done
  · intro rent transferFee accounts args before after event done
    rw [Anchor.swap_eq] at done
    exact swap_truthful done
  · intro rent transferFee provider args before after event done
    rw [Anchor.addLiquidity_eq] at done
    exact addLiquidity_truthful done
  · intro rent transferFee provider args before after event done
    rw [Anchor.removeLiquidity_eq] at done
    exact removeLiquidity_truthful done

theorem events_are_truthful_sample : ∃ (born bought sold added removed : Chain ℕ) (created : PoolCreated ℕ)
    (buy sell : SwapExecuted ℕ) (add : LiquidityAdded ℕ) (remove : LiquidityRemoved ℕ),
    sampleCreation (.rate 100 5000) ⟨5005000, 5000000000⟩ = .ok (born, created) ∧
      created.tokenReserveAfter.val = created.tokensInNet.val ∧ buy.Truthful 2000000 ⟨7, 7⟩ ⟨1000000, 0, true⟩ born bought ∧
      sell.Truthful 2000000 ⟨7, 7⟩ ⟨1000000, 0, false⟩ bought sold ∧ add.Truthful 2000000 sold added ∧
      remove.Truthful 2000000 7 added removed := by
  have found : accepts (sampleCreation (.rate 100 5000) ⟨5005000, 5000000000⟩) (fun opened =>
      opened.2.lpToCreator.val = 126490307 ∧
      accepts (swap 2000000 (.rate 100 5000) ⟨7, 7⟩ ⟨1000000, 0, true⟩ opened.1) (fun first =>
        0 < first.2.fee.val ∧
        accepts (swap 2000000 (.rate 100 5000) ⟨7, 7⟩ ⟨1000000, 0, false⟩ first.1) (fun second =>
          0 < second.2.fee.val ∧
          accepts (addLiquidity 2000000 (.rate 100 5000) 7 ⟨1000000, 2000000000, 0⟩ second.1) (fun third =>
            0 < third.2.lpLocked.val ∧
            accepts (removeLiquidity 2000000 (.rate 100 5000) 7 ⟨1000, 0, 0⟩ third.1) (fun _ => True))))) = true := by
    decide +kernel
  obtain ⟨⟨born, created⟩, creates, facts⟩ := accepts_iff.mp found
  obtain ⟨_, buys⟩ := of_decide_eq_true facts
  obtain ⟨⟨bought, buy⟩, trades, facts⟩ := accepts_iff.mp buys
  obtain ⟨_, sells⟩ := of_decide_eq_true facts
  obtain ⟨⟨sold, sell⟩, returns, facts⟩ := accepts_iff.mp sells
  obtain ⟨_, adds⟩ := of_decide_eq_true facts
  obtain ⟨⟨added, add⟩, deposits, facts⟩ := accepts_iff.mp adds
  obtain ⟨_, removes⟩ := of_decide_eq_true facts
  obtain ⟨⟨removed, remove⟩, withdraws, _⟩ := accepts_iff.mp removes
  rw [← Anchor.swap_eq] at trades returns
  rw [← Anchor.addLiquidity_eq] at deposits
  rw [← Anchor.removeLiquidity_eq] at withdraws
  obtain ⟨creations, swaps, additions, removals⟩ := @events_are_truthful ℕ _
  have created_ := creations _ _ _ _ _ _ _ _ ((Anchor.createPool_eq _ _ _ _ _ _).trans creates)
  exact ⟨born, bought, sold, added, removed, created, buy, sell, add, remove, creates, created_.tokenFlow,
    swaps _ _ _ _ _ _ _ trades, swaps _ _ _ _ _ _ _ returns, additions _ _ _ _ _ _ _ deposits,
    removals _ _ _ _ _ _ _ withdraws⟩

end DeepPool
