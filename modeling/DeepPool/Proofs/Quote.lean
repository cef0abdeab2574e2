import DeepPool.Jupiter
import DeepPool.Proofs.Lookback
import DeepPool.Proofs.System

/-! The router's quote and the program's swap. Both reduce to the same priced crossing
of the curve, so they succeed together and agree on the output and the fee. -/

namespace DeepPool
open Library

/-- What the pool computes for an input before it moves anything. -/
structure Priced (amount reserveIn reserveOut fee out : U64) : Prop where
  charged : calcSwapFee amount = some fee
  computed : ∃ effectiveIn, amount.checkedSub fee = some effectiveIn ∧
    calcSwapOutput effectiveIn reserveIn reserveOut = some out
  solvent : out.val < reserveOut.val

theorem Priced.unique {amount reserveIn reserveOut fee fee' out out' : U64}
    (first : Priced amount reserveIn reserveOut fee out) (second : Priced amount reserveIn reserveOut fee' out') :
    fee = fee' ∧ out = out' := by
  obtain rfl := Option.some.inj (first.charged.symm.trans second.charged)
  obtain ⟨effectiveIn, reduced, computed⟩ := first.computed
  obtain ⟨_, again, recomputed⟩ := second.computed
  obtain rfl := Option.some.inj (reduced.symm.trans again)
  exact ⟨rfl, Option.some.inj (computed.symm.trans recomputed)⟩

section Swap
variable {Key : Type} {rent : U64} {transferFee : TransferFee} {accounts : SwapAccounts Key}
  {args : SwapArgs} {before after : Chain Key} {event : SwapExecuted Key} {metrics : SwapMetrics}
  {solReserve tokenReserve fee out : U64}

/-- The payer has the input, and no balance overflows. -/
def Funded (accounts : SwapAccounts Key) (args : SwapArgs) (chain : Chain Key) : Prop :=
  if args.buy then
    args.amountIn.val ≤ (chain.lamports (.wallet accounts.solSource)).val ∧
      (chain.lamports .pool).val + args.amountIn.val < 2 ^ 64 ∧
      (chain.tokens (.wallet accounts.user)).val + (chain.tokens .pool).val < 2 ^ 64
  else
    args.amountIn.val ≤ (chain.tokens (.wallet accounts.user)).val ∧
      (chain.tokens .pool).val + args.amountIn.val < 2 ^ 64 ∧
      (chain.lamports (.wallet accounts.solSource)).val + (chain.lamports .pool).val < 2 ^ 64

instance (accounts : SwapAccounts Key) (args : SwapArgs) (chain : Chain Key) :
    Decidable (Funded accounts args chain) := inferInstanceAs (Decidable (ite _ _ _))

/-- What the swap pays its recipient, as a balance. -/
def Chain.recipient (accounts : SwapAccounts Key) (buy : Bool) (chain : Chain Key) : U64 :=
  if buy then chain.tokens (.wallet accounts.user) else chain.lamports (.wallet accounts.solSource)

/-- The crossing that the direction of the swap prices. -/
def Chain.Prices (rent : U64) (transferFee : TransferFee) (args : SwapArgs) (chain : Chain Key) (fee out : U64) : Prop :=
  if args.buy then Priced args.amountIn (chain.solReserve rent) chain.tokenReserve fee out
  else 0 < (transferFee.net args.amountIn).val ∧
    Priced (transferFee.net args.amountIn) chain.tokenReserve (chain.solReserve rent) fee out

theorem Chain.Prices.unique {fee' out' : U64} (first : before.Prices rent transferFee args fee out)
    (second : before.Prices rent transferFee args fee' out') : fee = fee' ∧ out = out' := by
  unfold Chain.Prices at first second
  split at first
  next buy =>
    rw [if_pos buy] at second
    exact Priced.unique first second
  next sell =>
    rw [if_neg sell] at second
    exact first.2.unique second.2

variable [DecidableEq Key]

private theorem handleBuy_priced
    (done : handleBuy transferFee accounts args solReserve tokenReserve before = .ok (after, metrics)) :
    Priced args.amountIn solReserve tokenReserve metrics.fee metrics.amountOutGross := by
  simp only [handleBuy, bind_ok, okOr_ok, require_ok, pure_ok, exists_const] at done
  obtain ⟨poolFee, charged, effective, reduced, out, computed, _, solvent, _, _, _, _, _, _, same⟩ := done
  cases same
  exact ⟨charged, ⟨effective, reduced, computed⟩, solvent⟩

private theorem handleSell_priced
    (done : handleSell rent transferFee accounts args solReserve tokenReserve before = .ok (after, metrics)) :
    0 < (transferFee.net args.amountIn).val ∧
      Priced (transferFee.net args.amountIn) tokenReserve solReserve metrics.fee metrics.amountOutGross := by
  simp only [handleSell, bind_ok, okOr_ok, require_ok, pure_ok, exists_const] at done
  obtain ⟨paid, sent, net, counted, input, poolFee, charged, effective, reduced, out, computed, _, solvent,
    _, _, _, _, _, same⟩ := done
  cases same
  obtain ⟨tokens, rfl, _, vault, _⟩ := transferChecked_ok (by simp) sent
  rw [Word.checkedSub_eq_some] at counted
  have arrived : net = transferFee.net args.amountIn := by
    apply Fin.ext
    simp only [Chain.tokenReserve] at counted
    omega
  subst arrived
  exact ⟨input, charged, ⟨effective, reduced, computed⟩, solvent⟩

theorem swap_priced (done : swap rent transferFee accounts args before = .ok (after, event)) :
    0 < args.amountIn.val ∧ event.buy = args.buy ∧
      before.Prices rent transferFee args event.fee event.amountOutGross := by
  simp only [swap, bind_ok, require_ok, exists_const] at done
  obtain ⟨input, _, pool, _, done⟩ := done
  unfold Chain.Prices
  split at done
  next buy =>
    obtain ⟨⟨last, metrics⟩, traded, same⟩ := bind_ok.mp done
    cases same
    rw [if_pos buy]
    exact ⟨input, rfl, handleBuy_priced traded⟩
  next sell =>
    obtain ⟨⟨last, metrics⟩, traded, same⟩ := bind_ok.mp done
    cases same
    rw [if_neg sell]
    exact ⟨input, rfl, handleSell_priced traded⟩

private theorem handleBuy_isOk (buy : args.buy = true) (funded : Funded accounts args before)
    (vault : tokenReserve = before.tokens .pool) (minimum : args.minimumOut.val ≤ out.val)
    (priced : Priced args.amountIn solReserve tokenReserve fee out) :
    ∃ result, handleBuy transferFee accounts args solReserve tokenReserve before = .ok result := by
  simp only [Funded, buy, if_true] at funded
  obtain ⟨funds, grows, receives⟩ := funded
  obtain ⟨charged, ⟨effective, reduced, computed⟩, solvent⟩ := priced
  have net := transferFee.net_le out
  have stocked : out.val ≤ (before.tokens .pool).val := vault ▸ le_of_lt solvent
  obtain ⟨paid, moved⟩ := systemTransfer_isOk (by simp) funds grows
  obtain ⟨lamports, rfl, _⟩ := systemTransfer_ok (by simp) moved
  have room : (before.tokens (.wallet accounts.user)).val + (transferFee.net out).val < 2 ^ 64 := by omega
  obtain ⟨delivered, sent⟩ : ∃ delivered, Chain.transferChecked transferFee { before with lamports } .pool
    (.wallet accounts.user) out = .ok delivered := transferChecked_isOk (by simp) stocked room
  obtain ⟨tokens, rfl, _, user, _⟩ := transferChecked_ok (by simp) sent
  have counted : (tokens (.wallet accounts.user)).checkedSub (before.tokens (.wallet accounts.user)) =
      some (transferFee.net out) := by
    rw [Word.checkedSub_eq_some, user]
    exact Nat.add_comm _ _
  simp only [handleBuy, bind_ok, okOr_ok, require_ok, pure_ok, exists_const]
  exact ⟨_, fee, charged, effective, reduced, out, computed, minimum, solvent, _, moved, _, sent, _, counted, rfl⟩

private theorem handleSell_isOk (sell : ¬ args.buy = true) (funded : Funded accounts args before)
    (reserve : solReserve = before.solReserve rent) (minimum : args.minimumOut.val ≤ out.val)
    (input : 0 < (transferFee.net args.amountIn).val)
    (priced : Priced (transferFee.net args.amountIn) tokenReserve solReserve fee out) :
    ∃ result, handleSell rent transferFee accounts args solReserve tokenReserve before = .ok result := by
  simp only [Funded, sell] at funded
  obtain ⟨funds, grows, receives⟩ := funded
  obtain ⟨charged, ⟨effective, reduced, computed⟩, solvent⟩ := priced
  have net := transferFee.net_le args.amountIn
  have stocked : out.val < (before.lamports .pool).val - rent.val := by
    rw [← solReserve_val, ← reserve]
    exact solvent
  have room : (before.tokens .pool).val + (transferFee.net args.amountIn).val < 2 ^ 64 := by omega
  obtain ⟨paid, sent⟩ : ∃ paid, before.transferChecked transferFee
      (.wallet accounts.user) .pool args.amountIn = .ok paid :=
    transferChecked_isOk (by simp) funds room
  obtain ⟨tokens, rfl, _, vault, _⟩ := transferChecked_ok (by simp) sent
  have counted : (tokens .pool).checkedSub (before.tokens .pool) = some (transferFee.net args.amountIn) := by
    rw [Word.checkedSub_eq_some, vault]
    exact Nat.add_comm _ _
  have keeps : rent.val ≤ ((before.lamports .pool).saturatingSub out).val := by
    rw [Word.saturatingSub_val]
    omega
  obtain ⟨debited, spent⟩ : ∃ debited, Chain.subLamports { before with tokens } .pool out = .ok debited :=
    subLamports_isOk (by simp only; omega)
  obtain ⟨debits, rfl, _, unspent⟩ := subLamports_ok spent
  have waits := unspent.others (.wallet accounts.solSource) (by simp)
  obtain ⟨credited, earned⟩ : ∃ credited, Chain.addLamports { before with tokens, lamports := debits }
      (.wallet accounts.solSource) out = .ok credited := by
    apply addLamports_isOk
    simp only [waits]
    omega
  simp only [handleSell, bind_ok, okOr_ok, require_ok, pure_ok, exists_const]
  exact ⟨_, _, sent, _, counted, input, fee, charged, effective, reduced, out, computed, minimum, solvent, keeps, _,
    spent, _, earned, rfl⟩

/-- A priced and funded trade goes through. -/
theorem swap_isOk (inside : before.pool.obsHead.val < twapRingSize) (sol : 0 < (before.solReserve rent).val)
    (token : 0 < before.tokenReserve.val) (input : 0 < args.amountIn.val) (funded : Funded accounts args before)
    (minimum : args.minimumOut.val ≤ out.val) (prices : before.Prices rent transferFee args fee out) :
    ∃ after event, swap rent transferFee accounts args before = .ok (after, event) := by
  obtain ⟨pool, recorded⟩ := Pool.recordObservation_isOk before.slot inside sol token
  unfold Chain.Prices at prices
  by_cases buy : args.buy = true
  · rw [if_pos buy] at prices
    obtain ⟨⟨last, metrics⟩, traded⟩ : ∃ result, handleBuy transferFee accounts args (before.solReserve rent)
        before.tokenReserve { before with pool } = .ok result := handleBuy_isOk buy funded rfl minimum prices
    simp only [swap, if_pos buy, bind_ok, require_ok, exists_const]
    exact ⟨_, _, input, ⟨sol, token⟩, pool, recorded, _, traded, rfl⟩
  · rw [if_neg buy] at prices
    obtain ⟨⟨last, metrics⟩, traded⟩ : ∃ result, handleSell rent transferFee accounts args (before.solReserve rent)
        before.tokenReserve { before with pool } = .ok result :=
      handleSell_isOk buy funded rfl minimum prices.1 prices.2
    simp only [swap, if_neg buy, bind_ok, require_ok, exists_const]
    exact ⟨_, _, input, ⟨sol, token⟩, pool, recorded, _, traded, rfl⟩

/-- What arrives at the recipient of the gross output. -/
def payout (transferFee : TransferFee) (buy : Bool) (out : U64) : U64 := if buy then transferFee.net out else out

theorem swap_pays (done : swap rent transferFee accounts args before = .ok (after, event)) :
    (after.recipient accounts args.buy).val =
      (before.recipient accounts args.buy).val + (payout transferFee args.buy event.amountOutGross).val := by
  obtain ⟨_, direction, _⟩ := swap_priced done
  rcases (swap_ok done).leg with bought | sold
  · rw [← direction, bought.direction]
    simp only [Chain.recipient, payout, if_true]
    rw [← bought.received]
    exact bought.recipient
  · rw [← direction, sold.direction]
    exact sold.recipient

/-- A funded trade succeeds exactly when it is priced, and pays what the price says. -/
theorem swap_outcome {outAmount : U64} (inside : before.pool.obsHead.val < twapRingSize)
    (funded : Funded accounts args before) (unbounded : args.minimumOut.val = 0) :
    (∃ after event, swap rent transferFee accounts args before = .ok (after, event) ∧
      (after.recipient accounts args.buy).val = (before.recipient accounts args.buy).val + outAmount.val ∧
      event.fee = fee) ↔
      0 < (before.solReserve rent).val ∧ 0 < before.tokenReserve.val ∧ 0 < args.amountIn.val ∧
        ∃ out, before.Prices rent transferFee args fee out ∧ payout transferFee args.buy out = outAmount := by
  constructor
  · rintro ⟨after, event, done, rises, rfl⟩
    have traded := swap_ok done
    obtain ⟨input, _, prices⟩ := swap_priced done
    refine ⟨traded.sol, traded.token, input, _, prices, ?_⟩
    apply Fin.ext
    have paid := swap_pays done
    omega
  · rintro ⟨sol, token, input, out, prices, rfl⟩
    obtain ⟨after, event, done⟩ := swap_isOk inside sol token input funded (by omega) prices
    obtain ⟨_, _, charged⟩ := swap_priced done
    obtain ⟨rfl, rfl⟩ := charged.unique prices
    exact ⟨after, event, done, swap_pays done, rfl⟩

end Swap

namespace Jupiter
variable {Key Mint : Type} {wsolMint : Mint} {amm : DeepPoolAmm Mint} {params : QuoteParams Mint}
  {bps : Fin 10001} {maximum amount outAmount fee : U64}

/-- What a fee in basis points leaves of an amount. It is rounded up, and capped. -/
def skimmed (rate cap amount : ℕ) : ℕ := amount - min ((amount * rate + 9999) / 10000) cap

theorem DeepPoolAmm.applyTransferFee_val (amm : DeepPoolAmm Mint) (amount : U64) :
    (amm.applyTransferFee amount).val = skimmed amm.transferFeeBps.val amm.transferFeeMaximum.val amount.val := by
  have bound := amount.isLt
  have rate := amm.transferFeeBps.isLt
  have cap := amm.transferFeeMaximum.isLt
  unfold DeepPoolAmm.applyTransferFee skimmed
  split
  next free =>
    have nothing : amount.val * amm.transferFeeBps.val = 0 := by
      rcases free with unrated | zero
      · rw [unrated]
        exact Nat.mul_zero _
      · rw [zero]
        exact Nat.zero_mul _
    rw [nothing]
    omega
  next charged =>
    have small : amount.val * amm.transferFeeBps.val < 2 ^ 64 * 2 ^ 16 := Nat.mul_lt_mul'' bound rate
    have product : ((widen amount).saturatingMul (Word.widen amm.transferFeeBps (by decide))).val =
        amount.val * amm.transferFeeBps.val := by
      rw [Word.saturatingMul_val, Word.widen_val, widen_val]
      rw [Word.widen_val, widen_val]
      omega
    have raised : (((widen amount).saturatingMul (Word.widen amm.transferFeeBps (by decide))).saturatingAdd 9999).val =
        amount.val * amm.transferFeeBps.val + 9999 := by
      have term : (9999 : U128).val = 9999 := rfl
      rw [Word.saturatingAdd_val, product, term]
      rw [product, term]
      omega
    have quotient : (((widen amount).saturatingMul (Word.widen amm.transferFeeBps (by decide))).saturatingAdd 9999 /
        10000).val = (amount.val * amm.transferFeeBps.val + 9999) / 10000 := by
      have divisor : (10000 : U128).val = 10000 := rfl
      rw [Fin.div_val, raised, divisor]
    simp only [Word.saturatingSub_val, Word.min_val, Word.tryNarrow, quotient]
    -- A rate above the whole can leave the width of an amount, and is then cut off by the cap.
    by_cases fits : (amount.val * amm.transferFeeBps.val + 9999) / 10000 < 2 ^ 64
    · rw [Word.ofNat?_getD fits]
    · have wide : (Word.ofNat? ((amount.val * amm.transferFeeBps.val + 9999) / 10000) : Option U64) = none :=
        dif_neg fits
      have greatest : (Word.greatest : U64).val = 2 ^ 64 - 1 := rfl
      rw [wide, Option.getD_none, greatest]
      omega

/-- The snapshot's fee is the token program's. -/
theorem DeepPoolAmm.applyTransferFee_eq (rate : amm.transferFeeBps.val = bps.val)
    (cap : amm.transferFeeMaximum = maximum) (amount : U64) :
    amm.applyTransferFee amount = (TransferFee.rate bps maximum).net amount := by
  apply Fin.ext
  rw [DeepPoolAmm.applyTransferFee_val, rate, cap]
  rfl

theorem context_ok {α : Type} {value : Option α} {text : String} {result : α} :
    (DeepPoolAmm.context value text : Except (QuoteError Mint) α) = .ok result ↔ value = some result := by
  cases value with
  | none => simp [DeepPoolAmm.context]
  | some found => simp [DeepPoolAmm.context]

theorem refuse_ok {condition : Prop} [Decidable condition] {text : String} {done : Unit} :
    (DeepPoolAmm.refuse condition text : Except (QuoteError Mint) Unit) = .ok done ↔ ¬ condition := by
  unfold DeepPoolAmm.refuse
  split
  next holds =>
    constructor
    · intro impossible
      cases impossible
    · intro fails
      exact absurd holds fails
  next fails => exact ⟨fun _ => fails, fun _ => rfl⟩

/-- The snapshot shows the pool as it is, and the transfer fee that is active. -/
structure DeepPoolAmm.Shows (amm : DeepPoolAmm Mint) (rent : U64) (bps : Fin 10001) (maximum : U64)
    (chain : Chain Key) : Prop where
  sol : amm.solReserve = chain.solReserve rent
  token : amm.tokenReserve = chain.tokenReserve
  rate : amm.transferFeeBps.val = bps.val
  cap : amm.transferFeeMaximum = maximum

theorem nonzero {word : U64} : ¬ word = 0 ↔ 0 < word.val := by
  rw [Fin.ext_iff, Nat.pos_iff_ne_zero]
  rfl

theorem quoteBuy_ok {feeMint : Mint} {inAmount : U64} :
    amm.quoteBuy wsolMint amount = .ok (inAmount, outAmount, fee, feeMint) ↔
      (inAmount = amount ∧ feeMint = wsolMint) ∧
        ∃ out, Priced amount amm.solReserve amm.tokenReserve fee out ∧ amm.applyTransferFee out = outAmount := by
  simp only [DeepPoolAmm.quoteBuy, bind_ok, context_ok, refuse_ok, exists_const]
  constructor
  · rintro ⟨poolFee, charged, effective, reduced, out, computed, solvent, same⟩
    cases same
    exact ⟨⟨rfl, rfl⟩, out, ⟨charged, ⟨effective, reduced, computed⟩, not_le.mp solvent⟩, rfl⟩
  · rintro ⟨⟨rfl, rfl⟩, out, ⟨charged, ⟨effective, reduced, computed⟩, solvent⟩, rfl⟩
    exact ⟨fee, charged, effective, reduced, out, computed, not_le.mpr solvent, rfl⟩

theorem quoteSell_ok {feeMint : Mint} {inAmount : U64} :
    amm.quoteSell amount = .ok (inAmount, outAmount, fee, feeMint) ↔
      (inAmount = amount ∧ feeMint = amm.tokenMint) ∧ 0 < (amm.applyTransferFee amount).val ∧
        Priced (amm.applyTransferFee amount) amm.tokenReserve amm.solReserve fee outAmount := by
  simp only [DeepPoolAmm.quoteSell, bind_ok, context_ok, refuse_ok, nonzero, exists_const]
  constructor
  · rintro ⟨input, poolFee, charged, effective, reduced, out, computed, solvent, same⟩
    cases same
    exact ⟨⟨rfl, rfl⟩, input, charged, ⟨effective, reduced, computed⟩, not_le.mp solvent⟩
  · rintro ⟨⟨rfl, rfl⟩, input, charged, ⟨effective, reduced, computed⟩, solvent⟩
    exact ⟨input, fee, charged, effective, reduced, outAmount, computed, not_le.mpr solvent, rfl⟩

variable [DecidableEq Mint]

/-- The router asks for the trade that the arguments describe, at any price. -/
structure DeepPoolAmm.Asks (wsolMint : Mint) (amm : DeepPoolAmm Mint) (params : QuoteParams Mint) (args : SwapArgs) :
    Prop where
  mode : params.swapMode = .exactIn
  pair : amm.direction wsolMint params = .ok args.buy
  amount : params.amount = args.amountIn
  unbounded : args.minimumOut.val = 0

/-- A quote exists exactly when the trade is priced, and shows what the price says. -/
theorem quote_priced {rent : U64} {chain : Chain Key} {args : SwapArgs} (shows : amm.Shows rent bps maximum chain)
    (asks : amm.Asks wsolMint params args) :
    (∃ quote, amm.quote wsolMint params = .ok quote ∧ quote.outAmount = outAmount ∧ quote.feeAmount = fee) ↔
      0 < (chain.solReserve rent).val ∧ 0 < chain.tokenReserve.val ∧ 0 < args.amountIn.val ∧
        ∃ out, chain.Prices rent (.rate bps maximum) args fee out ∧
          payout (.rate bps maximum) args.buy out = outAmount := by
  have net := amm.applyTransferFee_eq shows.rate shows.cap
  simp only [DeepPoolAmm.quote, bind_ok, refuse_ok, asks.mode, asks.pair, asks.amount, exists_const, not_or, nonzero,
    Except.ok.injEq, exists_eq_left', shows.sol, shows.token]
  unfold Chain.Prices payout
  by_cases buy : args.buy = true
  · simp only [if_pos buy, bind_ok]
    constructor
    · rintro ⟨quote, ⟨_, ⟨sol, token⟩, input, ⟨inAmount, paid, charged, feeMint⟩, quoted, same⟩, rfl, rfl⟩
      cases same
      obtain ⟨_, out, priced, rfl⟩ := quoteBuy_ok.mp quoted
      rw [shows.sol, shows.token] at priced
      exact ⟨sol, token, input, out, priced, (net out).symm⟩
    · rintro ⟨sol, token, input, out, priced, rfl⟩
      rw [← shows.sol, ← shows.token] at priced
      have quoted : amm.quoteBuy wsolMint args.amountIn =
          .ok (args.amountIn, (TransferFee.rate bps maximum).net out, fee, wsolMint) :=
        quoteBuy_ok.mpr ⟨⟨rfl, rfl⟩, out, priced, net out⟩
      exact ⟨_, ⟨not_not.mpr rfl, ⟨sol, token⟩, input, _, quoted, rfl⟩, rfl, rfl⟩
  · simp only [if_neg buy, bind_ok]
    constructor
    · rintro ⟨quote, ⟨_, ⟨sol, token⟩, input, ⟨inAmount, paid, charged, feeMint⟩, quoted, same⟩, rfl, rfl⟩
      cases same
      obtain ⟨_, arrived, priced⟩ := quoteSell_ok.mp quoted
      rw [net] at arrived priced
      rw [shows.sol, shows.token] at priced
      exact ⟨sol, token, input, paid, ⟨arrived, priced⟩, rfl⟩
    · rintro ⟨sol, token, input, out, ⟨arrived, priced⟩, rfl⟩
      rw [← net] at arrived priced
      rw [← shows.sol, ← shows.token] at priced
      have quoted := quoteSell_ok.mpr ⟨⟨rfl, rfl⟩, arrived, priced⟩
      exact ⟨_, ⟨not_not.mpr rfl, ⟨sol, token⟩, input, _, quoted, rfl⟩, rfl, rfl⟩

variable [DecidableEq Key]

/-- Whatever the router is quoted, the program does, and whatever the program would
do, the router is quoted. -/
theorem quote_is_outcome {rent : U64} {chain : Chain Key} {accounts : SwapAccounts Key} {args : SwapArgs}
    (shows : amm.Shows rent bps maximum chain) (asks : amm.Asks wsolMint params args)
    (inside : chain.pool.obsHead.val < twapRingSize) (funded : Funded accounts args chain) (outAmount fee : U64) :
    (∃ quote, amm.quote wsolMint params = .ok quote ∧ quote.outAmount = outAmount ∧ quote.feeAmount = fee) ↔
      ∃ after event, swap rent (.rate bps maximum) accounts args chain = .ok (after, event) ∧
        (after.recipient accounts args.buy).val = (chain.recipient accounts args.buy).val + outAmount.val ∧
        event.fee = fee := by
  rw [quote_priced shows asks, swap_outcome inside funded asks.unbounded]

/-- The head of the ring never leaves it. -/
theorem reachable_inside {rent : U64} {chain : Chain Key} (reachable : Reachable rent chain) :
    chain.pool.obsHead.val < twapRingSize := by
  obtain ⟨_, _, _, _, _, born, _, creates, _, runs⟩ := reachable
  refine runs.invariant (fun chain => chain.pool.obsHead.val < twapRingSize) ?_ ?_
  · intro before action after output _ inside done
    cases step_ok done with
    | swap traded =>
      have observed : before.pool.observe ⟨⟨before.solReserve rent, before.tokenReserve⟩, before.slot⟩ = .ok after.pool :=
        traded.oracle
      exact Pool.observe_inside inside observed
    | addLiquidity deposited => exact deposited.oracle ▸ inside
    | removeLiquidity withdrawn => exact withdrawn.oracle ▸ inside
    | donateSol same => exact same ▸ inside
    | donateTokens same => exact same ▸ inside
    | burnLp same => exact same ▸ inside
    | transferLp same => exact same ▸ inside
    | outside same => exact same ▸ inside
    | advance same => exact same ▸ inside
  · obtain ⟨pool, opened⟩ := (createPool_ok creates).oracle
    rw [opened]
    exact (by decide : (0 : U16).val < twapRingSize)

def sampleParams : QuoteParams ℕ := ⟨1000000, 0, 2, .exactIn⟩

def sampleAmm (chain : Chain ℕ) : DeepPoolAmm ℕ := ⟨2, chain.solReserve 2000000, chain.tokenReserve, 100, 5000⟩

theorem quote_is_outcome_sample : ∃ chain after :
    Chain ℕ, ∃ event, swap 2000000 (.rate 100 5000) ⟨7, 7⟩ ⟨1000000, 0, true⟩ chain =
      .ok (after, event) ∧ (after.tokens (.wallet 7)).val = (chain.tokens (.wallet 7)).val + 987 ∧ event.fee = 2500 := by
  have found : accepts (sampleHistory .none ⟨5000000, 5000000000⟩ []) (fun born =>
      Funded ⟨7, 7⟩ ⟨1000000, 0, true⟩ born.1 ∧ accepts ((sampleAmm born.1).quote 0 sampleParams)
        (fun quote => quote.outAmount = 987 ∧ quote.feeAmount = 2500)) = true := by decide +kernel
  obtain ⟨⟨chain, trace⟩, done, facts⟩ := accepts_iff.mp found
  obtain ⟨funded, quotes⟩ := of_decide_eq_true facts
  obtain ⟨quote, quoted, shown⟩ := accepts_iff.mp quotes
  obtain ⟨out, fee⟩ := of_decide_eq_true shown
  have shows : (sampleAmm chain).Shows 2000000 100 5000 chain := ⟨rfl, rfl, rfl, rfl⟩
  have asks : (sampleAmm chain).Asks 0 sampleParams ⟨1000000, 0, true⟩ := ⟨rfl, rfl, rfl, rfl⟩
  obtain ⟨after, event, swapped, rises, charged⟩ := (quote_is_outcome shows asks
    (reachable_inside (sampleHistory_reachable done)) funded 987 2500).mp ⟨quote, quoted, out, fee⟩
  exact ⟨chain, after, event, swapped, rises, charged⟩

end Jupiter
end DeepPool
