import DeepPool.Proofs.Quote
import DeepPool.Proofs.Swap

/-! Paying more never yields less, in the program and in the router's quote. Each step of the
pricing is monotone by itself. -/

namespace DeepPool
open Library

/-- The quotient of the curve grows with the input. -/
theorem curve_mono {reserveIn a b : ℕ} (reserveOut : ℕ) (more : a ≤ b) (positive : 0 < reserveIn + a) :
    a * reserveOut / (reserveIn + a) ≤ b * reserveOut / (reserveIn + b) := by
  obtain ⟨extra, rfl⟩ := Nat.exists_eq_add_of_le more
  have within : a * reserveOut / (reserveIn + a) ≤ reserveOut :=
    Nat.div_le_of_le_mul (Nat.mul_le_mul_right _ (Nat.le_add_left _ _))
  have paid := Nat.div_mul_le_self (a * reserveOut) (reserveIn + a)
  generalize a * reserveOut / (reserveIn + a) = quotient at within paid ⊢
  rw [Nat.le_div_iff_mul_le (by omega)]
  calc quotient * (reserveIn + (a + extra))
      = quotient * (reserveIn + a) + quotient * extra := by ring
    _ ≤ a * reserveOut + reserveOut * extra := Nat.add_le_add paid (Nat.mul_le_mul_right _ within)
    _ = (a + extra) * reserveOut := by ring

theorem Priced.mono {a b reserveIn reserveOut fee fee' out out' : U64} (first : Priced a reserveIn reserveOut fee out)
    (second : Priced b reserveIn reserveOut fee' out') (input : 0 < a.val) (more : a.val ≤ b.val) :
    out.val ≤ out'.val := by
  obtain ⟨charged, ⟨effective, reduced, computed⟩, _⟩ := first
  obtain ⟨charged', ⟨effective', reduced', computed'⟩, _⟩ := second
  obtain ⟨fee, _, _⟩ := calcSwapFee_some input charged
  obtain ⟨fee', _, _⟩ := calcSwapFee_some (Nat.lt_of_lt_of_le input more) charged'
  rw [Word.checkedSub_eq_some] at reduced reduced'
  have grows : effective.val ≤ effective'.val := by omega
  obtain ⟨positive, value⟩ := calcSwapOutput_some computed
  obtain ⟨_, value'⟩ := calcSwapOutput_some computed'
  rw [value, value']
  exact curve_mono _ grows positive

namespace Jupiter

/-- What is left after the fee grows with the amount. Above the whole, the rate only bites through its cap. -/
theorem skimmed_mono (rate cap : ℕ) {a b : ℕ} (more : a ≤ b) : skimmed rate cap a ≤ skimmed rate cap b := by
  obtain ⟨extra, rfl⟩ := Nat.exists_eq_add_of_le more
  unfold skimmed
  rw [Nat.add_mul]
  rcases Nat.le_total rate 10000 with part | whole
  · have slow : extra * rate ≤ extra * 10000 := Nat.mul_le_mul_left _ part
    omega
  · have first : a * 10000 ≤ a * rate := Nat.mul_le_mul_left _ whole
    have second : extra * 10000 ≤ extra * rate := Nat.mul_le_mul_left _ whole
    omega

theorem rate_net_val (bps : Fin 10001) (maximum amount : U64) :
    ((TransferFee.rate bps maximum).net amount).val = skimmed bps.val maximum.val amount.val := rfl

section Quotes
variable {Mint : Type} {wsolMint : Mint} {amm : DeepPoolAmm Mint} {params : QuoteParams Mint}
  {quote : Quote Mint}

/-- The crossing that a quote prices, and what the taker gets of it. -/
structure Quoted (amm : DeepPoolAmm Mint) (buy : Bool) (amount fee outAmount : U64) : Prop where
  bought : buy = true → ∃ out, Priced amount amm.solReserve amm.tokenReserve fee out ∧
    amm.applyTransferFee out = outAmount
  sold : buy = false → 0 < (amm.applyTransferFee amount).val ∧
    Priced (amm.applyTransferFee amount) amm.tokenReserve amm.solReserve fee outAmount

theorem Quoted.mono {buy : Bool} {a b fee fee' out out' : U64} (first : Quoted amm buy a fee out)
    (second : Quoted amm buy b fee' out') (input : 0 < a.val) (more : a.val ≤ b.val) : out.val ≤ out'.val := by
  cases buy with
  | true =>
    obtain ⟨gross, priced, rfl⟩ := first.bought rfl
    obtain ⟨gross', priced', rfl⟩ := second.bought rfl
    rw [DeepPoolAmm.applyTransferFee_val, DeepPoolAmm.applyTransferFee_val]
    exact skimmed_mono _ _ (priced.mono priced' input more)
  | false =>
    obtain ⟨arrives, priced⟩ := first.sold rfl
    obtain ⟨_, priced'⟩ := second.sold rfl
    refine priced.mono priced' arrives ?_
    rw [DeepPoolAmm.applyTransferFee_val, DeepPoolAmm.applyTransferFee_val]
    exact skimmed_mono _ _ more

variable [DecidableEq Mint]

theorem quote_ok (quoted : amm.quote wsolMint params = .ok quote) :
    0 < params.amount.val ∧ ∃ buy, amm.direction wsolMint params = .ok buy ∧
      Quoted amm buy params.amount quote.feeAmount quote.outAmount := by
  simp only [DeepPoolAmm.quote, bind_ok, refuse_ok, nonzero, exists_const] at quoted
  obtain ⟨_, _, buy, directed, input, quoted⟩ := quoted
  refine ⟨input, buy, directed, ?_, ?_⟩
  · rintro rfl
    rw [if_pos rfl] at quoted
    obtain ⟨⟨inAmount, outAmount, fee, feeMint⟩, crossed, same⟩ := bind_ok.mp quoted
    cases same
    exact (quoteBuy_ok.mp crossed).2
  · rintro rfl
    rw [if_neg (by decide)] at quoted
    obtain ⟨⟨inAmount, outAmount, fee, feeMint⟩, crossed, same⟩ := bind_ok.mp quoted
    cases same
    exact (quoteSell_ok.mp crossed).2

end Quotes
end Jupiter

section Swap
variable {Key : Type} [DecidableEq Key] {rent : U64} {transferFee : TransferFee} {accounts : SwapAccounts Key}
  {args : SwapArgs} {before after : Chain Key} {event : SwapExecuted Key}

/-- What the event shows as received is what the recipient's balance gained. -/
theorem swap_receives (done : swap rent transferFee accounts args before = .ok (after, event)) :
    event.amountOutNet = payout transferFee args.buy event.amountOutGross ∧
      (after.recipient accounts args.buy).val = (before.recipient accounts args.buy).val + event.amountOutNet.val := by
  obtain ⟨_, direction, _⟩ := swap_priced done
  have same : event.amountOutNet = payout transferFee args.buy event.amountOutGross := by
    rcases (swap_ok done).leg with bought | sold
    · rw [← direction, bought.direction]
      exact Fin.ext bought.received
    · rw [← direction, sold.direction]
      exact sold.received
  refine ⟨same, ?_⟩
  rw [same]
  exact swap_pays done

/-- For every rate and cap of the transfer fee, a greater input is paid at least as much by the
swap, and is quoted at least as much. -/
theorem paying_more_yields_no_less :
    (∀ (rent : U64) (bps : Fin 10001) (maximum : U64) (accounts : SwapAccounts Key) (args args' : SwapArgs)
      (before after after' : Chain Key) (event event' : SwapExecuted Key),
      args.buy = args'.buy → args.amountIn.val ≤ args'.amountIn.val →
      swap rent (.rate bps maximum) accounts args before = .ok (after, event) →
      swap rent (.rate bps maximum) accounts args' before = .ok (after', event') →
      event.amountOutNet.val ≤ event'.amountOutNet.val ∧
        (after.recipient accounts args.buy).val =
          (before.recipient accounts args.buy).val + event.amountOutNet.val ∧
        (after'.recipient accounts args.buy).val =
          (before.recipient accounts args.buy).val + event'.amountOutNet.val) ∧
    ∀ (wsolMint : Key) (amm : Jupiter.DeepPoolAmm Key) (params params' : Jupiter.QuoteParams Key)
      (quote quote' : Jupiter.Quote Key), params.inputMint = params'.inputMint →
      params.outputMint = params'.outputMint → params.amount.val ≤ params'.amount.val →
      amm.quote wsolMint params = .ok quote → amm.quote wsolMint params' = .ok quote' →
      quote.outAmount.val ≤ quote'.outAmount.val := by
  constructor
  · intro rent bps maximum accounts args args' before after after' event event' direction more done done'
    obtain ⟨input, _, prices⟩ := swap_priced done
    obtain ⟨_, _, prices'⟩ := swap_priced done'
    obtain ⟨received, rises⟩ := swap_receives done
    obtain ⟨received', rises'⟩ := swap_receives done'
    rw [← direction] at received' rises'
    refine ⟨?_, rises, rises'⟩
    rw [received, received']
    unfold Chain.Prices at prices prices'
    rw [← direction] at prices'
    unfold payout
    split at prices
    next buy =>
      rw [if_pos buy] at prices' ⊢
      rw [if_pos buy, Jupiter.rate_net_val, Jupiter.rate_net_val]
      exact Jupiter.skimmed_mono _ _ (prices.mono prices' input more)
    next sell =>
      rw [if_neg sell] at prices' ⊢
      rw [if_neg sell]
      refine prices.2.mono prices'.2 prices.1 ?_
      rw [Jupiter.rate_net_val, Jupiter.rate_net_val]
      exact Jupiter.skimmed_mono _ _ more
  · intro wsolMint amm params params' quote quote' inputs outputs more quoted quoted'
    obtain ⟨input, buy, directed, first⟩ := Jupiter.quote_ok quoted
    obtain ⟨_, buy', directed', second⟩ := Jupiter.quote_ok quoted'
    have same : amm.direction wsolMint params = amm.direction wsolMint params' := by
      simp only [Jupiter.DeepPoolAmm.direction, inputs, outputs]
    obtain rfl := Except.ok.inj (directed.symm.trans (same.trans directed'))
    exact first.mono second input more

end Swap

theorem paying_more_yields_no_less_sample : ∃ (before after after' : Chain ℕ) (event event' : SwapExecuted ℕ),
    swap 2000000 (.rate 100 5000) ⟨7, 7⟩ ⟨1000000, 0, true⟩ before = .ok (after, event) ∧
      swap 2000000 (.rate 100 5000) ⟨7, 7⟩ ⟨2000000, 0, true⟩ before = .ok (after', event') ∧
      event.amountOutNet.val ≤ event'.amountOutNet.val ∧
      ∃ quote quote', (Jupiter.sampleAmm before).quote 0 Jupiter.sampleParams = .ok quote ∧
        (Jupiter.sampleAmm before).quote 0 { Jupiter.sampleParams with amount := 3000000 } = .ok quote' ∧
        quote.outAmount.val ≤ quote'.outAmount.val := by
  have found : accepts (sampleHistory .none ⟨5000000, 5000000000⟩ []) (fun start =>
      accepts (swap 2000000 (.rate 100 5000) ⟨7, 7⟩ ⟨1000000, 0, true⟩ start.1) (fun _ => True) ∧
        accepts (swap 2000000 (.rate 100 5000) ⟨7, 7⟩ ⟨2000000, 0, true⟩ start.1) (fun _ => True) ∧
        accepts ((Jupiter.sampleAmm start.1).quote 0 Jupiter.sampleParams) (fun _ => True) ∧
        accepts ((Jupiter.sampleAmm start.1).quote 0 { Jupiter.sampleParams with amount := 3000000 })
          (fun _ => True)) = true := by decide +kernel
  obtain ⟨⟨before, _⟩, _, facts⟩ := accepts_iff.mp found
  obtain ⟨small, large, asked, askedMore⟩ := of_decide_eq_true facts
  obtain ⟨⟨after, event⟩, done, _⟩ := accepts_iff.mp small
  obtain ⟨⟨after', event'⟩, done', _⟩ := accepts_iff.mp large
  obtain ⟨quote, quoted, _⟩ := accepts_iff.mp asked
  obtain ⟨quote', quoted', _⟩ := accepts_iff.mp askedMore
  obtain ⟨swaps, quotes⟩ := @paying_more_yields_no_less ℕ _
  obtain ⟨less, _, _⟩ := swaps 2000000 100 5000 ⟨7, 7⟩ ⟨1000000, 0, true⟩ ⟨2000000, 0, true⟩ before after after' event
    event' rfl (by decide) done done'
  exact ⟨before, after, after', event, event', done, done', less, quote, quote', quoted, quoted',
    quotes 0 _ Jupiter.sampleParams { Jupiter.sampleParams with amount := 3000000 } _ _ rfl rfl (by decide) quoted
      quoted'⟩

end DeepPool
