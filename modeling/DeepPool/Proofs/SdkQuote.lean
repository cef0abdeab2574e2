import DeepPool.Sdk.Getters
import DeepPool.Proofs.Quote

/-! The SDK's quote beside the swap. The pool fee and the curve agree; the transfer
fee is rounded the other way, which shows on every amount that the rate does not
divide. -/

namespace DeepPool.Sdk
open Library

/-- The pool fee of a positive amount. -/
def poolFee (amount : ℕ) : ℕ := max (amount * 25 / 10000) 1

/-- What the curve gives for an amount, net of the pool fee. -/
def curve (reserveIn reserveOut amount : ℕ) : ℕ :=
  (amount - poolFee amount) * reserveOut / (reserveIn + (amount - poolFee amount))

/-- Every product that the quote computes is an exact integer. -/
def Exact (buy : Bool) (sol token amount bps : ℕ) : Prop :=
  if buy then
    amount * 25 < 2 ^ 53 ∧ (amount - poolFee amount) * token < 2 ^ 53 ∧ curve sol token amount * bps < 2 ^ 53
  else
    let net := amount - amount * bps / 10000
    amount * bps < 2 ^ 53 ∧ net * 25 < 2 ^ 53 ∧ (net - poolFee net) * sol < 2 ^ 53

instance (buy : Bool) (sol token amount bps : ℕ) : Decidable (Exact buy sol token amount bps) :=
  inferInstanceAs (Decidable (ite _ _ _))

/-- One more unit of input changes neither the pool fee nor the output. -/
def Absorbed (reserveIn reserveOut amount : ℕ) : Prop :=
  let effectiveIn := amount - poolFee amount
  ¬ (400 ∣ amount + 1 ∧ 800 ≤ amount + 1) ∧
    effectiveIn * reserveOut % (reserveIn + effectiveIn) + reserveOut ≤
      reserveIn + effectiveIn + effectiveIn * reserveOut / (reserveIn + effectiveIn)

/-- Rounding the transfer fee down instead of up makes no difference. -/
def RoundsAlike (buy : Bool) (sol token amount bps : ℕ) : Prop :=
  if buy then 10000 ∣ curve sol token amount * bps
  else 10000 ∣ amount * bps ∨ Absorbed token sol (amount - (amount * bps / 10000 + 1))

theorem poolFee_le {amount : ℕ} (positive : 0 < amount) : poolFee amount ≤ amount := by
  unfold poolFee
  omega

theorem poolFee_step (amount : ℕ) : poolFee (amount + 1) = poolFee amount ↔ ¬ (400 ∣ amount + 1 ∧ 800 ≤ amount + 1) := by
  unfold poolFee
  omega

/-- A quotient with one more unit above and below. -/
private theorem quotient_step {a b d : ℕ} (within : a ≤ d) :
    (a + 1) * b / (d + 1) = a * b / d ↔ a * b % d + b ≤ d + a * b / d := by
  have whole := Nat.div_add_mod (a * b) d
  have bounded : a * b / d ≤ b := Nat.div_le_of_le_mul (Nat.mul_le_mul_right _ within)
  have grown : (a + 1) * b = a * b + b := Nat.succ_mul _ _
  have below : a * b / d * (d + 1) = d * (a * b / d) + a * b / d := by ring
  rw [Nat.div_eq_iff (Nat.succ_pos d), below]
  omega

theorem curve_step {reserveIn reserveOut amount : ℕ} (positive : 0 < amount) (reserve : 0 < reserveIn) :
    (curve reserveIn reserveOut (amount + 1) = curve reserveIn reserveOut amount ∧
      poolFee (amount + 1) = poolFee amount) ↔ Absorbed reserveIn reserveOut amount := by
  have charged := poolFee_le positive
  unfold Absorbed
  rw [and_comm, ← poolFee_step]
  apply and_congr_right
  intro same
  have shifted : amount + 1 - poolFee amount = amount - poolFee amount + 1 := by omega
  rw [curve, curve, same, shifted, ← Nat.add_assoc]
  exact quotient_step (by omega)

section Numbers
variable {sol token amount bps : ℕ}

private theorem bps_natCast {share rate : ℕ} (small : share * rate < 2 ^ 53) :
    Double.floor (Double.div (Double.mul share rate) feeDenominator) = ((share * rate / 10000 : ℕ) : ℚ) := by
  have denominator : feeDenominator = ((10000 : ℕ) : ℚ) := by norm_num [feeDenominator]
  rw [Double.mul_natCast small, denominator, Double.floor_div_natCast small (by decide)]

private theorem poolFee_natCast (small : amount * 25 < 2 ^ 53) :
    max (Double.floor (Double.div (Double.mul amount swapFeeBps) feeDenominator)) 1 = (poolFee amount : ℚ) := by
  have rate : swapFeeBps = ((25 : ℕ) : ℚ) := by norm_num [swapFeeBps]
  rw [rate, bps_natCast small, poolFee, Nat.cast_max, Nat.cast_one]

private theorem curve_natCast {reserveIn reserveOut : ℕ} (reserve : 0 < reserveIn)
    (small : (amount - poolFee amount) * reserveOut < 2 ^ 53) :
    Double.floor (Double.div (Double.mul (amount - poolFee amount : ℕ) reserveOut)
      (Double.add reserveIn (amount - poolFee amount : ℕ))) = (curve reserveIn reserveOut amount : ℚ) := by
  rw [Double.mul_natCast small, Double.add, ← Nat.cast_add, Double.floor_div_round small (by omega), curve]

private theorem share_le {share : ℕ} (rate : bps ≤ 10000) : share * bps / 10000 ≤ share := by
  apply Nat.div_le_of_le_mul
  rw [Nat.mul_comm 10000]
  exact Nat.mul_le_mul_left share rate

private theorem positive_inputs (sols : 0 < sol) (tokens : 0 < token) (input : 0 < amount) :
    ¬ ((sol : ℚ) ≤ 0 ∨ (token : ℚ) ≤ 0 ∨ (amount : ℚ) ≤ 0) := by
  simp only [Nat.cast_nonpos]
  omega

theorem getSwapQuote_buy (sols : 0 < sol) (tokens : 0 < token) (input : 0 < amount) (rate : bps ≤ 10000)
    (precise : Exact true sol token amount bps) :
    (getSwapQuote sol token amount true bps).amountOut =
        ((curve sol token amount - curve sol token amount * bps / 10000 : ℕ) : ℚ) ∧
      (getSwapQuote sol token amount true bps).fee = poolFee amount := by
  obtain ⟨charged, crossed, withheld⟩ := precise
  have fee := poolFee_le input
  have output : curve sol token amount < 2 ^ 53 := lt_of_le_of_lt (Nat.div_le_self _ _) crossed
  rw [getSwapQuote, if_neg (positive_inputs sols tokens input), if_pos rfl]
  simp only [getSwapQuoteBuy, poolFee_natCast charged, and_true]
  rw [Double.sub_natCast (by omega) fee, curve_natCast sols crossed, bps_natCast withheld,
    Double.sub_natCast output (share_le rate)]

theorem getSwapQuote_sell (sols : 0 < sol) (tokens : 0 < token) (input : 0 < amount) (rate : bps ≤ 10000)
    (arrives : amount * bps / 10000 < amount) (precise : Exact false sol token amount bps) :
    (getSwapQuote sol token amount false bps).amountOut = curve token sol (amount - amount * bps / 10000) ∧
      (getSwapQuote sol token amount false bps).fee = poolFee (amount - amount * bps / 10000) := by
  obtain ⟨withheld, charged, crossed⟩ := precise
  have net : 0 < amount - amount * bps / 10000 := by omega
  have fee := poolFee_le net
  have small : amount < 2 ^ 53 := by
    rcases Nat.eq_zero_or_pos bps with rfl | charges
    · omega
    · exact lt_of_le_of_lt (Nat.le_mul_of_pos_right _ charges) withheld
  have received : (0 : ℚ) < (amount - amount * bps / 10000 : ℕ) := by exact_mod_cast net
  rw [getSwapQuote, if_neg (positive_inputs sols tokens input), if_neg (by decide)]
  simp only [getSwapQuoteSell, bps_natCast withheld, Double.sub_natCast small (share_le rate), if_pos received,
    poolFee_natCast charged, and_true]
  rw [Double.sub_natCast (by omega) fee, curve_natCast tokens crossed]

end Numbers

theorem priced_values {amount reserveIn reserveOut fee out : U64} (input : 0 < amount.val)
    (priced : Priced amount reserveIn reserveOut fee out) :
    fee.val = poolFee amount.val ∧ out.val = curve reserveIn.val reserveOut.val amount.val := by
  obtain ⟨charged, ⟨effective, reduced, computed⟩, _⟩ := priced
  obtain ⟨rate, _, _⟩ := calcSwapFee_some input charged
  rw [Word.checkedSub_eq_some] at reduced
  have crossing : effective.val = amount.val - poolFee amount.val := by
    unfold poolFee
    omega
  rw [(calcSwapOutput_some computed).2, crossing]
  exact ⟨rate, rfl⟩

section Outcome
variable {Key : Type} [DecidableEq Key] {rent : U64} {bps : Fin 10001} {accounts : SwapAccounts Key} {args : SwapArgs}
  {before after : Chain Key} {event : SwapExecuted Key}

/-- What a client is quoted on the pool's live reserves. -/
def liveQuote (rent : U64) (bps : Fin 10001) (args : SwapArgs) (chain : Chain Key) : SwapQuote :=
  getSwapQuote (chain.solReserve rent).val chain.tokenReserve.val args.amountIn.val args.buy bps.val

theorem uncapped_net (amount : U64) :
    ((TransferFee.rate bps Word.greatest).net amount).val = amount.val - (amount.val * bps.val + 9999) / 10000 := by
  have cap : (Word.greatest : U64).val = 2 ^ 64 - 1 := rfl
  have scaled := Nat.mul_le_mul_left amount.val (Nat.le_of_lt_succ bps.isLt)
  have bound := amount.isLt
  rw [TransferFee.net_val]
  change amount.val - min ((amount.val * bps.val + 9999) / 10000) (Word.greatest : U64).val = _
  rw [cap]
  omega

theorem sdk_quote_is_outcome_iff (done : swap rent (.rate bps Word.greatest) accounts args before = .ok (after, event))
    (precise : Exact args.buy (before.solReserve rent).val before.tokenReserve.val args.amountIn.val bps.val) :
    (((after.recipient accounts args.buy).val : ℚ) =
        (before.recipient accounts args.buy).val + (liveQuote rent bps args before).amountOut ∧
      (liveQuote rent bps args before).fee = event.fee.val) ↔
    RoundsAlike args.buy (before.solReserve rent).val before.tokenReserve.val args.amountIn.val bps.val := by
  obtain ⟨input, _, prices⟩ := swap_priced done
  have rises := swap_pays done
  have sols : 0 < (before.solReserve rent).val := (swap_ok done).sol
  have tokens : 0 < before.tokenReserve.val := (swap_ok done).token
  have rate : bps.val ≤ 10000 := Nat.le_of_lt_succ bps.isLt
  rw [rises, liveQuote, Nat.cast_add, add_right_inj]
  unfold Chain.Prices at prices
  cases direction : args.buy with
  | true =>
    rw [if_pos direction] at prices
    rw [direction] at precise
    obtain ⟨fee, out⟩ := priced_values input prices
    obtain ⟨amountOut, charged⟩ := getSwapQuote_buy sols tokens input rate precise
    rw [amountOut, charged, ← fee, payout, if_pos rfl, uncapped_net, out, Nat.cast_inj, eq_self, and_true]
    unfold RoundsAlike
    rw [if_pos rfl, ← out]
    have withheld := Nat.mul_le_mul_left event.amountOutGross.val rate
    omega
  | false =>
    rw [if_neg (by simp [direction])] at prices
    rw [direction] at precise
    obtain ⟨arrived, priced⟩ := prices
    obtain ⟨fee, out⟩ := priced_values arrived priced
    rw [uncapped_net] at arrived fee out
    obtain ⟨amountOut, charged⟩ := getSwapQuote_sell sols tokens input rate (by omega) precise
    rw [amountOut, charged, payout, if_neg (by decide), fee, out, Nat.cast_inj, Nat.cast_inj]
    unfold RoundsAlike
    rw [if_neg (by decide)]
    by_cases whole : 10000 ∣ args.amountIn.val * bps.val
    · have same : args.amountIn.val * bps.val / 10000 = (args.amountIn.val * bps.val + 9999) / 10000 := by omega
      simp only [whole, same, true_or, and_self]
    · have raised : (args.amountIn.val * bps.val + 9999) / 10000 = args.amountIn.val * bps.val / 10000 + 1 := by omega
      rw [raised] at arrived ⊢
      have more : args.amountIn.val - args.amountIn.val * bps.val / 10000 =
          args.amountIn.val - (args.amountIn.val * bps.val / 10000 + 1) + 1 := by omega
      rw [← curve_step arrived tokens, more]
      simp only [whole, false_or, eq_comm]

end Outcome

/-- A purchase at a rate of one percent, without a cap, and the pool that it is made from. -/
def sampleBuy (amount : U64) : Except ProgramError (Chain ℕ × Chain ℕ × SwapExecuted ℕ) := do
  let (before, _) ← sampleHistory .none ⟨5000000, 5000000000⟩ []
  let result ← swap 2000000 (.rate 100 Word.greatest) ⟨7, 7⟩ ⟨amount, 0, true⟩ before
  return (before, result)

theorem sdk_quote_is_outcome_iff_sample : ∃ before after : Chain ℕ, ∃ event,
    swap 2000000 (.rate 100 Word.greatest) ⟨7, 7⟩ ⟨1003000, 0, true⟩ before = .ok (after, event) ∧
      ((after.tokens (.wallet 7)).val : ℚ) = (before.tokens (.wallet 7)).val +
        (liveQuote 2000000 100 ⟨1003000, 0, true⟩ before).amountOut ∧
      (liveQuote 2000000 100 ⟨1003000, 0, true⟩ before).fee = event.fee.val := by
  have found : accepts (sampleBuy 1003000) (fun result =>
      Exact true (result.1.solReserve 2000000).val result.1.tokenReserve.val (1003000 : U64).val (100 : Fin 10001).val ∧
        curve (result.1.solReserve 2000000).val result.1.tokenReserve.val
          (1003000 : U64).val = 1000) = true := by decide +kernel
  obtain ⟨sample, done, facts⟩ := accepts_iff.mp found
  obtain ⟨precise, output⟩ := of_decide_eq_true facts
  simp only [sampleBuy, bind_ok, pure_ok] at done
  obtain ⟨⟨before, _⟩, _, ⟨after, event⟩, swapped, same⟩ := done
  cases same
  have alike : RoundsAlike true (before.solReserve 2000000).val before.tokenReserve.val (1003000 : U64).val
      (100 : Fin 10001).val := by
    unfold RoundsAlike
    rw [if_pos rfl, output]
    decide
  obtain ⟨paid, charged⟩ := (sdk_quote_is_outcome_iff swapped precise).mpr alike
  exact ⟨before, after, event, swapped, paid, charged⟩

/-- The quote promises one token more than arrives. -/
theorem sdk_quote_overpromises : ∃ before after : Chain ℕ, ∃ event,
    swap 2000000 (.rate 100 Word.greatest) ⟨7, 7⟩ ⟨1000000, 0, true⟩ before = .ok (after, event) ∧
      Exact true (before.solReserve 2000000).val before.tokenReserve.val (1000000 : U64).val (100 : Fin 10001).val ∧
      (after.tokens (.wallet 7)).val = (before.tokens (.wallet 7)).val + 987 ∧
      (liveQuote 2000000 100 ⟨1000000, 0, true⟩ before).amountOut = 988 := by
  have found : accepts (sampleBuy 1000000) (fun result =>
      Exact true (result.1.solReserve 2000000).val result.1.tokenReserve.val (1000000 : U64).val
          (100 : Fin 10001).val ∧
        curve (result.1.solReserve 2000000).val result.1.tokenReserve.val (1000000 : U64).val = 997 ∧
        0 < (result.1.solReserve 2000000).val ∧ 0 < result.1.tokenReserve.val ∧
        (result.2.1.tokens (.wallet 7)).val = (result.1.tokens (.wallet 7)).val + 987) = true := by decide +kernel
  obtain ⟨sample, done, facts⟩ := accepts_iff.mp found
  obtain ⟨precise, output, sols, tokens, paid⟩ := of_decide_eq_true facts
  simp only [sampleBuy, bind_ok, pure_ok] at done
  obtain ⟨⟨before, _⟩, _, ⟨after, event⟩, swapped, same⟩ := done
  cases same
  have promised := (getSwapQuote_buy sols tokens (by decide) (by decide) precise).1
  rw [output] at promised
  exact ⟨before, after, event, swapped, precise, paid, promised⟩
end DeepPool.Sdk
