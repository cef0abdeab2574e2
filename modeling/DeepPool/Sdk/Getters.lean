import DeepPool.Library.Double
import DeepPool.Constants

/-! The swap quote of the TypeScript SDK (`getters.ts`). A JavaScript number is the
rational that the double stands for, and every operation on it rounds. -/

namespace DeepPool.Sdk
open Library

abbrev Number := ℚ

def swapFeeBps : Number := 25
def feeDenominator : Number := 10000

structure SwapQuote where
  amountIn : Number
  amountOut : Number
  fee : Number
  priceImpactPercent : Number
  buy : Bool

open Double in
def priceImpact (spotPrice execPrice : Number) : Number :=
  if 0 < spotPrice then mul (div |sub execPrice spotPrice| spotPrice) 100 else 0

open Double in
def getSwapQuoteBuy (solReserve tokenReserve amountIn transferFeeBps : Number) : SwapQuote :=
  let fee := max (floor (div (mul amountIn swapFeeBps) feeDenominator)) 1
  let effectiveIn := sub amountIn fee
  let tokensOut := floor (div (mul effectiveIn tokenReserve) (add solReserve effectiveIn))
  let transferFee := floor (div (mul tokensOut transferFeeBps) feeDenominator)
  let netOut := sub tokensOut transferFee
  let spotPrice := div solReserve tokenReserve
  let execPrice := if 0 < tokensOut then div amountIn tokensOut else 0
  { amountIn, amountOut := netOut, fee, priceImpactPercent := priceImpact spotPrice execPrice, buy := true }

open Double in
def getSwapQuoteSell (solReserve tokenReserve amountIn transferFeeBps : Number) : SwapQuote :=
  let transferFee := floor (div (mul amountIn transferFeeBps) feeDenominator)
  let netIn := sub amountIn transferFee
  let fee := if 0 < netIn then max (floor (div (mul netIn swapFeeBps) feeDenominator)) 1 else 0
  let effectiveIn := sub netIn fee
  let solOut := floor (div (mul effectiveIn solReserve) (add tokenReserve effectiveIn))
  let spotPrice := div solReserve tokenReserve
  let execPrice := if 0 < amountIn then div solOut amountIn else 0
  { amountIn, amountOut := solOut, fee, priceImpactPercent := priceImpact spotPrice execPrice, buy := false }

def getSwapQuote (solReserve tokenReserve amountIn : Number) (buy : Bool) (transferFeeBps : Number) : SwapQuote :=
  if solReserve ≤ 0 ∨ tokenReserve ≤ 0 ∨ amountIn ≤ 0 then ⟨amountIn, 0, 0, 0, buy⟩
  else if buy then getSwapQuoteBuy solReserve tokenReserve amountIn transferFeeBps
  else getSwapQuoteSell solReserve tokenReserve amountIn transferFeeBps

end DeepPool.Sdk
