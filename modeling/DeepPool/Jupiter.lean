import DeepPool.Math
import Mathlib.Data.Rat.Defs

/-! The quotes that a router reads from a snapshot of a pool (`jupiter-amm-deeppool`).
The pool arithmetic is the program's own. -/

namespace DeepPool.Jupiter
open Library

inductive SwapMode where
  | exactIn
  | exactOut
  deriving DecidableEq

structure QuoteParams (Key : Type) where
  amount : U64
  inputMint : Key
  outputMint : Key
  swapMode : SwapMode

structure Quote (Key : Type) where
  inAmount : U64
  outAmount : U64
  feeAmount : U64
  feeMint : Key
  feePct : ℚ

inductive QuoteError (Key : Type) where
  | message (text : String)
  /-- The pair that was asked for, and the pool's token. -/
  | unsupportedPair (input output tokenMint : Key)

/-- The reserves and the transfer fee at the last update. -/
structure DeepPoolAmm (Key : Type) where
  tokenMint : Key
  solReserve : U64
  tokenReserve : U64
  transferFeeBps : U16
  transferFeeMaximum : U64

namespace DeepPoolAmm
variable {Key : Type}

/-- Rounded up, as the token program does. -/
def applyTransferFee (amm : DeepPoolAmm Key) (amount : U64) : U64 :=
  if amm.transferFeeBps = 0 ∨ amount = 0 then amount
  else
    let numerator := (widen amount).saturatingMul (Word.widen amm.transferFeeBps (by decide))
    let raw := numerator.saturatingAdd 9999 / 10000
    let fee := (Word.min ((Word.tryNarrow raw).getD Word.greatest) amm.transferFeeMaximum)
    amount.saturatingSub fee

def context {α : Type} (value : Option α) (text : String) : Except (QuoteError Key) α :=
  value.elim (.error (.message text)) .ok

/-- `if condition { return Err(anyhow!(text)); }` -/
def refuse (condition : Prop) [Decidable condition] (text : String) : Except (QuoteError Key) Unit :=
  if condition then .error (.message text) else .ok ()

variable [DecidableEq Key]

/-- Native SOL goes by the wrapped mint on either side. -/
def direction (wsolMint : Key) (amm : DeepPoolAmm Key) (params : QuoteParams Key) : Except (QuoteError Key) Bool :=
  if params.inputMint = wsolMint ∧ params.outputMint = amm.tokenMint then .ok true
  else if params.inputMint = amm.tokenMint ∧ params.outputMint = wsolMint then .ok false
  else .error (.unsupportedPair params.inputMint params.outputMint amm.tokenMint)

def quoteBuy (wsolMint : Key) (amm : DeepPoolAmm Key) (amount : U64) :
    Except (QuoteError Key) (U64 × U64 × U64 × Key) := do
  let poolFee ← context (calcSwapFee amount) "calc_swap_fee overflow"
  let effectiveIn ← context (amount.checkedSub poolFee) "amount - pool_fee underflow"
  let tokensOutGross ← context (calcSwapOutput effectiveIn amm.solReserve amm.tokenReserve) "calc_swap_output overflow"
  refuse (amm.tokenReserve.val ≤ tokensOutGross.val) "swap would drain vault"
  let tokensOutNet := amm.applyTransferFee tokensOutGross
  return (amount, tokensOutNet, poolFee, wsolMint)

def quoteSell (amm : DeepPoolAmm Key) (amount : U64) : Except (QuoteError Key) (U64 × U64 × U64 × Key) := do
  let netIn := amm.applyTransferFee amount
  refuse (netIn = 0) "transfer fee consumed entire input"
  let poolFee ← context (calcSwapFee netIn) "calc_swap_fee overflow"
  let effectiveIn ← context (netIn.checkedSub poolFee) "net_in - pool_fee underflow"
  let solOut ← context (calcSwapOutput effectiveIn amm.tokenReserve amm.solReserve) "calc_swap_output overflow"
  refuse (amm.solReserve.val ≤ solOut.val) "swap would drain pool SOL"
  return (amount, solOut, poolFee, amm.tokenMint)

def quote (wsolMint : Key) (amm : DeepPoolAmm Key) (params : QuoteParams Key) : Except (QuoteError Key) (Quote Key) := do
  refuse (params.swapMode ≠ .exactIn) "DeepPool only supports ExactIn quotes"
  refuse (amm.solReserve = 0 ∨ amm.tokenReserve = 0) "pool is empty or not yet updated"
  let buy ← amm.direction wsolMint params
  let amount := params.amount
  refuse (amount = 0) "zero input amount"
  let (inAmount, outAmount, feeAmount, feeMint) ← if buy then amm.quoteBuy wsolMint amount else amm.quoteSell amount
  return { inAmount, outAmount, feeAmount, feeMint, feePct := 25 / 10000 }

end DeepPoolAmm
end DeepPool.Jupiter
