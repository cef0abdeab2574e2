import DeepPool.Constants

/-! The integer arithmetic of the pool (`math.rs`). `none` is the overflow that the
handlers report as `MathOverflow`. -/

namespace DeepPool
open Library

def widen (a : U64) : U128 := Word.widen a (by decide)

def calcSwapFee (amount : U64) : Option U64 :=
  if amount = 0 then some 0
  else do
    let fee ← (← amount.checkedMul swapFeeBps).checkedDiv feeDenominator
    return fee.max 1

/-- The quotient is narrowed without a check. -/
def calcSwapOutput (effectiveIn inputReserve outputReserve : U64) : Option U64 := do
  let numerator ← (widen effectiveIn).checkedMul (widen outputReserve)
  let denominator ← (widen inputReserve).checkedAdd (widen effectiveIn)
  return Word.truncate (← numerator.checkedDiv denominator)

def calcLpMint (lpSupply deposit reserve : U64) : Option U64 := do
  let result ← (← (widen lpSupply).checkedMul (widen deposit)).checkedDiv (widen reserve)
  Word.tryNarrow result

def calcLpRedeem (lpAmount reserve lpSupply : U64) : Option U64 := do
  let result ← (← (widen lpAmount).checkedMul (widen reserve)).checkedDiv (widen lpSupply)
  Word.tryNarrow result

def calcProportionalCeil (input reserveA reserveB : U64) : Option U64 := do
  let numerator ← (widen input).checkedMul (widen reserveB)
  let denom := widen reserveA
  let result ← (← numerator.checkedAdd (← denom.checkedSub 1)).checkedDiv denom
  Word.tryNarrow result

/-- The shifted numerator `reserveOut << 64` always fits 128 bits. -/
def priceQ64 (reserveOut reserveIn : U64) : Option U128 :=
  Word.checkedDiv (⟨reserveOut.val * 2 ^ 64, by have := reserveOut.isLt; omega⟩ : U128) (widen reserveIn)

def accumulatePrice (cum priceQ64 : U128) (slotDelta : U64) : U128 :=
  cum.wrappingAdd (priceQ64.wrappingMul (widen slotDelta))

/-- `while y < x { x = y; y = (x + n / x) / 2; }`, where `none` is an arithmetic panic. -/
def integerSqrt.loop (n x y : U128) : Option U128 :=
  if y.val < x.val then do
    let quotient ← n.checkedDiv y
    let sum ← y.checkedAdd quotient
    integerSqrt.loop n y (← sum.checkedDiv 2)
  else some x
termination_by x.val

def integerSqrt (n : U128) : Option U128 :=
  if n = 0 then some 0
  else do
    let sum ← n.checkedAdd 1
    integerSqrt.loop n n (← sum.checkedDiv 2)

end DeepPool
