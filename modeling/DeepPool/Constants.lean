import DeepPool.Library.Word

/-! The program's constants (`constants.rs`). -/

namespace DeepPool
open Library

abbrev U16 := Word 16
abbrev U64 := Word 64
abbrev U128 := Word 128

def swapFeeBps : U64 := 25
def feeDenominator : U64 := 10000

def minLiquidity : U64 := 1000

/-- Creation gates. They are checked on the amounts the creator signs for. -/
def minInitialSol : U64 := 5000000000
def minInitialTokens : U64 := 5000000

/-- Retention floor of a removal. -/
def minPoolReserveSol : U64 := 100000000
def minPoolReserveTokens : U64 := 1000000

def lpLockCreatorBps : U64 := 2000
def lpLockProviderBps : U64 := 750

def twapRingSize : Nat := 16
def minObsSpacingSlots : U64 := 500
def minSpotReserve : U64 := 5000000000

end DeepPool
