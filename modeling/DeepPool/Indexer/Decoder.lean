import DeepPool.Library.Radix
import DeepPool.Library.Reader
import DeepPool.Indexer.Contracts

/-! Decoding of Anchor `emit_cpi!` events (`stream/decoder.rs`): the event tag, the
discriminator of the event's name and the Borsh payload. -/

namespace DeepPool.Indexer
open Library

inductive BorshError where
  | unexpectedLength
  | invalidBool (byte : UInt8)
  deriving DecidableEq

inductive DecodeError where
  | tooShort
  | unknownDiscriminator
  | trailingBytes
  | borsh (error : BorshError)
  deriving DecidableEq

def eventIxTagLe : Bytes := [0xe4, 0x45, 0xa5, 0x2e, 0x51, 0xcb, 0x9a, 0x1d]

abbrev Discriminator := Vector UInt8 8

structure Discriminators where
  poolCreated : Discriminator
  swapExecuted : Discriminator
  liquidityAdded : Discriminator
  liquidityRemoved : Discriminator

/-- The first eight bytes of the SHA-256 of `event:PoolCreated` and so on. -/
def Discriminators.compute : Discriminators where
  poolCreated := #v[202, 44, 41, 88, 104, 220, 157, 82]
  swapExecuted := #v[150, 166, 26, 225, 28, 89, 38, 79]
  liquidityAdded := #v[154, 26, 221, 108, 238, 64, 217, 161]
  liquidityRemoved := #v[225, 105, 216, 39, 124, 116, 169, 189]

abbrev Deserialize := Reader UInt8 BorshError

def readKey : Deserialize Pubkey := Reader.take 32 .unexpectedLength

/-- `u64::from_le_bytes` -/
def fromLeBytes (bytes : Vector UInt8 8) : U64 where
  val := Nat.ofDigits 256 (Bytes.digits bytes.toList)
  isLt := by
    have bound := Nat.ofDigits_lt_base_pow_length (by decide) (Bytes.digits_lt bytes.toList)
    rwa [Bytes.digits, List.length_map, Vector.length_toList] at bound

def readU64 : Deserialize U64 := fromLeBytes <$> Reader.take 8 .unexpectedLength

def readBool : Deserialize Bool := do
  let byte ← Reader.take 1 .unexpectedLength
  if byte[0] = 0 then return false
  else if byte[0] = 1 then return true
  else throw (.invalidBool byte[0])

def PoolCreated.deserialize : Deserialize PoolCreated := do
  let pool ← readKey
  let config ← readKey
  let tokenMint ← readKey
  let lpMint ← readKey
  let creator ← readKey
  let solInGross ← readU64
  let solInNet ← readU64
  let tokensInGross ← readU64
  let tokensInNet ← readU64
  let solReserveAfter ← readU64
  let tokenReserveAfter ← readU64
  let lpSupplyAfter ← readU64
  let lpToCreator ← readU64
  let lpLocked ← readU64
  return {
    pool, config, tokenMint, lpMint, creator, solInGross, solInNet, tokensInGross, tokensInNet, solReserveAfter
    tokenReserveAfter, lpSupplyAfter, lpToCreator, lpLocked }

def LiquidityAdded.deserialize : Deserialize LiquidityAdded := do
  let pool ← readKey
  let provider ← readKey
  let solInGross ← readU64
  let solInNet ← readU64
  let tokensInGross ← readU64
  let tokensInNet ← readU64
  let lpToProvider ← readU64
  let lpLocked ← readU64
  let solReserveAfter ← readU64
  let tokenReserveAfter ← readU64
  let lpSupplyAfter ← readU64
  return {
    pool, provider, solInGross, solInNet, tokensInGross, tokensInNet, lpToProvider, lpLocked, solReserveAfter
    tokenReserveAfter, lpSupplyAfter }

def LiquidityRemoved.deserialize : Deserialize LiquidityRemoved := do
  let pool ← readKey
  let provider ← readKey
  let lpBurned ← readU64
  let solOutGross ← readU64
  let solOutNet ← readU64
  let tokensOutGross ← readU64
  let tokensOutNet ← readU64
  let solReserveAfter ← readU64
  let tokenReserveAfter ← readU64
  let lpSupplyAfter ← readU64
  return {
    pool, provider, lpBurned, solOutGross, solOutNet, tokensOutGross, tokensOutNet, solReserveAfter
    tokenReserveAfter, lpSupplyAfter }

def SwapExecuted.deserialize : Deserialize SwapExecuted := do
  let pool ← readKey
  let user ← readKey
  let solSource ← readKey
  let buy ← readBool
  let amountInGross ← readU64
  let amountInNet ← readU64
  let amountOutGross ← readU64
  let amountOutNet ← readU64
  let fee ← readU64
  let solReserveAfter ← readU64
  let tokenReserveAfter ← readU64
  return {
    pool, user, solSource, buy, amountInGross, amountInNet, amountOutGross, amountOutNet, fee, solReserveAfter
    tokenReserveAfter }

/-- The rest of the payload is handed back with the event. -/
def readPayload {Event : Type} (make : Event → DeepPoolEvent) (reader : Deserialize Event) (payload : Bytes) :
    Except DecodeError (DeepPoolEvent × Bytes) :=
  match reader.run payload with
  | .error error => .error (.borsh error)
  | .ok (event, rest) => .ok (make event, rest)

def readEvent (discs : Discriminators) (eventDisc payload : Bytes) : Except DecodeError (DeepPoolEvent × Bytes) :=
  if eventDisc = discs.poolCreated.toList then readPayload .poolCreated PoolCreated.deserialize payload
  else if eventDisc = discs.swapExecuted.toList then readPayload .swapExecuted SwapExecuted.deserialize payload
  else if eventDisc = discs.liquidityAdded.toList then readPayload .liquidityAdded LiquidityAdded.deserialize payload
  else if eventDisc = discs.liquidityRemoved.toList then
    readPayload .liquidityRemoved LiquidityRemoved.deserialize payload
  else .error .unknownDiscriminator

def tryDecodeEvent (data : Bytes) (discs : Discriminators) : Except DecodeError DeepPoolEvent :=
  if data.length < 16 then .error .tooShort
  else if data.take 8 ≠ eventIxTagLe then .error .unknownDiscriminator
  else
    match readEvent discs ((data.drop 8).take 8) (data.drop 16) with
    | .error error => .error error
    | .ok (event, payload) => if payload ≠ [] then .error .trailingBytes else .ok event

end DeepPool.Indexer
