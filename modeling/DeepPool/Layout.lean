import DeepPool.Library.Borsh
import DeepPool.State
import DeepPool.Indexer.Decoder

/-! The data of a pool account: the discriminator and the fields in declaration order. -/

namespace DeepPool
open Library
open Indexer (Bytes Pubkey Discriminator BorshError Deserialize readKey)

/-- The first eight bytes of the SHA-256 of `account:Pool`. -/
def poolDiscriminator : Discriminator := #v[241, 154, 109, 4, 17, 177, 109, 188]

def readWord (count : Nat) : Deserialize (Word (8 * count)) := Reader.word count .unexpectedLength

namespace Observation

def serialize (observation : Observation) : Bytes :=
  Word.toBytes 8 observation.slot ++ Word.toBytes 16 observation.cumSolPerTok ++ Word.toBytes 16 observation.cumTokPerSol

def deserialize : Deserialize Observation := do
  let slot ← readWord 8
  let cumSolPerTok ← readWord 16
  let cumTokPerSol ← readWord 16
  return { slot, cumSolPerTok, cumTokPerSol }

end Observation

inductive AccountError where
  | discriminatorNotFound
  | discriminatorMismatch
  | didNotDeserialize
  deriving DecidableEq

namespace Pool

/-- `Pool::LEN` -/
def len : Nat := 835

def serialize (pool : Pool Pubkey) : Bytes :=
  pool.config.toList ++ pool.tokenMint.toList ++ pool.tokenVault.toList ++ pool.lpMint.toList ++
    Word.toBytes 8 pool.initialSol ++ Word.toBytes 8 pool.initialTokens ++ Word.toBytes 1 pool.bump ++
    Word.toBytes 16 pool.cumSolPerTok ++ Word.toBytes 16 pool.cumTokPerSol ++ Word.toBytes 8 pool.lastCumSlot ++
    pool.observations.toList.flatMap Observation.serialize ++ Word.toBytes 2 pool.obsHead

def deserialize : Deserialize (Pool Pubkey) := do
  let config ← readKey
  let tokenMint ← readKey
  let tokenVault ← readKey
  let lpMint ← readKey
  let initialSol ← readWord 8
  let initialTokens ← readWord 8
  let bump ← readWord 1
  let cumSolPerTok ← readWord 16
  let cumTokPerSol ← readWord 16
  let lastCumSlot ← readWord 8
  let observations ← Observation.deserialize.array twapRingSize
  let obsHead ← readWord 2
  return {
    config, tokenMint, tokenVault, lpMint, initialSol, initialTokens, bump, cumSolPerTok, cumTokPerSol, lastCumSlot
    observations, obsHead }

/-- What the account holds. -/
def data (pool : Pool Pubkey) : Bytes := poolDiscriminator.toList ++ pool.serialize

/-- `try_deserialize`. Bytes after the last field are left alone. -/
def tryDeserialize (data : Bytes) : Except AccountError (Pool Pubkey) :=
  if data.length < 8 then .error .discriminatorNotFound
  else if data.take 8 ≠ poolDiscriminator.toList then .error .discriminatorMismatch
  else
    match deserialize.run (data.drop 8) with
    | .ok (pool, _) => .ok pool
    | .error _ => .error .didNotDeserialize

end Pool
end DeepPool
