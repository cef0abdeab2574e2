import DeepPool.State
import DeepPool.Library.Ledger

/-! The accounts that one pool's instructions touch, and the system and token
programs' operations on them. Account constraints that only identify an account
(seeds, addresses, associated token accounts) hold by construction: the pool PDA
owns exactly the vault and the locked LP account, and a wallet is its own key with
the associated accounts of both mints. -/

namespace DeepPool
open Library

inductive Owner (Key : Type) where
  | pool
  | wallet (key : Key)
  deriving DecidableEq

/-- What the mint's active Token-2022 configuration withholds from a transfer. -/
structure TransferFee where
  fee : U64 → U64
  le : ∀ amount, (fee amount).val ≤ amount.val

def TransferFee.net (transferFee : TransferFee) (amount : U64) : U64 := amount.saturatingSub (transferFee.fee amount)

def TransferFee.none : TransferFee := ⟨fun _ => 0, fun _ => Nat.zero_le _⟩

/-- Token-2022's own formula: a rate in basis points, rounded up, with a cap. -/
def TransferFee.rate (bps : Fin 10001) (maximum : U64) : TransferFee :=
  have small : ∀ amount : U64, min ((amount.val * bps.val + 9999) / 10000) maximum.val ≤ amount.val := by
    intro amount
    have scaled := Nat.mul_le_mul_left amount.val (Nat.le_of_lt_succ bps.isLt)
    omega
  { fee := fun amount =>
      ⟨min ((amount.val * bps.val + 9999) / 10000) maximum.val, Nat.lt_of_le_of_lt (small amount) amount.isLt⟩
    le := small }

/-- `tokens .pool` is the vault and `lp.balance .pool` the locked LP. -/
structure Chain (Key : Type) where
  slot : U64
  address : Key
  pool : Pool Key
  lamports : Balances (Owner Key) 64
  tokens : Balances (Owner Key) 64
  lp : Ledger (Owner Key) 64

namespace Chain
variable {Key : Type}

/-- `Pool::sol_reserve`: PDA lamports above the rent-exempt minimum, saturating. -/
def solReserve (rent : U64) (chain : Chain Key) : U64 := (chain.lamports .pool).saturatingSub rent

def tokenReserve (chain : Chain Key) : U64 := chain.tokens .pool

def locked (chain : Chain Key) : U64 := chain.lp.balance .pool

def solWallets (chain : Chain Key) : Balances Key 64 := fun key => chain.lamports (.wallet key)

def tokenWallets (chain : Chain Key) : Balances Key 64 := fun key => chain.tokens (.wallet key)

variable [DecidableEq Key]

def systemTransfer (chain : Chain Key) (source dest : Owner Key) (amount : U64) : Except ProgramError (Chain Key) := do
  let lamports ← orFail (chain.lamports.transfer source dest amount amount) .system
  return { chain with lamports }

def transferChecked (transferFee : TransferFee) (chain : Chain Key) (source dest : Owner Key) (amount : U64) :
    Except ProgramError (Chain Key) := do
  let tokens ← orFail (chain.tokens.transfer source dest amount (transferFee.net amount)) .token
  return { chain with tokens }

def mintTo (chain : Chain Key) (dest : Owner Key) (amount : U64) : Except ProgramError (Chain Key) := do
  let lp ← orFail (chain.lp.mint dest amount) .token
  return { chain with lp }

def burn (chain : Chain Key) (source : Owner Key) (amount : U64) : Except ProgramError (Chain Key) := do
  let lp ← orFail (chain.lp.burn source amount) .token
  return { chain with lp }

def subLamports (chain : Chain Key) (source : Owner Key) (amount : U64) : Except ProgramError (Chain Key) := do
  let lamports ← orFail (chain.lamports.debit source amount) .panicked
  return { chain with lamports }

def addLamports (chain : Chain Key) (dest : Owner Key) (amount : U64) : Except ProgramError (Chain Key) := do
  let lamports ← orFail (chain.lamports.credit dest amount) .panicked
  return { chain with lamports }

end Chain
end DeepPool
