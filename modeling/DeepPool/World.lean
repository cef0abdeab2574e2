import DeepPool.Chain
import DeepPool.Instructions.CreatePool

/-! Every account there is, under its own address: wallets, pool accounts, mints and
token accounts, with the system and token programs' operations on them. A chain is
what one pool and the parties around it see of this. -/

namespace DeepPool
open Library

inductive TokenProgram where
  | token
  | token2022
  deriving DecidableEq

/-- The seeds of the program's own addresses (`constants.rs`). -/
inductive Seeds (Key : Type) where
  | pool (config tokenMint : Key)
  | vault (pool : Key)
  | lpMint (pool : Key)
  deriving DecidableEq

/-- Derived addresses do not collide and nobody holds a private key to one. `signs` are
the keys that can sign an instruction: key pairs and addresses of other programs. Anybody may
burn what belongs to one of `incinerates`: the system program and the incinerator. -/
structure Derivation (Key : Type) where
  programAddress : Seeds Key → Word 8 → Option Key
  findProgramAddress : Seeds Key → Option (Key × Word 8)
  associated : TokenProgram → Key → Key → Key
  signs : Key → Bool
  incinerates : Key → Bool
  found : ∀ {seeds key bump}, findProgramAddress seeds = some (key, bump) → programAddress seeds bump = some key
  associated_inj : ∀ {first second wallet other mint otherMint},
    associated first wallet mint = associated second other otherMint → wallet = other ∧ mint = otherMint
  apart : ∀ {seeds bump program wallet mint}, programAddress seeds bump ≠ some (associated program wallet mint)
  programAddress_silent : ∀ {seeds bump key}, programAddress seeds bump = some key → signs key = false
  programAddress_kept : ∀ {seeds bump key}, programAddress seeds bump = some key → incinerates key = false
  associated_silent : ∀ {program wallet mint}, signs (associated program wallet mint) = false
  incinerates_silent : ∀ {key}, incinerates key = true → signs key = false

structure TokenAccount (Key : Type) where
  mint : Key
  owner : Key
  deriving DecidableEq

/-- `Account::delegate` and `Account::delegated_amount`. -/
structure Approval (Key : Type) where
  delegate : Key
  amount : U64
  deriving DecidableEq

/-- What others may do with a token account, and whether it is frozen. -/
structure Standing (Key : Type) where
  delegate : Option (Approval Key)
  closeAuthority : Option Key
  frozen : Bool
  deriving DecidableEq

def Standing.initial {Key : Type} : Standing Key := ⟨none, none, false⟩

structure Mint (Key : Type) where
  program : TokenProgram
  authority : Option Key
  freezeAuthority : Option Key
  feeAuthority : Option Key
  data : MintAccount
  transferFee : TransferFee

/-- A pool's LP mint. Nobody can freeze its accounts. -/
def Mint.ofPool {Key : Type} (pool : Key) : Mint Key :=
  { program := .token2022
    authority := some pool
    freezeAuthority := none
    feeAuthority := none
    data := { unpacks := true, entries := [] }
    transferFee := TransferFee.none }

/-- The extension that lets its holder move everybody's tokens. -/
def MintAccount.delegated (data : MintAccount) : Bool := data.entries.contains (.known .permanentDelegate)

/-- A balance of an account that does not exist is zero, and so is a supply. An account
withholds what a transfer to it costs, beside its amount, until this is harvested to the mint. -/
structure World (Key : Type) where
  slot : U64
  lamports : Balances Key 64
  pools : Key → Option (Pool Key)
  mints : Key → Option (Mint Key)
  supplies : Balances Key 64
  tokenAccounts : Key → Option (TokenAccount Key)
  amounts : Balances Key 64
  withheld : Balances Key 64
  harvested : Balances Key 64
  standing : Key → Standing Key

/-- The rent minimum of each kind of account; a token account's length depends on its mint. -/
structure Rents (Key : Type) where
  pool : U64
  mint : U64
  tokenAccount : Key → U64

def assure {Failure : Type} (condition : Prop) [Decidable condition] (failure : Failure) : Except Failure Unit :=
  if condition then .ok () else .error failure

namespace World
variable {Key : Type}

/-- Nothing but lamports is stored here. -/
def vacant (world : World Key) (key : Key) : Prop :=
  world.pools key = none ∧ world.mints key = none ∧ world.tokenAccounts key = none

instance (world : World Key) (key : Key) : Decidable (world.vacant key) :=
  decidable_of_iff ((world.pools key).isNone ∧ (world.mints key).isNone ∧ (world.tokenAccounts key).isNone)
    (by simp [vacant])

/-- `Pool::sol_reserve`: lamports above the rent-exempt minimum, saturating. -/
def solReserve (rents : Rents Key) (world : World Key) (key : Key) : U64 := (world.lamports key).saturatingSub rents.pool

variable [DecidableEq Key]

def setPool (world : World Key) (key : Key) (pool : Pool Key) : World Key :=
  { world with pools := Function.update world.pools key (some pool) }

/-- The system program moves lamports only out of accounts that hold nothing else. -/
def systemTransfer (world : World Key) (source dest : Key) (amount : U64) : Except ProgramError (World Key) := do
  assure (world.vacant source) .system
  let lamports ← orFail (world.lamports.transfer source dest amount amount) .system
  return { world with lamports }

def subLamports (world : World Key) (source : Key) (amount : U64) : Except ProgramError (World Key) := do
  let lamports ← orFail (world.lamports.debit source amount) .panicked
  return { world with lamports }

def addLamports (world : World Key) (dest : Key) (amount : U64) : Except ProgramError (World Key) := do
  let lamports ← orFail (world.lamports.credit dest amount) .panicked
  return { world with lamports }

/-- What is left of an approval when this much is spent: a delegate draws on it, the owner and
the holder of the mint's extension do not. -/
def drawn (owner : Key) (delegated : Bool) (approval : Option (Approval Key)) (authority : Key) (amount : U64) :
    Option (Option (Approval Key)) :=
  if delegated = true then some approval
  else match approval.filter fun given => given.delegate = authority with
    | some given => (given.amount.checkedSub amount).map fun left =>
        if left = 0 then none else some { given with amount := left }
    | none => if owner = authority then some approval else none

def setStanding (world : World Key) (key : Key) (standing : Standing Key) : World Key :=
  { world with standing := Function.update world.standing key standing }

def setDelegate (world : World Key) (key : Key) (delegate : Option (Approval Key)) : World Key :=
  world.setStanding key { world.standing key with delegate }

/-- An account of this mint that tokens may enter and leave. -/
def usable (world : World Key) (key mint : Key) : Except ProgramError (TokenAccount Key) := do
  let account ← orFail (world.tokenAccounts key) .token
  assure (account.mint = mint) .token
  assure ((world.standing key).frozen = false) .token
  return account

/-- The mint of an account that the authority may spend this much from, with the approval left. -/
def spendable (world : World Key) (source mint authority : Key) (amount : U64) :
    Except ProgramError (Mint Key × Option (Approval Key)) := do
  let account ← world.usable source mint
  let kind ← orFail (world.mints mint) .token
  let left ← orFail (drawn account.owner kind.data.delegated (world.standing source).delegate authority amount) .token
  return (kind, left)

/-- A transfer of an account to itself changes nothing. -/
def transferChecked (world : World Key) (source mint dest authority : Key) (amount : U64) :
    Except ProgramError (World Key) := do
  let (kind, left) ← world.spendable source mint authority amount
  let _ ← world.usable dest mint
  if source = dest then
    assure (amount.val ≤ (world.amounts source).val) .token
    return world
  else
    let amounts ← orFail (world.amounts.transfer source dest amount (kind.transferFee.net amount)) .token
    let withheld ← orFail (world.withheld.credit dest (kind.transferFee.fee amount)) .token
    return { world.setDelegate source left with amounts, withheld }

def mintTo (world : World Key) (mint dest authority : Key) (amount : U64) : Except ProgramError (World Key) := do
  let kind ← orFail (world.mints mint) .token
  let _ ← world.usable dest mint
  assure (kind.authority = some authority) .token
  let amounts ← orFail (world.amounts.credit dest amount) .token
  let supplies ← orFail (world.supplies.credit mint amount) .token
  return { world with amounts, supplies }

/-- Tokens are gone, from the account and from the supply. -/
def retire (world : World Key) (mint source : Key) (amount : U64) : Except ProgramError (World Key) := do
  let amounts ← orFail (world.amounts.debit source amount) .token
  let supplies ← orFail (world.supplies.debit mint amount) .token
  return { world with amounts, supplies }

def burn (world : World Key) (mint source authority : Key) (amount : U64) : Except ProgramError (World Key) := do
  let (_, left) ← world.spendable source mint authority amount
  (world.setDelegate source left).retire mint source amount

/-- A burn that nobody has to agree to. -/
def incinerate (world : World Key) (mint source : Key) (amount : U64) : Except ProgramError (World Key) := do
  let _ ← world.usable source mint
  let _ ← orFail (world.mints mint) .token
  world.retire mint source amount

/-- An account of a mint that can have a transfer fee, which one without extensions cannot. -/
def charged (world : World Key) (key mint : Key) : Except ProgramError (TokenAccount Key) := do
  let kind ← orFail (world.mints mint) .token
  assure (kind.data.entries ≠ []) .token
  let account ← orFail (world.tokenAccounts key) .token
  assure (account.mint = mint) .token
  return account

/-- What an account has withheld goes to its mint, whoever asks. -/
def harvestFees (world : World Key) (source mint : Key) : Except ProgramError (World Key) := do
  let _ ← world.charged source mint
  let harvested ← orFail (world.harvested.credit mint (world.withheld source)) .token
  return { world with harvested, withheld := Function.update world.withheld source 0 }

/-- From there it goes to any account of the mint that the fees' authority names. -/
def withdrawFees (world : World Key) (mint dest : Key) : Except ProgramError (World Key) := do
  let _ ← world.charged dest mint
  assure ((world.standing dest).frozen = false) .token
  let amounts ← orFail (world.amounts.credit dest (world.harvested mint)) .token
  return { world with amounts, harvested := Function.update world.harvested mint 0 }

/-- Or at once. -/
def collectFees (world : World Key) (source mint dest : Key) : Except ProgramError (World Key) := do
  let _ ← world.charged source mint
  let _ ← world.usable dest mint
  let amounts ← orFail (world.amounts.credit dest (world.withheld source)) .token
  return { world with amounts, withheld := Function.update world.withheld source 0 }

/-- What an account lacks to the rent minimum, paid by another. -/
def payRent (world : World Key) (payer key : Key) (rent : U64) : Except ProgramError (World Key) :=
  let required := rent.saturatingSub (world.lamports key)
  if 0 < required.val then world.systemTransfer payer key required else .ok world

def openAccount (world : World Key) (key : Key) (account : TokenAccount Key) : Except ProgramError (World Key) := do
  assure (world.vacant key) .system
  let _ ← orFail (world.mints account.mint) .token
  return { world with tokenAccounts := Function.update world.tokenAccounts key (some account) }

def openMint (world : World Key) (key : Key) (mint : Mint Key) : Except ProgramError (World Key) := do
  assure (world.vacant key) .system
  return { world with mints := Function.update world.mints key (some mint) }

end World
end DeepPool
