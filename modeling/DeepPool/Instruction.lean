import DeepPool.Indexer.Wire
import DeepPool.Program

/-! What is sent to the network. The data of an instruction chooses the handler and holds its
arguments, and the accounts come in the order of their declaration. -/

namespace DeepPool
open Library
open Indexer (Bytes Discriminator Deserialize readU64 readBool)

structure AccountMeta (Key : Type) where
  pubkey : Key
  isSigner : Bool
  isWritable : Bool

structure Instruction (Key : Type) where
  programId : Key
  accounts : List (AccountMeta Key)
  data : Bytes

/-- The addresses that instructions take besides the accounts that they are about. -/
structure Programs (Key : Type) where
  deepPool : Key
  eventAuthority : Key
  token : Key
  token2022 : Key
  associatedToken : Key
  system : Key

def Programs.tokenProgram {Key : Type} (programs : Programs Key) : TokenProgram → Key
  | .token => programs.token
  | .token2022 => programs.token2022

section Rename
variable {Key Name : Type} (naming : Key → Name)

def AccountMeta.rename (account : AccountMeta Key) : AccountMeta Name := { account with pubkey := naming account.pubkey }

def Instruction.rename (instruction : Instruction Key) : Instruction Name :=
  { instruction with
    programId := naming instruction.programId
    accounts := instruction.accounts.map (AccountMeta.rename naming) }

def Programs.rename (programs : Programs Key) : Programs Name :=
  { deepPool := naming programs.deepPool
    eventAuthority := naming programs.eventAuthority
    token := naming programs.token
    token2022 := naming programs.token2022
    associatedToken := naming programs.associatedToken
    system := naming programs.system }

end Rename

/-- What an instruction of the program asks for. -/
inductive Call (Key : Type) where
  | createPool (accounts : Program.CreatePool Key) (args : CreatePoolArgs)
  | swap (accounts : Program.Swap Key) (args : SwapArgs)
  | addLiquidity (accounts : Program.AddLiquidity Key) (args : AddLiquidityArgs)
  | removeLiquidity (accounts : Program.RemoveLiquidity Key) (args : RemoveLiquidityArgs)

def Call.action {Key : Type} : Call Key → Program.Action Key
  | .createPool accounts args => .createPool accounts args
  | .swap accounts args => .swap accounts args
  | .addLiquidity accounts args => .addLiquidity accounts args
  | .removeLiquidity accounts args => .removeLiquidity accounts args

/-- All errors about an account are one here. -/
inductive EntryError where
  | declaredProgramIdMismatch
  | instructionFallbackNotFound
  | instructionDidNotDeserialize
  | account
  deriving DecidableEq

/-! The arguments (`AnchorDeserialize`). -/

def CreatePoolArgs.deserialize : Deserialize CreatePoolArgs := do
  let initialTokenAmount ← readU64
  let initialSolAmount ← readU64
  return { initialTokenAmount, initialSolAmount }

def SwapArgs.deserialize : Deserialize SwapArgs := do
  let amountIn ← readU64
  let minimumOut ← readU64
  let buy ← readBool
  return { amountIn, minimumOut, buy }

def AddLiquidityArgs.deserialize : Deserialize AddLiquidityArgs := do
  let tokenAmount ← readU64
  let maxSolAmount ← readU64
  let minLpOut ← readU64
  return { tokenAmount, maxSolAmount, minLpOut }

def RemoveLiquidityArgs.deserialize : Deserialize RemoveLiquidityArgs := do
  let lpAmount ← readU64
  let minSolOut ← readU64
  let minTokensOut ← readU64
  return { lpAmount, minSolOut, minTokensOut }

/-! The accounts (`Accounts::try_accounts`), as far as an instruction alone decides. -/

abbrev Accounts (Key : Type) := Reader (AccountMeta Key) EntryError

/-- The next account, as `Signer` and `mut` want it. -/
def nextAccount {Key : Type} (signer writable : Bool) : Accounts Key Key := fun accounts =>
  match accounts with
  | [] => .error .account
  | account :: rest =>
    if (signer = true → account.isSigner = true) ∧ (writable = true → account.isWritable = true) then
      .ok (account.pubkey, rest)
    else .error .account

section TryAccounts
variable {Key : Type} [DecidableEq Key] (programs : Programs Key)

/-- An account that can only be this one. -/
def fixedAccount (key : Key) : Accounts Key Unit := do
  let found ← nextAccount false false
  if found = key then return () else throw .account

/-- `Interface<TokenInterface>` -/
def tokenInterface : Accounts Key TokenProgram := do
  let found ← nextAccount false false
  if found = programs.token then return .token
  else if found = programs.token2022 then return .token2022
  else throw .account

/-- The two accounts that `event_cpi` adds. Nothing is asked of the second. -/
def eventCpi : Accounts Key Unit := do
  fixedAccount programs.eventAuthority
  let _ ← nextAccount false false

def Program.CreatePool.tryAccounts : Accounts Key (Program.CreatePool Key) := do
  let creator ← nextAccount true true
  let solSource ← nextAccount true true
  let config ← nextAccount true false
  let tokenMint ← nextAccount false false
  let pool ← nextAccount false true
  let tokenVault ← nextAccount false true
  let lpMint ← nextAccount false true
  let creatorTokenAccount ← nextAccount false true
  let creatorLpAccount ← nextAccount false true
  let poolLpAccount ← nextAccount false true
  let tokenProgram ← tokenInterface programs
  fixedAccount programs.associatedToken
  fixedAccount programs.system
  eventCpi programs
  return {
    creator, solSource, config, tokenMint, pool, tokenVault, lpMint, creatorTokenAccount, creatorLpAccount
    poolLpAccount, tokenProgram }

def Program.Swap.tryAccounts : Accounts Key (Program.Swap Key) := do
  let user ← nextAccount true true
  let solSource ← nextAccount true true
  let pool ← nextAccount false true
  let tokenMint ← nextAccount false false
  let tokenVault ← nextAccount false true
  let userTokenAccount ← nextAccount false true
  let tokenProgram ← tokenInterface programs
  fixedAccount programs.system
  eventCpi programs
  return { user, solSource, pool, tokenMint, tokenVault, userTokenAccount, tokenProgram }

def Program.AddLiquidity.tryAccounts : Accounts Key (Program.AddLiquidity Key) := do
  let provider ← nextAccount true true
  let pool ← nextAccount false true
  let tokenMint ← nextAccount false false
  let tokenVault ← nextAccount false true
  let lpMint ← nextAccount false true
  let providerTokenAccount ← nextAccount false true
  let providerLpAccount ← nextAccount false true
  let poolLpAccount ← nextAccount false true
  let tokenProgram ← tokenInterface programs
  fixedAccount programs.associatedToken
  fixedAccount programs.system
  eventCpi programs
  return {
    provider, pool, tokenMint, tokenVault, lpMint, providerTokenAccount, providerLpAccount, poolLpAccount
    tokenProgram }

def Program.RemoveLiquidity.tryAccounts : Accounts Key (Program.RemoveLiquidity Key) := do
  let provider ← nextAccount true true
  let pool ← nextAccount false true
  let tokenMint ← nextAccount false false
  let tokenVault ← nextAccount false true
  let lpMint ← nextAccount false true
  let providerTokenAccount ← nextAccount false true
  let providerLpAccount ← nextAccount false true
  let tokenProgram ← tokenInterface programs
  fixedAccount programs.associatedToken
  fixedAccount programs.system
  eventCpi programs
  return { provider, pool, tokenMint, tokenVault, lpMint, providerTokenAccount, providerLpAccount, tokenProgram }

end TryAccounts

/-- The first eight bytes of the SHA-256 of `global:create_pool` and so on. -/
def createPoolDiscriminator : Discriminator := #v[233, 146, 209, 142, 207, 104, 64, 188]
def addLiquidityDiscriminator : Discriminator := #v[181, 157, 89, 67, 143, 182, 52, 72]
def removeLiquidityDiscriminator : Discriminator := #v[80, 85, 209, 72, 24, 206, 177, 108]
def swapDiscriminator : Discriminator := #v[248, 198, 158, 145, 225, 117, 135, 200]

section Entry
variable {Key Args Ctx : Type} [DecidableEq Key] (programs : Programs Key)

/-- One handler's wrapper: the arguments first, then the accounts. More of either is left alone.
The handler ends in a call of the program to itself, which has to be among the accounts. -/
def wrapper (deserialize : Deserialize Args) (tryAccounts : Accounts Key Ctx) (make : Ctx → Args → Call Key) (data : Bytes)
    (accounts : List (AccountMeta Key)) : Except EntryError (Call Key) :=
  match deserialize.run data with
  | .error _ => .error .instructionDidNotDeserialize
  | .ok (args, _) => do
    let (ctx, _) ← tryAccounts.run accounts
    assure (programs.deepPool ∈ accounts.map AccountMeta.pubkey) .account
    return make ctx args

/-- The program's entry (`#[program]`), without Anchor's own instructions. -/
def entry (instruction : Instruction Key) : Except EntryError (Call Key) := do
  assure (instruction.programId = programs.deepPool) .declaredProgramIdMismatch
  let disc := instruction.data.take 8
  let data := instruction.data.drop 8
  if disc = createPoolDiscriminator.toList then
    wrapper programs CreatePoolArgs.deserialize (Program.CreatePool.tryAccounts programs) .createPool data
      instruction.accounts
  else if disc = addLiquidityDiscriminator.toList then
    wrapper programs AddLiquidityArgs.deserialize (Program.AddLiquidity.tryAccounts programs) .addLiquidity data
      instruction.accounts
  else if disc = removeLiquidityDiscriminator.toList then
    wrapper programs RemoveLiquidityArgs.deserialize (Program.RemoveLiquidity.tryAccounts programs) .removeLiquidity data
      instruction.accounts
  else if disc = swapDiscriminator.toList then
    wrapper programs SwapArgs.deserialize (Program.Swap.tryAccounts programs) .swap data instruction.accounts
  else .error .instructionFallbackNotFound

end Entry

/-- What the idempotent creation of an associated account takes. -/
structure CreateAssociated (Key : Type) where
  payer : Key
  account : Key
  owner : Key
  mint : Key
  tokenProgram : TokenProgram

/-- The keys that an instruction marks as signers all sign. -/
def Instruction.Signed {Key : Type} (derive : Derivation Key) (instruction : Instruction Key) : Prop :=
  ∀ account ∈ instruction.accounts, account.isSigner = true → derive.signs account.pubkey = true

instance {Key : Type} (derive : Derivation Key) (instruction : Instruction Key) : Decidable (instruction.Signed derive) :=
  inferInstanceAs (Decidable (∀ account ∈ instruction.accounts, account.isSigner = true → derive.signs account.pubkey = true))

inductive InstructionError where
  | missingRequiredSignature
  | unsupportedProgramId
  | entry (error : EntryError)
  | refused (refusal : Program.Refusal)
  deriving DecidableEq

section Process
variable {Key : Type} [DecidableEq Key] (programs : Programs Key) (derive : Derivation Key) (rents : Rents Key)

def CreateAssociated.tryAccounts : Accounts Key (CreateAssociated Key) := do
  let payer ← nextAccount true true
  let account ← nextAccount false true
  let owner ← nextAccount false false
  let mint ← nextAccount false false
  fixedAccount programs.system
  let tokenProgram ← tokenInterface programs
  return { payer, account, owner, mint, tokenProgram }

/-- The associated token program. An account that is there already only has to be the right one. -/
def CreateAssociated.handler (world : World Key) (accounts : CreateAssociated Key) : Except Program.Refusal (World Key) := do
  let kind ← Program.initialized (world.mints accounts.mint)
  assure (kind.program = accounts.tokenProgram) (.constraint .tokenProgram)
  if (world.tokenAccounts accounts.account).isNone then
    let _ ← (tokenAccountExtensions kind.data).mapError .program
  Program.initAssociated derive world rents accounts.tokenProgram accounts.payer accounts.account accounts.mint
    accounts.owner

/-- One instruction of a transaction. Other programs are not called directly here. -/
def process (world : World Key) (instruction : Instruction Key) :
    Except InstructionError (World Key × Option (DeepPoolEvent Key)) := do
  assure (instruction.Signed derive) .missingRequiredSignature
  if instruction.programId = programs.deepPool then
    let call ← (entry programs instruction).mapError .entry
    (Program.step derive rents world call.action).mapError .refused
  else if instruction.programId = programs.associatedToken ∧ instruction.data = [1] then
    let (accounts, _) ← ((CreateAssociated.tryAccounts programs).run instruction.accounts).mapError .entry
    let made ← (accounts.handler derive rents world).mapError .refused
    return (made, none)
  else throw .unsupportedProgramId

/-- A transaction: its instructions in order, all of them or none. -/
def transact (world : World Key) (instructions : List (Instruction Key)) :
    Except InstructionError (World Key × List (DeepPoolEvent Key)) := do
  let (after, trace) ← execute (process programs derive rents) world instructions
  return (after, trace.filterMap Prod.snd)

end Process
end DeepPool
