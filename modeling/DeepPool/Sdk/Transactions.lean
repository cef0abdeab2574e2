import DeepPool.Instruction
import DeepPool.Sdk.Pools

/-! `transactions.ts`: instructions from the keys and the amounts that a client names. Every
other account is derived. -/

namespace DeepPool.Sdk
open Library
open Indexer (toLeBytes boolByte)

inductive InstructionKey where
  | creator
  | user
  | provider
  | solSource
  | config
  | tokenMint
  | pool
  | tokenVault
  | lpMint
  | creatorTokenAccount
  | creatorLpAccount
  | userTokenAccount
  | providerTokenAccount
  | providerLpAccount
  | poolLpAccount
  | tokenProgram
  | associatedTokenProgram
  | systemProgram
  | eventAuthority
  | program
  deriving DecidableEq

/-! What `BorshCoder` makes of a name and its arguments. -/

def encodeCreatePool (args : CreatePoolArgs) : Indexer.Bytes :=
  createPoolDiscriminator.toList ++ (toLeBytes args.initialTokenAmount ++ toLeBytes args.initialSolAmount)

def encodeSwap (args : SwapArgs) : Indexer.Bytes :=
  swapDiscriminator.toList ++ (toLeBytes args.amountIn ++ (toLeBytes args.minimumOut ++ boolByte args.buy))

def encodeAddLiquidity (args : AddLiquidityArgs) : Indexer.Bytes :=
  addLiquidityDiscriminator.toList ++
    (toLeBytes args.tokenAmount ++ (toLeBytes args.maxSolAmount ++ toLeBytes args.minLpOut))

def encodeRemoveLiquidity (args : RemoveLiquidityArgs) : Indexer.Bytes :=
  removeLiquidityDiscriminator.toList ++
    (toLeBytes args.lpAmount ++ (toLeBytes args.minSolOut ++ toLeBytes args.minTokensOut))

section Instructions
variable {Key : Type} (programs : Programs Key)

def buildInstruction (data : Indexer.Bytes) (accounts : List (InstructionKey × Key)) : Instruction Key where
  programId := programs.deepPool
  accounts := accounts.map fun (key, pubkey) =>
    { pubkey
      isSigner := key ∈ [.creator, .provider, .user, .solSource, .config]
      isWritable := key ∉ [.tokenProgram, .associatedTokenProgram, .systemProgram, .tokenMint, .config, .eventAuthority,
        .program] }
  data

def createPoolInstruction (accounts : Program.CreatePool Key) (args : CreatePoolArgs) : Instruction Key :=
  buildInstruction programs (encodeCreatePool args) [
    (.creator, accounts.creator),
    (.solSource, accounts.solSource),
    (.config, accounts.config),
    (.tokenMint, accounts.tokenMint),
    (.pool, accounts.pool),
    (.tokenVault, accounts.tokenVault),
    (.lpMint, accounts.lpMint),
    (.creatorTokenAccount, accounts.creatorTokenAccount),
    (.creatorLpAccount, accounts.creatorLpAccount),
    (.poolLpAccount, accounts.poolLpAccount),
    (.tokenProgram, programs.tokenProgram accounts.tokenProgram),
    (.associatedTokenProgram, programs.associatedToken),
    (.systemProgram, programs.system),
    (.eventAuthority, programs.eventAuthority),
    (.program, programs.deepPool)]

def swapInstruction (accounts : Program.Swap Key) (args : SwapArgs) : Instruction Key :=
  buildInstruction programs (encodeSwap args) [
    (.user, accounts.user),
    (.solSource, accounts.solSource),
    (.pool, accounts.pool),
    (.tokenMint, accounts.tokenMint),
    (.tokenVault, accounts.tokenVault),
    (.userTokenAccount, accounts.userTokenAccount),
    (.tokenProgram, programs.tokenProgram accounts.tokenProgram),
    (.systemProgram, programs.system),
    (.eventAuthority, programs.eventAuthority),
    (.program, programs.deepPool)]

def addLiquidityInstruction (accounts : Program.AddLiquidity Key) (args : AddLiquidityArgs) : Instruction Key :=
  buildInstruction programs (encodeAddLiquidity args) [
    (.provider, accounts.provider),
    (.pool, accounts.pool),
    (.tokenMint, accounts.tokenMint),
    (.tokenVault, accounts.tokenVault),
    (.lpMint, accounts.lpMint),
    (.providerTokenAccount, accounts.providerTokenAccount),
    (.providerLpAccount, accounts.providerLpAccount),
    (.poolLpAccount, accounts.poolLpAccount),
    (.tokenProgram, programs.tokenProgram accounts.tokenProgram),
    (.associatedTokenProgram, programs.associatedToken),
    (.systemProgram, programs.system),
    (.eventAuthority, programs.eventAuthority),
    (.program, programs.deepPool)]

def removeLiquidityInstruction (accounts : Program.RemoveLiquidity Key) (args : RemoveLiquidityArgs) : Instruction Key :=
  buildInstruction programs (encodeRemoveLiquidity args) [
    (.provider, accounts.provider),
    (.pool, accounts.pool),
    (.tokenMint, accounts.tokenMint),
    (.tokenVault, accounts.tokenVault),
    (.lpMint, accounts.lpMint),
    (.providerTokenAccount, accounts.providerTokenAccount),
    (.providerLpAccount, accounts.providerLpAccount),
    (.tokenProgram, programs.tokenProgram accounts.tokenProgram),
    (.associatedTokenProgram, programs.associatedToken),
    (.systemProgram, programs.system),
    (.eventAuthority, programs.eventAuthority),
    (.program, programs.deepPool)]

def createAssociatedTokenAccountIdempotentInstruction (accounts : CreateAssociated Key) : Instruction Key where
  programId := programs.associatedToken
  accounts := [
    ⟨accounts.payer, true, true⟩,
    ⟨accounts.account, false, true⟩,
    ⟨accounts.owner, false, false⟩,
    ⟨accounts.mint, false, false⟩,
    ⟨programs.system, false, false⟩,
    ⟨programs.tokenProgram accounts.tokenProgram, false, false⟩]
  data := [1]

end Instructions

def programId : Pubkey :=
  #v[172, 165, 55, 148, 179, 161, 119, 239, 111, 141, 155, 156, 26, 15, 23, 207, 135, 238, 124, 167, 57, 91, 164, 202,
    110, 92, 38, 127, 232, 35, 195, 200]

def tokenProgramId : Pubkey :=
  #v[6, 221, 246, 225, 215, 101, 161, 147, 217, 203, 225, 70, 206, 235, 121, 172, 28, 180, 133, 237, 95, 91, 55, 145, 58,
    140, 245, 133, 126, 255, 0, 169]

def token2022ProgramId : Pubkey :=
  #v[6, 221, 246, 225, 238, 117, 143, 222, 24, 66, 93, 188, 228, 108, 205, 218, 182, 26, 252, 77, 131, 185, 13, 39, 254,
    189, 249, 40, 216, 161, 139, 252]

def associatedTokenProgramId : Pubkey :=
  #v[140, 151, 37, 143, 78, 36, 137, 241, 187, 61, 16, 41, 20, 142, 13, 131, 11, 90, 19, 153, 218, 255, 16, 132, 4, 142,
    123, 216, 219, 233, 248, 89]

def systemProgramId : Pubkey := Vector.replicate 32 0

/-- What `web3.js` and `spl-token` compute. -/
structure Web3 where
  find : Seeds Pubkey → Option (Pubkey × Word 8)
  associated : TokenProgram → Pubkey → Pubkey → Pubkey
  isOnCurve : Pubkey → Bool
  eventAuthority : Pubkey

namespace Web3
variable (web3 : Web3)

def programs : Programs Pubkey where
  deepPool := programId
  eventAuthority := web3.eventAuthority
  token := tokenProgramId
  token2022 := token2022ProgramId
  associatedToken := associatedTokenProgramId
  system := systemProgramId

def getAssociatedTokenAddressSync (mint owner : Pubkey) (allowOwnerOffCurve : Bool) : Except SdkError Pubkey := do
  assure (allowOwnerOffCurve = true ∨ web3.isOnCurve owner = true) .tokenOwnerOffCurve
  return web3.associated .token2022 owner mint

end Web3

/-- `new BN` of a whole number. -/
def bigNumber (value : Nat) : Except SdkError U64 :=
  if safe : value < 2 ^ 53 then .ok ⟨value, safe.trans (by decide)⟩ else .error .bigNumber

/-- An empty text counts as none. -/
def sourceOr (solSource : Option String) (party : Pubkey) : Except SdkError Pubkey :=
  match solSource with
  | none => .ok party
  | some text => if text = "" then .ok party else publicKey text

structure CreatePoolParams where
  creator : String
  config : String
  tokenMint : String
  initialTokenAmount : Nat
  initialSolAmount : Nat
  solSource : Option String

structure SwapParams where
  user : String
  config : String
  tokenMint : String
  amountIn : Nat
  minimumOut : Nat
  buy : Bool
  solSource : Option String

structure AddLiquidityParams where
  provider : String
  config : String
  tokenMint : String
  tokenAmount : Nat
  maxSolAmount : Nat
  minLpOut : Nat

structure RemoveLiquidityParams where
  provider : String
  config : String
  tokenMint : String
  lpAmount : Nat
  minSolOut : Nat
  minTokensOut : Nat

section Build
variable (web3 : Web3)

/-- With the texts of the pool and its LP mint. -/
def buildCreatePoolInstructions (params : CreatePoolParams) :
    Except SdkError (List (Instruction Pubkey) × String × String) := do
  let creator ← publicKey params.creator
  let solSource ← sourceOr params.solSource creator
  let config ← publicKey params.config
  let tokenMint ← publicKey params.tokenMint
  let pool ← getPoolPda web3.find config tokenMint
  let tokenVault ← getVaultPda web3.find pool
  let lpMint ← getLpMintPda web3.find pool
  let creatorTokenAccount ← web3.getAssociatedTokenAddressSync tokenMint creator false
  let creatorLpAccount ← web3.getAssociatedTokenAddressSync lpMint creator false
  let poolLpAccount ← web3.getAssociatedTokenAddressSync lpMint pool true
  let initialTokenAmount ← bigNumber params.initialTokenAmount
  let initialSolAmount ← bigNumber params.initialSolAmount
  let ix := createPoolInstruction web3.programs
    { creator, solSource, config, tokenMint, pool, tokenVault, lpMint, creatorTokenAccount, creatorLpAccount, poolLpAccount
      tokenProgram := .token2022 }
    { initialTokenAmount, initialSolAmount }
  return ([ix], toBase58 pool, toBase58 lpMint)

/-- The user's token account is made first, where it is missing. -/
def buildSwapInstructions (params : SwapParams) : Except SdkError (List (Instruction Pubkey)) := do
  let user ← publicKey params.user
  let solSource ← sourceOr params.solSource user
  let config ← publicKey params.config
  let tokenMint ← publicKey params.tokenMint
  let pool ← getPoolPda web3.find config tokenMint
  let tokenVault ← getVaultPda web3.find pool
  let userTokenAccount ← web3.getAssociatedTokenAddressSync tokenMint user false
  let createUserAta := createAssociatedTokenAccountIdempotentInstruction web3.programs
    { payer := user, account := userTokenAccount, owner := user, mint := tokenMint, tokenProgram := .token2022 }
  let amountIn ← bigNumber params.amountIn
  let minimumOut ← bigNumber params.minimumOut
  let ix := swapInstruction web3.programs
    { user, solSource, pool, tokenMint, tokenVault, userTokenAccount, tokenProgram := .token2022 }
    { amountIn, minimumOut, buy := params.buy }
  return [createUserAta, ix]

def buildAddLiquidityInstructions (params : AddLiquidityParams) : Except SdkError (List (Instruction Pubkey)) := do
  let provider ← publicKey params.provider
  let config ← publicKey params.config
  let tokenMint ← publicKey params.tokenMint
  let pool ← getPoolPda web3.find config tokenMint
  let tokenVault ← getVaultPda web3.find pool
  let lpMint ← getLpMintPda web3.find pool
  let providerTokenAccount ← web3.getAssociatedTokenAddressSync tokenMint provider false
  let providerLpAccount ← web3.getAssociatedTokenAddressSync lpMint provider false
  let poolLpAccount ← web3.getAssociatedTokenAddressSync lpMint pool true
  let tokenAmount ← bigNumber params.tokenAmount
  let maxSolAmount ← bigNumber params.maxSolAmount
  let minLpOut ← bigNumber params.minLpOut
  return [addLiquidityInstruction web3.programs
    { provider, pool, tokenMint, tokenVault, lpMint, providerTokenAccount, providerLpAccount, poolLpAccount
      tokenProgram := .token2022 }
    { tokenAmount, maxSolAmount, minLpOut }]

def buildRemoveLiquidityInstructions (params : RemoveLiquidityParams) : Except SdkError (List (Instruction Pubkey)) := do
  let provider ← publicKey params.provider
  let config ← publicKey params.config
  let tokenMint ← publicKey params.tokenMint
  let pool ← getPoolPda web3.find config tokenMint
  let tokenVault ← getVaultPda web3.find pool
  let lpMint ← getLpMintPda web3.find pool
  let providerTokenAccount ← web3.getAssociatedTokenAddressSync tokenMint provider false
  let providerLpAccount ← web3.getAssociatedTokenAddressSync lpMint provider false
  let lpAmount ← bigNumber params.lpAmount
  let minSolOut ← bigNumber params.minSolOut
  let minTokensOut ← bigNumber params.minTokensOut
  return [removeLiquidityInstruction web3.programs
    { provider, pool, tokenMint, tokenVault, lpMint, providerTokenAccount, providerLpAccount, tokenProgram := .token2022 }
    { lpAmount, minSolOut, minTokensOut }]

end Build
end DeepPool.Sdk
