import DeepPool.Proofs.Instruction
import DeepPool.Proofs.Pools
import DeepPool.Request

/-! A client's orders, from the texts that it names to what becomes of the accounts. -/

namespace DeepPool.Sdk
open Library
variable {Key : Type} {derive : Derivation Key} {rents : Rents Key} {bytes : Key → Pubkey} {programs : Programs Key}
  {web3 : Web3}

section Build

theorem bigNumber_ok {value word : U64} : bigNumber value.val = .ok word ↔ value.val < 2 ^ 53 ∧ value = word := by
  rw [bigNumber]
  split
  next safe =>
    rw [Except.ok.injEq, and_iff_right safe]
  next large =>
    constructor
    · intro done
      cases done
    · rintro ⟨safe, _⟩
      exact absurd safe large

theorem getAssociatedTokenAddressSync_ok {mint owner account : Pubkey} {allowOwnerOffCurve : Bool} :
    web3.getAssociatedTokenAddressSync mint owner allowOwnerOffCurve = .ok account ↔
      (allowOwnerOffCurve = true ∨ web3.isOnCurve owner = true) ∧ web3.associated .token2022 owner mint = account := by
  simp only [Web3.getAssociatedTokenAddressSync, bind_ok, assure_ok, pure_ok, exists_const]

end Build

/-- A client's libraries find in bytes what the keys stand for. -/
structure Web3.Conforms (derive : Derivation Key) (programs : Programs Key) (bytes : Key → Pubkey) (web3 : Web3) : Prop where
  addresses : Addresses derive bytes web3.find
  associated : ∀ tokenProgram wallet mint,
    web3.associated tokenProgram (bytes wallet) (bytes mint) = bytes (derive.associated tokenProgram wallet mint)
  programs : programs.rename bytes = web3.programs

theorem Web3.Conforms.found {seeds : Seeds Key} {address : Key} {bump : Word 8}
    (conforms : web3.Conforms derive programs bytes) (found : derive.findProgramAddress seeds = some (address, bump)) :
    findProgramAddress web3.find (seeds.rename bytes) = .ok (bytes address) := by
  rw [findProgramAddress, conforms.addresses _ _ _ found]

theorem Web3.Conforms.distinct (conforms : web3.Conforms derive programs bytes) : programs.token ≠ programs.token2022 := by
  intro same
  have token : bytes programs.token = tokenProgramId := congrArg Programs.token conforms.programs
  have token2022 : bytes programs.token2022 = token2022ProgramId := congrArg Programs.token2022 conforms.programs
  have apart : tokenProgramId ≠ token2022ProgramId := by decide
  exact apart (token.symm.trans ((congrArg bytes same).trans token2022))

theorem Web3.Conforms.other (conforms : web3.Conforms derive programs bytes) :
    programs.associatedToken ≠ programs.deepPool := by
  intro same
  have associatedToken : bytes programs.associatedToken = associatedTokenProgramId :=
    congrArg Programs.associatedToken conforms.programs
  have deepPool : bytes programs.deepPool = programId := congrArg Programs.deepPool conforms.programs
  have apart : associatedTokenProgramId ≠ programId := by decide
  exact apart (associatedToken.symm.trans ((congrArg bytes same).trans deepPool))

/-- What a client hands to one of the builders for a pool. -/
inductive Order where
  | swap (params : SwapParams)
  | addLiquidity (params : AddLiquidityParams)
  | removeLiquidity (params : RemoveLiquidityParams)

def Order.build (web3 : Web3) : Order → Except SdkError (List (Instruction Pubkey))
  | .swap params => buildSwapInstructions web3 params
  | .addLiquidity params => buildAddLiquidityInstructions web3 params
  | .removeLiquidity params => buildRemoveLiquidityInstructions web3 params

/-- The order names in texts what the request and the pool have as keys. -/
inductive Order.Asks (bytes : Key → Pubkey) (pool : Pool Key) : Order → Request Key → Prop where
  | swap {params : SwapParams} {user solSource : Key} {args : SwapArgs} (party : publicKey params.user = .ok (bytes user))
      (source : sourceOr params.solSource (bytes user) = .ok (bytes solSource))
      (config : publicKey params.config = .ok (bytes pool.config))
      (tokenMint : publicKey params.tokenMint = .ok (bytes pool.tokenMint)) (amountIn : params.amountIn = args.amountIn.val)
      (minimumOut : params.minimumOut = args.minimumOut.val) (buy : params.buy = args.buy) :
      Asks bytes pool (.swap params) (.swap user solSource args)
  | addLiquidity {params : AddLiquidityParams} {provider : Key} {args : AddLiquidityArgs}
      (party : publicKey params.provider = .ok (bytes provider)) (config : publicKey params.config = .ok (bytes pool.config))
      (tokenMint : publicKey params.tokenMint = .ok (bytes pool.tokenMint))
      (tokenAmount : params.tokenAmount = args.tokenAmount.val) (maxSolAmount : params.maxSolAmount = args.maxSolAmount.val)
      (minLpOut : params.minLpOut = args.minLpOut.val) :
      Asks bytes pool (.addLiquidity params) (.addLiquidity provider args)
  | removeLiquidity {params : RemoveLiquidityParams} {provider : Key} {args : RemoveLiquidityArgs}
      (party : publicKey params.provider = .ok (bytes provider)) (config : publicKey params.config = .ok (bytes pool.config))
      (tokenMint : publicKey params.tokenMint = .ok (bytes pool.tokenMint)) (lpAmount : params.lpAmount = args.lpAmount.val)
      (minSolOut : params.minSolOut = args.minSolOut.val) (minTokensOut : params.minTokensOut = args.minTokensOut.val) :
      Asks bytes pool (.removeLiquidity params) (.removeLiquidity provider args)

end DeepPool.Sdk

namespace DeepPool.Request
open Library
variable {Key : Type}

def amounts : Request Key → List U64
  | .swap _ _ args => [args.amountIn, args.minimumOut]
  | .addLiquidity _ args => [args.tokenAmount, args.maxSolAmount, args.minLpOut]
  | .removeLiquidity _ args => [args.lpAmount, args.minSolOut, args.minTokensOut]

/-- The instructions that ask for it. A swap makes sure of the user's token account first. -/
def instructions (programs : Programs Key) (derive : Derivation Key) (address : Key) (pool : Pool Key) :
    Request Key → List (Instruction Key)
  | .swap user solSource args =>
    [Sdk.createAssociatedTokenAccountIdempotentInstruction programs
        { payer := user
          account := derive.associated .token2022 user pool.tokenMint
          owner := user
          mint := pool.tokenMint
          tokenProgram := .token2022 },
      Sdk.swapInstruction programs (swapAccounts derive address pool user solSource) args]
  | .addLiquidity provider args =>
    [Sdk.addLiquidityInstruction programs (addLiquidityAccounts derive address pool provider) args]
  | .removeLiquidity provider args =>
    [Sdk.removeLiquidityInstruction programs (removeLiquidityAccounts derive address pool provider) args]

/-- The world in which the program is called. -/
def opened [DecidableEq Key] (derive : Derivation Key) (rents : Rents Key) (pool : Pool Key) (world : World Key) :
    Request Key → Except Program.Refusal (World Key)
  | .swap user _ _ =>
    Program.initAssociated derive world rents .token2022 user (derive.associated .token2022 user pool.tokenMint)
      pool.tokenMint user
  | .addLiquidity _ _ => .ok world
  | .removeLiquidity _ _ => .ok world

end DeepPool.Request

namespace DeepPool.Sdk
open Library
variable {Key : Type} {derive : Derivation Key} {rents : Rents Key} {bytes : Key → Pubkey} {programs : Programs Key}
  {web3 : Web3} {world : World Key} {key : Key} {pool : Pool Key}

theorem build_ok (conforms : web3.Conforms derive programs bytes) (established : Established derive world key pool)
    {order : Order} {request : Request Key} (asks : order.Asks bytes pool request) {sent : List (Instruction Pubkey)} :
    order.build web3 = .ok sent ↔
      (web3.isOnCurve (bytes request.party) = true ∧ ∀ amount ∈ request.amounts, amount.val < 2 ^ 53) ∧
        sent = (request.instructions programs derive key pool).map (Instruction.rename bytes) := by
  obtain ⟨vaultBump, vault⟩ := established.vault
  obtain ⟨lpBump, lpMint⟩ := established.lpMint
  have address : getPoolPda web3.find (bytes pool.config) (bytes pool.tokenMint) = .ok (bytes key) :=
    conforms.found established.canonical
  have vault : getVaultPda web3.find (bytes key) = .ok (bytes pool.tokenVault) :=
    conforms.found vault
  have lpMint : getLpMintPda web3.find (bytes key) = .ok (bytes pool.lpMint) :=
    conforms.found lpMint
  cases asks with
  | swap party source config tokenMint amountIn minimumOut buy =>
    simp only [Order.build, buildSwapInstructions, bind_ok, party, source, config, tokenMint, address, vault, amountIn,
      minimumOut, buy, getAssociatedTokenAddressSync_ok, bigNumber_ok, pure_ok, Except.ok.injEq, exists_eq_left',
      conforms.associated, ← conforms.programs, Request.amounts, List.forall_mem_cons]
    constructor
    · rintro ⟨_, ⟨curve, rfl⟩, _, ⟨smallIn, rfl⟩, _, ⟨smallOut, rfl⟩, rfl⟩
      exact ⟨⟨curve.resolve_left Bool.false_ne_true, smallIn, smallOut, nofun⟩, rfl⟩
    · rintro ⟨⟨curve, smallIn, smallOut, _⟩, rfl⟩
      exact ⟨_, ⟨.inr curve, rfl⟩, _, ⟨smallIn, rfl⟩, _, ⟨smallOut, rfl⟩, rfl⟩
  | addLiquidity party config tokenMint tokenAmount maxSolAmount minLpOut =>
    simp only [Order.build, buildAddLiquidityInstructions, bind_ok, party, config, tokenMint, address, vault, lpMint,
      tokenAmount, maxSolAmount, minLpOut, getAssociatedTokenAddressSync_ok, bigNumber_ok, pure_ok, Except.ok.injEq,
      exists_eq_left', conforms.associated, ← conforms.programs, Request.amounts, List.forall_mem_cons]
    constructor
    · rintro ⟨_, ⟨curve, rfl⟩, _, ⟨_, rfl⟩, _, ⟨_, rfl⟩, _, ⟨first, rfl⟩, _, ⟨second, rfl⟩, _, ⟨third, rfl⟩, rfl⟩
      exact ⟨⟨curve.resolve_left Bool.false_ne_true, first, second, third, nofun⟩, rfl⟩
    · rintro ⟨⟨curve, first, second, third, _⟩, rfl⟩
      exact ⟨_, ⟨.inr curve, rfl⟩, _, ⟨.inr curve, rfl⟩, _, ⟨.inl trivial, rfl⟩, _, ⟨first, rfl⟩, _, ⟨second, rfl⟩, _,
        ⟨third, rfl⟩, rfl⟩
  | removeLiquidity party config tokenMint lpAmount minSolOut minTokensOut =>
    simp only [Order.build, buildRemoveLiquidityInstructions, bind_ok, party, config, tokenMint, address, vault, lpMint,
      lpAmount, minSolOut, minTokensOut, getAssociatedTokenAddressSync_ok, bigNumber_ok, pure_ok, Except.ok.injEq,
      exists_eq_left', conforms.associated, ← conforms.programs, Request.amounts, List.forall_mem_cons]
    constructor
    · rintro ⟨_, ⟨curve, rfl⟩, _, ⟨_, rfl⟩, _, ⟨first, rfl⟩, _, ⟨second, rfl⟩, _, ⟨third, rfl⟩, rfl⟩
      exact ⟨⟨curve.resolve_left Bool.false_ne_true, first, second, third, nofun⟩, rfl⟩
    · rintro ⟨⟨curve, first, second, third, _⟩, rfl⟩
      exact ⟨_, ⟨.inr curve, rfl⟩, _, ⟨.inr curve, rfl⟩, _, ⟨first, rfl⟩, _, ⟨second, rfl⟩, _, ⟨third, rfl⟩, rfl⟩

variable [DecidableEq Key]

theorem request_emits {request : Request Key} {after : World Key} {output : Option (DeepPoolEvent Key)}
    (done : Program.step derive rents world (request.action derive key pool) = .ok (after, output)) :
    ∃ event, output = some event := by
  cases request with
  | swap user solSource args =>
    obtain ⟨_, _, done⟩ := bind_ok.mp done
    obtain ⟨⟨_, event⟩, _, same⟩ := bind_ok.mp done
    cases same
    exact ⟨.swapExecuted event, rfl⟩
  | addLiquidity provider args =>
    obtain ⟨_, _, done⟩ := bind_ok.mp done
    obtain ⟨⟨_, event⟩, _, same⟩ := bind_ok.mp done
    cases same
    exact ⟨.liquidityAdded event, rfl⟩
  | removeLiquidity provider args =>
    obtain ⟨_, _, done⟩ := bind_ok.mp done
    obtain ⟨⟨_, event⟩, _, same⟩ := bind_ok.mp done
    cases same
    exact ⟨.liquidityRemoved event, rfl⟩

/-- One instruction that is read as the request does what the request asks for. -/
theorem transact_asked (request : Request Key) {instruction : Instruction Key} {after : World Key}
    {events : List (DeepPoolEvent Key)}
    (read : ∀ output, process programs derive rents world instruction = .ok (after, output) ↔
      Program.step derive rents world (request.action derive key pool) = .ok (after, output)) :
    transact programs derive rents world [instruction] = .ok (after, events) ↔
      ∃ event, Program.step derive rents world (request.action derive key pool) = .ok (after, some event) ∧
        events = [event] := by
  rw [transact_single]
  constructor
  · rintro ⟨output, done, rfl⟩
    have done := (read output).mp done
    obtain ⟨event, rfl⟩ := request_emits done
    exact ⟨event, done, rfl⟩
  · rintro ⟨event, done, rfl⟩
    exact ⟨some event, (read _).mpr done, rfl⟩

theorem transact_request (conforms : web3.Conforms derive programs bytes) (established : Established derive world key pool)
    {request : Request Key} {after : World Key} {events : List (DeepPoolEvent Key)} :
    transact programs derive rents world (request.instructions programs derive key pool) = .ok (after, events) ↔
      ∃ opened event, request.opened derive rents pool world = .ok opened ∧
        Program.step derive rents opened (request.action derive key pool) = .ok (after, some event) ∧ events = [event] := by
  have distinct := conforms.distinct
  cases request with
  | swap user solSource args =>
    have asked : ∀ {opened : World Key} {later : List (DeepPoolEvent Key)},
        transact programs derive rents opened
            [swapInstruction programs (Request.swapAccounts derive key pool user solSource) args] = .ok (after, later) ↔
          ∃ event, Program.step derive rents opened ((Request.swap user solSource args).action derive key pool) =
            .ok (after, some event) ∧ later = [event] :=
      transact_asked (.swap user solSource args) fun _ => process_swap distinct
    obtain ⟨kind, minted, program, ⟨types, sized⟩, _⟩ := established.tokenMint
    rw [Request.instructions, transact_cons]
    simp only [process_createAssociated distinct conforms.other, CreateAssociated.handler_made minted program sized, asked]
    constructor
    · rintro ⟨opened, _, _, ⟨_, handled, rfl⟩, ⟨event, done, rfl⟩, rfl⟩
      exact ⟨opened, event, handled, done, rfl⟩
    · rintro ⟨opened, event, handled, done, rfl⟩
      obtain ⟨_, valid, _⟩ := bind_ok.mp done
      have signs : derive.signs user = true := (Program.Swap.validate_ok valid).user
      exact ⟨opened, none, [event], ⟨signs, handled, rfl⟩, ⟨event, done, rfl⟩, rfl⟩
  | addLiquidity provider args =>
    rw [Request.instructions, transact_asked (.addLiquidity provider args) fun _ => process_addLiquidity distinct]
    simp only [Request.opened, Except.ok.injEq, exists_and_left, exists_eq_left']
  | removeLiquidity provider args =>
    rw [Request.instructions, transact_asked (.removeLiquidity provider args) fun _ => process_removeLiquidity distinct]
    simp only [Request.opened, Except.ok.injEq, exists_and_left, exists_eq_left']

/-- Rent is paid as lamports move anywhere else. -/
theorem payRent_runs {payer account : Key} {rent : U64} {after : World Key}
    (done : world.payRent payer account rent = .ok after) : ∃ trace, Run (Program.step derive rents) world trace after := by
  rcases World.payRent_ok done with rfl | paid
  · exact ⟨[], .nil _⟩
  · obtain ⟨vacant, lamports, rfl, moved⟩ := World.systemTransfer_ok paid
    obtain ⟨debited, spent, earned⟩ := Option.bind_eq_some_iff.mp moved
    refine ⟨[(.moveLamports payer account (rent.saturatingSub (world.lamports account)), none)], .cons ?_ (.nil _)⟩
    simp only [Program.step, World.subLamports, World.addLamports, bind_ok, assure_ok, mapError_ok, orFail_ok, pure_ok,
      exists_const]
    exact ⟨vacant.1, _, ⟨_, ⟨debited, spent, rfl⟩, lamports, earned, rfl⟩, rfl⟩

theorem initAssociated_reachable {payer account wallet mint : Key} {kind : Mint Key} {after : World Key}
    (reachable : Program.Reachable derive rents world) (minted : world.mints mint = some kind)
    (program : kind.program = .token2022)
    (done : Program.initAssociated derive world rents .token2022 payer account mint wallet = .ok after) :
    Program.Reachable derive rents after := by
  obtain ⟨start, orderly, noPools, trace, runs⟩ := reachable
  obtain ⟨address, ⟨rfl, _⟩ | ⟨paid, rented, opened⟩⟩ := Program.initAssociated_ok done
  · exact ⟨start, orderly, noPools, trace, runs⟩
  · obtain ⟨payments, pays⟩ := payRent_runs rented
    have still : paid.mints mint = some kind := by
      rw [(World.rebalanced_of_payRent rented).mints]
      exact minted
    have opens : Program.step derive rents paid (.openAccount .token2022 account mint wallet) = .ok (after, none) := by
      simp only [Program.step, bind_ok, assure_ok, mapError_ok, initialized_ok, exists_const]
      exact ⟨.inr address, kind, still, program, after, opened, rfl⟩
    exact ⟨start, orderly, noPools, _, runs.append (pays.append (.cons opens (.nil _)))⟩

theorem opened_reachable {request : Request Key} {opened : World Key} (reachable : Program.Reachable derive rents world)
    (present : world.pools key = some pool) (done : request.opened derive rents pool world = .ok opened) :
    Program.Reachable derive rents opened := by
  obtain ⟨kind, minted, program, _⟩ := (reachable.sound.established present).tokenMint
  cases request with
  | swap user solSource args => exact initAssociated_reachable reachable minted program done
  | addLiquidity provider args =>
    cases done
    exact reachable
  | removeLiquidity provider args =>
    cases done
    exact reachable

section Samples
open Program (SampleKey sampleDerivation)
open Indexer (tagged)

def sampleAssociated (wallet mint : Pubkey) : Pubkey := tagged 4 (Vector.zipWith (· + ·) wallet mint)

/-- Some of the wallets are the programs. -/
def sampleNames : SampleKey → Pubkey
  | .wallet 100 => programId
  | .wallet 101 => tokenProgramId
  | .wallet 102 => token2022ProgramId
  | .wallet 103 => associatedTokenProgramId
  | .wallet 104 => systemProgramId
  | .wallet number => Vector.replicate 32 (UInt8.ofNat (number + 16))
  | .pool config _ => tagged 1 (sampleNames config)
  | .vault pool => tagged 2 (sampleNames pool)
  | .lpMint pool => tagged 3 (sampleNames pool)
  | .associated _ wallet mint => sampleAssociated (sampleNames wallet) (sampleNames mint)

def samplePrograms : Programs SampleKey := ⟨.wallet 100, .wallet 99, .wallet 101, .wallet 102, .wallet 103, .wallet 104⟩

def sampleWeb3 : Web3 where
  find := sampleFind
  associated := fun _ => sampleAssociated
  isOnCurve := fun key => decide (key = sampleNames (.wallet 0)) || decide (key = sampleNames (.wallet 1))
  eventAuthority := sampleNames (.wallet 99)

theorem sampleWeb3_conforms : sampleWeb3.Conforms sampleDerivation samplePrograms sampleNames := by
  constructor
  case addresses =>
    intro seeds address bump found
    cases found
    cases seeds <;> rfl
  case associated =>
    intro tokenProgram wallet mint
    rfl
  case programs => rfl

end Samples

/-- What a client sends for a pool does exactly what it asks for, after the user's account is made. -/
theorem built_request {order : Order} {request : Request Key} (reachable : Program.Reachable derive rents world)
    (present : world.pools key = some pool) (conforms : web3.Conforms derive programs bytes)
    (asks : order.Asks bytes pool request) :
    (∀ sent, order.build web3 = .ok sent ↔
      (web3.isOnCurve (bytes request.party) = true ∧ ∀ amount ∈ request.amounts, amount.val < 2 ^ 53) ∧
        sent = (request.instructions programs derive key pool).map (Instruction.rename bytes)) ∧
      ∀ after events,
        transact programs derive rents world (request.instructions programs derive key pool) = .ok (after, events) ↔
          ∃ opened event, request.opened derive rents pool world = .ok opened ∧ Program.Reachable derive rents opened ∧
            Program.step derive rents opened (request.action derive key pool) = .ok (after, some event) ∧
            events = [event] := by
  have established := reachable.sound.established present
  refine ⟨fun _ => build_ok conforms established asks, fun after events => ?_⟩
  rw [transact_request conforms established]
  constructor
  · rintro ⟨opened, event, done, runs, rfl⟩
    exact ⟨opened, event, done, opened_reachable reachable present done, runs, rfl⟩
  · rintro ⟨opened, event, done, _, runs, rfl⟩
    exact ⟨opened, event, done, runs, rfl⟩

section Samples
open Program (SampleKey sampleDerivation sampleRents samplePool sampleRun sampleBusy sampleRun_reachable)

def sampleOrder : Order :=
  .swap
    { user := toBase58 (sampleNames (.wallet 1))
      config := toBase58 (sampleNames (.wallet 3))
      tokenMint := toBase58 (sampleNames (.wallet 2))
      amountIn := 1000000
      minimumOut := 0
      buy := true
      solSource := none }

theorem built_request_swap : ∃ (world after : World SampleKey) (key : SampleKey) (pool : Pool SampleKey)
    (request : Request SampleKey) (event : DeepPoolEvent SampleKey), world.pools key = some pool ∧
      sampleOrder.build sampleWeb3 =
        .ok ((request.instructions samplePrograms sampleDerivation key pool).map (Instruction.rename sampleNames)) ∧
      transact samplePrograms sampleDerivation sampleRents world
        (request.instructions samplePrograms sampleDerivation key pool) = .ok (after, [event]) := by
  let request : Request SampleKey := .swap (.wallet 1) (.wallet 1) ⟨1000000, 0, true⟩
  have runs : accepts (sampleRun sampleBusy) (fun result =>
      (result.1.pools (samplePool 3)).any fun pool => decide (pool.config = .wallet 3) &&
        (decide (pool.tokenMint = .wallet 2) &&
          accepts (request.opened sampleDerivation sampleRents pool result.1) fun opened =>
            accepts (Program.step sampleDerivation sampleRents opened (request.action sampleDerivation (samplePool 3) pool))
              fun last => last.2.isSome)) = true := by decide +kernel
  obtain ⟨⟨world, trace⟩, done, there⟩ := accepts_iff.mp runs
  obtain ⟨pool, present, facts⟩ := (Option.any_eq_true _ _).mp there
  obtain ⟨config, facts⟩ := (Bool.and_eq_true _ _).mp facts
  obtain ⟨tokenMint, facts⟩ := (Bool.and_eq_true _ _).mp facts
  obtain ⟨opened, opens, goes⟩ := accepts_iff.mp facts
  obtain ⟨⟨after, output⟩, steps, emits⟩ := accepts_iff.mp goes
  obtain ⟨event, rfl⟩ := Option.isSome_iff_exists.mp emits
  have config := of_decide_eq_true config
  have tokenMint := of_decide_eq_true tokenMint
  have asks : sampleOrder.Asks sampleNames pool request :=
    .swap (publicKey_toBase58 _) rfl (config ▸ publicKey_toBase58 _) (tokenMint ▸ publicKey_toBase58 _) rfl rfl rfl
  have reachable := sampleRun_reachable done
  obtain ⟨builds, sends⟩ := built_request reachable present sampleWeb3_conforms asks
  have small : ∀ amount ∈ request.amounts, amount.val < 2 ^ 53 := by simp [request, Request.amounts]
  exact ⟨world, after, samplePool 3, pool, request, event, present, (builds _).mpr ⟨⟨by decide, small⟩, rfl⟩,
    (sends _ _).mpr ⟨opened, event, opens, opened_reachable reachable present opens, steps, rfl⟩⟩

end Samples

/-- The accounts that a new pool is made of. -/
def createPoolAccounts (derive : Derivation Key) (creator solSource config : Key) (site : Site Key) :
    Program.CreatePool Key where
  creator
  solSource
  config
  tokenMint := site.tokenMint
  pool := site.address
  tokenVault := site.tokenVault
  lpMint := site.lpMint
  creatorTokenAccount := derive.associated .token2022 creator site.tokenMint
  creatorLpAccount := derive.associated .token2022 creator site.lpMint
  poolLpAccount := derive.associated .token2022 site.address site.lpMint
  tokenProgram := .token2022

/-- The texts and numbers for a new pool, and the addresses that it will have. -/
structure CreatePoolParams.Asks (derive : Derivation Key) (bytes : Key → Pubkey) (params : CreatePoolParams)
    (creator solSource config : Key) (site : Site Key) (args : CreatePoolArgs) : Prop where
  party : publicKey params.creator = .ok (bytes creator)
  source : sourceOr params.solSource (bytes creator) = .ok (bytes solSource)
  configured : publicKey params.config = .ok (bytes config)
  tokenMint : publicKey params.tokenMint = .ok (bytes site.tokenMint)
  initialTokenAmount : params.initialTokenAmount = args.initialTokenAmount.val
  initialSolAmount : params.initialSolAmount = args.initialSolAmount.val
  address : ∃ bump, derive.findProgramAddress (.pool config site.tokenMint) = some (site.address, bump)
  vault : ∃ bump, derive.findProgramAddress (.vault site.address) = some (site.tokenVault, bump)
  lpMint : ∃ bump, derive.findProgramAddress (.lpMint site.address) = some (site.lpMint, bump)

omit [DecidableEq Key] in
theorem buildCreatePool_ok {params : CreatePoolParams} {creator solSource config : Key} {site : Site Key}
    {args : CreatePoolArgs} (conforms : web3.Conforms derive programs bytes)
    (asks : params.Asks derive bytes creator solSource config site args)
    {sent : List (Instruction Pubkey) × String × String} :
    buildCreatePoolInstructions web3 params = .ok sent ↔
      (web3.isOnCurve (bytes creator) = true ∧ args.initialTokenAmount.val < 2 ^ 53 ∧ args.initialSolAmount.val < 2 ^ 53) ∧
        sent = (
          [(createPoolInstruction programs (createPoolAccounts derive creator solSource config site) args).rename bytes],
          toBase58 (bytes site.address), toBase58 (bytes site.lpMint)) := by
  obtain ⟨party, source, configured, tokenMint, initialTokenAmount, initialSolAmount, ⟨_, address⟩, ⟨_, vault⟩,
    ⟨_, lpMint⟩⟩ := asks
  have address : getPoolPda web3.find (bytes config) (bytes site.tokenMint) = .ok (bytes site.address) :=
    conforms.found address
  have vault : getVaultPda web3.find (bytes site.address) = .ok (bytes site.tokenVault) :=
    conforms.found vault
  have lpMint : getLpMintPda web3.find (bytes site.address) = .ok (bytes site.lpMint) :=
    conforms.found lpMint
  simp only [buildCreatePoolInstructions, bind_ok, party, source, configured, tokenMint, address, vault, lpMint,
    initialTokenAmount, initialSolAmount, getAssociatedTokenAddressSync_ok, bigNumber_ok, pure_ok, Except.ok.injEq,
    exists_eq_left', conforms.associated, ← conforms.programs]
  constructor
  · rintro ⟨_, ⟨curve, rfl⟩, _, ⟨_, rfl⟩, _, ⟨_, rfl⟩, _, ⟨tokens, rfl⟩, _, ⟨sol, rfl⟩, rfl⟩
    exact ⟨⟨curve.resolve_left Bool.false_ne_true, tokens, sol⟩, rfl⟩
  · rintro ⟨⟨curve, tokens, sol⟩, rfl⟩
    exact ⟨_, ⟨.inr curve, rfl⟩, _, ⟨.inr curve, rfl⟩, _, ⟨.inl trivial, rfl⟩, _, ⟨tokens, rfl⟩, _, ⟨sol, rfl⟩, rfl⟩

/-- What a client sends for a new pool makes just that pool, at the address that the client is told. -/
theorem built_creation {params : CreatePoolParams} {creator solSource config : Key} {site : Site Key} {args : CreatePoolArgs}
    (reachable : Program.Reachable derive rents world) (conforms : web3.Conforms derive programs bytes)
    (asks : params.Asks derive bytes creator solSource config site args) :
    (∀ sent, buildCreatePoolInstructions web3 params = .ok sent ↔
      (web3.isOnCurve (bytes creator) = true ∧ args.initialTokenAmount.val < 2 ^ 53 ∧ args.initialSolAmount.val < 2 ^ 53) ∧
        sent = (
          [(createPoolInstruction programs (createPoolAccounts derive creator solSource config site) args).rename bytes],
          toBase58 (bytes site.address), toBase58 (bytes site.lpMint))) ∧
      ∀ after events,
        transact programs derive rents world
            [createPoolInstruction programs (createPoolAccounts derive creator solSource config site) args] =
            .ok (after, events) ↔
          ∃ creation pool,
            Program.step derive rents world (.createPool (createPoolAccounts derive creator solSource config site) args) =
              .ok (after, some (.poolCreated creation)) ∧ events = [.poolCreated creation] ∧
            after.pools site.address = some pool ∧ pool.site site.address = site := by
  refine ⟨fun _ => buildCreatePool_ok conforms asks, fun after events => ?_⟩
  rw [transact_single]
  simp only [process_createPool conforms.distinct]
  constructor
  · rintro ⟨output, done, rfl⟩
    obtain ⟨⟨bump, kind, made⟩, valid, handles⟩ := bind_ok.mp done
    obtain ⟨⟨last, creation⟩, handled, same⟩ := bind_ok.mp handles
    cases same
    obtain ⟨pool, present, placed, _⟩ := established_createPool reachable.sound.orderly valid (mapError_ok.mp handled)
    exact ⟨creation, pool, done, rfl, present, placed⟩
  · rintro ⟨creation, pool, done, rfl, _⟩
    exact ⟨_, done, rfl⟩

section Samples
open Program (SampleKey sampleDerivation sampleRents sampleWorld sampleWorld_orderly samplePool)

def sampleSite (config : Nat) : Site SampleKey :=
  { address := samplePool config
    tokenMint := .wallet 2
    tokenVault := .vault (samplePool config)
    lpMint := .lpMint (samplePool config) }

theorem built_creation_sample : ∃ (params : CreatePoolParams) (after : World SampleKey) (pool : Pool SampleKey)
    (instruction : Instruction SampleKey) (event : DeepPoolEvent SampleKey),
      buildCreatePoolInstructions sampleWeb3 params =
        .ok ([instruction.rename sampleNames], toBase58 (sampleNames (samplePool 3)),
          toBase58 (sampleNames (.lpMint (samplePool 3)))) ∧
      transact samplePrograms sampleDerivation sampleRents sampleWorld [instruction] = .ok (after, [event]) ∧
      after.pools (samplePool 3) = some pool := by
  let args : CreatePoolArgs := ⟨1000000000, 5000000000⟩
  let accounts := createPoolAccounts sampleDerivation (.wallet 0) (.wallet 0) (.wallet 3) (sampleSite 3)
  let params : CreatePoolParams :=
    { creator := toBase58 (sampleNames (.wallet 0))
      config := toBase58 (sampleNames (.wallet 3))
      tokenMint := toBase58 (sampleNames (.wallet 2))
      initialTokenAmount := 1000000000
      initialSolAmount := 5000000000
      solSource := none }
  have asks : params.Asks sampleDerivation sampleNames (.wallet 0) (.wallet 0) (.wallet 3) (sampleSite 3) args :=
    ⟨publicKey_toBase58 _, rfl, publicKey_toBase58 _, publicKey_toBase58 _, rfl, rfl, ⟨255, rfl⟩, ⟨255, rfl⟩, ⟨255, rfl⟩⟩
  have runs : accepts (transact samplePrograms sampleDerivation sampleRents sampleWorld
      [createPoolInstruction samplePrograms accounts args]) (fun _ => true) = true := by decide +kernel
  obtain ⟨⟨after, events⟩, done, _⟩ := accepts_iff.mp runs
  have reachable : Program.Reachable sampleDerivation sampleRents sampleWorld :=
    ⟨sampleWorld, sampleWorld_orderly, fun _ => rfl, [], .nil _⟩
  obtain ⟨builds, sends⟩ := built_creation reachable sampleWeb3_conforms asks
  obtain ⟨creation, pool, _, rfl, present, _⟩ := (sends after events).mp done
  exact ⟨params, after, pool, _, _, (builds _).mpr ⟨⟨by decide, by decide, by decide⟩, rfl⟩, done, present⟩

end Samples

end DeepPool.Sdk
