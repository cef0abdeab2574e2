import DeepPool.Proofs.Accounts
import Mathlib.Logic.Relation

/-! Everything a step does is one of few operations on accounts, each with a key that
agreed to it. What these operations keep, every step keeps. -/

namespace DeepPool
open Library

variable {Key : Type}

namespace Program.Action

/-- Those whose agreement an action needs: its signers, and the account that another
program takes lamports from. -/
def signers : Action Key → List Key
  | .createPool accounts _ => [accounts.creator, accounts.solSource, accounts.config]
  | .swap accounts _ => [accounts.user, accounts.solSource]
  | .addLiquidity accounts _ => [accounts.provider]
  | .removeLiquidity accounts _ => [accounts.provider]
  | .moveLamports source _ _ => [source]
  | .transferTokens _ _ _ authority _ => [authority]
  | .mintTokens _ _ authority _ => [authority]
  | .burnTokens _ _ authority _ => [authority]
  | .openAccount _ _ _ _ => []
  | .incinerateTokens _ _ _ => []
  | .harvestFees _ _ => []
  | .withdrawFees _ _ => []
  | .collectFees _ _ _ => []
  | .approve _ authority _ _ => [authority]
  | .revoke _ authority => [authority]
  | .assignCloseAuthority _ authority _ => [authority]
  | .assignOwner _ authority _ => [authority]
  | .closeAccount _ authority => [authority]
  | .setFrozen _ authority _ => [authority]
  | .openMint key _ => [key]
  | .assignAuthority _ authority _ _ => [authority]
  | .setTransferFee _ authority _ => [authority]
  | .advance _ => []

/-- The pool that an instruction is for, which signs by its seeds. -/
def pool : Action Key → Option Key
  | .createPool accounts _ => some accounts.pool
  | .swap accounts _ => some accounts.pool
  | .addLiquidity accounts _ => some accounts.pool
  | .removeLiquidity accounts _ => some accounts.pool
  | _ => none

/-- The pool that an instruction makes. -/
def born : Action Key → Option Key
  | .createPool accounts _ => some accounts.pool
  | _ => none

def agrees (action : Action Key) (key : Key) : Prop := key ∈ action.signers ∨ action.pool = some key

theorem pool_of_born {action : Action Key} {key : Key} (born : action.born = some key) : action.pool = some key := by
  cases action <;> first | exact born | cases born

end Program.Action

/-- An associated address can only be given the account it is derived for. -/
def Proper (derive : Derivation Key) (key : Key) (account : TokenAccount Key) : Prop :=
  ∀ wallet mint, key = derive.associated .token2022 wallet mint → account = ⟨mint, wallet⟩

section Proper
variable {derive : Derivation Key} {key wallet mint : Key} {tokenProgram : TokenProgram} {account : TokenAccount Key}

theorem Proper.of_associated : Proper derive (derive.associated tokenProgram wallet mint) ⟨mint, wallet⟩ := by
  intro other kind same
  obtain ⟨rfl, rfl⟩ := derive.associated_inj same
  rfl

theorem Proper.of_signs (signs : derive.signs key = true) : Proper derive key account := by
  rintro wallet mint rfl
  rw [derive.associated_silent] at signs
  cases signs

theorem Proper.of_allowed (allowed : derive.signs key = true ∨ key = derive.associated tokenProgram wallet mint) :
    Proper derive key ⟨mint, wallet⟩ := by
  rcases allowed with signs | rfl
  · exact .of_signs signs
  · exact .of_associated

theorem Proper.of_programAddress {seeds : Seeds Key} {bump : Word 8}
    (address : derive.programAddress seeds bump = some key) : Proper derive key account := by
  rintro wallet mint rfl
  exact absurd address derive.apart

end Proper

/-- Everything that identifies a pool, which no instruction after creation assigns. -/
structure Pool.SameIdentity (before after : Pool Key) : Prop where
  config : after.config = before.config
  tokenMint : after.tokenMint = before.tokenMint
  tokenVault : after.tokenVault = before.tokenVault
  lpMint : after.lpMint = before.lpMint
  initialSol : after.initialSol = before.initialSol
  initialTokens : after.initialTokens = before.initialTokens
  bump : after.bump = before.bump

theorem Pool.SameIdentity.refl (pool : Pool Key) : SameIdentity pool pool := ⟨rfl, rfl, rfl, rfl, rfl, rfl, rfl⟩

theorem Pool.SameIdentity.trans {pool next last : Pool Key} (first : SameIdentity pool next)
    (second : SameIdentity next last) : SameIdentity pool last := by
  constructor
  case config => exact second.config.trans first.config
  case tokenMint => exact second.tokenMint.trans first.tokenMint
  case tokenVault => exact second.tokenVault.trans first.tokenVault
  case lpMint => exact second.lpMint.trans first.lpMint
  case initialSol => exact second.initialSol.trans first.initialSol
  case initialTokens => exact second.initialTokens.trans first.initialTokens
  case bump => exact second.bump.trans first.bump

/-- The event of a creation names what the new account holds. -/
structure PoolCreated.Describes (event : PoolCreated Key) (address : Key) (pool : Pool Key) : Prop where
  address : event.pool = address
  config : event.config = pool.config
  tokenMint : event.tokenMint = pool.tokenMint
  lpMint : event.lpMint = pool.lpMint
  initialSol : event.solInNet = pool.initialSol
  initialTokens : event.tokensInNet = pool.initialTokens

theorem Pool.recordObservation_kept {pool after : Pool Key} {solReserve tokenReserve now : U64}
    (done : pool.recordObservation solReserve tokenReserve now = .ok after) :
    SameIdentity pool after := by
  unfold recordObservation at done
  split at done
  · cases done
    exact .refl _
  · split at done
    · cases done
      exact ⟨rfl, rfl, rfl, rfl, rfl, rfl, rfl⟩
    · simp only [bind_ok, orFail_ok, okOr_ok] at done
      obtain ⟨_, _, _, _, _, _, _, _, done⟩ := done
      split at done
      · rw [orFail_ok] at done
        unfold writeObservation at done
        split at done
        · cases done
          exact ⟨rfl, rfl, rfl, rfl, rfl, rfl, rfl⟩
        · cases done
      · cases done
        exact ⟨rfl, rfl, rfl, rfl, rfl, rfl, rfl⟩

/-- What can become of an account's standing apart from spending. Only its owner approves a delegate. -/
inductive Regrant (derive : Derivation Key) (agrees : Key → Prop) (mints : Key → Option (Mint Key))
    (account : TokenAccount Key) (before : Standing Key) : Standing Key → Prop where
  | approved (agreed : agrees account.owner) (signs : derive.signs account.owner = true) (approval : Approval Key) :
      Regrant derive agrees mints account before { before with delegate := some approval }
  | revoked : Regrant derive agrees mints account before { before with delegate := none }
  | entrusted (signs : derive.signs (Program.closer account before) = true) (next : Option Key) :
      Regrant derive agrees mints account before { before with closeAuthority := next }
  | frozen {kind : Mint Key} (minted : mints account.mint = some kind) (freezes : kind.freezeAuthority ≠ none)
      (frozen : Bool) : Regrant derive agrees mints account before { before with frozen }

/-- What one of a mint's authorities can make of the mint. -/
inductive Reconfigures (authority : Key) (mint : Mint Key) : Mint Key → Prop where
  | assigned {role : Program.MintAuthority} (ours : Program.authorityOf mint role = some authority) (next : Option Key) :
      Reconfigures authority mint (Program.withAuthority mint next role)
  | charged (ours : mint.feeAuthority = some authority) (transferFee : TransferFee) :
      Reconfigures authority mint { mint with transferFee }

theorem Reconfigures.kept {authority : Key} {mint next : Mint Key} (reconfigures : Reconfigures authority mint next) :
    next.data = mint.data ∧ next.program = mint.program := by
  cases reconfigures with
  | @assigned role ours follows => cases role <;> exact ⟨rfl, rfl⟩
  | charged ours transferFee => exact ⟨rfl, rfl⟩

/-- A pool's LP mint has no authority but the pool. -/
theorem Reconfigures.of_pool {authority address : Key} {next : Mint Key}
    (reconfigures : Reconfigures authority (.ofPool address) next) : authority = address := by
  cases reconfigures with
  | @assigned role ours follows =>
    cases role with
    | mintTokens => exact (Option.some.inj ours).symm
    | freezeAccount => cases ours
    | transferFeeConfig => cases ours
  | charged ours transferFee => cases ours

variable [DecidableEq Key]

/-- One operation. Only a creation assigns a pool account other data than observations. -/
inductive Move (derive : Derivation Key) (agrees : Key → Prop) (born : Option Key) : World Key → World Key → Prop where
  | lamports {world : World Key} {source dest : Key} {amount : U64} {lamports : Balances Key 64} (agreed : agrees source)
      (moved : world.lamports.transfer source dest amount amount = some lamports) :
      Move derive agrees born world { world with lamports }
  | tokens {before after : World Key} {source mint dest authority : Key} {amount : U64} (agreed : agrees authority)
      (done : before.transferChecked source mint dest authority amount = .ok after) :
      Move derive agrees born before after
  | minted {before after : World Key} {mint dest authority : Key} {amount : U64} (agreed : agrees authority)
      (done : before.mintTo mint dest authority amount = .ok after) : Move derive agrees born before after
  | burned {before after : World Key} {mint source authority : Key} {amount : U64} (agreed : agrees authority)
      (done : before.burn mint source authority amount = .ok after) : Move derive agrees born before after
  | incinerated {before after : World Key} {mint source : Key} {amount : U64} {account : TokenAccount Key}
      (found : before.tokenAccounts source = some account) (nobody : derive.incinerates account.owner = true)
      (done : before.incinerate mint source amount = .ok after) : Move derive agrees born before after
  | harvested {before after : World Key} {source mint : Key} (done : before.harvestFees source mint = .ok after) :
      Move derive agrees born before after
  | withdrawn {before after : World Key} {mint dest : Key} (done : before.withdrawFees mint dest = .ok after) :
      Move derive agrees born before after
  | collected {before after : World Key} {source mint dest : Key}
      (done : before.collectFees source mint dest = .ok after) : Move derive agrees born before after
  | opened {before after : World Key} {key : Key} {account : TokenAccount Key} (proper : Proper derive key account)
      (done : before.openAccount key account = .ok after) : Move derive agrees born before after
  | assigned {world : World Key} {key owner : Key} {account : TokenAccount Key} (agreed : agrees account.owner)
      (signs : derive.signs account.owner = true) (found : world.tokenAccounts key = some account)
      (free : key ≠ derive.associated .token2022 account.owner account.mint) : Move derive agrees born world
        { world.setDelegate key none with
          tokenAccounts := Function.update world.tokenAccounts key (some { account with owner }) }
  | closed {world : World Key} {key : Key} {account : TokenAccount Key} (found : world.tokenAccounts key = some account)
      (allowed : derive.signs (Program.closer account (world.standing key)) = true ∨
        derive.incinerates account.owner = true)
      (empty : world.amounts key = 0 ∧ world.withheld key = 0) : Move derive agrees born world
        { world.setStanding key .initial with tokenAccounts := Function.update world.tokenAccounts key none }
  | granted {world : World Key} {key : Key} {account : TokenAccount Key} {standing : Standing Key}
      (found : world.tokenAccounts key = some account)
      (regrant : Regrant derive agrees world.mints account (world.standing key) standing) :
      Move derive agrees born world (world.setStanding key standing)
  | openedMint {before after : World Key} {key : Key} {mint : Mint Key} (done : before.openMint key mint = .ok after) :
      Move derive agrees born before after
  | configured {world : World Key} {key authority : Key} {mint next : Mint Key} (signs : derive.signs authority = true)
      (found : world.mints key = some mint) (reconfigures : Reconfigures authority mint next) :
      Move derive agrees born world { world with mints := Function.update world.mints key (some next) }
  | observed {world : World Key} {key : Key} {pool next : Pool Key} (agreed : agrees key)
      (present : world.pools key = some pool) (same : pool.SameIdentity next) :
      Move derive agrees born world (world.setPool key next)
  | founded {world : World Key} {key : Key} (pool : Pool Key) (new : born = some key) :
      Move derive agrees born world (world.setPool key pool)
  | advanced {world : World Key} {slot : U64} (later : world.slot.val ≤ slot.val) :
      Move derive agrees born world { world with slot }

abbrev Moves (derive : Derivation Key) (agrees : Key → Prop) (born : Option Key) : World Key → World Key → Prop :=
  Relation.ReflTransGen (Move derive agrees born)

section Operations
variable {derive : Derivation Key} {rents : Rents Key} {agrees : Key → Prop} {born : Option Key}
  {world before middle after : World Key} {source dest key payer mint wallet : Key} {amount rent : U64}

theorem Moves.systemTransfer (agreed : agrees source) (done : before.systemTransfer source dest amount = .ok after) :
    Moves derive agrees born before after := by
  obtain ⟨_, lamports, rfl, moved⟩ := World.systemTransfer_ok done
  exact .single (.lamports agreed moved)

/-- Lamports that an instruction takes from the pool's own account. -/
theorem Moves.paidOut (agreed : agrees source) (spent : before.subLamports source amount = .ok middle)
    (earned : middle.addLamports dest amount = .ok after) : Moves derive agrees born before after := by
  obtain ⟨debits, rfl, paid⟩ := World.subLamports_ok spent
  obtain ⟨lamports, rfl, credited⟩ := World.addLamports_ok earned
  exact .single (.lamports agreed (Option.bind_eq_some_iff.mpr ⟨_, paid, credited⟩))

theorem Moves.payRent (agreed : agrees payer) (done : before.payRent payer key rent = .ok after) :
    Moves derive agrees born before after := by
  rcases World.payRent_ok done with rfl | paid
  · exact .refl
  · exact .systemTransfer agreed paid

theorem Moves.initAssociated {tokenProgram : TokenProgram} (agreed : agrees payer)
    (done : Program.initAssociated derive before rents tokenProgram payer key mint wallet = .ok after) :
    Moves derive agrees born before after := by
  obtain ⟨rfl, ⟨rfl, _⟩ | ⟨paid, rented, opened⟩⟩ := Program.initAssociated_ok done
  · exact .refl
  · exact (Moves.payRent agreed rented).tail (.opened .of_associated opened)

end Operations

section Handlers
variable {derive : Derivation Key} {rents : Rents Key} {agrees : Key → Prop} {born : Option Key}
  {before after : World Key}

theorem Program.Swap.moves {accounts : Program.Swap Key} {args : SwapArgs} {pool : Pool Key} {event : SwapExecuted Key}
    (user : agrees accounts.user) (solSource : agrees accounts.solSource) (own : agrees accounts.pool)
    (present : before.pools accounts.pool = some pool)
    (done : accounts.handler rents args pool before = .ok (after, event)) :
    Moves derive agrees born before after ∧ event.pool = accounts.pool := by
  simp only [Program.Swap.handler, bind_ok, require_ok, exists_const] at done
  obtain ⟨_, _, observed, recorded, done⟩ := done
  have observes : Moves derive agrees born before (before.setPool accounts.pool observed) :=
    .single (.observed own present (Pool.recordObservation_kept recorded))
  split at done
  · obtain ⟨⟨last, metrics⟩, traded, same⟩ := bind_ok.mp done
    cases same
    simp only [Program.handleBuy, bind_ok, okOr_ok, require_ok, pure_ok, exists_const] at traded
    obtain ⟨_, _, _, _, _, _, _, _, paid, moved, delivered, sent, _, _, same⟩ := traded
    cases same
    exact ⟨(observes.trans (Moves.systemTransfer solSource moved)).tail (.tokens own sent), rfl⟩
  · obtain ⟨⟨last, metrics⟩, traded, same⟩ := bind_ok.mp done
    cases same
    simp only [Program.handleSell, bind_ok, okOr_ok, require_ok, pure_ok, exists_const] at traded
    obtain ⟨paid, sent, _, _, _, _, _, _, _, _, _, _, _, _, debited, spent, credited, earned, same⟩ := traded
    cases same
    exact ⟨(observes.tail (.tokens user sent)).trans (Moves.paidOut own spent earned), rfl⟩

theorem Program.AddLiquidity.moves {accounts : Program.AddLiquidity Key} {args : AddLiquidityArgs}
    {event : LiquidityAdded Key} (provider : agrees accounts.provider) (own : agrees accounts.pool)
    (done : accounts.handler rents args before = .ok (after, event)) :
    Moves derive agrees born before after ∧ event.pool = accounts.pool := by
  simp only [Program.AddLiquidity.handler, bind_ok, okOr_ok, require_ok, pure_ok, exists_const] at done
  obtain ⟨_, _, _, _, _, _, _, funded, sent, _, _, _, _, _, _, paid, moved, _, _, _, _, _, _, _, _, _, provided, minted,
    last, locked, same⟩ := done
  cases same
  have pays : Moves derive agrees born before paid := (Moves.systemTransfer provider moved).head (.tokens provider sent)
  exact ⟨(pays.tail (.minted own minted)).tail (.minted own locked), rfl⟩

theorem Program.RemoveLiquidity.moves {accounts : Program.RemoveLiquidity Key} {args : RemoveLiquidityArgs}
    {event : LiquidityRemoved Key} (provider : agrees accounts.provider) (own : agrees accounts.pool)
    (done : accounts.handler rents args before = .ok (after, event)) :
    Moves derive agrees born before after ∧ event.pool = accounts.pool := by
  simp only [Program.RemoveLiquidity.handler, bind_ok, okOr_ok, require_ok, pure_ok, exists_const] at done
  obtain ⟨_, _, _, _, _, _, _, _, _, _, _, _, _, _, burned, retired, delivered, sent, _, _, spent, debited, earned,
    credited, same⟩ := done
  cases same
  exact ⟨((Moves.paidOut own debited credited).head (.tokens own sent)).head (.burned provider retired), rfl⟩

/-- A pool is only made where there is none. -/
theorem Program.CreatePool.nothing {accounts : Program.CreatePool Key} {bump : Word 8} {kind : Mint Key}
    (valid : accounts.validate derive before rents = .ok (bump, kind, after)) : before.pools accounts.pool = none := by
  obtain ⟨_, _, _, _, _, _, valid⟩ := Program.CreatePool.validate_ok valid
  rw [← (World.rebalanced_of_payRent valid.rent).pools]
  exact valid.vacant.1

/-- The constraints of a creation make its accounts. -/
theorem Program.CreatePool.makes_moves {accounts : Program.CreatePool Key} {bump : Word 8} {kind : Mint Key}
    (creator : agrees accounts.creator) (new : born = some accounts.pool)
    (valid : accounts.validate derive before rents = .ok (bump, kind, after)) : Moves derive agrees born before after := by
  obtain ⟨rented, vaultRented, vaulted, mintRented, minted, creatorMade, valid⟩ := Program.CreatePool.validate_ok valid
  obtain ⟨_, vaultAddress⟩ := valid.vaultAddress
  have rents : Moves derive agrees born before rented := Moves.payRent creator valid.rent
  have founds := rents.tail (.founded (Pool.zeroed accounts.pool) new)
  have vaults := (founds.trans (Moves.payRent creator valid.vaultRent)).tail
    (.opened (.of_programAddress (derive.found vaultAddress)) valid.vault)
  have mints := (vaults.trans (Moves.payRent creator valid.mintRent)).tail (.openedMint valid.lpMint)
  exact (mints.trans (Moves.initAssociated creator valid.creatorLp)).trans (Moves.initAssociated creator valid.poolLp)

/-- Its handler assigns the pool's data last, from its own accounts. -/
theorem Program.CreatePool.moves {accounts : Program.CreatePool Key} {args : CreatePoolArgs} {bump : Word 8}
    {kind : Mint Key} {event : PoolCreated Key} (creator : agrees accounts.creator)
    (solSource : agrees accounts.solSource) (own : agrees accounts.pool)
    (done : accounts.handler rents args bump kind before = .ok (after, event)) :
    ∃ last pool, Moves derive agrees born before last ∧ after = last.setPool accounts.pool pool ∧
      pool.config = accounts.config ∧ pool.tokenMint = accounts.tokenMint ∧ pool.tokenVault = accounts.tokenVault ∧
      pool.lpMint = accounts.lpMint ∧ pool.bump = bump ∧ event.Describes accounts.pool pool := by
  simp only [Program.CreatePool.handler, bind_ok, okOr_ok, orFail_ok, require_ok, pure_ok, exists_const] at done
  obtain ⟨_, _, _, _, funded, sent, _, _, _, paid, moved, _, _, _, _, _, _, _, _, _, _, _, _, provided, toCreator, last,
    toPool, same⟩ := done
  cases same
  have pays : Moves derive agrees born before paid := (Moves.systemTransfer solSource moved).head (.tokens creator sent)
  exact ⟨last, _, (pays.tail (.minted own toCreator)).tail (.minted own toPool), rfl, rfl, rfl, rfl, rfl, rfl,
    ⟨rfl, rfl, rfl, rfl, rfl, rfl⟩⟩

/-- Every step, whatever it is; what it emits names the pool that it is for. -/
theorem step_moves {action : Program.Action Key} {output : Option (DeepPoolEvent Key)}
    (done : Program.step derive rents before action = .ok (after, output)) :
    Moves derive action.agrees action.born before after ∧ ∀ event, output = some event → action.pool = some event.pool := by
  cases action with
  | createPool accounts args =>
    obtain ⟨⟨bump, mint, made⟩, valid, done⟩ := bind_ok.mp done
    obtain ⟨⟨_, event⟩, handled, same⟩ := bind_ok.mp done
    cases same
    have creator : Program.Action.agrees (.createPool accounts args) accounts.creator := .inl List.mem_cons_self
    have solSource : Program.Action.agrees (.createPool accounts args) accounts.solSource :=
      .inl (by simp [Program.Action.signers])
    obtain ⟨last, pool, moves, same, _, _, _, _, _, named⟩ :=
      Program.CreatePool.moves creator solSource (.inr rfl) (mapError_ok.mp handled)
    have makes := (Program.CreatePool.makes_moves creator rfl valid).trans moves
    rw [same]
    refine ⟨makes.tail (.founded pool rfl), ?_⟩
    rintro _ ⟨rfl⟩
    exact congrArg some named.address.symm
  | swap accounts args =>
    obtain ⟨loaded, valid, done⟩ := bind_ok.mp done
    obtain ⟨⟨_, event⟩, handled, same⟩ := bind_ok.mp done
    cases same
    have solSource : Program.Action.agrees (.swap accounts args) accounts.solSource :=
      .inl (by simp [Program.Action.signers])
    obtain ⟨moves, named⟩ := Program.Swap.moves (.inl List.mem_cons_self) solSource (.inr rfl)
      (Program.Swap.validate_ok valid).present (mapError_ok.mp handled)
    refine ⟨moves, ?_⟩
    rintro _ ⟨rfl⟩
    exact congrArg some named.symm
  | addLiquidity accounts args =>
    obtain ⟨⟨loaded, made⟩, valid, done⟩ := bind_ok.mp done
    obtain ⟨⟨_, event⟩, handled, same⟩ := bind_ok.mp done
    cases same
    have provider : Program.Action.agrees (.addLiquidity accounts args) accounts.provider := .inl List.mem_cons_self
    obtain ⟨moves, named⟩ := Program.AddLiquidity.moves provider (.inr rfl) (mapError_ok.mp handled)
    refine ⟨(Moves.initAssociated provider (Program.AddLiquidity.validate_ok valid).lpMade).trans moves, ?_⟩
    rintro _ ⟨rfl⟩
    exact congrArg some named.symm
  | removeLiquidity accounts args =>
    obtain ⟨loaded, valid, done⟩ := bind_ok.mp done
    obtain ⟨⟨_, event⟩, handled, same⟩ := bind_ok.mp done
    cases same
    have provider : Program.Action.agrees (.removeLiquidity accounts args) accounts.provider := .inl List.mem_cons_self
    obtain ⟨moves, named⟩ := Program.RemoveLiquidity.moves provider (.inr rfl) (mapError_ok.mp handled)
    refine ⟨moves, ?_⟩
    rintro _ ⟨rfl⟩
    exact congrArg some named.symm
  | moveLamports source dest amount =>
    simp only [Program.step, bind_ok, assure_ok, mapError_ok, exists_const] at done
    obtain ⟨_, world, ⟨_, debited, credited⟩, same⟩ := done
    cases same
    exact ⟨.paidOut (.inl List.mem_cons_self) debited credited, nofun⟩
  | transferTokens source mint dest authority amount =>
    simp only [Program.step, bind_ok, Program.signer_ok, mapError_ok, exists_const] at done
    obtain ⟨_, world, moved, same⟩ := done
    cases same
    exact ⟨.single (.tokens (.inl List.mem_cons_self) moved), nofun⟩
  | mintTokens mint dest authority amount =>
    simp only [Program.step, bind_ok, Program.signer_ok, mapError_ok, exists_const] at done
    obtain ⟨_, world, minted, same⟩ := done
    cases same
    exact ⟨.single (.minted (.inl List.mem_cons_self) minted), nofun⟩
  | burnTokens mint source authority amount =>
    simp only [Program.step, bind_ok, Program.signer_ok, mapError_ok, exists_const] at done
    obtain ⟨_, world, burned, same⟩ := done
    cases same
    exact ⟨.single (.burned (.inl List.mem_cons_self) burned), nofun⟩
  | openAccount tokenProgram key mint owner =>
    simp only [Program.step, bind_ok, assure_ok, initialized_ok, mapError_ok, exists_const] at done
    obtain ⟨allowed, kind, _, _, world, opened, same⟩ := done
    cases same
    exact ⟨.single (.opened (.of_allowed allowed) opened), nofun⟩
  | incinerateTokens mint source amount =>
    simp only [Program.step, bind_ok, assure_ok, initialized_ok, mapError_ok, exists_const] at done
    obtain ⟨account, found, nobody, world, burned, same⟩ := done
    cases same
    exact ⟨.single (.incinerated found nobody burned), nofun⟩
  | harvestFees source mint =>
    simp only [Program.step, bind_ok, mapError_ok] at done
    obtain ⟨world, harvested, same⟩ := done
    cases same
    exact ⟨.single (.harvested harvested), nofun⟩
  | withdrawFees mint dest =>
    simp only [Program.step, bind_ok, mapError_ok] at done
    obtain ⟨world, withdrawn, same⟩ := done
    cases same
    exact ⟨.single (.withdrawn withdrawn), nofun⟩
  | collectFees source mint dest =>
    simp only [Program.step, bind_ok, mapError_ok] at done
    obtain ⟨world, collected, same⟩ := done
    cases same
    exact ⟨.single (.collected collected), nofun⟩
  | approve key authority delegate amount =>
    simp only [Program.step, bind_ok, assure_ok, initialized_ok, Program.signer_ok, exists_const] at done
    obtain ⟨signs, held, found, rfl, _, same⟩ := done
    cases same
    exact ⟨.single (.granted found (.approved (.inl List.mem_cons_self) signs _)), nofun⟩
  | revoke key authority =>
    simp only [Program.step, bind_ok, assure_ok, initialized_ok, Program.signer_ok, exists_const] at done
    obtain ⟨_, held, found, _, _, same⟩ := done
    cases same
    exact ⟨.single (.granted found .revoked), nofun⟩
  | assignCloseAuthority key authority next =>
    simp only [Program.step, bind_ok, assure_ok, initialized_ok, Program.signer_ok, exists_const] at done
    obtain ⟨signs, held, found, rfl, _, same⟩ := done
    cases same
    exact ⟨.single (.granted found (.entrusted signs next)), nofun⟩
  | assignOwner key authority owner =>
    simp only [Program.step, bind_ok, assure_ok, initialized_ok, Program.signer_ok, exists_const] at done
    obtain ⟨signs, held, found, rfl, _, free, same⟩ := done
    cases same
    exact ⟨.single (.assigned (.inl List.mem_cons_self) signs found free), nofun⟩
  | closeAccount key authority =>
    simp only [Program.step, bind_ok, assure_ok, initialized_ok, Program.signer_ok, exists_const] at done
    obtain ⟨signs, held, found, closes, empty, same⟩ := done
    cases same
    have allowed : derive.signs (Program.closer held (before.standing key)) = true ∨
        derive.incinerates held.owner = true := by
      rcases closes with rfl | nobody
      · exact .inl signs
      · exact .inr nobody
    exact ⟨.single (.closed found allowed empty), nofun⟩
  | setFrozen key authority frozen =>
    simp only [Program.step, bind_ok, assure_ok, initialized_ok, Program.signer_ok, exists_const] at done
    obtain ⟨_, held, found, kind, minted, authorized, _, same⟩ := done
    cases same
    have freezes : kind.freezeAuthority ≠ none := by
      rw [authorized]
      exact Option.some_ne_none _
    exact ⟨.single (.granted found (.frozen minted freezes frozen)), nofun⟩
  | openMint key mint =>
    simp only [Program.step, bind_ok, Program.signer_ok, mapError_ok, exists_const] at done
    obtain ⟨_, world, opened, same⟩ := done
    cases same
    exact ⟨.single (.openedMint opened), nofun⟩
  | assignAuthority key authority role next =>
    simp only [Program.step, bind_ok, assure_ok, initialized_ok, Program.signer_ok, exists_const] at done
    obtain ⟨signs, mint, found, ours, same⟩ := done
    cases same
    exact ⟨.single (.configured signs found (.assigned ours next)), nofun⟩
  | setTransferFee key authority transferFee =>
    simp only [Program.step, bind_ok, assure_ok, initialized_ok, Program.signer_ok, exists_const] at done
    obtain ⟨signs, mint, found, ours, same⟩ := done
    cases same
    exact ⟨.single (.configured signs found (.charged ours transferFee)), nofun⟩
  | advance slot =>
    simp only [Program.step] at done
    split at done
    next later =>
      cases done
      exact ⟨.single (.advanced later), nofun⟩
    · cases done

/-- What every operation keeps, whoever agreed to it, every run keeps. -/
theorem run_invariant {trace : Program.Trace Key} (kept : World Key → Prop)
    (preserved : ∀ agrees born before after, Move derive agrees born before after → kept before → kept after)
    (runs : Run (Program.step derive rents) before trace after) (initial : kept before) : kept after := by
  refine Run.invariant kept runs ?_ initial
  intro state action next output _ now accepted
  have moves := (step_moves accepted).1
  clear accepted
  induction moves with
  | refl => exact now
  | tail _ move ih => exact preserved _ _ _ _ move ih

/-- A pool signs nothing and does not let lamports be taken. -/
theorem step_signers {action : Program.Action Key} {output : Option (DeepPoolEvent Key)} {key : Key}
    (done : Program.step derive rents before action = .ok (after, output)) (signer : key ∈ action.signers) :
    derive.signs key = true ∨ before.pools key = none := by
  cases action <;> simp only [Program.Action.signers, List.mem_cons, List.not_mem_nil, or_false] at signer
  case createPool accounts args =>
    obtain ⟨⟨bump, mint, made⟩, valid, _⟩ := bind_ok.mp done
    obtain ⟨_, _, _, _, _, _, valid⟩ := Program.CreatePool.validate_ok valid
    rcases signer with rfl | rfl | rfl
    · exact .inl valid.creator
    · exact .inl valid.solSource
    · exact .inl valid.config
  case swap accounts args =>
    obtain ⟨loaded, valid, _⟩ := bind_ok.mp done
    have valid := Program.Swap.validate_ok valid
    rcases signer with rfl | rfl
    · exact .inl valid.user
    · exact .inl valid.solSource
  case addLiquidity accounts args =>
    obtain ⟨⟨loaded, made⟩, valid, _⟩ := bind_ok.mp done
    exact .inl (signer ▸ (Program.AddLiquidity.validate_ok valid).provider)
  case removeLiquidity accounts args =>
    obtain ⟨loaded, valid, _⟩ := bind_ok.mp done
    exact .inl (signer ▸ (Program.RemoveLiquidity.validate_ok valid).provider)
  case moveLamports source dest amount =>
    simp only [Program.step, bind_ok, assure_ok, exists_const] at done
    exact .inr (signer ▸ done.1)
  all_goals
    simp only [Program.step, bind_ok, Program.signer_ok, exists_const] at done
    exact .inl (signer ▸ done.1)

end Handlers
end DeepPool
