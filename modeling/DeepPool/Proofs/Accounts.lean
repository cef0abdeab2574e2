import DeepPool.Proofs.World

/-! What an instruction knows about the accounts it was passed once its constraints hold:
each is the one account that its role allows. -/

namespace DeepPool.Program
open Library

variable {Key : Type} {derive : Derivation Key} {rents : Rents Key} {world after : World Key}
  {key mint wallet payer : Key} {tokenProgram : TokenProgram} {pool : Pool Key} {checked : Unit}

theorem signer_ok : signer derive key = .ok checked ↔ derive.signs key = true := assure_ok

theorem token2022_ok : token2022 tokenProgram = .ok checked ↔ tokenProgram = .token2022 := assure_ok

variable [DecidableEq Key]

theorem loadPool_ok : loadPool derive world key = .ok pool ↔
    world.pools key = some pool ∧
      derive.programAddress (.pool pool.config pool.tokenMint) pool.bump = some key := by
  simp only [loadPool, bind_ok, initialized_ok, assure_ok, exists_const]
  constructor
  · rintro ⟨found, present, seeds, same⟩
    cases same
    exact ⟨present, seeds⟩
  · rintro ⟨present, seeds⟩
    exact ⟨pool, present, seeds, rfl⟩

theorem associatedToken_ok (done : associatedToken derive world tokenProgram key mint wallet = .ok checked) :
    world.tokenAccounts key = some ⟨mint, wallet⟩ ∧ key = derive.associated tokenProgram wallet mint := by
  simp only [associatedToken, bind_ok, initialized_ok, assure_ok, exists_const] at done
  obtain ⟨account, found, kind, _, _, belongs, owned, address⟩ := done
  refine ⟨?_, address⟩
  rw [found, ← belongs, ← owned]

theorem derived_ok {seeds : Seeds Key} {bump : Word 8} (done : derived derive seeds key = .ok bump) :
    derive.findProgramAddress seeds = some (key, bump) := by
  unfold derived at done
  obtain ⟨⟨address, found⟩, search, done⟩ := bind_ok.mp done
  simp only [bind_ok, assure_ok, exists_const] at done
  obtain ⟨same, kept⟩ := done
  cases kept
  subst same
  cases result : derive.findProgramAddress seeds with
  | none =>
    rw [result] at search
    cases search
  | some pair =>
    rw [result] at search
    cases search
    rfl

/-- The associated account of a mint of the newer program passes. -/
theorem associatedToken_isOk {kind : Mint Key} (minted : world.mints mint = some kind) (program : kind.program = .token2022)
    (held : world.tokenAccounts (derive.associated .token2022 wallet mint) = some ⟨mint, wallet⟩) :
    associatedToken derive world .token2022 (derive.associated .token2022 wallet mint) mint wallet = .ok () := by
  simp only [associatedToken, bind_ok, initialized_ok, assure_ok, exists_const]
  exact ⟨_, held, kind, minted, program, rfl, rfl, trivial⟩

/-- Either the associated account was there, or it has just been made. -/
theorem initAssociated_ok (done : initAssociated derive world rents tokenProgram payer key mint wallet = .ok after) :
    key = derive.associated tokenProgram wallet mint ∧
      ((after = world ∧ world.tokenAccounts key = some ⟨mint, wallet⟩) ∨
        ∃ paid, world.payRent payer key (rents.tokenAccount mint) = .ok paid ∧
          paid.openAccount key ⟨mint, wallet⟩ = .ok after) := by
  simp only [initAssociated, bind_ok, assure_ok, exists_const] at done
  obtain ⟨address, done⟩ := done
  refine ⟨address, ?_⟩
  split at done
  · obtain ⟨_, present, same⟩ := bind_ok.mp done
    cases same
    exact .inl ⟨rfl, (associatedToken_ok present).1⟩
  · rw [mapError_ok, bind_ok] at done
    exact .inr done

structure Swap.Validated (derive : Derivation Key) (world : World Key) (accounts : Swap Key) (pool : Pool Key) :
    Prop where
  user : derive.signs accounts.user = true
  solSource : derive.signs accounts.solSource = true
  present : world.pools accounts.pool = some pool
  tokenMint : accounts.tokenMint = pool.tokenMint
  tokenVault : accounts.tokenVault = pool.tokenVault
  tokenAccount : world.tokenAccounts accounts.userTokenAccount = some ⟨accounts.tokenMint, accounts.user⟩
  associated : accounts.userTokenAccount = derive.associated .token2022 accounts.user accounts.tokenMint
  tokenProgram : accounts.tokenProgram = .token2022

theorem Swap.validate_ok {accounts : Swap Key} (done : accounts.validate derive world = .ok pool) :
    Swap.Validated derive world accounts pool := by
  simp only [Swap.validate, bind_ok, signer_ok, token2022_ok, loadPool_ok, initialized_ok, assure_ok,
    exists_const] at done
  obtain ⟨user, solSource, found, ⟨present, _⟩, _, _, tokenMint, _, _, tokenVault, _, associated, ours, same⟩ := done
  cases same
  obtain ⟨held, address⟩ := associatedToken_ok associated
  rw [ours] at address
  exact ⟨user, solSource, present, tokenMint, tokenVault, held, address, ours⟩

structure RemoveLiquidity.Validated (derive : Derivation Key) (world : World Key) (accounts : RemoveLiquidity Key)
    (args : RemoveLiquidityArgs) (pool : Pool Key) : Prop where
  provider : derive.signs accounts.provider = true
  present : world.pools accounts.pool = some pool
  tokenMint : accounts.tokenMint = pool.tokenMint
  tokenVault : accounts.tokenVault = pool.tokenVault
  lpMint : accounts.lpMint = pool.lpMint
  tokenAccount : world.tokenAccounts accounts.providerTokenAccount = some ⟨accounts.tokenMint, accounts.provider⟩
  tokenAssociated : accounts.providerTokenAccount = derive.associated .token2022 accounts.provider accounts.tokenMint
  lpAccount : world.tokenAccounts accounts.providerLpAccount = some ⟨accounts.lpMint, accounts.provider⟩
  lpAssociated : accounts.providerLpAccount = derive.associated .token2022 accounts.provider accounts.lpMint
  funds : args.lpAmount.val ≤ (world.amounts accounts.providerLpAccount).val
  tokenProgram : accounts.tokenProgram = .token2022

theorem RemoveLiquidity.validate_ok {accounts : RemoveLiquidity Key} {args : RemoveLiquidityArgs}
    (done : accounts.validate derive world args = .ok pool) :
    RemoveLiquidity.Validated derive world accounts args pool := by
  simp only [RemoveLiquidity.validate, bind_ok, signer_ok, token2022_ok, loadPool_ok, initialized_ok, assure_ok,
    exists_const] at done
  obtain ⟨provider, found, ⟨present, _⟩, _, _, tokenMint, _, _, tokenVault, _, _, lpMint, _, token, _, lp, funds, ours,
    same⟩ := done
  cases same
  obtain ⟨tokenAccount, tokenAssociated⟩ := associatedToken_ok token
  obtain ⟨lpAccount, lpAssociated⟩ := associatedToken_ok lp
  rw [ours] at tokenAssociated lpAssociated
  exact ⟨provider, present, tokenMint, tokenVault, lpMint, tokenAccount, tokenAssociated, lpAccount, lpAssociated, funds,
    ours⟩

/-- `made` is the world once the provider's LP account is there. -/
structure AddLiquidity.Validated (derive : Derivation Key) (rents : Rents Key) (world : World Key)
    (accounts : AddLiquidity Key) (pool : Pool Key) (made : World Key) : Prop where
  provider : derive.signs accounts.provider = true
  present : world.pools accounts.pool = some pool
  tokenMint : accounts.tokenMint = pool.tokenMint
  tokenVault : accounts.tokenVault = pool.tokenVault
  lpMint : accounts.lpMint = pool.lpMint
  tokenAccount : world.tokenAccounts accounts.providerTokenAccount = some ⟨accounts.tokenMint, accounts.provider⟩
  tokenAssociated : accounts.providerTokenAccount = derive.associated .token2022 accounts.provider accounts.tokenMint
  lpMade : initAssociated derive world rents .token2022 accounts.provider accounts.providerLpAccount accounts.lpMint
    accounts.provider = .ok made
  lockedAssociated : accounts.poolLpAccount = derive.associated .token2022 accounts.pool accounts.lpMint
  tokenProgram : accounts.tokenProgram = .token2022

theorem AddLiquidity.validate_ok {accounts : AddLiquidity Key} {made : World Key}
    (done : accounts.validate derive world rents = .ok (pool, made)) :
    AddLiquidity.Validated derive rents world accounts pool made := by
  simp only [AddLiquidity.validate, bind_ok, signer_ok, token2022_ok, loadPool_ok, initialized_ok, assure_ok,
    exists_const] at done
  obtain ⟨provider, found, ⟨present, _⟩, _, _, tokenMint, _, _, tokenVault, _, _, lpMint, _, token, next, made, _, locked,
    ours, same⟩ := done
  cases same
  obtain ⟨tokenAccount, tokenAssociated⟩ := associatedToken_ok token
  obtain ⟨_, lockedAssociated⟩ := associatedToken_ok locked
  rw [ours] at tokenAssociated lockedAssociated made
  exact ⟨provider, present, tokenMint, tokenVault, lpMint, tokenAccount, tokenAssociated, made, lockedAssociated,
    ours⟩

/-- The worlds that creation passes through: the pool's account, the vault, the LP mint
and the two LP accounts are made one after the other. -/
structure CreatePool.Validated (derive : Derivation Key) (rents : Rents Key) (world : World Key)
    (accounts : CreatePool Key) (bump : Word 8) (mint : Mint Key)
    (rented vaultRented vaulted mintRented minted creatorMade made : World Key) : Prop where
  creator : derive.signs accounts.creator = true
  solSource : derive.signs accounts.solSource = true
  config : derive.signs accounts.config = true
  tokenMint : world.mints accounts.tokenMint = some mint
  program : mint.program = .token2022
  sized : ∃ types, tokenAccountExtensions mint.data = .ok types
  address : derive.findProgramAddress (.pool accounts.config accounts.tokenMint) = some (accounts.pool, bump)
  rent : world.payRent accounts.creator accounts.pool rents.pool = .ok rented
  vacant : rented.vacant accounts.pool
  vaultAddress : ∃ bump, derive.findProgramAddress (.vault accounts.pool) = some (accounts.tokenVault, bump)
  vaultRent : (rented.setPool accounts.pool (Pool.zeroed accounts.pool)).payRent accounts.creator accounts.tokenVault
    (rents.tokenAccount accounts.tokenMint) = .ok vaultRented
  vault : vaultRented.openAccount accounts.tokenVault ⟨accounts.tokenMint, accounts.pool⟩ = .ok vaulted
  lpAddress : ∃ bump, derive.findProgramAddress (.lpMint accounts.pool) = some (accounts.lpMint, bump)
  mintRent : vaulted.payRent accounts.creator accounts.lpMint rents.mint = .ok mintRented
  lpMint : mintRented.openMint accounts.lpMint (.ofPool accounts.pool) = .ok minted
  tokenAccount : minted.tokenAccounts accounts.creatorTokenAccount = some ⟨accounts.tokenMint, accounts.creator⟩
  tokenAssociated : accounts.creatorTokenAccount = derive.associated .token2022 accounts.creator accounts.tokenMint
  creatorLp : initAssociated derive minted rents .token2022 accounts.creator accounts.creatorLpAccount accounts.lpMint
    accounts.creator = .ok creatorMade
  poolLp : initAssociated derive creatorMade rents .token2022 accounts.creator accounts.poolLpAccount accounts.lpMint
    accounts.pool = .ok made

theorem CreatePool.validate_ok {accounts : CreatePool Key} {bump : Word 8} {kind : Mint Key} {made : World Key}
    (done : accounts.validate derive world rents = .ok (bump, kind, made)) :
    ∃ rented vaultRented vaulted mintRented minted creatorMade, CreatePool.Validated derive rents world accounts bump
      kind rented vaultRented vaulted mintRented minted creatorMade made := by
  simp only [CreatePool.validate, bind_ok, signer_ok, token2022_ok, initialized_ok, assure_ok, mapError_ok,
    pure_ok, exists_const] at done
  obtain ⟨creator, solSource, config, mint, present, own, program, bump, address, _, ⟨rented, rent, vacant, rfl⟩, _,
    vaultAddress, vaulted, ⟨types, read, vaultRented, vaultRent, vault⟩, _, lpAddress, minted,
    ⟨mintRented, mintRent, lpMint⟩, _, token, creatorMade, creatorLp, made, poolLp, _, same⟩ := done
  cases same
  obtain ⟨tokenAccount, tokenAssociated⟩ := associatedToken_ok token
  rw [program] at own
  rw [← own] at lpMint tokenAssociated creatorLp poolLp
  exact ⟨rented, vaultRented, vaulted, mintRented, minted, creatorMade, creator, solSource, config, present, program,
    ⟨types, read⟩, derived_ok address, rent, vacant, ⟨_, derived_ok vaultAddress⟩, vaultRent, vault, ⟨_, derived_ok lpAddress⟩,
    mintRent, lpMint, tokenAccount, tokenAssociated, creatorLp, poolLp⟩

end DeepPool.Program
