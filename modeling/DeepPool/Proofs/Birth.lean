import DeepPool.Proofs.Own
import DeepPool.Proofs.Blocklist

/-! A pool's creation. The constraints make its accounts, which are then settled, and the
handler is the chain's own `createPool` with the rent already paid. -/

namespace DeepPool
open Library

variable {Key : Type} {derive : Derivation Key} {rents : Rents Key} {world after : World Key}

variable [DecidableEq Key]

namespace Program
variable {accounts : CreatePool Key} {args : CreatePoolArgs} {bump : Word 8} {kind : Mint Key}
  {event : PoolCreated Key}

def CreatePool.site (accounts : CreatePool Key) : Site Key :=
  { address := accounts.pool
    tokenMint := accounts.tokenMint
    tokenVault := accounts.tokenVault
    lpMint := accounts.lpMint }

/-- What the constraints leave to the handler. -/
structure CreatePool.Made (derive : Derivation Key) (rents : Rents Key) (world : World Key) (accounts : CreatePool Key)
    (kind : Mint Key) (made : World Key) : Prop where
  orderly : Orderly derive made
  settled : Settled derive accounts.site made
  extended : Extends world made
  tokenMint : made.mints accounts.tokenMint = some kind
  sized : ∃ types, tokenAccountExtensions kind.data = .ok types
  lpMint : made.mints accounts.lpMint = some (.ofPool accounts.pool)
  rent : rents.pool.val ≤ (made.lamports accounts.pool).val
  noLp : world.mints accounts.lpMint = none
  noVault : world.tokenAccounts accounts.tokenVault = none
  creator : accounts.creator ≠ accounts.pool
  solSource : accounts.solSource ≠ accounts.pool
  creatorTokenAccount : accounts.creatorTokenAccount = derive.associated .token2022 accounts.creator accounts.tokenMint
  creatorLpAccount : accounts.creatorLpAccount = derive.associated .token2022 accounts.creator accounts.lpMint
  poolLpAccount : accounts.poolLpAccount = derive.associated .token2022 accounts.pool accounts.lpMint

theorem CreatePool.Validated.makes {rented vaultRented vaulted mintRented minted creatorMade made : World Key}
    (valid : CreatePool.Validated derive rents world accounts bump kind rented vaultRented vaulted mintRented minted
      creatorMade made) (orderly : Orderly derive world) : CreatePool.Made derive rents world accounts kind made := by
  obtain ⟨vaultBump, vaultAddress⟩ := valid.vaultAddress
  obtain ⟨lpBump, lpAddress⟩ := valid.lpAddress
  have address := derive.found valid.address
  have vaultAddress := derive.found vaultAddress
  have apart : ∀ {key}, derive.signs key = true → key ≠ accounts.pool := by
    rintro key signs rfl
    rw [derive.programAddress_silent address] at signs
    cases signs
  have creator := apart valid.creator
  -- What exists after each constraint.
  have founded :=
    (World.extends_of_payRent valid.rent).trans (World.extends_of_setPool rented accounts.pool (Pool.zeroed accounts.pool))
  have vaulted := (founded.trans (World.extends_of_payRent valid.vaultRent)).trans (World.extends_of_openAccount valid.vault)
  have priced := vaulted.trans (World.extends_of_payRent valid.mintRent)
  have minted := priced.trans (World.extends_of_openMint valid.lpMint)
  obtain ⟨creatorExtends, _⟩ := World.extends_of_initAssociated valid.creatorLp
  obtain ⟨poolExtends, locked⟩ := World.extends_of_initAssociated valid.poolLp
  have later := creatorExtends.trans poolExtends
  have all := minted.trans later
  -- Every intermediate world is in order.
  have orderlyFounded := (orderly.same (World.rebalanced_of_payRent valid.rent).toSameAccounts).same
    (World.same_of_setPool _ accounts.pool (Pool.zeroed accounts.pool))
  have orderlyVaulted := (orderlyFounded.same (World.rebalanced_of_payRent valid.vaultRent).toSameAccounts).openAccount
    (.of_programAddress vaultAddress) valid.vault
  have orderlyPriced := orderlyVaulted.same (World.rebalanced_of_payRent valid.mintRent).toSameAccounts
  obtain ⟨vacant, mintedIs⟩ := World.openMint_ok valid.lpMint
  have orderlyMinted : Orderly derive _ := mintedIs ▸ orderlyPriced.setMint
  have orderlyMade := (orderlyMinted.initAssociated valid.creatorLp).initAssociated valid.poolLp
  obtain ⟨poolAssociated, _⟩ := initAssociated_ok valid.poolLp
  have tokenMint := all.mints valid.tokenMint
  have lpMint : made.mints accounts.lpMint = some (.ofPool accounts.pool) := by
    refine later.mints ?_
    rw [mintedIs]
    exact Function.update_self _ _ _
  have noVault : world.tokenAccounts accounts.tokenVault = none := by
    obtain ⟨vacant, _, _⟩ := World.openAccount_ok valid.vault
    exact (founded.trans (World.extends_of_payRent valid.vaultRent)).no_account vacant.2.2
  constructor
  case orderly => exact orderlyMade
  case settled =>
    -- Nothing was at the two addresses, so nobody was entrusted with them.
    have absent : ∀ {key}, world.tokenAccounts key = none → (made.standing key).closeAuthority = none := by
      intro key nothing
      rw [all.standing, (orderly.absent nothing).2.2]
      rfl
    have noLocked : world.tokenAccounts (derive.associated .token2022 accounts.pool accounts.lpMint) = none := by
      rw [Option.eq_none_iff_forall_ne_some]
      intro account found
      have known := orderly.minted found
      rw [orderly.associated found] at known
      exact known (priced.no_mint vacant.2.1)
    refine ⟨⟨accounts.config, bump, address⟩, ⟨vaultBump, vaultAddress⟩, ⟨lpBump, derive.found lpAddress⟩, ?_, ?_,
      absent noVault, absent noLocked, lpMint, ?_, ?_⟩
    · obtain ⟨_, _, opened⟩ := World.openAccount_ok valid.vault
      have held : _ := (World.extends_of_payRent valid.mintRent).trans ((World.extends_of_openMint valid.lpMint).trans later)
      refine held.accounts ?_
      rw [opened]
      exact Function.update_self _ _ _
    · rw [CreatePool.site, ← poolAssociated]
      exact locked
    · intro key account found belongs
      cases held : world.tokenAccounts key with
      | none => rw [all.standing, (orderly.absent held).2.2, Standing.initial]
      | some same =>
        obtain rfl := Option.some.inj ((all.accounts held).symm.trans found)
        have known := orderly.minted held
        rw [belongs] at known
        exact absurd (priced.no_mint vacant.2.1) known
    · intro same
      have known := priced.mints valid.tokenMint
      rw [show accounts.tokenMint = accounts.lpMint from same, vacant.2.1] at known
      cases known
  case extended => exact all
  case tokenMint => exact tokenMint
  case sized => exact valid.sized
  case lpMint => exact lpMint
  case rent =>
    have start := World.payRent_pays creator valid.rent
    have one := World.payRent_grows creator valid.vaultRent
    obtain ⟨_, _, opened⟩ := World.openAccount_ok valid.vault
    have two := World.payRent_grows creator valid.mintRent
    have three := World.initAssociated_grows creator valid.creatorLp
    have four := World.initAssociated_grows creator valid.poolLp
    rw [opened] at two
    rw [mintedIs] at three
    simp only [World.setPool] at one two three
    omega
  case noLp => exact priced.no_mint vacant.2.1
  case noVault => exact noVault
  case creator => exact creator
  case solSource => exact apart valid.solSource
  case creatorTokenAccount => exact valid.tokenAssociated
  case creatorLpAccount => exact (initAssociated_ok valid.creatorLp).1
  case poolLpAccount => exact poolAssociated

/-- What creation has checked of the mint before it moves anything. -/
theorem CreatePool.handler_checked {made : World Key} (sized : ∃ types, tokenAccountExtensions kind.data = .ok types)
    (done : accounts.handler rents args bump kind made = .ok (after, event)) :
    ∀ entry ∈ kind.data.entries, entry.named = true ∧ entry.blocked = false := by
  simp only [CreatePool.handler, bind_ok] at done
  obtain ⟨_, _, _, _, _, checked, _⟩ := done
  obtain ⟨_, named⟩ := tokenAccountExtensions_ok.mp sized
  obtain ⟨_, ⟨entry, member, unnamed⟩ | clear⟩ := validateMintExtensions_ok.mp checked
  · rw [named entry member] at unnamed
    cases unnamed
  · exact fun entry member => ⟨named entry member, clear entry member⟩

theorem undelegated {data : MintAccount}
    (clear : ∀ entry ∈ data.entries, entry.named = true ∧ entry.blocked = false) : data.delegated = false := by
  by_contra delegated
  have member : TlvEntry.known .permanentDelegate ∈ data.entries := by
    simpa [MintAccount.delegated] using delegated
  cases (clear _ member).2

/-- What the pool's chain sees before the handler runs: the rent is paid, the vault is
empty and there are no LP tokens. -/
def CreatePool.ground (derive : Derivation Key) (accounts : CreatePool Key) (made : World Key) : Ground (Holder Key) :=
  { slot := made.slot
    lamports := made.lamports.named accounts.site.lamportsOf
    tokens := fun holder => made.amounts.named (accounts.site.tokensOf derive made) (.wallet holder) }

def CreatePool.parties (accounts : CreatePool Key) (bump : Word 8) : CreatePoolAccounts (Holder Key) :=
  { creator := .owner accounts.creator
    solSource := .owner accounts.solSource
    config := .owner accounts.config
    tokenMint := .owner accounts.tokenMint
    pool := .owner accounts.pool
    tokenVault := .owner accounts.tokenVault
    lpMint := .owner accounts.lpMint
    bump := bump }

theorem CreatePool.Made.init {made : World Key} (ready : CreatePool.Made derive rents world accounts kind made)
    (orderly : Orderly derive world) (hosts : Hosts derive accounts.site made) :
    (accounts.ground derive made).init rents.pool (accounts.parties bump) =
      .ok (accounts.site.chain derive made (Pool.zeroed (.owner accounts.pool))) := by
  have paid : ¬ 0 < (rents.pool.saturatingSub ((accounts.ground derive made).lamports .pool)).val := by
    rw [Word.saturatingSub_val]
    have rent := ready.rent
    change ¬ 0 < rents.pool.val - (made.lamports accounts.pool).val
    omega
  have vault : made.amounts accounts.tokenVault = 0 := by
    rw [ready.extended.amounts]
    exact (orderly.absent ready.noVault).1
  have supply : made.supplies accounts.lpMint = 0 := by
    rw [ready.extended.supplies]
    exact (orderly.unminted ready.noLp).1
  have noLp : made.amounts.named (accounts.site.lpOf derive made) = fun _ => 0 := by
    funext name
    cases found : accounts.site.lpOf derive made name with
    | none => exact Balances.named_none found
    | some key =>
      rw [Balances.named_some found, ready.extended.amounts]
      cases held : world.tokenAccounts key with
      | none => exact (orderly.absent held).1
      | some account =>
        have belongs := hosts.lp_mint found (ready.extended.accounts held)
        have known := orderly.minted held
        rw [belongs] at known
        exact absurd ready.noLp known
  unfold Ground.init
  simp only
  rw [if_neg (show ¬ 0 < (rents.pool.saturatingSub ((accounts.ground derive made).lamports .pool)).val from paid)]
  simp only [Site.chain, Except.ok.injEq, Chain.mk.injEq, noLp]
  refine ⟨rfl, rfl, rfl, rfl, ?_, ?_⟩
  · funext name
    cases name with
    | pool => exact vault.symm
    | wallet holder => rfl
  · rw [show made.supplies accounts.site.lpMint = 0 from supply]
    rfl

/-- Creation, seen by the pool it makes. -/
theorem CreatePool.Made.creates {made : World Key} (ready : CreatePool.Made derive rents world accounts kind made)
    (orderly : Orderly derive world) (done : accounts.handler rents args bump kind made = .ok (after, event)) :
    ∃ pool : Pool Key, after.pools accounts.pool = some pool ∧ pool.site accounts.pool = accounts.site ∧
      Hosts derive accounts.site after ∧ event.pool = accounts.pool ∧
      createPool rents.pool kind.transferFee kind.data (accounts.parties bump) args (accounts.ground derive made) =
        .ok (after.view derive accounts.pool pool, event.rename .owner) := by
  have vault := ready.settled.vault_apart .token2022 accounts.creator accounts.tokenMint
  have clear := handler_checked ready.sized done
  simp only [CreatePool.handler, ready.creatorTokenAccount, ready.creatorLpAccount, ready.poolLpAccount, bind_ok,
    okOr_ok, orFail_ok, require_ok, pure_ok, exists_const] at done
  obtain ⟨enoughSol, enoughTokens, ⟨⟩, checked, funded, sent, net, counted, arrived, paid, moved, product, multiplied,
    sqrt, rooted, large, total, reduced, lpBurn, locked, lpToCreator, split, credited, provided, toCreator, last, toPool,
    same⟩ := done
  cases same
  have hosts : Hosts derive accounts.site made := by
    refine ⟨ready.orderly, ready.settled, ?_⟩
    intro mint held
    rw [show made.mints accounts.site.tokenMint = some kind from ready.tokenMint] at held
    cases held
    exact undelegated clear
  let data : Pool (Holder Key) := Pool.zeroed (.owner accounts.pool)
  obtain ⟨seenTokens, sends⟩ := hosts.own_transferChecked data ready.tokenMint vault.symm
    (Site.tokens_owner accounts.creator) Site.tokens_pool sent
  obtain ⟨seenSol, pays⟩ := sends.hosts.own_systemTransfer data (Site.lamports_owner ready.solSource)
    Site.lamports_pool moved
  obtain ⟨seenCreator, mints⟩ := pays.hosts.own_mintTo data (Site.lp_owner ready.creator) toCreator
  obtain ⟨seenPool, locks⟩ := mints.hosts.own_mintTo data Site.lp_pool toPool
  refine ⟨_, Function.update_self _ _ _, rfl, locks.hosts.same (World.same_of_setPool _ _ _), rfl, ?_⟩
  simp only [createPool, bind_ok, okOr_ok, orFail_ok, require_ok, pure_ok, exists_const]
  obtain ⟨types, read⟩ := ready.sized
  exact ⟨_, ready.init orderly hosts, types, read, enoughSol, enoughTokens, (), checked, _, seenTokens, net, counted,
    arrived, _, seenSol, product, multiplied, sqrt, rooted, large, total, reduced, lpBurn, locked, lpToCreator, split, credited, _,
    seenCreator, _, seenPool, rfl⟩

end Program
end DeepPool
