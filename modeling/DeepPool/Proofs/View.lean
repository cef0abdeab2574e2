import DeepPool.View
import DeepPool.Proofs.World

/-! A site's view of the world: which accounts have a name in it, and that an operation
on named accounts is the chain's own operation on their names. -/

namespace DeepPool
open Library

variable {Key : Type}

/-- The accounts of a pool exist, are its own, and only the pool could sign for them; nobody can
freeze an LP account. -/
structure Settled (derive : Derivation Key) (site : Site Key) (world : World Key) : Prop where
  address : ∃ config bump, derive.programAddress (.pool config site.tokenMint) bump = some site.address
  vault : ∃ bump, derive.programAddress (.vault site.address) bump = some site.tokenVault
  lpMint : ∃ bump, derive.programAddress (.lpMint site.address) bump = some site.lpMint
  vaultAccount : world.tokenAccounts site.tokenVault = some ⟨site.tokenMint, site.address⟩
  lockedAccount : world.tokenAccounts (derive.associated .token2022 site.address site.lpMint) =
    some ⟨site.lpMint, site.address⟩
  vaultKept : (world.standing site.tokenVault).closeAuthority = none
  lockedKept : (world.standing (derive.associated .token2022 site.address site.lpMint)).closeAuthority = none
  minted : world.mints site.lpMint = some (.ofPool site.address)
  thawed : ∀ {key account}, world.tokenAccounts key = some account → account.mint = site.lpMint →
    (world.standing key).frozen = false
  distinct : site.tokenMint ≠ site.lpMint

/-- A settled site whose tokens nobody can move without their owner. -/
structure Hosts (derive : Derivation Key) (site : Site Key) (world : World Key) : Prop where
  orderly : Program.Orderly derive world
  settled : Settled derive site world
  undelegated : ∀ mint, world.mints site.tokenMint = some mint → mint.data.delegated = false

variable {derive : Derivation Key} {site : Site Key} {world before after : World Key}

theorem Settled.same (settled : Settled derive site before) (same : SameAccounts before after) :
    Settled derive site after := by
  obtain ⟨address, vault, lpMint, vaultAccount, lockedAccount, vaultKept, lockedKept, minted, thawed, distinct⟩ := settled
  refine ⟨address, vault, lpMint, ?_, ?_, (same.standing _).closeAuthority.trans vaultKept,
    (same.standing _).closeAuthority.trans lockedKept, ?_, ?_, distinct⟩
  · rw [same.tokenAccounts]
    exact vaultAccount
  · rw [same.tokenAccounts]
    exact lockedAccount
  · rw [same.mints]
    exact minted
  · intro key account found belongs
    rw [same.tokenAccounts] at found
    exact (same.standing key).frozen.trans (thawed found belongs)

theorem Settled.extends (settled : Settled derive site before) (orderly : Program.Orderly derive before)
    (extended : Extends before after) : Settled derive site after := by
  obtain ⟨address, vault, lpMint, vaultAccount, lockedAccount, vaultKept, lockedKept, minted, thawed, distinct⟩ := settled
  rw [← extended.standing] at vaultKept lockedKept
  refine ⟨address, vault, lpMint, extended.accounts vaultAccount, extended.accounts lockedAccount, vaultKept, lockedKept,
    extended.mints minted, ?_, distinct⟩
  intro key account found belongs
  rw [extended.standing]
  cases held : before.tokenAccounts key with
  | none => rw [(orderly.absent held).2.2, Standing.initial]
  | some same =>
    obtain rfl := Option.some.inj ((extended.accounts held).symm.trans found)
    exact thawed held belongs

theorem Hosts.same (hosts : Hosts derive site before) (same : SameAccounts before after) : Hosts derive site after := by
  refine ⟨hosts.orderly.same same, hosts.settled.same same, ?_⟩
  rw [same.mints]
  exact hosts.undelegated

theorem Settled.silent (settled : Settled derive site world) : derive.signs site.address = false := by
  obtain ⟨config, bump, address⟩ := settled.address
  exact derive.programAddress_silent address

theorem Settled.kept (settled : Settled derive site world) : derive.incinerates site.address = false := by
  obtain ⟨config, bump, address⟩ := settled.address
  exact derive.programAddress_kept address

theorem Settled.vault_apart (settled : Settled derive site world) (program : TokenProgram) (wallet mint : Key) :
    site.tokenVault ≠ derive.associated program wallet mint := by
  obtain ⟨bump, vault⟩ := settled.vault
  intro same
  rw [same] at vault
  exact derive.apart vault

variable [DecidableEq Key]

theorem World.loose_iff {mint key : Key} : world.loose derive mint key = true ↔
    ∃ account, world.tokenAccounts key = some account ∧ account.mint = mint ∧
      key ≠ derive.associated .token2022 account.owner mint := by
  unfold World.loose
  split
  next nothing => simp [nothing]
  next account found => simp [found]

/-- A loose account is associated to nobody. -/
theorem World.loose_apart (orderly : Program.Orderly derive world) {mint key : Key}
    (loose : world.loose derive mint key = true) (wallet : Key) : key ≠ derive.associated .token2022 wallet mint := by
  obtain ⟨account, found, belongs, apart⟩ := World.loose_iff.mp loose
  rintro rfl
  have owned := orderly.associated found
  rw [owned] at apart
  exact apart rfl

section Names
variable {name : Owner (Holder Key)} {key : Key} {account : TokenAccount Key}

theorem Site.lamports_unique : site.lamportsOf.Unique := by
  intro first second key one two
  cases first with
  | pool =>
    cases second with
    | pool => rfl
    | wallet holder => cases holder <;> grind [Site.lamportsOf]
  | wallet holder =>
    cases second with
    | pool => cases holder <;> grind [Site.lamportsOf]
    | wallet other => cases holder <;> cases other <;> grind [Site.lamportsOf]

theorem Site.lamports_owner (other : key ≠ site.address) : site.lamportsOf (.wallet (.owner key)) = some key :=
  if_neg other

theorem Site.lamports_pool : site.lamportsOf .pool = some site.address := rfl

theorem Site.tokens_pool : site.tokensOf derive world .pool = some site.tokenVault := rfl

theorem Site.tokens_owner (wallet : Key) :
    site.tokensOf derive world (.wallet (.owner wallet)) = some (derive.associated .token2022 wallet site.tokenMint) := rfl

theorem Site.lp_pool :
    site.lpOf derive world .pool = some (derive.associated .token2022 site.address site.lpMint) := rfl

theorem Site.lp_owner (other : key ≠ site.address) :
    site.lpOf derive world (.wallet (.owner key)) = some (derive.associated .token2022 key site.lpMint) := if_neg other

/-- What a token name stands for: the vault, an associated account, or a loose one. -/
theorem Site.tokensOf_some (named : site.tokensOf derive world name = some key) :
    (name = .pool ∧ key = site.tokenVault) ∨
      (∃ wallet, name = .wallet (.owner wallet) ∧ key = derive.associated .token2022 wallet site.tokenMint) ∨
      (name = .wallet (.account key) ∧ world.loose derive site.tokenMint key = true ∧ key ≠ site.tokenVault) := by
  cases name with
  | pool => exact .inl ⟨rfl, (Option.some.inj named).symm⟩
  | wallet holder =>
    cases holder with
    | owner wallet => exact .inr (.inl ⟨wallet, rfl, (Option.some.inj named).symm⟩)
    | account held =>
      simp only [Site.tokensOf] at named
      split at named
      next found =>
        cases named
        exact .inr (.inr ⟨rfl, found⟩)
      · cases named

theorem Site.lpOf_some (named : site.lpOf derive world name = some key) :
    (name = .pool ∧ key = derive.associated .token2022 site.address site.lpMint) ∨
      (∃ wallet, name = .wallet (.owner wallet) ∧ wallet ≠ site.address ∧
        key = derive.associated .token2022 wallet site.lpMint) ∨
      (name = .wallet (.account key) ∧ world.loose derive site.lpMint key = true) := by
  cases name with
  | pool => exact .inl ⟨rfl, (Option.some.inj named).symm⟩
  | wallet holder =>
    cases holder with
    | owner wallet =>
      simp only [Site.lpOf] at named
      split at named
      · cases named
      next other => exact .inr (.inl ⟨wallet, rfl, other, (Option.some.inj named).symm⟩)
    | account held =>
      simp only [Site.lpOf] at named
      split at named
      next found =>
        cases named
        exact .inr (.inr ⟨rfl, found⟩)
      · cases named

theorem Hosts.tokens_unique (hosts : Hosts derive site world) : (site.tokensOf derive world).Unique := by
  intro first second key one two
  have vault := hosts.settled.vault_apart
  rcases Site.tokensOf_some one with ⟨rfl, held⟩ | ⟨wallet, rfl, held⟩ | ⟨rfl, loose, other⟩ <;>
    rcases Site.tokensOf_some two with ⟨rfl, same⟩ | ⟨next, rfl, same⟩ | ⟨rfl, free, different⟩
  · rfl
  · exact absurd (held.symm.trans same) (vault _ _ _)
  · exact absurd held different
  · exact absurd (same.symm.trans held) (vault _ _ _)
  · rw [(derive.associated_inj (held.symm.trans same)).1]
  · exact absurd held (World.loose_apart hosts.orderly free wallet)
  · exact absurd same other
  · exact absurd same (World.loose_apart hosts.orderly loose next)
  · rfl

theorem Hosts.lp_unique (hosts : Hosts derive site world) : (site.lpOf derive world).Unique := by
  intro first second key one two
  rcases Site.lpOf_some one with ⟨rfl, held⟩ | ⟨wallet, rfl, other, held⟩ | ⟨rfl, loose⟩ <;>
    rcases Site.lpOf_some two with ⟨rfl, same⟩ | ⟨next, rfl, different, same⟩ | ⟨rfl, free⟩
  · rfl
  · exact absurd (derive.associated_inj (held.symm.trans same)).1.symm different
  · exact absurd held (World.loose_apart hosts.orderly free _)
  · exact absurd (derive.associated_inj (held.symm.trans same)).1 other
  · rw [(derive.associated_inj (held.symm.trans same)).1]
  · exact absurd held (World.loose_apart hosts.orderly free wallet)
  · exact absurd same (World.loose_apart hosts.orderly loose _)
  · exact absurd same (World.loose_apart hosts.orderly loose next)
  · rfl

/-- Only accounts of the mint have a name. -/
theorem Hosts.tokens_mint (hosts : Hosts derive site world) (named : site.tokensOf derive world name = some key)
    (found : world.tokenAccounts key = some account) : account.mint = site.tokenMint := by
  rcases Site.tokensOf_some named with ⟨_, rfl⟩ | ⟨wallet, _, rfl⟩ | ⟨_, loose, _⟩
  · rw [hosts.settled.vaultAccount] at found
    cases found
    rfl
  · rw [hosts.orderly.associated found]
  · obtain ⟨held, same, belongs, _⟩ := World.loose_iff.mp loose
    rw [found] at same
    cases same
    exact belongs

theorem Hosts.lp_mint (hosts : Hosts derive site world) (named : site.lpOf derive world name = some key)
    (found : world.tokenAccounts key = some account) : account.mint = site.lpMint := by
  rcases Site.lpOf_some named with ⟨_, rfl⟩ | ⟨wallet, _, _, rfl⟩ | ⟨_, loose⟩
  · rw [hosts.settled.lockedAccount] at found
    cases found
    rfl
  · rw [hosts.orderly.associated found]
  · obtain ⟨held, same, belongs, _⟩ := World.loose_iff.mp loose
    rw [found] at same
    cases same
    exact belongs

theorem Hosts.tokens_unseen (hosts : Hosts derive site world) (found : world.tokenAccounts key = some account)
    (other : account.mint ≠ site.tokenMint) : (site.tokensOf derive world).Unseen key :=
  fun _ named => other (hosts.tokens_mint named found)

theorem Hosts.lp_unseen (hosts : Hosts derive site world) (found : world.tokenAccounts key = some account)
    (other : account.mint ≠ site.lpMint) : (site.lpOf derive world).Unseen key :=
  fun _ named => other (hosts.lp_mint named found)

/-- Every account of the token mint other than the vault is some party's. -/
theorem Hosts.tokens_name (found : world.tokenAccounts key = some account) (belongs : account.mint = site.tokenMint)
    (other : key ≠ site.tokenVault) : ∃ holder, site.tokensOf derive world (.wallet holder) = some key := by
  by_cases associated : key = derive.associated .token2022 account.owner site.tokenMint
  · exact ⟨.owner account.owner, congrArg some associated.symm⟩
  · exact ⟨.account key, if_pos ⟨World.loose_iff.mpr ⟨account, found, belongs, associated⟩, other⟩⟩

/-- Every LP account belongs to the pool or to a party, and to a party if the pool does
not own it. -/
theorem Hosts.lp_name (found : world.tokenAccounts key = some account) (belongs : account.mint = site.lpMint) :
    ∃ name, site.lpOf derive world name = some key ∧
      (account.owner ≠ site.address → ∃ holder, name = .wallet holder) := by
  by_cases associated : key = derive.associated .token2022 account.owner site.lpMint
  · by_cases owned : account.owner = site.address
    · refine ⟨.pool, ?_, fun different => absurd owned different⟩
      rw [associated, owned]
      rfl
    · refine ⟨.wallet (.owner account.owner), ?_, fun _ => ⟨_, rfl⟩⟩
      rw [Site.lpOf, if_neg owned, ← associated]
  · exact ⟨.wallet (.account key), if_pos (World.loose_iff.mpr ⟨account, found, belongs, associated⟩),
      fun _ => ⟨_, rfl⟩⟩

end Names

section Operations
variable {first second : Owner (Holder Key)} {source dest authority : Key} {amount : U64} {data : Pool (Holder Key)}
  {kind : Mint Key} {paying receiving : TokenAccount Key}

theorem Site.systemTransfer (payer : site.lamportsOf first = some source) (payee : site.lamportsOf second = some dest)
    (done : before.systemTransfer source dest amount = .ok after) :
    (site.chain derive before data).systemTransfer first second amount = .ok (site.chain derive after data) := by
  obtain ⟨_, lamports, rfl, moved⟩ := World.systemTransfer_ok done
  exact bind_ok.mpr ⟨_, orFail_ok.mpr (Balances.transfer_named Site.lamports_unique payer payee moved), rfl⟩

theorem Site.subLamports (payer : site.lamportsOf first = some source)
    (done : before.subLamports source amount = .ok after) :
    (site.chain derive before data).subLamports first amount = .ok (site.chain derive after data) := by
  obtain ⟨lamports, rfl, moved⟩ := World.subLamports_ok done
  exact bind_ok.mpr ⟨_, orFail_ok.mpr (Balances.debit_named Site.lamports_unique payer moved), rfl⟩

theorem Site.addLamports (payee : site.lamportsOf first = some dest)
    (done : before.addLamports dest amount = .ok after) :
    (site.chain derive before data).addLamports first amount = .ok (site.chain derive after data) := by
  obtain ⟨lamports, rfl, moved⟩ := World.addLamports_ok done
  exact bind_ok.mpr ⟨_, orFail_ok.mpr (Balances.credit_named Site.lamports_unique payee moved), rfl⟩

/-- A transfer of the pool's token is one of the chain, with the mint's fee; no LP moves. -/
theorem Hosts.transferChecked (hosts : Hosts derive site before) (payer : site.tokensOf derive before first = some source)
    (payee : site.tokensOf derive before second = some dest)
    (transferred : World.Transferred before after source site.tokenMint dest authority amount kind paying receiving) :
    (site.chain derive before data).transferChecked kind.transferFee first second amount =
      .ok (site.chain derive after data) := by
  have notLp : ∀ {account : TokenAccount Key}, account.mint = site.tokenMint → account.mint ≠ site.lpMint := by
    intro account belongs
    rw [belongs]
    exact hosts.settled.distinct
  have lp := Balances.transfer_unseen (hosts.lp_unseen transferred.paid.held (notLp transferred.paid.belongs))
    (hosts.lp_unseen transferred.received (notLp transferred.belongs)) transferred.moved
  have seen := Balances.transfer_named hosts.tokens_unique payer payee transferred.moved
  have same : site.chain derive after data =
      { site.chain derive before data with tokens := after.amounts.named (site.tokensOf derive before) } := by
    rw [transferred.rest]
    simp only [Site.chain, Chain.mk.injEq, Ledger.mk.injEq, true_and]
    exact ⟨rfl, lp⟩
  rw [same]
  exact bind_ok.mpr ⟨_, orFail_ok.mpr seen, rfl⟩

/-- An LP token has no transfer fee. -/
theorem Hosts.transferLp (hosts : Hosts derive site before) (payer : site.lpOf derive before first = some source)
    (payee : site.lpOf derive before second = some dest)
    (transferred : World.Transferred before after source site.lpMint dest authority amount kind paying receiving) :
    (site.chain derive before data).lp.transfer first second amount = some (site.chain derive after data).lp ∧
      site.chain derive after data = { site.chain derive before data with lp := (site.chain derive after data).lp } := by
  have notToken : ∀ {account : TokenAccount Key}, account.mint = site.lpMint → account.mint ≠ site.tokenMint := by
    intro account belongs
    rw [belongs]
    exact hosts.settled.distinct.symm
  have tokens := Balances.transfer_unseen (hosts.tokens_unseen transferred.paid.held (notToken transferred.paid.belongs))
    (hosts.tokens_unseen transferred.received (notToken transferred.belongs)) transferred.moved
  have seen := Balances.transfer_named hosts.lp_unique payer payee transferred.moved
  have free : kind.transferFee.net amount = amount := by
    have minted := hosts.settled.minted
    rw [transferred.paid.minted] at minted
    cases minted
    rfl
  rw [free] at seen
  constructor
  · simp only [Ledger.transfer, Site.chain, seen, Option.bind_eq_bind, Option.bind_some, Option.pure_def]
    rw [transferred.rest]
    rfl
  · rw [transferred.rest]
    simp only [Site.chain, Chain.mk.injEq, true_and, and_true]
    exact tokens

theorem Hosts.mintTo (hosts : Hosts derive site before) (payee : site.lpOf derive before first = some dest)
    (done : before.mintTo site.lpMint dest authority amount = .ok after) :
    (site.chain derive before data).mintTo first amount = .ok (site.chain derive after data) := by
  obtain ⟨kind, account, amounts, supplies, _, _, found, belongs, credited, added, rfl⟩ := World.mintTo_ok done
  have notToken : account.mint ≠ site.tokenMint := by
    rw [belongs]
    exact hosts.settled.distinct.symm
  have tokens := Balances.credit_unseen (hosts.tokens_unseen found notToken) credited
  have seen := Balances.credit_named hosts.lp_unique payee credited
  have supply : (before.supplies site.lpMint).checkedAdd amount = some (supplies site.lpMint) := by
    obtain ⟨sum, sums, rfl⟩ := Option.map_eq_some_iff.mp added
    rw [Function.update_self]
    exact sums
  refine bind_ok.mpr ⟨(site.chain derive { before with amounts, supplies } data).lp, orFail_ok.mpr ?_, ?_⟩
  · simp only [Ledger.mint, Site.chain, seen, supply, Option.bind_eq_bind, Option.bind_some, Option.pure_def]
    rfl
  · refine congrArg Except.ok ?_
    simp only [Site.chain, Chain.mk.injEq, true_and, and_true]
    exact tokens.symm

theorem Hosts.retire (hosts : Hosts derive site before) (payer : site.lpOf derive before first = some source)
    (retired : World.Retired before after site.lpMint source amount paying) :
    (site.chain derive before data).burn first amount = .ok (site.chain derive after data) := by
  have notToken : paying.mint ≠ site.tokenMint := by
    rw [retired.belongs]
    exact hosts.settled.distinct.symm
  have tokens := Balances.debit_unseen (hosts.tokens_unseen retired.held notToken) retired.debited
  have seen := Balances.debit_named hosts.lp_unique payer retired.debited
  have supply : (before.supplies site.lpMint).checkedSub amount = some (after.supplies site.lpMint) := by
    obtain ⟨left, subtracts, same⟩ := Option.map_eq_some_iff.mp retired.removed
    rw [← same, Function.update_self]
    exact subtracts
  refine bind_ok.mpr ⟨(site.chain derive after data).lp, orFail_ok.mpr ?_, ?_⟩
  · simp only [Ledger.burn, Site.chain, seen, supply, Option.bind_eq_bind, Option.bind_some, Option.pure_def]
    rw [retired.rest]
    rfl
  · refine congrArg Except.ok ?_
    rw [retired.rest]
    simp only [Site.chain, Chain.mk.injEq, true_and, and_true]
    exact tokens.symm

end Operations
end DeepPool
