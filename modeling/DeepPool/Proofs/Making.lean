import DeepPool.Proofs.Moves
import DeepPool.Proofs.Neighbours

/-! Accounts and mints that are made, closed or reconfigured beside a pool. None of it
is seen by the pool, and nobody can make an account at an address of the pool's. -/

namespace DeepPool
open Library

variable {Key : Type} {derive : Derivation Key} {rents : Rents Key} {site : Site Key} {rent : U64}
  {world before after : World Key} {key payer mint wallet : Key} {tokenProgram : TokenProgram}

variable [DecidableEq Key]

theorem Program.Orderly.openAccount {account : TokenAccount Key} (orderly : Program.Orderly derive before)
    (proper : Proper derive key account) (done : before.openAccount key account = .ok after) :
    Program.Orderly derive after := by
  obtain ⟨vacant, minted, rfl⟩ := World.openAccount_ok done
  constructor
  case minted =>
    intro other held
    by_cases same : other = key
    · subst same
      simp only [Function.update_self]
      rintro ⟨rfl⟩
      exact minted
    · simp only [Function.update_of_ne same]
      exact orderly.minted
  case absent =>
    intro other nothing
    by_cases same : other = key
    · subst same
      simp only [Function.update_self] at nothing
      cases nothing
    · simp only [Function.update_of_ne same] at nothing
      exact orderly.absent nothing
  case unminted => exact orderly.unminted
  case approved =>
    intro other held found silent
    by_cases same : other = key
    · subst same
      rw [(orderly.absent vacant.2.2).2.2]
      rfl
    · exact orderly.approved ((Function.update_of_ne same _ _).symm.trans found) silent
  case associated =>
    intro wallet mint held
    by_cases same : derive.associated .token2022 wallet mint = key
    · simp only [same, Function.update_self]
      rintro ⟨rfl⟩
      exact proper wallet mint same.symm
    · simp only [Function.update_of_ne same]
      exact orderly.associated

theorem Program.Orderly.setMint {kind : Mint Key} (orderly : Program.Orderly derive before) :
    Program.Orderly derive { before with mints := Function.update before.mints key (some kind) } := by
  constructor
  case minted =>
    intro other account held
    by_cases same : account.mint = key
    · simp [same]
    · simp only [Function.update_of_ne same]
      exact orderly.minted held
  case absent => exact orderly.absent
  case unminted =>
    intro other nothing
    by_cases same : other = key
    · subst same
      simp only [Function.update_self] at nothing
      cases nothing
    · simp only [Function.update_of_ne same] at nothing
      exact orderly.unminted nothing
  case approved => exact orderly.approved
  case associated => exact orderly.associated

/-- A pool's world is the same as long as the loose accounts that hold anything are. -/
theorem Site.chain_accounts {accounts : Key → Option (TokenAccount Key)} {data : Pool (Holder Key)}
    (loose : ∀ mint key, World.loose derive { before with tokenAccounts := accounts } mint key =
      before.loose derive mint key ∨ before.amounts key = 0) :
    site.chain derive { before with tokenAccounts := accounts } data = site.chain derive before data := by
  have hidden : ∀ {key} {choice : Prop} [Decidable choice], before.amounts key = 0 → ∀ account,
      (if choice then some key else none) = some account → before.amounts account = 0 := by
    intro key choice _ empty account found
    split at found
    · cases found
      exact empty
    · cases found
  simp only [Site.chain, Chain.mk.injEq, Ledger.mk.injEq, true_and]
  constructor
  · apply Balances.named_congr
    intro name
    cases name with
    | pool => exact .inl rfl
    | wallet holder =>
      cases holder with
      | owner _ => exact .inl rfl
      | account held =>
        rcases loose site.tokenMint held with same | empty
        · exact .inl (by simp only [Site.tokensOf, same])
        · exact .inr ⟨hidden empty, hidden empty⟩
  · apply Balances.named_congr
    intro name
    cases name with
    | pool => exact .inl rfl
    | wallet holder =>
      cases holder with
      | owner _ => exact .inl rfl
      | account held =>
        rcases loose site.lpMint held with same | empty
        · exact .inl (by simp only [Site.lpOf, same])
        · exact .inr ⟨hidden empty, hidden empty⟩

/-- An account without a balance may come or go. -/
theorem Site.chain_account {account : Option (TokenAccount Key)} {data : Pool (Holder Key)}
    (empty : before.amounts key = 0) :
    site.chain derive { before with tokenAccounts := Function.update before.tokenAccounts key account } data =
      site.chain derive before data := by
  apply Site.chain_accounts
  intro mint other
  by_cases same : other = key
  · exact .inr (same ▸ empty)
  · refine .inl ?_
    simp only [World.loose, Function.update_of_ne same]

/-- The accounts of a pool are not closed, nor given to another owner. -/
structure Settled.Apart (derive : Derivation Key) (site : Site Key) (key : Key) : Prop where
  vault : site.tokenVault ≠ key
  locked : derive.associated .token2022 site.address site.lpMint ≠ key

omit [DecidableEq Key] in
theorem Settled.apart {account : TokenAccount Key} (settled : Settled derive site before)
    (found : before.tokenAccounts key = some account) (foreign : (before.standing key).closeAuthority = none →
      account.owner ≠ site.address) : Settled.Apart derive site key := by
  constructor
  case vault =>
    rintro rfl
    obtain rfl := Option.some.inj (found.symm.trans settled.vaultAccount)
    exact foreign settled.vaultKept rfl
  case locked =>
    rintro rfl
    obtain rfl := Option.some.inj (found.symm.trans settled.lockedAccount)
    exact foreign settled.lockedKept rfl

omit [DecidableEq Key] in
theorem Settled.apart_signed {account : TokenAccount Key} (settled : Settled derive site before)
    (found : before.tokenAccounts key = some account) (signs : derive.signs account.owner = true) :
    Settled.Apart derive site key := by
  refine settled.apart found fun _ owned => ?_
  rw [owned, settled.silent] at signs
  cases signs

omit [DecidableEq Key] in
theorem Settled.apart_closed {account : TokenAccount Key} (settled : Settled derive site before)
    (found : before.tokenAccounts key = some account)
    (allowed : derive.signs (Program.closer account (before.standing key)) = true ∨
      derive.incinerates account.owner = true) : Settled.Apart derive site key := by
  refine settled.apart found fun unentrusted owned => ?_
  rw [Program.closer, unentrusted, Option.getD_none, owned, settled.silent, settled.kept] at allowed
  rcases allowed with impossible | impossible <;> cases impossible

/-- What is done to another account. -/
theorem Settled.elsewhere {replaced : Option (TokenAccount Key)} {standing : Standing Key}
    (settled : Settled derive site before) (apart : Settled.Apart derive site key)
    (usable : ∀ account, replaced = some account → account.mint = site.lpMint → standing.frozen = false) :
    Settled derive site
      { before.setStanding key standing with tokenAccounts := Function.update before.tokenAccounts key replaced } := by
  obtain ⟨address, vault, lpMint, vaultAccount, lockedAccount, vaultKept, lockedKept, minted, thawed, distinct⟩ := settled
  refine ⟨address, vault, lpMint, ?_, ?_, ?_, ?_, minted, ?_, distinct⟩
  · exact (Function.update_of_ne apart.vault _ _).trans vaultAccount
  · exact (Function.update_of_ne apart.locked _ _).trans lockedAccount
  · exact (congrArg Standing.closeAuthority (Function.update_of_ne apart.vault _ _)).trans vaultKept
  · exact (congrArg Standing.closeAuthority (Function.update_of_ne apart.locked _ _)).trans lockedKept
  · intro other account found belongs
    by_cases same : other = key
    · subst same
      simp only [World.setStanding, Function.update_self] at found ⊢
      exact usable account found belongs
    · simp only [Function.update_of_ne same] at found
      simp only [World.setStanding, Function.update_of_ne same]
      exact thawed found belongs

theorem Settled.assigned {account : TokenAccount Key} {owner : Key} (settled : Settled derive site before)
    (found : before.tokenAccounts key = some account) (signs : derive.signs account.owner = true) :
    Settled derive site { before.setDelegate key none with
      tokenAccounts := Function.update before.tokenAccounts key (some { account with owner }) } := by
  apply settled.elsewhere (settled.apart_signed found signs)
  rintro _ ⟨rfl⟩ belongs
  exact settled.thawed found belongs

/-- The pool entrusts nobody with its accounts, and nobody freezes those of its LP mint. -/
theorem Settled.setStanding {agrees : Key → Prop} {account : TokenAccount Key} {standing : Standing Key}
    (settled : Settled derive site before) (found : before.tokenAccounts key = some account)
    (regrant : Regrant derive agrees before.mints account (before.standing key) standing) :
    Settled derive site (before.setStanding key standing) := by
  have silent := settled.silent
  obtain ⟨address, vault, lpMint, vaultAccount, lockedAccount, vaultKept, lockedKept, minted, thawed, distinct⟩ := settled
  have kept : ∀ {other mint}, before.tokenAccounts other = some ⟨mint, site.address⟩ →
      (before.standing other).closeAuthority = none →
        ((before.setStanding key standing).standing other).closeAuthority = none := by
    intro other mint held unentrusted
    by_cases same : other = key
    · subst same
      obtain rfl := Option.some.inj (found.symm.trans held)
      have entrusts : derive.signs (Program.closer ⟨mint, site.address⟩ (before.standing other)) = false := by
        rw [Program.closer, unentrusted]
        exact silent
      simp only [World.setStanding, Function.update_self]
      cases regrant with
      | entrusted signs next =>
        rw [entrusts] at signs
        cases signs
      | _ => exact unentrusted
    · exact (congrArg Standing.closeAuthority (Function.update_of_ne same _ _)).trans unentrusted
  refine ⟨address, vault, lpMint, vaultAccount, lockedAccount, kept vaultAccount vaultKept, kept lockedAccount lockedKept,
    minted, ?_, distinct⟩
  intro other held there belongs
  by_cases same : other = key
  · subst same
    obtain rfl := Option.some.inj (found.symm.trans there)
    simp only [World.setStanding, Function.update_self]
    cases regrant with
    | frozen known freezes frozen =>
      rw [belongs, minted] at known
      obtain rfl := Option.some.inj known
      exact absurd rfl freezes
    | _ => exact thawed found belongs
  · simp only [World.setStanding, Function.update_of_ne same]
    exact thawed there belongs

/-- Nor is its LP mint another's to change. -/
theorem Settled.configureMint {kind next : Mint Key} {authority : Key} (settled : Settled derive site before)
    (found : before.mints key = some kind) (signs : derive.signs authority = true)
    (reconfigures : Reconfigures authority kind next) :
    Settled derive site { before with mints := Function.update before.mints key (some next) } := by
  have silent := settled.silent
  obtain ⟨address, vault, lpMint, vaultAccount, lockedAccount, vaultKept, lockedKept, minted, thawed, distinct⟩ := settled
  refine ⟨address, vault, lpMint, vaultAccount, lockedAccount, vaultKept, lockedKept, ?_, thawed, distinct⟩
  have foreign : site.lpMint ≠ key := by
    rintro rfl
    obtain rfl := Option.some.inj (found.symm.trans minted)
    rw [reconfigures.of_pool, silent] at signs
    cases signs
  simp only [Function.update_of_ne foreign]
  exact minted

theorem Program.Orderly.assignOwner {account : TokenAccount Key} {owner : Key} (orderly : Program.Orderly derive before)
    (found : before.tokenAccounts key = some account)
    (loose : key ≠ derive.associated .token2022 account.owner account.mint) :
    Program.Orderly derive { before.setDelegate key none with
      tokenAccounts := Function.update before.tokenAccounts key (some { account with owner }) } := by
  constructor
  case minted =>
    intro other held
    by_cases same : other = key
    · subst same
      simp only [Function.update_self]
      rintro ⟨rfl⟩
      have known := orderly.minted found
      exact known
    · simp only [Function.update_of_ne same]
      exact orderly.minted
  case absent =>
    intro other nothing
    by_cases same : other = key
    · subst same
      simp at nothing
    · simp only [Function.update_of_ne same] at nothing
      simp only [World.setDelegate, World.setStanding, Function.update_of_ne same]
      exact orderly.absent nothing
  case unminted => exact orderly.unminted
  case approved =>
    intro other held found silent
    by_cases same : other = key
    · subst same
      simp only [World.setDelegate, World.setStanding, Function.update_self]
    · simp only [Function.update_of_ne same] at found
      simp only [World.setDelegate, World.setStanding, Function.update_of_ne same]
      exact orderly.approved found silent
  case associated =>
    intro wallet mint held
    by_cases same : derive.associated .token2022 wallet mint = key
    · subst same
      rw [orderly.associated found] at loose
      exact absurd rfl loose
    · simp only [Function.update_of_ne same]
      exact orderly.associated

theorem Program.Orderly.closeAccount (orderly : Program.Orderly derive before)
    (empty : before.amounts key = 0 ∧ before.withheld key = 0) :
    Program.Orderly derive
      { before.setStanding key .initial with tokenAccounts := Function.update before.tokenAccounts key none } := by
  constructor
  case minted =>
    intro other held
    by_cases same : other = key
    · subst same
      simp
    · simp only [Function.update_of_ne same]
      exact orderly.minted
  case absent =>
    intro other nothing
    by_cases same : other = key
    · subst same
      exact ⟨empty.1, empty.2, Function.update_self _ _ _⟩
    · simp only [Function.update_of_ne same] at nothing
      simp only [World.setStanding, Function.update_of_ne same]
      exact orderly.absent nothing
  case unminted => exact orderly.unminted
  case approved =>
    intro other held found silent
    by_cases same : other = key
    · subst same
      simp only [Function.update_self] at found
      cases found
    · simp only [Function.update_of_ne same] at found
      simp only [World.setStanding, Function.update_of_ne same]
      exact orderly.approved found silent
  case associated =>
    intro wallet mint held
    by_cases same : derive.associated .token2022 wallet mint = key
    · simp [same]
    · simp only [Function.update_of_ne same]
      exact orderly.associated

theorem Program.Orderly.setStanding {agrees : Key → Prop} {account : TokenAccount Key} {standing : Standing Key}
    (orderly : Program.Orderly derive before) (found : before.tokenAccounts key = some account)
    (regrant : Regrant derive agrees before.mints account (before.standing key) standing) :
    Program.Orderly derive (before.setStanding key standing) := by
  constructor
  case minted => exact orderly.minted
  case absent =>
    intro other nothing
    have different : other ≠ key := by
      rintro rfl
      rw [show before.tokenAccounts other = none from nothing] at found
      cases found
    simp only [World.setStanding, Function.update_of_ne different]
    exact orderly.absent nothing
  case unminted => exact orderly.unminted
  case approved =>
    intro other held there silent
    by_cases same : other = key
    · subst same
      obtain rfl := Option.some.inj (found.symm.trans there)
      have unapproved := orderly.approved found silent
      simp only [World.setStanding, Function.update_self]
      cases regrant with
      | approved agreed signs approval =>
        rw [silent] at signs
        cases signs
      | revoked => rfl
      | entrusted signs next => exact unapproved
      | frozen minted freezes frozen => exact unapproved
    · simp only [World.setStanding, Function.update_of_ne same]
      exact orderly.approved there silent
  case associated => exact orderly.associated

theorem Hosts.follows_openAccount {account : TokenAccount Key} (hosts : Hosts derive site before)
    (proper : Proper derive key account) (done : before.openAccount key account = .ok after) :
    Follows derive site rent before after := by
  have orderly := hosts.orderly.openAccount proper done
  have settled := hosts.settled.extends hosts.orderly (World.extends_of_openAccount done)
  obtain ⟨vacant, minted, rfl⟩ := World.openAccount_ok done
  refine ⟨⟨orderly, settled, hosts.undelegated⟩, rfl, fun data => ?_⟩
  rw [Site.chain_account (hosts.orderly.absent vacant.2.2).1]
  exact .refl _

theorem Hosts.follows_openMint {kind : Mint Key} (hosts : Hosts derive site before)
    (done : before.openMint key kind = .ok after) : Follows derive site rent before after := by
  have settled := hosts.settled.extends hosts.orderly (World.extends_of_openMint done)
  obtain ⟨vacant, rfl⟩ := World.openMint_ok done
  have known : before.mints site.tokenMint ≠ none := hosts.orderly.minted hosts.settled.vaultAccount
  have tokenMint : site.tokenMint ≠ key := by
    rintro rfl
    exact known vacant.2.1
  refine ⟨⟨hosts.orderly.setMint, settled, ?_⟩, rfl, fun data => .refl _⟩
  simp only [Function.update_of_ne tokenMint]
  exact hosts.undelegated

theorem Hosts.follows_closeAccount {account : TokenAccount Key} (hosts : Hosts derive site before)
    (found : before.tokenAccounts key = some account)
    (allowed : derive.signs (Program.closer account (before.standing key)) = true ∨
      derive.incinerates account.owner = true)
    (empty : before.amounts key = 0 ∧ before.withheld key = 0) :
    Follows derive site rent before
      { before.setStanding key .initial with tokenAccounts := Function.update before.tokenAccounts key none } := by
  have settled : Settled derive site
      { before.setStanding key .initial with tokenAccounts := Function.update before.tokenAccounts key none } :=
    hosts.settled.elsewhere (hosts.settled.apart_closed found allowed) nofun
  refine ⟨⟨hosts.orderly.closeAccount empty, settled, hosts.undelegated⟩, rfl, fun data => ?_⟩
  have same : site.chain derive
      { before.setStanding key .initial with tokenAccounts := Function.update before.tokenAccounts key none } data =
        site.chain derive before data := Site.chain_account empty.1
  rw [same]
  exact .refl _

theorem Hosts.follows_setStanding {agrees : Key → Prop} {account : TokenAccount Key} {standing : Standing Key}
    (hosts : Hosts derive site before) (found : before.tokenAccounts key = some account)
    (regrant : Regrant derive agrees before.mints account (before.standing key) standing) :
    Follows derive site rent before (before.setStanding key standing) :=
  ⟨⟨hosts.orderly.setStanding found regrant, hosts.settled.setStanding found regrant, hosts.undelegated⟩, rfl,
    fun _ => .refl _⟩

/-- An account keeps its name whoever owns it. -/
theorem Hosts.follows_assignOwner {account : TokenAccount Key} {owner : Key} (hosts : Hosts derive site before)
    (found : before.tokenAccounts key = some account) (owned : derive.signs account.owner = true)
    (free : key ≠ derive.associated .token2022 account.owner account.mint) :
    Follows derive site rent before { before.setDelegate key none with
      tokenAccounts := Function.update before.tokenAccounts key (some { account with owner }) } := by
  have settled : Settled derive site { before.setDelegate key none with
      tokenAccounts := Function.update before.tokenAccounts key (some { account with owner }) } :=
    hosts.settled.assigned found owned
  refine ⟨⟨hosts.orderly.assignOwner found free, settled, hosts.undelegated⟩, rfl, fun data => ?_⟩
  have named : ∀ mint other, World.loose derive
      { before with tokenAccounts := Function.update before.tokenAccounts key (some { account with owner }) } mint other =
        before.loose derive mint other := by
    intro mint other
    by_cases same : other = key
    · subst same
      have unassociated : account.mint = mint → other ≠ derive.associated .token2022 owner mint ∧
          other ≠ derive.associated .token2022 account.owner mint := by
        rintro rfl
        refine ⟨?_, free⟩
        intro same
        rw [same] at found
        have ours := hosts.orderly.associated found
        rw [ours] at free
        exact free same
      simp only [World.loose, found, Function.update_self]
      grind
    · simp only [World.loose, Function.update_of_ne same]
  have same : site.chain derive { before.setDelegate key none with
      tokenAccounts := Function.update before.tokenAccounts key (some { account with owner }) } data =
        site.chain derive before data := Site.chain_accounts fun mint other => .inl (named mint other)
  rw [same]
  exact .refl _

/-- The authorities of a mint cannot give it the powers of an extension. -/
theorem Hosts.follows_configureMint {kind next : Mint Key} {authority : Key} (hosts : Hosts derive site before)
    (found : before.mints key = some kind) (signs : derive.signs authority = true)
    (reconfigures : Reconfigures authority kind next) :
    Follows derive site rent before { before with mints := Function.update before.mints key (some next) } := by
  refine ⟨⟨hosts.orderly.setMint, hosts.settled.configureMint found signs reconfigures, ?_⟩, rfl, fun data => .refl _⟩
  intro mint held
  by_cases same : site.tokenMint = key
  · simp only [same, Function.update_self] at held
    cases held
    rw [reconfigures.kept.1]
    exact hosts.undelegated kind (by rw [same, found])
  · simp only [Function.update_of_ne same] at held
    exact hosts.undelegated mint held

theorem Hosts.follows_setPool (hosts : Hosts derive site before) (other : key ≠ site.address) (pool : Pool Key) :
    Follows derive site rent before (before.setPool key pool) :=
  ⟨hosts.same (World.same_of_setPool _ _ _), Function.update_of_ne other.symm _ _, fun _ => .refl _⟩

/-! The same for an account that an instruction makes where it is missing. -/

theorem World.extends_of_initAssociated
    (done : Program.initAssociated derive before rents tokenProgram payer key mint wallet = .ok after) :
    Extends before after ∧ after.tokenAccounts key = some ⟨mint, wallet⟩ := by
  obtain ⟨_, ⟨rfl, found⟩ | ⟨paid, rented, opened⟩⟩ := Program.initAssociated_ok done
  · exact ⟨.refl _, found⟩
  · refine ⟨(World.extends_of_payRent rented).trans (World.extends_of_openAccount opened), ?_⟩
    obtain ⟨_, _, rfl⟩ := World.openAccount_ok opened
    exact Function.update_self _ _ _

theorem World.initAssociated_grows {other : Key} (apart : payer ≠ other)
    (done : Program.initAssociated derive before rents tokenProgram payer key mint wallet = .ok after) :
    (before.lamports other).val ≤ (after.lamports other).val := by
  obtain ⟨_, ⟨rfl, _⟩ | ⟨paid, rented, opened⟩⟩ := Program.initAssociated_ok done
  · exact Nat.le_refl _
  · have grows := World.payRent_grows apart rented
    obtain ⟨_, _, rfl⟩ := World.openAccount_ok opened
    exact grows

theorem Program.Orderly.initAssociated (orderly : Program.Orderly derive before)
    (done : Program.initAssociated derive before rents tokenProgram payer key mint wallet = .ok after) :
    Program.Orderly derive after := by
  obtain ⟨rfl, ⟨rfl, _⟩ | ⟨paid, rented, opened⟩⟩ := Program.initAssociated_ok done
  · exact orderly
  · exact (orderly.same (World.rebalanced_of_payRent rented).toSameAccounts).openAccount .of_associated opened

end DeepPool
