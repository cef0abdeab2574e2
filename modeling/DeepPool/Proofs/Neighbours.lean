import DeepPool.Proofs.View
import DeepPool.Proofs.System

/-! What operations that a pool does not sign do to it. Each is one of the things that
can happen outside the pool's instructions, or is not seen at all. -/

namespace DeepPool
open Library

section Logs
variable {Key : Type} [DecidableEq Key] {rent : U64} {before middle after : Chain Key}
  {events later : List (DeepPoolEvent Key)}

/-- Some run of the pool's own world leads here and emits just these events. -/
def Logs (rent : U64) (before : Chain Key) (events : List (DeepPoolEvent Key)) (after : Chain Key) : Prop :=
  ∃ trace : Trace Key, Run (step rent) before trace after ∧ trace.filterMap Prod.snd = events

theorem Logs.refl (chain : Chain Key) : Logs rent chain [] chain := ⟨[], .nil _, rfl⟩

theorem Logs.append (first : Logs rent before events middle) (second : Logs rent middle later after) :
    Logs rent before (events ++ later) after := by
  obtain ⟨trace, runs, same⟩ := first
  obtain ⟨rest, continues, last⟩ := second
  refine ⟨trace ++ rest, runs.append continues, ?_⟩
  rw [List.filterMap_append, same, last]

theorem Logs.step {action : Action Key} {output : Option (DeepPoolEvent Key)}
    (done : step rent before action = .ok (after, output)) : Logs rent before output.toList after := by
  refine ⟨[(action, output)], .cons done (.nil _), ?_⟩
  cases output <;> rfl

theorem Logs.elsewhere {names : List (Owner Key)} (sol : Balances.Differ names before.lamports after.lamports)
    (token : Balances.Differ names before.tokens after.tokens) (solKept : after.lamports .pool = before.lamports .pool)
    (tokenKept : after.tokens .pool = before.tokens .pool)
    (same : after = { before with lamports := after.lamports, tokens := after.tokens }) :
    Logs rent before [] after := by
  induction names generalizing before with
  | nil =>
    have lamports : after.lamports = before.lamports := funext fun name => sol name List.not_mem_nil
    have tokens : after.tokens = before.tokens := funext fun name => token name List.not_mem_nil
    rw [lamports, tokens] at same
    rw [same]
    exact .refl _
  | cons name names ih =>
    cases name with
    | pool =>
      have inner : ∀ {old new : Balances (Owner Key) 64}, Balances.Differ (.pool :: names) old new →
          new .pool = old .pool → Balances.Differ names old new := by
        intro old new differ kept name outside
        by_cases pool : name = .pool
        · rw [pool, kept]
        · exact differ name (List.not_mem_cons_of_ne_of_not_mem pool outside)
      exact ih (inner sol solKept) (inner token tokenKept) solKept tokenKept same
    | wallet key =>
      have stepped : DeepPool.step rent before
          (.outside key (after.lamports (.wallet key)) (after.tokens (.wallet key))) = .ok
          ({ before with
            lamports := Function.update before.lamports (.wallet key) (after.lamports (.wallet key))
            tokens := Function.update before.tokens (.wallet key) (after.tokens (.wallet key)) }, none) := rfl
      have inner : ∀ {old new : Balances (Owner Key) 64}, Balances.Differ (.wallet key :: names) old new →
          Balances.Differ names (Function.update old (.wallet key) (new (.wallet key))) new := by
        intro old new differ name outside
        by_cases same : name = .wallet key
        · rw [same, Function.update_self]
        · rw [Function.update_of_ne same]
          exact differ name (List.not_mem_cons_of_ne_of_not_mem same outside)
      have kept : ∀ {old new : Balances (Owner Key) 64}, new .pool = old .pool →
          new .pool = Function.update old (.wallet key) (new (.wallet key)) .pool := by
        intro old new same
        rw [Function.update_of_ne (by simp), same]
      exact (Logs.step stepped).append (ih (inner sol) (inner token) (kept solKept) (kept tokenKept) same)

theorem Logs.sol {names : List (Owner Key)} {lamports : Balances (Owner Key) 64}
    (differ : Balances.Differ names before.lamports lamports) (kept : lamports .pool = before.lamports .pool) :
    Logs rent before [] { before with lamports } :=
  .elsewhere differ (fun _ _ => rfl) kept rfl rfl

theorem Logs.tokens {names : List (Owner Key)} {tokens : Balances (Owner Key) 64}
    (differ : Balances.Differ names before.tokens tokens) (kept : tokens .pool = before.tokens .pool) :
    Logs rent before [] { before with tokens } :=
  .elsewhere (fun _ _ => rfl) differ rfl kept rfl

/-- Tokens may also come to the vault without a payer, as when they are minted into it:
the same happens when a party gets them from outside and gives them away. -/
theorem Logs.granted {tokens : Balances (Owner Key) 64} {amount : U64} (key : Key)
    (credited : before.tokens.credit .pool amount = some tokens) : Logs rent before [] { before with tokens } := by
  obtain ⟨gained, others⟩ := Balances.credit_eq_some credited
  have whole : (TransferFee.none.net amount).val = amount.val := rfl
  let funded : Chain Key := { before with tokens := Function.update before.tokens (.wallet key) amount }
  have apart : (.pool : Owner Key) ≠ .wallet key := by simp
  have pool : funded.tokens .pool = before.tokens .pool := Function.update_of_ne apart amount _
  have wallet : funded.tokens (.wallet key) = amount := Function.update_self _ _ _
  have changed : Balances.Differ [.wallet key] before.tokens funded.tokens := by
    intro name outside
    exact Function.update_of_ne (List.ne_of_not_mem_cons outside) _ _
  obtain ⟨donated, moved⟩ : ∃ donated, funded.transferChecked TransferFee.none (.wallet key) .pool amount = .ok donated :=
    transferChecked_isOk (by simp) (by rw [wallet]) (by rw [pool, whole, ← gained]; exact (tokens .pool).isLt)
  obtain ⟨left, rfl, _, arrived, elsewhere⟩ := transferChecked_ok (by simp) moved
  have gives : DeepPool.step rent funded (.donateTokens .none key amount) = .ok ({ funded with tokens := left }, none) :=
    bind_ok.mpr ⟨_, moved, rfl⟩
  have same : tokens .pool = left .pool := by rw [Fin.ext_iff, gained, arrived, pool, whole]
  have restored : Balances.Differ [.wallet key] left tokens := by
    intro name outside
    have notWallet := List.ne_of_not_mem_cons outside
    by_cases atPool : name = .pool
    · rw [atPool, same]
    · rw [others.others name atPool, elsewhere name notWallet atPool]
      exact (Function.update_of_ne notWallet _ _).symm
  have given : Logs rent { funded with tokens := left } [] { before with tokens } := .tokens restored same
  exact ((Logs.tokens changed pool).append (Logs.step gives)).append given

end Logs

variable {Key : Type} {derive : Derivation Key} {site : Site Key} {rent : U64} {world before middle after : World Key}
  {source dest mint authority key payer : Key} {amount : U64}

theorem Hosts.not_owned (hosts : Hosts derive site before) (other : authority ≠ site.address) {kind : Mint Key}
    {account : TokenAccount Key} (spendable : World.Spendable before source mint authority kind account)
    (ours : mint = site.tokenMint ∨ mint = site.lpMint) : account.owner ≠ site.address := by
  intro owned
  rcases spendable.agreed with owner | delegated | ⟨given, approved, _⟩
  · exact other (owner.symm.trans owned)
  · rcases ours with rfl | rfl
    · rw [hosts.undelegated kind spendable.minted] at delegated
      cases delegated
    · obtain rfl := Option.some.inj (spendable.minted.symm.trans hosts.settled.minted)
      cases delegated
  · rw [hosts.orderly.approved spendable.held (owned ▸ hosts.settled.silent)] at approved
    cases approved

theorem Hosts.not_vault (hosts : Hosts derive site before) (other : authority ≠ site.address) {kind : Mint Key}
    {account : TokenAccount Key} (spendable : World.Spendable before source mint authority kind account) :
    source ≠ site.tokenVault := by
  rintro rfl
  have held := spendable.held
  rw [hosts.settled.vaultAccount] at held
  cases held
  exact hosts.not_owned other spendable (.inl spendable.belongs.symm) rfl

variable [DecidableEq Key]

/-- The site is still there, and what happened to it is a run of its own world that
emits nothing. -/
structure Follows (derive : Derivation Key) (site : Site Key) (rent : U64) (before after : World Key) : Prop where
  hosts : Hosts derive site after
  pool : after.pools site.address = before.pools site.address
  logs : ∀ data, Logs rent (site.chain derive before data) [] (site.chain derive after data)

theorem Hosts.follows (hosts : Hosts derive site world) : Follows derive site rent world world :=
  ⟨hosts, rfl, fun _ => .refl _⟩

theorem Follows.trans (first : Follows derive site rent before middle) (second : Follows derive site rent middle after) :
    Follows derive site rent before after :=
  ⟨second.hosts, second.pool.trans first.pool, fun data => (first.logs data).append (second.logs data)⟩

section Operations
variable {data : Pool (Holder Key)}

theorem Hosts.follows_lamports {lamports : Balances Key 64} (hosts : Hosts derive site before)
    (other : source ≠ site.address) (moved : before.lamports.transfer source dest amount amount = some lamports) :
    Follows derive site rent before { before with lamports } := by
  refine ⟨hosts.same (Rebalanced.of_lamports lamports).toSameAccounts, rfl, fun data => ?_⟩
  by_cases given : dest = site.address
  · subst given
    have seen := Balances.transfer_named Site.lamports_unique (Site.lamports_owner other) Site.lamports_pool moved
    have gives : DeepPool.step rent (site.chain derive before data) (.donateSol (.owner source) amount) =
        .ok (site.chain derive { before with lamports } data, none) := by
      refine bind_ok.mpr ⟨_, bind_ok.mpr ⟨_, orFail_ok.mpr seen, rfl⟩, rfl⟩
    exact Logs.step gives
  · have differ := Balances.Differ.of_transfer moved
    obtain ⟨names, seen, _⟩ := differ.named site.lamports_unique
    refine .sol seen (differ site.address ?_)
    simp [other.symm, Ne.symm given]

theorem Hosts.logs_amounts {touched : List Key} (hosts : Hosts derive site before)
    (differ : Balances.Differ touched before.amounts after.amounts)
    (vault : after.amounts site.tokenVault = before.amounts site.tokenVault)
    (lp : after.amounts.named (site.lpOf derive before) = before.amounts.named (site.lpOf derive before))
    (supply : after.supplies site.lpMint = before.supplies site.lpMint)
    (same : after = { before with
      amounts := after.amounts
      withheld := after.withheld
      supplies := after.supplies
      harvested := after.harvested
      standing := after.standing }) :
    Logs rent (site.chain derive before data) [] (site.chain derive after data) := by
  obtain ⟨names, seen, _⟩ := differ.named hosts.tokens_unique
  have chain : site.chain derive after data =
      { site.chain derive before data with tokens := after.amounts.named (site.tokensOf derive before) } := by
    rw [same]
    simp only [Site.chain, Chain.mk.injEq, Ledger.mk.injEq, true_and]
    exact ⟨rfl, supply, lp⟩
  rw [chain]
  exact .tokens seen vault

/-- A transfer of tokens that the pool did not sign: of its LP tokens, of its token to the
vault or elsewhere, or of a mint it does not know. -/
theorem Hosts.follows_transferChecked (hosts : Hosts derive site before) (other : authority ≠ site.address)
    (done : before.transferChecked source mint dest authority amount = .ok after) :
    Follows derive site rent before after := by
  have same := (World.rebalanced_of_transferChecked done).toSameAccounts
  rcases World.transferChecked_ok done with ⟨_, rfl⟩ | ⟨kind, paying, receiving, transferred⟩
  · exact hosts.follows
  have pool : after.pools site.address = before.pools site.address := by rw [transferred.rest]
  have supplies : after.supplies = before.supplies := by rw [transferred.rest]
  have harvested : after.harvested = before.harvested := by rw [transferred.rest]
  have rest : after = { before with
      amounts := after.amounts
      withheld := after.withheld
      supplies := after.supplies
      harvested := after.harvested
      standing := after.standing } := by
    rw [supplies, harvested]
    exact transferred.rest
  have differ := Balances.Differ.of_transfer transferred.moved
  refine ⟨hosts.same same, pool, fun data => ?_⟩
  by_cases lp : mint = site.lpMint
  · subst lp
    have foreign : paying.owner ≠ site.address := hosts.not_owned other transferred.paid (.inr rfl)
    obtain ⟨first, payer, wallet⟩ := Hosts.lp_name transferred.paid.held transferred.paid.belongs
    obtain ⟨second, payee, _⟩ := Hosts.lp_name transferred.received transferred.belongs
    obtain ⟨holder, rfl⟩ := wallet foreign
    obtain ⟨moved, unchanged⟩ := hosts.transferLp payer payee transferred
    have moves : DeepPool.step rent (site.chain derive before data) (.transferLp holder second amount) =
        .ok (site.chain derive after data, none) := by
      refine bind_ok.mpr ⟨_, orFail_ok.mpr moved, ?_⟩
      rw [unchanged]
      rfl
    exact Logs.step moves
  · have noLp : after.amounts.named (site.lpOf derive before) = before.amounts.named (site.lpOf derive before) := by
      refine Balances.transfer_unseen (hosts.lp_unseen transferred.paid.held ?_)
        (hosts.lp_unseen transferred.received ?_) transferred.moved
      · rw [transferred.paid.belongs]
        exact lp
      · rw [transferred.belongs]
        exact lp
    by_cases given : dest = site.tokenVault
    · subst given
      have token : mint = site.tokenMint := by
        rw [← transferred.belongs]
        exact hosts.tokens_mint Site.tokens_pool transferred.received
      subst token
      obtain ⟨holder, payer⟩ := Hosts.tokens_name transferred.paid.held transferred.paid.belongs
        (hosts.not_vault other transferred.paid)
      have gives : DeepPool.step rent (site.chain derive before data) (.donateTokens kind.transferFee holder amount) =
          .ok (site.chain derive after data, none) :=
        bind_ok.mpr ⟨_, hosts.transferChecked payer Site.tokens_pool transferred, rfl⟩
      exact Logs.step gives
    · refine hosts.logs_amounts differ (differ _ ?_) noLp (by rw [supplies]) rest
      intro member
      rcases List.mem_pair.mp member with same | same
      · exact hosts.not_vault other transferred.paid same.symm
      · exact given same.symm

theorem Hosts.follows_credit {account : TokenAccount Key} {amounts withheld supplies harvested : Balances Key 64}
    (hosts : Hosts derive site before)
    (same : SameAccounts before { before with amounts, withheld, supplies, harvested })
    (found : before.tokenAccounts dest = some account) (foreign : account.mint ≠ site.lpMint)
    (credited : before.amounts.credit dest amount = some amounts)
    (supply : supplies site.lpMint = before.supplies site.lpMint) :
    Follows derive site rent before { before with amounts, withheld, supplies, harvested } := by
  refine ⟨hosts.same same, rfl, fun data => ?_⟩
  have noLp := Balances.credit_unseen (hosts.lp_unseen found foreign) credited
  by_cases given : dest = site.tokenVault
  · subst given
    have seen := Balances.credit_named hosts.tokens_unique Site.tokens_pool credited
    have chain : site.chain derive { before with amounts, withheld, supplies, harvested } data =
        { site.chain derive before data with tokens := amounts.named (site.tokensOf derive before) } := by
      simp only [Site.chain, Chain.mk.injEq, Ledger.mk.injEq, true_and]
      exact ⟨rfl, supply, noLp⟩
    rw [chain]
    exact .granted (.account site.tokenVault) seen
  · have differ := Balances.Differ.of_credit credited
    exact hosts.logs_amounts differ (differ _ (by simp [Ne.symm given])) noLp supply rfl

theorem Hosts.follows_mintTo (hosts : Hosts derive site before) (other : authority ≠ site.address)
    (done : before.mintTo mint dest authority amount = .ok after) : Follows derive site rent before after := by
  have same := (World.rebalanced_of_mintTo done).toSameAccounts
  obtain ⟨kind, account, amounts, supplies, minted, agreed, found, belongs, credited, added, rfl⟩ := World.mintTo_ok done
  have foreign : mint ≠ site.lpMint := by
    rintro rfl
    obtain rfl := Option.some.inj (minted.symm.trans hosts.settled.minted)
    exact other (Option.some.inj agreed).symm
  exact hosts.follows_credit same found (belongs ▸ foreign) credited
    ((Balances.credit_eq_some added).2.others _ foreign.symm)

omit [DecidableEq Key] in
/-- LP tokens are transferred without a fee, so none are withheld. -/
theorem Settled.charged (settled : Settled derive site before) {kind : Mint Key} (minted : before.mints mint = some kind)
    (extended : kind.data.entries ≠ []) : mint ≠ site.lpMint := by
  rintro rfl
  obtain rfl := Option.some.inj (minted.symm.trans settled.minted)
  exact extended rfl

theorem Hosts.follows_harvestFees (hosts : Hosts derive site before)
    (done : before.harvestFees source mint = .ok after) : Follows derive site rent before after := by
  have same := (World.rebalanced_of_harvestFees done).toSameAccounts
  obtain ⟨kind, account, harvested, _, _, _, _, _, rfl⟩ := World.harvestFees_ok done
  exact ⟨hosts.same same, rfl, fun data => .refl _⟩

theorem Hosts.follows_withdrawFees (hosts : Hosts derive site before)
    (done : before.withdrawFees mint dest = .ok after) : Follows derive site rent before after := by
  have same := (World.rebalanced_of_withdrawFees done).toSameAccounts
  obtain ⟨kind, account, amounts, minted, extended, found, belongs, credited, rfl⟩ := World.withdrawFees_ok done
  exact hosts.follows_credit same found (belongs ▸ hosts.settled.charged minted extended) credited rfl

theorem Hosts.follows_collectFees (hosts : Hosts derive site before)
    (done : before.collectFees source mint dest = .ok after) : Follows derive site rent before after := by
  have same := (World.rebalanced_of_collectFees done).toSameAccounts
  obtain ⟨kind, paying, receiving, amounts, minted, extended, _, _, found, belongs, credited, rfl⟩ :=
    World.collectFees_ok done
  exact hosts.follows_credit same found (belongs ▸ hosts.settled.charged minted extended) credited rfl

theorem Hosts.follows_retire {account : TokenAccount Key} (hosts : Hosts derive site before)
    (retired : World.Retired before after mint source amount account)
    (foreign : mint = site.tokenMint ∨ mint = site.lpMint → account.owner ≠ site.address) :
    Follows derive site rent before after := by
  have pool : after.pools site.address = before.pools site.address := by rw [retired.rest]
  refine ⟨hosts.same retired.rebalanced.toSameAccounts, pool, fun data => ?_⟩
  have differ := Balances.Differ.of_debit retired.debited
  by_cases lp : mint = site.lpMint
  · subst lp
    obtain ⟨name, payer, wallet⟩ := Hosts.lp_name retired.held retired.belongs
    obtain ⟨holder, rfl⟩ := wallet (foreign (.inr rfl))
    have burns : DeepPool.step rent (site.chain derive before data) (.burnLp holder amount) =
        .ok (site.chain derive after data, none) :=
      bind_ok.mpr ⟨_, hosts.retire payer retired, rfl⟩
    exact Logs.step burns
  · have noLp := Balances.debit_unseen (hosts.lp_unseen retired.held (retired.belongs ▸ lp)) retired.debited
    have supply : after.supplies site.lpMint = before.supplies site.lpMint :=
      (Balances.debit_eq_some retired.removed).2.others _ (Ne.symm lp)
    have vault : source ≠ site.tokenVault := by
      rintro rfl
      obtain rfl := Option.some.inj (retired.held.symm.trans hosts.settled.vaultAccount)
      exact foreign (.inl retired.belongs.symm) rfl
    have withheld : after.withheld = before.withheld := by rw [retired.rest]
    have harvested : after.harvested = before.harvested := by rw [retired.rest]
    refine hosts.logs_amounts differ (differ _ (by simp [vault.symm])) noLp supply ?_
    rw [withheld, harvested]
    exact retired.rest

theorem Hosts.follows_burn (hosts : Hosts derive site before) (other : authority ≠ site.address)
    (done : before.burn mint source authority amount = .ok after) : Follows derive site rent before after := by
  obtain ⟨kind, account, spendable, retired⟩ := World.burn_ok done
  exact hosts.follows_retire retired fun ours => hosts.not_owned other spendable ours

theorem Hosts.follows_incinerate {account : TokenAccount Key} (hosts : Hosts derive site before)
    (found : before.tokenAccounts source = some account) (nobody : derive.incinerates account.owner = true)
    (done : before.incinerate mint source amount = .ok after) : Follows derive site rent before after := by
  obtain ⟨held, retired⟩ := World.incinerate_ok done
  obtain rfl := Option.some.inj (found.symm.trans retired.held)
  refine hosts.follows_retire retired fun _ owned => ?_
  rw [owned, hosts.settled.kept] at nobody
  cases nobody

end Operations
end DeepPool
