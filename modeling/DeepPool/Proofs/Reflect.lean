import DeepPool.Request
import DeepPool.Proofs.Conservation

/-! The way back from the pool's view. An operation that goes through between names goes
through between the accounts that they stand for, if the other programs let it. -/

namespace DeepPool
open Library

variable {Key : Type} {derive : Derivation Key} {site : Site Key} {before : World Key} {last : Chain (Holder Key)}
  {data : Pool (Holder Key)} {first second : Owner (Holder Key)} {source dest authority : Key} {amount : U64}
  {kind : Mint Key} {receiving : TokenAccount Key} {left : Option (Approval Key)}

variable [DecidableEq Key]

theorem Hosts.reflect_systemTransfer (hosts : Hosts derive site before) (payer : site.lamportsOf first = some source)
    (payee : site.lamportsOf second = some dest) (vacant : before.vacant source)
    (done : (site.chain derive before data).systemTransfer first second amount = .ok last) :
    ∃ after, before.systemTransfer source dest amount = .ok after ∧ site.chain derive after data = last ∧
      Stays derive site before after := by
  obtain ⟨_, seen, _⟩ := bind_ok.mp done
  rw [orFail_ok, Site.chain, Balances.named_transfer Site.lamports_unique payer payee] at seen
  obtain ⟨lamports, moved, rfl⟩ := Option.map_eq_some_iff.mp seen
  have goes : before.systemTransfer source dest amount = .ok { before with lamports } := by
    simp only [World.systemTransfer, bind_ok, assure_ok, orFail_ok, pure_ok, exists_const]
    exact ⟨vacant, lamports, moved, rfl⟩
  obtain ⟨again, stays⟩ := hosts.own_systemTransfer data payer payee goes
  rw [done] at again
  exact ⟨_, goes, (Except.ok.inj again).symm, stays⟩

theorem Hosts.reflect_subLamports (hosts : Hosts derive site before) (payer : site.lamportsOf first = some source)
    (done : (site.chain derive before data).subLamports first amount = .ok last) :
    ∃ after, before.subLamports source amount = .ok after ∧ site.chain derive after data = last ∧
      Stays derive site before after := by
  obtain ⟨_, seen, _⟩ := bind_ok.mp done
  rw [orFail_ok, Site.chain, Balances.named_debit Site.lamports_unique payer] at seen
  obtain ⟨lamports, moved, rfl⟩ := Option.map_eq_some_iff.mp seen
  have goes : before.subLamports source amount = .ok { before with lamports } :=
    bind_ok.mpr ⟨lamports, orFail_ok.mpr moved, rfl⟩
  obtain ⟨again, stays⟩ := hosts.own_subLamports data payer goes
  rw [done] at again
  exact ⟨_, goes, (Except.ok.inj again).symm, stays⟩

theorem Hosts.reflect_addLamports (hosts : Hosts derive site before) (payee : site.lamportsOf first = some dest)
    (done : (site.chain derive before data).addLamports first amount = .ok last) :
    ∃ after, before.addLamports dest amount = .ok after ∧ site.chain derive after data = last ∧
      Stays derive site before after := by
  obtain ⟨_, seen, _⟩ := bind_ok.mp done
  rw [orFail_ok, Site.chain, Balances.named_credit Site.lamports_unique payee] at seen
  obtain ⟨lamports, moved, rfl⟩ := Option.map_eq_some_iff.mp seen
  have goes : before.addLamports dest amount = .ok { before with lamports } :=
    bind_ok.mpr ⟨lamports, orFail_ok.mpr moved, rfl⟩
  obtain ⟨again, stays⟩ := hosts.own_addLamports data payee goes
  rw [done] at again
  exact ⟨_, goes, (Except.ok.inj again).symm, stays⟩

/-- A transfer that is paid for leaves room for its fee, since all of the mint is counted. -/
theorem World.Counted.keeps {mint : Key} (counted : before.Counted mint) (paying : before.ofMint mint source = some source)
    (receiving : before.ofMint mint dest = some dest) (funds : amount.val ≤ (before.amounts source).val) :
    (before.withheld dest).val + amount.val < 2 ^ 64 := by
  obtain ⟨free, kept, amounts, withheld, sum⟩ := counted
  have paid := amounts.le source
  have holds := withheld.le dest
  rw [Balances.named_some paying] at paid
  rw [Balances.named_some receiving] at holds
  have supply := (before.supplies mint).isLt
  omega

/-- Two accounts of a mint never hold more than an amount can be. -/
theorem World.Counted.pair_lt {mint : Key} {first second : TokenAccount Key} (counted : before.Counted mint)
    (paying : before.tokenAccounts source = some first) (ours : first.mint = mint)
    (receiving : before.tokenAccounts dest = some second) (theirs : second.mint = mint) (distinct : source ≠ dest) :
    (before.amounts source).val + (before.amounts dest).val < 2 ^ 64 := by
  obtain ⟨free, kept, amounts, withheld, sum⟩ := counted
  have pair := amounts.pair_le distinct
  rw [Balances.named_some (World.ofMint_self paying ours), Balances.named_some (World.ofMint_self receiving theirs)] at pair
  have supply := (before.supplies mint).isLt
  omega

theorem World.Counted.systemTransfer {after : World Key} {mint : Key} (counted : before.Counted mint)
    (done : before.systemTransfer source dest amount = .ok after) : after.Counted mint := by
  obtain ⟨_, _, rfl, _⟩ := World.systemTransfer_ok done
  exact counted.same rfl rfl rfl rfl rfl

theorem Hosts.reflect_transferChecked (hosts : Hosts derive site before) (counted : before.Counted site.tokenMint)
    (spends : before.spendable source site.tokenMint authority amount = .ok (kind, left))
    (receives : before.usable dest site.tokenMint = .ok receiving)
    (distinct : source ≠ dest) (payer : site.tokensOf derive before first = some source)
    (payee : site.tokensOf derive before second = some dest)
    (done : (site.chain derive before data).transferChecked kind.transferFee first second amount = .ok last) :
    ∃ after, before.transferChecked source site.tokenMint dest authority amount = .ok after ∧
      site.chain derive after data = last ∧ Stays derive site before after := by
  obtain ⟨_, seen, _⟩ := bind_ok.mp done
  rw [orFail_ok, Site.chain, Balances.named_transfer hosts.tokens_unique payer payee] at seen
  obtain ⟨amounts, moved, rfl⟩ := Option.map_eq_some_iff.mp seen
  obtain ⟨spent, _, _⟩ := Balances.transfer_eq_some distinct moved
  obtain ⟨⟨paying, spendable⟩, _⟩ := World.spendable_ok spends
  obtain ⟨received, belongs, _⟩ := World.usable_ok.mp receives
  have room := counted.keeps (World.ofMint_self spendable.held spendable.belongs) (World.ofMint_self received belongs)
    (show amount.val ≤ (before.amounts source).val by omega)
  have fee := kind.transferFee.le amount
  obtain ⟨withheld, kept⟩ : ∃ withheld, before.withheld.credit dest (kind.transferFee.fee amount) = some withheld :=
    Balances.credit_isSome (by omega)
  have goes : before.transferChecked source site.tokenMint dest authority amount =
      .ok { before.setDelegate source left with amounts, withheld } := by
    simp only [World.transferChecked, bind_ok, orFail_ok, if_neg distinct]
    exact ⟨_, spends, receiving, receives, amounts, moved, withheld, kept, rfl⟩
  obtain ⟨again, stays⟩ := hosts.own_transferChecked data spendable.minted distinct payer payee goes
  rw [done] at again
  exact ⟨_, goes, (Except.ok.inj again).symm, stays⟩

theorem Hosts.reflect_burn (hosts : Hosts derive site before)
    (spends : before.spendable source site.lpMint authority amount = .ok (kind, left))
    (payer : site.lpOf derive before first = some source)
    (done : (site.chain derive before data).burn first amount = .ok last) :
    ∃ after, before.burn site.lpMint source authority amount = .ok after ∧ site.chain derive after data = last ∧
      Stays derive site before after := by
  obtain ⟨_, seen, _⟩ := bind_ok.mp done
  simp only [orFail_ok, Site.chain, Ledger.burn, Option.bind_eq_bind, Option.bind_eq_some_iff,
    Balances.named_debit hosts.lp_unique payer] at seen
  obtain ⟨_, held, supply, removed, _⟩ := seen
  obtain ⟨amounts, debited, rfl⟩ := Option.map_eq_some_iff.mp held
  have goes : before.burn site.lpMint source authority amount = .ok { before.setDelegate source left with
      amounts, supplies := Function.update before.supplies site.lpMint supply } := by
    simp only [World.burn, World.retire, bind_ok, orFail_ok]
    refine ⟨_, spends, amounts, debited, _, ?_, rfl⟩
    simp only [World.setDelegate, World.setStanding, Balances.debit, removed, Option.map_some]
  obtain ⟨again, stays⟩ := hosts.own_burn data payer goes
  rw [done] at again
  exact ⟨_, goes, (Except.ok.inj again).symm, stays⟩

theorem Hosts.reflect_mintTo (hosts : Hosts derive site before) (received : before.tokenAccounts dest = some receiving)
    (belongs : receiving.mint = site.lpMint) (payee : site.lpOf derive before first = some dest)
    (done : (site.chain derive before data).mintTo first amount = .ok last) :
    ∃ after, before.mintTo site.lpMint dest site.address amount = .ok after ∧ site.chain derive after data = last ∧
      Stays derive site before after := by
  have usable : before.usable dest site.lpMint = .ok receiving :=
    World.usable_ok.mpr ⟨received, belongs, hosts.settled.thawed received belongs⟩
  obtain ⟨_, seen, _⟩ := bind_ok.mp done
  simp only [orFail_ok, Site.chain, Ledger.mint, Option.bind_eq_bind, Option.bind_eq_some_iff,
    Balances.named_credit hosts.lp_unique payee] at seen
  obtain ⟨_, held, sum, added, _⟩ := seen
  obtain ⟨amounts, credited, rfl⟩ := Option.map_eq_some_iff.mp held
  have goes : before.mintTo site.lpMint dest site.address amount =
      .ok { before with amounts, supplies := Function.update before.supplies site.lpMint sum } := by
    simp only [World.mintTo, bind_ok, assure_ok, orFail_ok, exists_const]
    refine ⟨_, hosts.settled.minted, receiving, usable, rfl, amounts, credited, _, ?_, rfl⟩
    rw [Balances.credit, added, Option.map_some]
  obtain ⟨again, stays⟩ := hosts.own_mintTo data payee goes
  rw [done] at again
  exact ⟨_, goes, (Except.ok.inj again).symm, stays⟩

section Accounts
variable {wallet mint : Key}

/-- An owner draws on its own approval, if it has given itself one. -/
theorem World.drawn_owner {approval : Option (Approval Key)} :
    (∃ left, World.drawn wallet false approval wallet amount = some left) ↔
      ∀ given ∈ approval, given.delegate = wallet → amount.val ≤ given.amount.val := by
  cases approval with
  | none => simp [World.drawn]
  | some given =>
    by_cases own : given.delegate = wallet
    · simp [World.drawn, Option.filter, own, Word.checkedSub_isSome]
    · simp [World.drawn, Option.filter, own]

/-- The owner of an account of a mint without the extension. -/
theorem World.spendable_owner (found : before.tokenAccounts source = some ⟨mint, wallet⟩)
    (minted : before.mints mint = some kind) (undelegated : kind.data.delegated = false) :
    (∃ left, before.spendable source mint wallet amount = .ok (kind, left)) ↔
      (before.standing source).frozen = false ∧ (before.standing source).Covers wallet amount := by
  rw [Standing.Covers, ← World.drawn_owner]
  simp only [World.spendable, bind_ok, World.usable_ok, orFail_ok, pure_ok]
  constructor
  · rintro ⟨left, account, ⟨held, _, thawed⟩, known, same, rest, draws, _⟩
    obtain rfl := Option.some.inj (found.symm.trans held)
    obtain rfl := Option.some.inj (minted.symm.trans same)
    rw [undelegated] at draws
    exact ⟨thawed, rest, draws⟩
  · rintro ⟨thawed, left, draws⟩
    rw [← undelegated] at draws
    exact ⟨left, _, ⟨found, rfl, thawed⟩, kind, minted, left, draws, rfl⟩

omit [DecidableEq Key] in
theorem Program.Orderly.account (orderly : Program.Orderly derive before)
    (held : before.tokenAccounts (derive.associated .token2022 wallet mint) ≠ none) :
    before.tokenAccounts (derive.associated .token2022 wallet mint) = some ⟨mint, wallet⟩ := by
  obtain ⟨account, found⟩ := Option.ne_none_iff_exists'.mp held
  rw [found, orderly.associated found]

theorem Program.Orderly.receives (orderly : Program.Orderly derive before)
    (held : before.tokenAccounts (derive.associated .token2022 wallet mint) ≠ none)
    (thawed : (before.standing (derive.associated .token2022 wallet mint)).frozen = false) :
    before.usable (derive.associated .token2022 wallet mint) mint = .ok ⟨mint, wallet⟩ :=
  World.usable_ok.mpr ⟨orderly.account held, rfl, thawed⟩

omit [DecidableEq Key] in
/-- A pool has approved nobody, so all of its vault is its own to spend. -/
theorem Hosts.vault_covers (hosts : Hosts derive site before) (amount : U64) :
    (before.standing site.tokenVault).Covers site.address amount := by
  intro given approved
  rw [hosts.orderly.approved hosts.settled.vaultAccount hosts.settled.silent] at approved
  cases approved

theorem Hosts.vault_spends (hosts : Hosts derive site before) (minted : before.mints site.tokenMint = some kind)
    (thawed : (before.standing site.tokenVault).frozen = false) (amount : U64) :
    ∃ left, before.spendable site.tokenVault site.tokenMint site.address amount = .ok (kind, left) :=
  (World.spendable_owner hosts.settled.vaultAccount minted (hosts.undelegated kind minted)).mpr
    ⟨thawed, hosts.vault_covers amount⟩

/-- Neither the vault nor the party's account is frozen. -/
structure Thawed (derive : Derivation Key) (site : Site Key) (party : Key) (world : World Key) : Prop where
  vault : (world.standing site.tokenVault).frozen = false
  party : (world.standing (derive.associated .token2022 party site.tokenMint)).frozen = false

omit [DecidableEq Key] in
theorem Thawed.same {after : World Key} (thawed : Thawed derive site wallet before) (same : SameAccounts before after) :
    Thawed derive site wallet after :=
  ⟨(same.standing _).frozen.trans thawed.vault, (same.standing _).frozen.trans thawed.party⟩

theorem Hosts.party_spends (hosts : Hosts derive site before) (minted : before.mints site.tokenMint = some kind)
    (held : before.tokenAccounts (derive.associated .token2022 wallet site.tokenMint) ≠ none)
    (thawed : (before.standing (derive.associated .token2022 wallet site.tokenMint)).frozen = false)
    (covers : (before.standing (derive.associated .token2022 wallet site.tokenMint)).Covers wallet amount) :
    ∃ left, before.spendable (derive.associated .token2022 wallet site.tokenMint) site.tokenMint wallet amount =
      .ok (kind, left) :=
  (World.spendable_owner (hosts.orderly.account held) minted (hosts.undelegated kind minted)).mpr ⟨thawed, covers⟩

theorem Settled.vault_receives (settled : Settled derive site before)
    (thawed : (before.standing site.tokenVault).frozen = false) :
    before.usable site.tokenVault site.tokenMint = .ok ⟨site.tokenMint, site.address⟩ :=
  World.usable_ok.mpr ⟨settled.vaultAccount, rfl, thawed⟩

end Accounts

section Swap
variable {accounts : Program.Swap Key} {args : SwapArgs} {solReserve tokenReserve : U64} {metrics : SwapMetrics}
  {rents : Rents Key}

theorem Hosts.reflect_handleBuy (hosts : Hosts derive site before) (here : accounts.At derive site)
    (minted : before.mints site.tokenMint = some kind) (counted : before.Counted site.tokenMint)
    (held : before.tokenAccounts (derive.associated .token2022 accounts.user site.tokenMint) ≠ none)
    (thawed : Thawed derive site accounts.user before) (vacant : before.vacant accounts.solSource)
    (done : handleBuy kind.transferFee accounts.parties args solReserve tokenReserve (site.chain derive before data) =
      .ok (last, metrics)) :
    ∃ after, Program.handleBuy accounts args solReserve tokenReserve before = .ok (after, metrics) ∧
      site.chain derive after data = last ∧ Stays derive site before after := by
  have apart := hosts.settled.vault_apart .token2022 accounts.user site.tokenMint
  simp only [handleBuy, bind_ok, okOr_ok, require_ok, pure_ok, exists_const] at done
  obtain ⟨poolFee, charged, effective, reduced, out, computed, minimum, drained, _, pays, _, sends, received, counts,
    same⟩ := done
  cases same
  obtain ⟨paid, moved, rfl, paying⟩ := hosts.reflect_systemTransfer (Site.lamports_owner here.solSource)
    Site.lamports_pool vacant pays
  have thawed := thawed.same paying.toSameAccounts
  rw [← paying.mints] at minted
  rw [← paying.tokenAccounts] at held
  obtain ⟨left, spends⟩ := paying.hosts.vault_spends minted thawed.vault out
  obtain ⟨delivered, sent, rfl, sending⟩ := paying.hosts.reflect_transferChecked (counted.systemTransfer moved) spends
    (paying.hosts.orderly.receives held thawed.party) apart Site.tokens_pool (Site.tokens_owner accounts.user) sends
  refine ⟨delivered, ?_, rfl, paying.trans sending⟩
  simp only [Program.handleBuy, here.pool, here.tokenMint, here.tokenVault, here.userTokenAccount, bind_ok, okOr_ok,
    require_ok, pure_ok, exists_const]
  exact ⟨poolFee, charged, effective, reduced, out, computed, minimum, drained, paid, moved, delivered, sent, received,
    counts, rfl⟩

theorem Hosts.reflect_handleSell (hosts : Hosts derive site before) (here : accounts.At derive site)
    (minted : before.mints site.tokenMint = some kind) (counted : before.Counted site.tokenMint)
    (held : before.tokenAccounts (derive.associated .token2022 accounts.user site.tokenMint) ≠ none)
    (thawed : Thawed derive site accounts.user before)
    (covers : (before.standing (derive.associated .token2022 accounts.user site.tokenMint)).Covers accounts.user
      args.amountIn)
    (done : handleSell rents.pool kind.transferFee accounts.parties args solReserve tokenReserve
      (site.chain derive before data) = .ok (last, metrics)) :
    ∃ after, Program.handleSell rents accounts args solReserve tokenReserve before = .ok (after, metrics) ∧
      site.chain derive after data = last ∧ Stays derive site before after := by
  have apart := hosts.settled.vault_apart .token2022 accounts.user site.tokenMint
  simp only [handleSell, bind_ok, okOr_ok, require_ok, pure_ok, exists_const] at done
  obtain ⟨_, sends, net, counts, input, poolFee, charged, effective, reduced, out, computed, minimum, drained, floor, _,
    spends, _, earns, same⟩ := done
  cases same
  obtain ⟨left, draws⟩ := hosts.party_spends minted held thawed.party covers
  obtain ⟨delivered, sent, rfl, sending⟩ := hosts.reflect_transferChecked counted draws
    (hosts.settled.vault_receives thawed.vault) apart.symm (Site.tokens_owner accounts.user) Site.tokens_pool sends
  obtain ⟨debited, spent, rfl, spending⟩ := sending.hosts.reflect_subLamports Site.lamports_pool spends
  obtain ⟨credited, earned, rfl, earning⟩ :=
    spending.hosts.reflect_addLamports (Site.lamports_owner here.solSource) earns
  refine ⟨credited, ?_, rfl, (sending.trans spending).trans earning⟩
  simp only [Program.handleSell, here.pool, here.tokenMint, here.tokenVault, here.userTokenAccount, bind_ok, okOr_ok,
    require_ok, pure_ok, exists_const]
  exact ⟨delivered, sent, net, counts, input, poolFee, charged, effective, reduced, out, computed, minimum, drained,
    floor, debited, spent, credited, earned, rfl⟩

/-- The swap's own observation fails on no pool whose ring is in order. -/
theorem Hosts.reflect_swap {pool : Pool Key} {event : SwapExecuted (Holder Key)} (hosts : Hosts derive site before)
    (here : accounts.At derive site) (minted : before.mints site.tokenMint = some kind)
    (counted : before.Counted site.tokenMint)
    (held : before.tokenAccounts (derive.associated .token2022 accounts.user site.tokenMint) ≠ none)
    (thawed : Thawed derive site accounts.user before)
    (covers : args.buy ≠ true → (before.standing (derive.associated .token2022 accounts.user site.tokenMint)).Covers
      accounts.user args.amountIn)
    (vacant : args.buy = true → before.vacant accounts.solSource) (inside : pool.obsHead.val < twapRingSize)
    (done : swap rents.pool kind.transferFee accounts.parties args (site.chain derive before (pool.rename .owner)) =
      .ok (last, event)) :
    ∃ after made, accounts.handler rents args pool before = .ok (after, made) := by
  simp only [swap, bind_ok, require_ok, exists_const] at done
  obtain ⟨input, ⟨sol, token⟩, again, repeats, done⟩ := done
  obtain ⟨observed, recorded⟩ : ∃ observed, pool.recordObservation _ _ before.slot = .ok observed :=
    Pool.recordObservation_isOk before.slot inside sol token
  have renamed := Pool.recordObservation_rename Holder.owner recorded
  obtain rfl := Except.ok.inj (repeats.symm.trans renamed)
  have sets : Hosts derive site (before.setPool site.address observed) := hosts.same (World.same_of_setPool _ _ _)
  have counts : (before.setPool site.address observed).Counted site.tokenMint := counted.same rfl rfl rfl rfl rfl
  have still : Thawed derive site accounts.user (before.setPool site.address observed) := ⟨thawed.vault, thawed.party⟩
  split at done
  next buy =>
    obtain ⟨⟨_, metrics⟩, trades, same⟩ := bind_ok.mp done
    have free : (before.setPool site.address observed).vacant accounts.solSource := by
      obtain ⟨noPool, noMint, noAccount⟩ := vacant buy
      exact ⟨(Function.update_of_ne here.solSource _ _).trans noPool, noMint, noAccount⟩
    obtain ⟨after, traded, _⟩ := sets.reflect_handleBuy here minted counts held still free trades
    simp only [Program.Swap.handler, here.pool, here.tokenVault, if_pos buy, bind_ok, require_ok, exists_const]
    exact ⟨_, _, input, ⟨sol, token⟩, observed, recorded, _, traded, rfl⟩
  next sell =>
    obtain ⟨⟨_, metrics⟩, trades, same⟩ := bind_ok.mp done
    obtain ⟨after, traded, _⟩ := sets.reflect_handleSell here minted counts held still (covers sell) trades
    simp only [Program.Swap.handler, here.pool, here.tokenVault, if_neg sell, bind_ok, require_ok, exists_const]
    exact ⟨_, _, input, ⟨sol, token⟩, observed, recorded, _, traded, rfl⟩

end Swap

section Deposit
variable {accounts : Program.AddLiquidity Key} {args : AddLiquidityArgs} {event : LiquidityAdded (Holder Key)}
  {rents : Rents Key}

theorem Hosts.reflect_addLiquidity (hosts : Hosts derive site before) (here : accounts.At derive site)
    (minted : before.mints site.tokenMint = some kind) (counted : before.Counted site.tokenMint)
    (held : before.tokenAccounts (derive.associated .token2022 accounts.provider site.tokenMint) ≠ none)
    (made : before.tokenAccounts (derive.associated .token2022 accounts.provider site.lpMint) ≠ none)
    (thawed : Thawed derive site accounts.provider before)
    (covers : (before.standing (derive.associated .token2022 accounts.provider site.tokenMint)).Covers accounts.provider
      args.tokenAmount)
    (vacant : before.vacant accounts.provider)
    (done : addLiquidity rents.pool kind.transferFee (.owner accounts.provider) args (site.chain derive before data) =
      .ok (last, event)) :
    ∃ after given, accounts.handler rents args before = .ok (after, given) := by
  have apart := hosts.settled.vault_apart .token2022 accounts.provider site.tokenMint
  simp only [addLiquidity, bind_ok, okOr_ok, require_ok, pure_ok, exists_const] at done
  obtain ⟨input, reserves, supply, worst, estimated, positive, bounded, _, sends, net, counts, arrived, charge, charged,
    paid, _, pays, lpAmount, computed, some, minimum, lpBurn, locked, lpToProvider, split, credited, _, provides, _,
    locks, same⟩ := done
  obtain ⟨left, draws⟩ := hosts.party_spends minted held thawed.party covers
  obtain ⟨delivered, sent, rfl, sending⟩ := hosts.reflect_transferChecked counted draws
    (hosts.settled.vault_receives thawed.vault) apart.symm (Site.tokens_owner accounts.provider) Site.tokens_pool sends
  have still : delivered.vacant accounts.provider := by
    obtain ⟨noPool, noMint, noAccount⟩ := vacant
    exact ⟨sending.pools ▸ noPool, sending.mints ▸ noMint, sending.tokenAccounts ▸ noAccount⟩
  obtain ⟨funded, moved, rfl, paying⟩ := sending.hosts.reflect_systemTransfer (Site.lamports_owner here.provider)
    Site.lamports_pool still pays
  have earlier := sending.trans paying
  rw [← earlier.tokenAccounts] at made
  obtain ⟨provided, toProvider, rfl, providing⟩ := earlier.hosts.reflect_mintTo (earlier.hosts.orderly.account made) rfl
    (Site.lp_owner here.provider) provides
  obtain ⟨ended, toPool, rfl, locking⟩ := providing.hosts.reflect_mintTo providing.hosts.settled.lockedAccount rfl
    Site.lp_pool locks
  simp only [Program.AddLiquidity.handler, here.pool, here.tokenMint, here.tokenVault, here.lpMint,
    here.providerTokenAccount, here.providerLpAccount, here.poolLpAccount, bind_ok, okOr_ok, require_ok, pure_ok,
    exists_const]
  exact ⟨_, _, input, reserves, supply, worst, estimated, positive, bounded, delivered, sent, net, counts, arrived,
    charge, charged, paid, funded, moved, lpAmount, computed, some, minimum, lpBurn, locked, lpToProvider, split,
    credited, provided, toProvider, ended, toPool, rfl⟩

end Deposit

section Withdrawal
variable {accounts : Program.RemoveLiquidity Key} {args : RemoveLiquidityArgs} {event : LiquidityRemoved (Holder Key)}
  {rents : Rents Key}

/-- The view also checks what the program's constraints have already checked. -/
theorem Hosts.reflect_removeLiquidity (hosts : Hosts derive site before) (here : accounts.At derive site)
    (minted : before.mints site.tokenMint = some kind) (counted : before.Counted site.tokenMint)
    (held : before.tokenAccounts (derive.associated .token2022 accounts.provider site.tokenMint) ≠ none)
    (heldLp : before.tokenAccounts (derive.associated .token2022 accounts.provider site.lpMint) ≠ none)
    (thawed : Thawed derive site accounts.provider before)
    (covers : (before.standing (derive.associated .token2022 accounts.provider site.lpMint)).Covers accounts.provider
      args.lpAmount)
    (done : removeLiquidity rents.pool kind.transferFee (.owner accounts.provider) args (site.chain derive before data) =
      .ok (last, event)) :
    args.lpAmount.val ≤ (before.amounts accounts.providerLpAccount).val ∧
      ∃ after given, accounts.handler rents args before = .ok (after, given) := by
  have apart := hosts.settled.vault_apart .token2022 accounts.provider site.tokenMint
  have account : (site.chain derive before data).lp.balance (.wallet (.owner accounts.provider)) =
      before.amounts accounts.providerLpAccount := by
    rw [here.providerLpAccount]
    exact Balances.named_some (Site.lp_owner here.provider)
  simp only [removeLiquidity, bind_ok, okOr_ok, require_ok, pure_ok, exists_const] at done
  obtain ⟨funds, input, reserves, supply, solOut, solShare, tokensOut, tokenShare, minimumSol, minimumTokens, solLeft,
    solKept, tokensLeft, tokensKept, keeps, _, burns, _, sends, received, counts, _, spends, _, earns, same⟩ := done
  rw [account] at funds
  refine ⟨funds, ?_⟩
  have lpAccount := hosts.orderly.account heldLp
  obtain ⟨left, draws⟩ := (World.spendable_owner lpAccount hosts.settled.minted rfl).mpr
    ⟨hosts.settled.thawed lpAccount rfl, covers⟩
  obtain ⟨burned, gone, rfl, burning⟩ := hosts.reflect_burn draws (Site.lp_owner here.provider) burns
  obtain ⟨_, paying, _, retired⟩ := World.burn_ok gone
  have thawed := thawed.same burning.toSameAccounts
  rw [← burning.mints] at minted
  rw [← burning.tokenAccounts] at held
  obtain ⟨left, draws⟩ := burning.hosts.vault_spends minted thawed.vault tokensOut
  obtain ⟨delivered, sent, rfl, sending⟩ := burning.hosts.reflect_transferChecked (counted.retired retired) draws
    (burning.hosts.orderly.receives held thawed.party) apart Site.tokens_pool (Site.tokens_owner accounts.provider) sends
  obtain ⟨debited, spent, rfl, spending⟩ := sending.hosts.reflect_subLamports Site.lamports_pool spends
  obtain ⟨credited, earned, rfl, earning⟩ := spending.hosts.reflect_addLamports (Site.lamports_owner here.provider) earns
  simp only [Program.RemoveLiquidity.handler, here.pool, here.tokenMint, here.tokenVault, here.lpMint,
    here.providerTokenAccount, here.providerLpAccount, bind_ok, okOr_ok, require_ok, pure_ok, exists_const]
  exact ⟨_, _, input, reserves, supply, solOut, solShare, tokensOut, tokenShare, minimumSol, minimumTokens, solLeft,
    solKept, tokensLeft, tokensKept, keeps, burned, gone, delivered, sent, received, counts, debited, spent, credited,
    earned, rfl⟩

end Withdrawal
end DeepPool
