import DeepPool.Program
import DeepPool.Library.Naming
import DeepPool.Proofs.Handlers

/-! Inversion of the operations on accounts, and what they leave as it was: no balance
operation makes or closes an account. -/

namespace DeepPool
open Library

section Checks
variable {Failure Reported : Type} {α : Type}

theorem assure_ok {condition : Prop} [Decidable condition] {failure : Failure} {done : Unit} :
    assure condition failure = .ok done ↔ condition := by
  unfold assure
  split
  next holds => exact ⟨fun _ => holds, fun _ => rfl⟩
  next fails =>
    constructor
    · intro impossible
      cases impossible
    · intro holds
      exact absurd holds fails

theorem mapError_ok {computation : Except Failure α} {report : Failure → Reported} {result : α} :
    computation.mapError report = .ok result ↔ computation = .ok result := by
  cases computation with
  | error failure =>
    constructor <;>
    · intro impossible
      cases impossible
  | ok found =>
    constructor <;>
    · intro same
      cases same
      rfl

theorem initialized_ok {data : Option α} {found : α} : Program.initialized data = .ok found ↔ data = some found := by
  cases data with
  | none => simp [Program.initialized]
  | some held => simp [Program.initialized]

end Checks

variable {Key : Type} {before middle after : World Key}

/-- All that spending does to what others may do with an account: a delegate uses up its approval. -/
structure Standing.Spent (before after : Standing Key) : Prop where
  undelegated : before.delegate = none → after.delegate = none
  closeAuthority : after.closeAuthority = before.closeAuthority
  frozen : after.frozen = before.frozen

theorem Standing.Spent.refl (standing : Standing Key) : Spent standing standing := ⟨id, rfl, rfl⟩

theorem Standing.Spent.trans {before middle after : Standing Key} (first : Spent before middle)
    (second : Spent middle after) : Spent before after :=
  ⟨second.undelegated ∘ first.undelegated, second.closeAuthority.trans first.closeAuthority,
    second.frozen.trans first.frozen⟩

theorem Standing.Spent.initial {standing : Standing Key} (spent : Spent .initial standing) : standing = .initial := by
  obtain ⟨undelegated, closeAuthority, frozen⟩ := spent
  cases standing
  cases undelegated rfl
  cases closeAuthority
  cases frozen
  rfl

/-- The same accounts exist, and what does not exist keeps its balance. -/
structure SameAccounts (before after : World Key) : Prop where
  mints : after.mints = before.mints
  tokenAccounts : after.tokenAccounts = before.tokenAccounts
  absent : ∀ key, before.tokenAccounts key = none →
    after.amounts key = before.amounts key ∧ after.withheld key = before.withheld key
  unminted : ∀ key, before.mints key = none →
    after.supplies key = before.supplies key ∧ after.harvested key = before.harvested key
  standing : ∀ key, (before.standing key).Spent (after.standing key)

/-- Neither amounts nor supplies are different. -/
theorem SameAccounts.of_rfl (mints : after.mints = before.mints) (tokenAccounts : after.tokenAccounts = before.tokenAccounts)
    (amounts : after.amounts = before.amounts) (withheld : after.withheld = before.withheld)
    (supplies : after.supplies = before.supplies) (harvested : after.harvested = before.harvested)
    (standing : after.standing = before.standing) : SameAccounts before after := by
  refine ⟨mints, tokenAccounts, fun _ _ => ?_, fun _ _ => ?_, fun _ => ?_⟩
  · rw [amounts, withheld]
    exact ⟨rfl, rfl⟩
  · rw [supplies, harvested]
    exact ⟨rfl, rfl⟩
  · rw [standing]
    exact .refl _

theorem SameAccounts.refl (world : World Key) : SameAccounts world world := .of_rfl rfl rfl rfl rfl rfl rfl rfl

theorem SameAccounts.trans {before middle after : World Key} (first : SameAccounts before middle)
    (second : SameAccounts middle after) : SameAccounts before after := by
  constructor
  case mints => rw [second.mints, first.mints]
  case tokenAccounts => rw [second.tokenAccounts, first.tokenAccounts]
  case absent =>
    intro key nothing
    have still : middle.tokenAccounts key = none := by
      rw [first.tokenAccounts]
      exact nothing
    rw [(second.absent key still).1, (second.absent key still).2]
    exact first.absent key nothing
  case unminted =>
    intro key nothing
    have still : middle.mints key = none := by
      rw [first.mints]
      exact nothing
    rw [(second.unminted key still).1, (second.unminted key still).2]
    exact first.unminted key nothing
  case standing => exact fun key => (first.standing key).trans (second.standing key)

/-- Only lamports, token amounts and supplies are different. -/
structure Rebalanced (before after : World Key) : Prop extends SameAccounts before after where
  pools : after.pools = before.pools
  slot : after.slot = before.slot

theorem Rebalanced.of_lamports {world : World Key} (lamports : Balances Key 64) :
    Rebalanced world { world with lamports } := ⟨.of_rfl rfl rfl rfl rfl rfl rfl rfl, rfl, rfl⟩

theorem Rebalanced.refl (world : World Key) : Rebalanced world world := ⟨.refl _, rfl, rfl⟩

theorem Rebalanced.trans {before middle after : World Key} (first : Rebalanced before middle)
    (second : Rebalanced middle after) : Rebalanced before after :=
  ⟨first.toSameAccounts.trans second.toSameAccounts, second.pools.trans first.pools, second.slot.trans first.slot⟩

/-- Accounts and mints are made, and nothing that was there is touched. -/
structure Extends (before after : World Key) : Prop where
  amounts : after.amounts = before.amounts
  withheld : after.withheld = before.withheld
  supplies : after.supplies = before.supplies
  harvested : after.harvested = before.harvested
  standing : after.standing = before.standing
  accounts : ∀ {key account}, before.tokenAccounts key = some account → after.tokenAccounts key = some account
  mints : ∀ {key mint}, before.mints key = some mint → after.mints key = some mint

theorem Extends.refl (world : World Key) : Extends world world :=
  ⟨rfl, rfl, rfl, rfl, rfl, fun found => found, fun found => found⟩

theorem Extends.trans {before middle after : World Key} (first : Extends before middle)
    (second : Extends middle after) : Extends before after :=
  ⟨second.amounts.trans first.amounts, second.withheld.trans first.withheld, second.supplies.trans first.supplies,
    second.harvested.trans first.harvested, second.standing.trans first.standing,
    fun found => second.accounts (first.accounts found), fun found => second.mints (first.mints found)⟩

theorem Extends.no_mint {before after : World Key} {key : Key} (extended : Extends before after)
    (nothing : after.mints key = none) : before.mints key = none := by
  cases found : before.mints key with
  | none => rfl
  | some mint =>
    rw [extended.mints found] at nothing
    cases nothing

theorem Extends.no_account {before after : World Key} {key : Key} (extended : Extends before after)
    (nothing : after.tokenAccounts key = none) : before.tokenAccounts key = none := by
  cases found : before.tokenAccounts key with
  | none => rfl
  | some account =>
    rw [extended.accounts found] at nothing
    cases nothing

theorem Program.Orderly.same {derive : Derivation Key} {before after : World Key}
    (orderly : Program.Orderly derive before) (same : SameAccounts before after) : Program.Orderly derive after := by
  constructor
  case minted =>
    intro key account
    rw [same.tokenAccounts, same.mints]
    exact orderly.minted
  case absent =>
    intro key nothing
    rw [same.tokenAccounts] at nothing
    obtain ⟨amount, withheld, standing⟩ := orderly.absent nothing
    rw [(same.absent key nothing).1, (same.absent key nothing).2]
    exact ⟨amount, withheld, Standing.Spent.initial (standing ▸ same.standing key)⟩
  case unminted =>
    intro key nothing
    rw [same.mints] at nothing
    rw [(same.unminted key nothing).1, (same.unminted key nothing).2]
    exact orderly.unminted nothing
  case approved =>
    intro key account found silent
    rw [same.tokenAccounts] at found
    exact (same.standing key).undelegated (orderly.approved found silent)
  case associated =>
    intro wallet mint account
    rw [same.tokenAccounts]
    exact orderly.associated

namespace World
variable {before after : World Key} {source dest mint authority key payer : Key} {amount rent : U64} {kind : Mint Key}

/-- An account that is spent from exists, is of the mint, and its owner, its delegate or the
mint's delegate agreed. -/
structure Spendable (world : World Key) (source mint authority : Key) (kind : Mint Key) (account : TokenAccount Key) :
    Prop where
  held : world.tokenAccounts source = some account
  minted : world.mints mint = some kind
  belongs : account.mint = mint
  agreed : account.owner = authority ∨ kind.data.delegated = true ∨
    ∃ given, (world.standing source).delegate = some given ∧ given.delegate = authority

variable [DecidableEq Key]

theorem same_of_setPool (world : World Key) (key : Key) (pool : Pool Key) :
    SameAccounts world (world.setPool key pool) := .of_rfl rfl rfl rfl rfl rfl rfl rfl

theorem systemTransfer_ok (done : before.systemTransfer source dest amount = .ok after) :
    before.vacant source ∧ ∃ lamports, after = { before with lamports } ∧
      before.lamports.transfer source dest amount amount = some lamports := by
  simp only [systemTransfer, bind_ok, assure_ok, orFail_ok, pure_ok, exists_const] at done
  obtain ⟨vacant, lamports, moved, rfl⟩ := done
  exact ⟨vacant, lamports, rfl, moved⟩

theorem subLamports_ok (done : before.subLamports source amount = .ok after) :
    ∃ lamports, after = { before with lamports } ∧ before.lamports.debit source amount = some lamports := by
  simp only [subLamports, bind_ok, orFail_ok, pure_ok] at done
  obtain ⟨lamports, moved, rfl⟩ := done
  exact ⟨lamports, rfl, moved⟩

theorem addLamports_ok (done : before.addLamports dest amount = .ok after) :
    ∃ lamports, after = { before with lamports } ∧ before.lamports.credit dest amount = some lamports := by
  simp only [addLamports, bind_ok, orFail_ok, pure_ok] at done
  obtain ⟨lamports, moved, rfl⟩ := done
  exact ⟨lamports, rfl, moved⟩

theorem payRent_ok (done : before.payRent payer key rent = .ok after) :
    after = before ∨ before.systemTransfer payer key (rent.saturatingSub (before.lamports key)) = .ok after := by
  unfold payRent at done
  simp only at done
  split at done
  · exact .inr done
  · cases done
    exact .inl rfl

theorem drawn_some {owner : Key} {delegated : Bool} {approval left : Option (Approval Key)}
    (done : drawn owner delegated approval authority amount = some left) :
    (owner = authority ∨ delegated = true ∨ ∃ given, approval = some given ∧ given.delegate = authority) ∧
      (approval = none → left = none) := by
  unfold drawn at done
  split at done
  next mints =>
    cases done
    exact ⟨.inr (.inl mints), id⟩
  next =>
    split at done
    next given found =>
      obtain ⟨same, named⟩ := Option.filter_eq_some_iff.mp found
      rw [same]
      exact ⟨.inr (.inr ⟨given, rfl, of_decide_eq_true named⟩), nofun⟩
    next =>
      split at done
      next owns =>
        cases done
        exact ⟨.inl owns, id⟩
      next => cases done

/-- An account where nothing was drawn on keeps its standing. -/
theorem spent_of_setDelegate (world : World Key) {source : Key} {left : Option (Approval Key)}
    (unused : (world.standing source).delegate = none → left = none) (key : Key) :
    (world.standing key).Spent ((world.setDelegate source left).standing key) := by
  by_cases same : key = source
  · subst same
    simp only [setDelegate, setStanding, Function.update_self]
    exact ⟨unused, rfl, rfl⟩
  · simp only [setDelegate, setStanding, Function.update_of_ne same]
    exact .refl _

theorem usable_ok {account : TokenAccount Key} : before.usable key mint = .ok account ↔
    before.tokenAccounts key = some account ∧ account.mint = mint ∧ (before.standing key).frozen = false := by
  simp only [usable, bind_ok, assure_ok, orFail_ok, exists_const]
  constructor
  · rintro ⟨held, found, belongs, thawed, same⟩
    cases same
    exact ⟨found, belongs, thawed⟩
  · rintro ⟨found, belongs, thawed⟩
    exact ⟨account, found, belongs, thawed, rfl⟩

theorem charged_ok {account : TokenAccount Key} (done : before.charged key mint = .ok account) :
    ∃ kind, before.mints mint = some kind ∧ kind.data.entries ≠ [] ∧ before.tokenAccounts key = some account ∧
      account.mint = mint := by
  simp only [charged, bind_ok, assure_ok, orFail_ok, pure_ok, exists_const] at done
  obtain ⟨kind, minted, extended, held, found, belongs, rfl⟩ := done
  exact ⟨kind, minted, extended, found, belongs⟩

theorem spendable_ok {left : Option (Approval Key)}
    (done : before.spendable source mint authority amount = .ok (kind, left)) :
    (∃ account, Spendable before source mint authority kind account) ∧
      ∀ key, (before.standing key).Spent ((before.setDelegate source left).standing key) := by
  simp only [spendable, bind_ok, usable_ok, orFail_ok, pure_ok] at done
  obtain ⟨account, ⟨found, belongs, _⟩, held, minted, rest, draws, same⟩ := done
  cases same
  obtain ⟨agreed, unused⟩ := drawn_some draws
  exact ⟨⟨account, found, minted, belongs, agreed⟩, spent_of_setDelegate before unused⟩

/-- A transfer of tokens, once it is known that the two accounts differ. -/
structure Transferred (before after : World Key) (source mint dest authority : Key) (amount : U64) (kind : Mint Key)
    (paying receiving : TokenAccount Key) : Prop where
  paid : Spendable before source mint authority kind paying
  received : before.tokenAccounts dest = some receiving
  belongs : receiving.mint = mint
  moved : before.amounts.transfer source dest amount (kind.transferFee.net amount) = some after.amounts
  kept : before.withheld.credit dest (kind.transferFee.fee amount) = some after.withheld
  spent : ∀ key, (before.standing key).Spent (after.standing key)
  rest : after = { before with amounts := after.amounts, withheld := after.withheld, standing := after.standing }

theorem transferChecked_ok (done : before.transferChecked source mint dest authority amount = .ok after) :
    (source = dest ∧ after = before) ∨
      ∃ kind paying receiving, Transferred before after source mint dest authority amount kind paying receiving := by
  simp only [transferChecked, bind_ok] at done
  obtain ⟨⟨kind, left⟩, spendable, receiving, usable, done⟩ := done
  obtain ⟨⟨paying, spendable⟩, spent⟩ := spendable_ok spendable
  obtain ⟨found, belongs, _⟩ := usable_ok.mp usable
  split at done
  next same =>
    simp only [bind_ok, assure_ok, pure_ok, exists_const] at done
    exact .inl ⟨same, done.2.symm⟩
  next different =>
    simp only [bind_ok, orFail_ok, pure_ok] at done
    obtain ⟨amounts, moved, withheld, kept, rfl⟩ := done
    exact .inr ⟨kind, paying, receiving, spendable, found, belongs, moved, kept, spent, rfl⟩

theorem mintTo_ok (done : before.mintTo mint dest authority amount = .ok after) :
    ∃ kind account amounts supplies, before.mints mint = some kind ∧ kind.authority = some authority ∧
      before.tokenAccounts dest = some account ∧ account.mint = mint ∧
      before.amounts.credit dest amount = some amounts ∧ before.supplies.credit mint amount = some supplies ∧
      after = { before with amounts, supplies } := by
  simp only [mintTo, bind_ok, assure_ok, orFail_ok, usable_ok, pure_ok, exists_const] at done
  obtain ⟨kind, minted, account, ⟨found, belongs, _⟩, agreed, amounts, credited, supplies, added, rfl⟩ := done
  exact ⟨kind, account, amounts, supplies, minted, agreed, found, belongs, credited, added, rfl⟩

theorem retire_ok (done : before.retire mint source amount = .ok after) :
    ∃ amounts supplies, before.amounts.debit source amount = some amounts ∧
      before.supplies.debit mint amount = some supplies ∧ after = { before with amounts, supplies } := by
  simp only [retire, bind_ok, orFail_ok, pure_ok] at done
  obtain ⟨amounts, debited, supplies, removed, rfl⟩ := done
  exact ⟨amounts, supplies, debited, removed, rfl⟩

/-- Tokens that are gone, whoever agreed to it. -/
structure Retired (before after : World Key) (mint source : Key) (amount : U64) (account : TokenAccount Key) :
    Prop where
  held : before.tokenAccounts source = some account
  belongs : account.mint = mint
  minted : before.mints mint ≠ none
  debited : before.amounts.debit source amount = some after.amounts
  removed : before.supplies.debit mint amount = some after.supplies
  spent : ∀ key, (before.standing key).Spent (after.standing key)
  rest : after = { before with amounts := after.amounts, supplies := after.supplies, standing := after.standing }

theorem burn_ok (done : before.burn mint source authority amount = .ok after) :
    ∃ kind account, Spendable before source mint authority kind account ∧
      Retired before after mint source amount account := by
  simp only [burn, bind_ok] at done
  obtain ⟨⟨kind, left⟩, spendable, done⟩ := done
  obtain ⟨⟨account, spendable⟩, spent⟩ := spendable_ok spendable
  obtain ⟨amounts, supplies, debited, removed, rfl⟩ := retire_ok done
  have minted : before.mints mint ≠ none := by
    rw [spendable.minted]
    exact Option.some_ne_none _
  exact ⟨kind, account, spendable, spendable.held, spendable.belongs, minted, debited, removed, spent, rfl⟩

theorem incinerate_ok (done : before.incinerate mint source amount = .ok after) :
    ∃ account, Retired before after mint source amount account := by
  simp only [incinerate, bind_ok, orFail_ok] at done
  obtain ⟨account, usable, kind, minted, done⟩ := done
  obtain ⟨held, belongs, _⟩ := usable_ok.mp usable
  obtain ⟨amounts, supplies, debited, removed, rfl⟩ := retire_ok done
  have known : before.mints mint ≠ none := by
    rw [minted]
    exact Option.some_ne_none _
  exact ⟨account, held, belongs, known, debited, removed, fun _ => .refl _, rfl⟩

theorem harvestFees_ok (done : before.harvestFees source mint = .ok after) :
    ∃ kind account harvested, before.mints mint = some kind ∧ kind.data.entries ≠ [] ∧
      before.tokenAccounts source = some account ∧ account.mint = mint ∧
      before.harvested.credit mint (before.withheld source) = some harvested ∧
      after = { before with harvested, withheld := Function.update before.withheld source 0 } := by
  simp only [harvestFees, bind_ok, orFail_ok, pure_ok] at done
  obtain ⟨account, charged, harvested, credited, rfl⟩ := done
  obtain ⟨kind, minted, extended, found, belongs⟩ := charged_ok charged
  exact ⟨kind, account, harvested, minted, extended, found, belongs, credited, rfl⟩

theorem withdrawFees_ok (done : before.withdrawFees mint dest = .ok after) :
    ∃ kind account amounts, before.mints mint = some kind ∧ kind.data.entries ≠ [] ∧
      before.tokenAccounts dest = some account ∧ account.mint = mint ∧
      before.amounts.credit dest (before.harvested mint) = some amounts ∧
      after = { before with amounts, harvested := Function.update before.harvested mint 0 } := by
  simp only [withdrawFees, bind_ok, assure_ok, orFail_ok, pure_ok, exists_const] at done
  obtain ⟨account, charged, _, amounts, credited, rfl⟩ := done
  obtain ⟨kind, minted, extended, found, belongs⟩ := charged_ok charged
  exact ⟨kind, account, amounts, minted, extended, found, belongs, credited, rfl⟩

theorem collectFees_ok (done : before.collectFees source mint dest = .ok after) :
    ∃ kind paying receiving amounts, before.mints mint = some kind ∧ kind.data.entries ≠ [] ∧
      before.tokenAccounts source = some paying ∧ paying.mint = mint ∧
      before.tokenAccounts dest = some receiving ∧ receiving.mint = mint ∧
      before.amounts.credit dest (before.withheld source) = some amounts ∧
      after = { before with amounts, withheld := Function.update before.withheld source 0 } := by
  simp only [collectFees, bind_ok, orFail_ok, usable_ok, pure_ok] at done
  obtain ⟨paying, charged, receiving, ⟨found, theirs, _⟩, amounts, credited, rfl⟩ := done
  obtain ⟨kind, minted, extended, held, ours⟩ := charged_ok charged
  exact ⟨kind, paying, receiving, amounts, minted, extended, held, ours, found, theirs, credited, rfl⟩

theorem openAccount_ok {account : TokenAccount Key} (done : before.openAccount key account = .ok after) :
    before.vacant key ∧ before.mints account.mint ≠ none ∧
      after = { before with tokenAccounts := Function.update before.tokenAccounts key (some account) } := by
  simp only [openAccount, bind_ok, assure_ok, orFail_ok, pure_ok, exists_const] at done
  obtain ⟨vacant, kind, minted, rfl⟩ := done
  exact ⟨vacant, by rw [minted]; simp, rfl⟩

theorem openMint_ok (done : before.openMint key kind = .ok after) :
    before.vacant key ∧ after = { before with mints := Function.update before.mints key (some kind) } := by
  simp only [openMint, bind_ok, assure_ok, pure_ok, exists_const] at done
  exact ⟨done.1, done.2.symm⟩

/-! An operation on balances changes nothing else. -/

theorem rebalanced_of_systemTransfer (done : before.systemTransfer source dest amount = .ok after) :
    Rebalanced before after := by
  obtain ⟨_, lamports, rfl, _⟩ := systemTransfer_ok done
  exact .of_lamports lamports

theorem rebalanced_of_subLamports (done : before.subLamports source amount = .ok after) : Rebalanced before after := by
  obtain ⟨lamports, rfl, _⟩ := subLamports_ok done
  exact .of_lamports lamports

theorem rebalanced_of_addLamports (done : before.addLamports dest amount = .ok after) : Rebalanced before after := by
  obtain ⟨lamports, rfl, _⟩ := addLamports_ok done
  exact .of_lamports lamports

theorem rebalanced_of_payRent (done : before.payRent payer key rent = .ok after) : Rebalanced before after := by
  rcases payRent_ok done with rfl | paid
  · exact .refl _
  · exact rebalanced_of_systemTransfer paid

theorem rebalanced_of_transferChecked (done : before.transferChecked source mint dest authority amount = .ok after) :
    Rebalanced before after := by
  rcases transferChecked_ok done with ⟨_, rfl⟩ | ⟨kind, paying, receiving, transferred⟩
  · exact .refl _
  · have paying : ∀ {key}, before.tokenAccounts key = none → key ≠ source := by
      rintro key nothing rfl
      rw [transferred.paid.held] at nothing
      cases nothing
    have receiving : ∀ {key}, before.tokenAccounts key = none → key ≠ dest := by
      rintro key nothing rfl
      rw [transferred.received] at nothing
      cases nothing
    have spent := transferred.spent
    rw [transferred.rest]
    refine ⟨⟨rfl, rfl, ?_, fun _ _ => ⟨rfl, rfl⟩, spent⟩, rfl, rfl⟩
    intro key nothing
    constructor
    · refine Balances.Differ.of_transfer transferred.moved key ?_
      simp [paying nothing, receiving nothing]
    · exact (Balances.credit_eq_some transferred.kept).2.others key (receiving nothing)

theorem rebalanced_of_mintTo (done : before.mintTo mint dest authority amount = .ok after) :
    Rebalanced before after := by
  obtain ⟨kind, account, amounts, supplies, minted, _, found, _, credited, added, rfl⟩ := mintTo_ok done
  refine ⟨⟨rfl, rfl, ?_, ?_, fun _ => .refl _⟩, rfl, rfl⟩
  · intro key nothing
    refine ⟨(Balances.credit_eq_some credited).2.others key ?_, rfl⟩
    rintro rfl
    rw [found] at nothing
    cases nothing
  · intro key nothing
    refine ⟨(Balances.credit_eq_some added).2.others key ?_, rfl⟩
    rintro rfl
    rw [minted] at nothing
    cases nothing

theorem Retired.rebalanced {account : TokenAccount Key} (retired : Retired before after mint source amount account) :
    Rebalanced before after := by
  have spent := retired.spent
  rw [retired.rest]
  refine ⟨⟨rfl, rfl, ?_, ?_, spent⟩, rfl, rfl⟩
  · intro key nothing
    refine ⟨(Balances.debit_eq_some retired.debited).2.others key ?_, rfl⟩
    rintro rfl
    rw [retired.held] at nothing
    cases nothing
  · intro key nothing
    refine ⟨(Balances.debit_eq_some retired.removed).2.others key ?_, rfl⟩
    rintro rfl
    exact retired.minted nothing

theorem rebalanced_of_burn (done : before.burn mint source authority amount = .ok after) : Rebalanced before after := by
  obtain ⟨kind, account, _, retired⟩ := burn_ok done
  exact retired.rebalanced

theorem rebalanced_of_incinerate (done : before.incinerate mint source amount = .ok after) : Rebalanced before after := by
  obtain ⟨account, retired⟩ := incinerate_ok done
  exact retired.rebalanced

/-- A credit of one account with fees that the mint or another account has kept. -/
theorem rebalanced_of_fees {account : TokenAccount Key} {amounts withheld harvested : Balances Key 64}
    (found : before.tokenAccounts dest = some account) (credited : before.amounts.credit dest amount = some amounts)
    (kept : ∀ key, before.tokenAccounts key = none → withheld key = before.withheld key)
    (unminted : ∀ key, before.mints key = none → harvested key = before.harvested key) :
    Rebalanced before { before with amounts, withheld, harvested } := by
  refine ⟨⟨rfl, rfl, ?_, fun key nothing => ⟨rfl, unminted key nothing⟩, fun _ => .refl _⟩, rfl, rfl⟩
  intro key nothing
  refine ⟨(Balances.credit_eq_some credited).2.others key ?_, kept key nothing⟩
  rintro rfl
  rw [found] at nothing
  cases nothing

/-- What was there is not what is not. -/
theorem cleared_elsewhere {Data : Type} {present : Key → Option Data} {held : Data} {balances : Balances Key 64}
    (found : present source = some held) (key : Key) (nothing : present key = none) :
    Function.update balances source 0 key = balances key := by
  refine Function.update_of_ne ?_ _ _
  rintro rfl
  rw [found] at nothing
  cases nothing

theorem rebalanced_of_harvestFees (done : before.harvestFees source mint = .ok after) : Rebalanced before after := by
  obtain ⟨kind, account, harvested, minted, _, held, _, credited, rfl⟩ := harvestFees_ok done
  refine ⟨⟨rfl, rfl, fun key nothing => ⟨rfl, cleared_elsewhere held key nothing⟩, ?_, fun _ => .refl _⟩, rfl, rfl⟩
  intro key nothing
  refine ⟨rfl, (Balances.credit_eq_some credited).2.others key ?_⟩
  rintro rfl
  rw [minted] at nothing
  cases nothing

theorem rebalanced_of_withdrawFees (done : before.withdrawFees mint dest = .ok after) : Rebalanced before after := by
  obtain ⟨kind, account, amounts, minted, _, found, _, credited, rfl⟩ := withdrawFees_ok done
  exact rebalanced_of_fees found credited (fun _ _ => rfl) (cleared_elsewhere minted)

theorem rebalanced_of_collectFees (done : before.collectFees source mint dest = .ok after) :
    Rebalanced before after := by
  obtain ⟨kind, paying, receiving, amounts, _, _, held, _, found, _, credited, rfl⟩ := collectFees_ok done
  exact rebalanced_of_fees found credited (cleared_elsewhere held) (fun _ _ => rfl)

/-! An operation that makes an account takes nothing from the others. -/

theorem extends_of_payRent (done : before.payRent payer key rent = .ok after) : Extends before after := by
  rcases payRent_ok done with rfl | paid
  · exact .refl _
  · obtain ⟨_, lamports, rfl, _⟩ := systemTransfer_ok paid
    exact ⟨rfl, rfl, rfl, rfl, rfl, fun found => found, fun found => found⟩

theorem extends_of_setPool (world : World Key) (key : Key) (pool : Pool Key) : Extends world (world.setPool key pool) :=
  ⟨rfl, rfl, rfl, rfl, rfl, fun found => found, fun found => found⟩

theorem extends_of_openAccount {account : TokenAccount Key} (done : before.openAccount key account = .ok after) :
    Extends before after := by
  obtain ⟨vacant, _, rfl⟩ := openAccount_ok done
  refine ⟨rfl, rfl, rfl, rfl, rfl, ?_, fun found => found⟩
  intro other held found
  have different : other ≠ key := by
    rintro rfl
    rw [vacant.2.2] at found
    cases found
  simp only [Function.update_of_ne different]
  exact found

theorem extends_of_openMint (done : before.openMint key kind = .ok after) : Extends before after := by
  obtain ⟨vacant, rfl⟩ := openMint_ok done
  refine ⟨rfl, rfl, rfl, rfl, rfl, fun found => found, ?_⟩
  intro other held found
  have different : other ≠ key := by
    rintro rfl
    rw [vacant.2.1] at found
    cases found
  simp only [Function.update_of_ne different]
  exact found

/-! An account's lamports while others pay. -/

theorem systemTransfer_grows (other : source ≠ key) (done : before.systemTransfer source dest amount = .ok after) :
    (before.lamports key).val ≤ (after.lamports key).val := by
  obtain ⟨_, lamports, rfl, moved⟩ := systemTransfer_ok done
  exact Balances.transfer_grows other.symm moved

theorem payRent_grows (other : payer ≠ key) (done : before.payRent payer dest rent = .ok after) :
    (before.lamports key).val ≤ (after.lamports key).val := by
  rcases payRent_ok done with rfl | paid
  · exact Nat.le_refl _
  · exact systemTransfer_grows other paid

/-- The rent minimum is there once it has been paid. -/
theorem payRent_pays (other : payer ≠ key) (done : before.payRent payer key rent = .ok after) :
    rent.val ≤ (after.lamports key).val := by
  unfold payRent at done
  simp only at done
  split at done
  · obtain ⟨_, lamports, rfl, moved⟩ := systemTransfer_ok done
    obtain ⟨_, gained, _⟩ := Balances.transfer_eq_some other moved
    rw [Word.saturatingSub_val] at gained
    simp only
    omega
  next enough =>
    cases done
    rw [Word.saturatingSub_val] at enough
    omega

end World
end DeepPool
