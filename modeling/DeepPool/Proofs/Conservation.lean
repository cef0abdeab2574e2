import DeepPool.Proofs.Embedding

/-! Nothing comes from nowhere. All lamports together stay the same, and of every mint
the accounts hold together, with what they withhold and what the mint has harvested, exactly
its supply. -/

namespace DeepPool
open Library

open Program (SampleKey sampleDerivation sampleWorld sampleWorld_orderly sampleRun sampleBusy)

variable {Key : Type} {derive : Derivation Key} {rents : Rents Key} {agrees : Key → Prop} {born : Option Key}
  {world before after : World Key} {key mint other : Key} {account : TokenAccount Key}

variable [DecidableEq Key]

/-- The accounts of one mint, under their own names. -/
def World.ofMint (world : World Key) (mint : Key) : Naming Key Key := fun key =>
  if (world.tokenAccounts key).any (fun account => account.mint = mint) = true then some key else none

/-- Everything that was minted is in some account, withheld by one or back at the mint. -/
def World.Counted (world : World Key) (mint : Key) : Prop :=
  ∃ free kept, (world.amounts.named (world.ofMint mint)).Totals free ∧
    (world.withheld.named (world.ofMint mint)).Totals kept ∧
    free + kept + (world.harvested mint).val = (world.supplies mint).val

theorem World.ofMint_some : world.ofMint mint key = some other ↔
    other = key ∧ ∃ account, world.tokenAccounts key = some account ∧ account.mint = mint := by
  unfold ofMint
  cases found : world.tokenAccounts key with
  | none => simp
  | some account => simp [eq_comm, and_comm]

theorem World.ofMint_unique : (world.ofMint mint).Unique := by
  intro first second key one two
  rw [← (World.ofMint_some.mp one).1, ← (World.ofMint_some.mp two).1]

theorem World.ofMint_self (found : world.tokenAccounts key = some account) (belongs : account.mint = mint) :
    world.ofMint mint key = some key := World.ofMint_some.mpr ⟨rfl, account, found, belongs⟩

theorem World.ofMint_unseen (found : world.tokenAccounts key = some account) (foreign : account.mint ≠ mint) :
    (world.ofMint mint).Unseen key := by
  intro name named
  obtain ⟨rfl, held, same, belongs⟩ := World.ofMint_some.mp named
  rw [found] at same
  cases same
  exact foreign belongs

theorem World.Counted.same (counted : before.Counted mint) (tokenAccounts : after.tokenAccounts = before.tokenAccounts)
    (amounts : after.amounts = before.amounts) (withheld : after.withheld = before.withheld)
    (supplies : after.supplies = before.supplies) (harvested : after.harvested = before.harvested) :
    after.Counted mint := by
  have ofMint : after.ofMint mint = before.ofMint mint := by
    unfold ofMint
    rw [tokenAccounts]
  unfold World.Counted
  rw [ofMint, amounts, withheld, supplies, harvested]
  exact counted

/-- An account may change or go as long as what it holds stays with the mint. -/
theorem World.Counted.accounts {accounts : Key → Option (TokenAccount Key)} (counted : before.Counted mint)
    (same : ∀ key, accounts key = before.tokenAccounts key ∨ before.amounts key = 0 ∧ before.withheld key = 0 ∨
      (accounts key).map TokenAccount.mint = (before.tokenAccounts key).map TokenAccount.mint) :
    World.Counted { before with tokenAccounts := accounts } mint := by
  have seen : ∀ balances : Balances Key 64,
      (∀ key, before.amounts key = 0 ∧ before.withheld key = 0 → balances key = 0) →
        balances.named (World.ofMint { before with tokenAccounts := accounts } mint) =
          balances.named (before.ofMint mint) := by
    intro balances empty
    apply Balances.named_congr
    intro key
    have hidden : ∀ {choice : Prop} [Decidable choice], before.amounts key = 0 ∧ before.withheld key = 0 → ∀ account,
        (if choice then some key else none) = some account → balances account = 0 := by
      intro choice _ nothing account found
      split at found
      · cases found
        exact empty _ nothing
      · cases found
    rcases same key with same | nothing | same
    · exact .inl (by simp only [World.ofMint, same])
    · exact .inr ⟨hidden nothing, hidden nothing⟩
    · refine .inl ?_
      cases first : accounts key <;> cases second : before.tokenAccounts key <;> simp_all [World.ofMint]
  obtain ⟨free, kept, amounts, withheld, sum⟩ := counted
  refine ⟨free, kept, ?_, ?_, sum⟩
  · rw [seen _ fun _ empty => empty.1]
    exact amounts
  · rw [seen _ fun _ empty => empty.2]
    exact withheld

/-- A fee is withheld where the rest arrives. -/
theorem World.Counted.transferred {source dest authority : Key} {amount : U64} {kind : Mint Key}
    {paying receiving : TokenAccount Key} (counted : before.Counted mint)
    (transferred : World.Transferred before after source other dest authority amount kind paying receiving) :
    after.Counted mint := by
  have ofMint : after.ofMint mint = before.ofMint mint := by
    unfold World.ofMint
    rw [transferred.rest]
  have supplies : after.supplies = before.supplies := by rw [transferred.rest]
  have harvested : after.harvested = before.harvested := by rw [transferred.rest]
  obtain ⟨free, kept, amounts, withheld, sum⟩ := counted
  unfold World.Counted
  rw [ofMint, supplies, harvested]
  by_cases same : other = mint
  · subst same
    have payer := World.ofMint_self transferred.paid.held transferred.paid.belongs
    have payee := World.ofMint_self transferred.received transferred.belongs
    obtain ⟨left, spent, arrived⟩ :=
      amounts.transfer (Balances.transfer_named World.ofMint_unique payer payee transferred.moved)
    have holds := withheld.credit (Balances.credit_named World.ofMint_unique payee transferred.kept)
    refine ⟨_, _, arrived, holds, ?_⟩
    have net : (kind.transferFee.net amount).val + (kind.transferFee.fee amount).val = amount.val := by
      rw [TransferFee.net, Word.saturatingSub_val]
      exact Nat.sub_add_cancel (kind.transferFee.le amount)
    omega
  · have noPayer := World.ofMint_unseen transferred.paid.held (transferred.paid.belongs ▸ same)
    have noPayee := World.ofMint_unseen transferred.received (transferred.belongs ▸ same)
    rw [Balances.transfer_unseen noPayer noPayee transferred.moved, Balances.credit_unseen noPayee transferred.kept]
    exact ⟨free, kept, amounts, withheld, sum⟩

theorem World.Counted.minted {dest authority : Key} {amount : U64} (counted : before.Counted mint)
    (done : before.mintTo other dest authority amount = .ok after) : after.Counted mint := by
  obtain ⟨kind, account, amounts, supplies, minted, _, found, belongs, credited, added, rfl⟩ := World.mintTo_ok done
  obtain ⟨gained, others⟩ := Balances.credit_eq_some added
  obtain ⟨free, kept, totals, withheld, sum⟩ := counted
  by_cases same : other = mint
  · subst same
    have seen := Balances.credit_named World.ofMint_unique (World.ofMint_self found belongs) credited
    exact ⟨_, kept, totals.credit seen, withheld, by simp only; omega⟩
  · have unseen := Balances.credit_unseen (World.ofMint_unseen found (belongs ▸ same)) credited
    have supply := congrArg Fin.val (others.others mint (Ne.symm same))
    exact ⟨free, kept, unseen ▸ totals, withheld, sum.trans supply.symm⟩

theorem World.Counted.retired {source : Key} {amount : U64} (counted : before.Counted mint)
    (retired : World.Retired before after other source amount account) : after.Counted mint := by
  have ofMint : after.ofMint mint = before.ofMint mint := by
    unfold World.ofMint
    rw [retired.rest]
  have keeps : after.withheld = before.withheld := by rw [retired.rest]
  have harvested : after.harvested = before.harvested := by rw [retired.rest]
  obtain ⟨lost, others⟩ := Balances.debit_eq_some retired.removed
  obtain ⟨free, kept, totals, withheld, sum⟩ := counted
  unfold World.Counted
  rw [ofMint, keeps, harvested]
  by_cases same : other = mint
  · subst same
    have seen := Balances.debit_named World.ofMint_unique (World.ofMint_self retired.held retired.belongs) retired.debited
    obtain ⟨left, spent, remain⟩ := totals.debit seen
    exact ⟨left, kept, remain, withheld, by omega⟩
  · have unseen := Balances.debit_unseen (World.ofMint_unseen retired.held (retired.belongs ▸ same)) retired.debited
    have supply := congrArg Fin.val (others.others mint (Ne.symm same))
    exact ⟨free, kept, unseen ▸ totals, withheld, sum.trans supply.symm⟩

/-- A balance that goes as a whole. -/
theorem Balances.debit_all (balances : Balances Key 64) (source : Key) :
    balances.debit source (balances source) = some (Function.update balances source 0) := by
  have nothing : (balances source).checkedSub (balances source) = some 0 := by
    rw [Word.checkedSub_eq_some]
    exact Nat.zero_add _
  rw [Balances.debit, nothing, Option.map_some]

theorem World.Counted.harvested {source : Key} (counted : before.Counted mint)
    (done : before.harvestFees source other = .ok after) : after.Counted mint := by
  obtain ⟨kind, account, harvested, _, _, held, ours, credited, rfl⟩ := World.harvestFees_ok done
  obtain ⟨gained, others⟩ := Balances.credit_eq_some credited
  obtain ⟨free, kept, totals, withheld, sum⟩ := counted
  have cleared := Balances.debit_all before.withheld source
  by_cases same : other = mint
  · subst same
    obtain ⟨left, spent, remain⟩ :=
      withheld.debit (Balances.debit_named World.ofMint_unique (World.ofMint_self held ours) cleared)
    exact ⟨free, left, totals, remain, by simp only; omega⟩
  · have still := Balances.debit_unseen (World.ofMint_unseen held (ours ▸ same)) cleared
    have elsewhere := congrArg Fin.val (others.others mint (Ne.symm same))
    exact ⟨free, kept, totals, still ▸ withheld, by simp only; omega⟩

theorem World.Counted.withdrawn {dest : Key} (counted : before.Counted mint)
    (done : before.withdrawFees other dest = .ok after) : after.Counted mint := by
  obtain ⟨kind, account, amounts, _, _, found, theirs, credited, rfl⟩ := World.withdrawFees_ok done
  obtain ⟨free, kept, totals, withheld, sum⟩ := counted
  by_cases same : other = mint
  · subst same
    have seen := Balances.credit_named World.ofMint_unique (World.ofMint_self found theirs) credited
    have cleared : (Function.update before.harvested other 0 other).val = 0 := by
      rw [Function.update_self]
      rfl
    exact ⟨_, kept, totals.credit seen, withheld, by simp only; omega⟩
  · have unseen := Balances.credit_unseen (World.ofMint_unseen found (theirs ▸ same)) credited
    refine ⟨free, kept, unseen ▸ totals, withheld, ?_⟩
    simp only [Function.update_of_ne (Ne.symm same)]
    exact sum

/-- What is collected was withheld. -/
theorem World.Counted.collected {source dest : Key} (counted : before.Counted mint)
    (done : before.collectFees source other dest = .ok after) : after.Counted mint := by
  obtain ⟨kind, paying, receiving, amounts, _, _, held, ours, found, theirs, credited, rfl⟩ := World.collectFees_ok done
  have cleared := Balances.debit_all before.withheld source
  obtain ⟨free, kept, totals, withheld, sum⟩ := counted
  by_cases same : other = mint
  · subst same
    have seen := Balances.credit_named World.ofMint_unique (World.ofMint_self found theirs) credited
    have gone := Balances.debit_named World.ofMint_unique (World.ofMint_self held ours) cleared
    obtain ⟨left, spent, remain⟩ := withheld.debit gone
    exact ⟨_, left, totals.credit seen, remain, by simp only; omega⟩
  · have unseen := Balances.credit_unseen (World.ofMint_unseen found (theirs ▸ same)) credited
    have still := Balances.debit_unseen (World.ofMint_unseen held (ours ▸ same)) cleared
    exact ⟨free, kept, unseen ▸ totals, still ▸ withheld, sum⟩

theorem World.Counted.move (orderly : Program.Orderly derive before) (move : Move derive agrees born before after)
    (counted : before.Counted mint) : after.Counted mint := by
  cases move with
  | lamports agreed moved => exact counted.same rfl rfl rfl rfl rfl
  | tokens agreed done =>
    rcases World.transferChecked_ok done with ⟨_, rfl⟩ | ⟨kind, paying, receiving, transferred⟩
    · exact counted
    · exact counted.transferred transferred
  | minted agreed done => exact counted.minted done
  | burned agreed done =>
    obtain ⟨_, _, _, retired⟩ := World.burn_ok done
    exact counted.retired retired
  | incinerated found nobody done =>
    obtain ⟨_, retired⟩ := World.incinerate_ok done
    exact counted.retired retired
  | harvested done => exact counted.harvested done
  | withdrawn done => exact counted.withdrawn done
  | collected done => exact counted.collected done
  | opened proper done =>
    obtain ⟨vacant, _, rfl⟩ := World.openAccount_ok done
    refine counted.accounts fun key => ?_
    by_cases same : before.tokenAccounts key = none
    · obtain ⟨amount, withheld, _⟩ := orderly.absent same
      exact .inr (.inl ⟨amount, withheld⟩)
    · refine .inl (Function.update_of_ne ?_ _ _)
      rintro rfl
      exact same vacant.2.2
  | @assigned assigned owner account agreed signs found free =>
    refine counted.accounts fun key => ?_
    by_cases same : key = assigned
    · subst same
      refine .inr (.inr ?_)
      rw [Function.update_self, found]
      rfl
    · exact .inl (Function.update_of_ne same _ _)
  | @closed closed account found allowed empty =>
    refine counted.accounts fun key => ?_
    by_cases same : key = closed
    · exact .inr (.inl (same ▸ empty))
    · exact .inl (Function.update_of_ne same _ _)
  | openedMint done =>
    obtain ⟨_, rfl⟩ := World.openMint_ok done
    exact counted.same rfl rfl rfl rfl rfl
  | granted found regrant => exact counted.same rfl rfl rfl rfl rfl
  | configured signs found reconfigures => exact counted.same rfl rfl rfl rfl rfl
  | observed agreed present same => exact counted.same rfl rfl rfl rfl rfl
  | founded pool new => exact counted.same rfl rfl rfl rfl rfl
  | advanced later => exact counted.same rfl rfl rfl rfl rfl

theorem World.Counted.moves (counted : before.Counted mint) (orderly : Program.Orderly derive before)
    (moves : Moves derive agrees born before after) : after.Counted mint := by
  induction moves with
  | refl => exact counted
  | tail earlier move ih => exact ih.move ((Later.moves earlier).orderly orderly) move

/-- Every operation that changes lamports is a transfer of them. -/
theorem totals_move {total : Nat} (totals : before.lamports.Totals total)
    (move : Move derive agrees born before after) : after.lamports.Totals total := by
  cases move with
  | lamports agreed moved =>
    obtain ⟨left, spent, arrived⟩ := totals.transfer moved
    rw [← spent]
    exact arrived
  | tokens agreed done =>
    rcases World.transferChecked_ok done with ⟨_, rfl⟩ | ⟨kind, paying, receiving, transferred⟩
    · exact totals
    · rw [transferred.rest]
      exact totals
  | minted agreed done =>
    obtain ⟨_, _, _, _, _, _, _, _, _, _, rfl⟩ := World.mintTo_ok done
    exact totals
  | burned agreed done =>
    obtain ⟨_, _, _, retired⟩ := World.burn_ok done
    rw [retired.rest]
    exact totals
  | incinerated found nobody done =>
    obtain ⟨_, retired⟩ := World.incinerate_ok done
    rw [retired.rest]
    exact totals
  | harvested done =>
    obtain ⟨_, _, _, _, _, _, _, _, rfl⟩ := World.harvestFees_ok done
    exact totals
  | withdrawn done =>
    obtain ⟨_, _, _, _, _, _, _, _, rfl⟩ := World.withdrawFees_ok done
    exact totals
  | collected done =>
    obtain ⟨_, _, _, _, _, _, _, _, _, _, _, rfl⟩ := World.collectFees_ok done
    exact totals
  | opened proper done =>
    obtain ⟨_, _, rfl⟩ := World.openAccount_ok done
    exact totals
  | openedMint done =>
    obtain ⟨_, rfl⟩ := World.openMint_ok done
    exact totals
  | _ => exact totals

/-- A mint that does not exist has no accounts. -/
theorem World.Counted.of_absent (orderly : Program.Orderly derive world) (nothing : world.mints mint = none) :
    world.Counted mint := by
  have unnamed : ∀ name, world.ofMint mint name = none := by
    intro name
    rw [Option.eq_none_iff_forall_ne_some]
    intro key named
    obtain ⟨rfl, account, found, rfl⟩ := World.ofMint_some.mp named
    exact orderly.minted found nothing
  have vanishes : ∀ balances : Balances Key 64, balances.named (world.ofMint mint) = fun _ => 0 :=
    fun _ => funext fun name => Balances.named_none (unnamed name)
  refine ⟨0, 0, ?_, ?_, ?_⟩
  · rw [vanishes]
    exact .empty
  · rw [vanishes]
    exact .empty
  · rw [(orderly.unminted nothing).1, (orderly.unminted nothing).2]
    rfl

theorem totals_run {total : Nat} {trace : Program.Trace Key} (totals : before.lamports.Totals total)
    (runs : Run (Program.step derive rents) before trace after) : after.lamports.Totals total :=
  run_invariant (fun world => world.lamports.Totals total) (fun _ _ _ _ move now => totals_move now move) runs totals

theorem World.Counted.run {trace : Program.Trace Key} (counted : before.Counted mint)
    (orderly : Program.Orderly derive before) (runs : Run (Program.step derive rents) before trace after) :
    after.Counted mint := by
  refine (run_invariant (fun world => Program.Orderly derive world ∧ world.Counted mint) ?_ runs ⟨orderly, counted⟩).2
  rintro _ _ _ _ move ⟨orderly, counted⟩
  exact ⟨(Later.move move).orderly orderly, counted.move orderly move⟩

/-- Over any run, whoever takes part and whatever pools are made. -/
theorem value_conserved {trace : Program.Trace Key} (orderly : Program.Orderly derive before)
    (runs : Run (Program.step derive rents) before trace after) :
    (∀ total, before.lamports.Totals total → after.lamports.Totals total) ∧
      ∀ mint, before.Counted mint ∨ before.mints mint = none → after.Counted mint := by
  constructor
  · intro total totals
    exact totals_run totals runs
  · intro mint start
    have counted : before.Counted mint := start.elim id fun nothing => .of_absent orderly nothing
    exact counted.run orderly runs

theorem sampleWorld_totals : sampleWorld.lamports.Totals 2000000000000 := by
  refine ⟨{.wallet 0, .wallet 1}, ?_, by decide +kernel⟩
  intro key outside
  simp only [Finset.mem_insert, Finset.mem_singleton] at outside
  simp [sampleWorld, outside]

theorem sampleWorld_counted : sampleWorld.Counted (.wallet 2) := by
  refine ⟨2000000000000, 0, ⟨{.associated .token2022 (.wallet 0) (.wallet 2),
    .associated .token2022 (.wallet 1) (.wallet 2)}, ?_, by decide +kernel⟩, ⟨∅, ?_, rfl⟩, rfl⟩
  · intro key outside
    simp only [Finset.mem_insert, Finset.mem_singleton, not_or] at outside
    have nothing : sampleWorld.ofMint (.wallet 2) key = none := by
      simp [World.ofMint, sampleWorld, outside]
    rw [Balances.named_none nothing]
    rfl
  · intro key _
    unfold Balances.named
    cases sampleWorld.ofMint (.wallet 2) key <;> rfl

/-- Two pools are made and used; the two wallets' lamports go to the pools and to rent, and
the tokens of both LP mints are all held. -/
theorem value_conserved_busy : ∃ after : World SampleKey, after.pools (Program.samplePool 4) ≠ none ∧
    after.lamports.Totals 2000000000000 ∧ after.Counted (.wallet 2) ∧ after.Counted (.lpMint (Program.samplePool 3)) := by
  have runs : accepts (sampleRun sampleBusy) (fun result => (result.1.pools (Program.samplePool 4)).isSome) = true := by
    decide +kernel
  obtain ⟨⟨after, trace⟩, done, made⟩ := accepts_iff.mp runs
  obtain ⟨lamports, counted⟩ := value_conserved sampleWorld_orderly (execute_run done)
  exact ⟨after, Option.isSome_iff_ne_none.mp made, lamports _ sampleWorld_totals,
    counted _ (.inl sampleWorld_counted), counted _ (.inr rfl)⟩

end DeepPool
