import DeepPool.Proofs.Embedding

/-! Nobody loses anything they did not agree to. A party that signs nothing keeps its
lamports and, of every mint without a delegate, its tokens and LP tokens where it has approved
nobody, whatever all the others do with any number of pools. -/

namespace DeepPool
open Library

open Program (SampleKey sampleDerivation sampleRents sampleCreate sampleSwap sampleRun sampleRun_reachable)

variable {Key : Type} {derive : Derivation Key} {rents : Rents Key} {agrees : Key → Prop} {born : Option Key}
  {world before middle after : World Key} {owner key : Key}

/-- An account that its owner alone can spend from. -/
structure Guarded (world : World Key) (owner key : Key) (account : TokenAccount Key) : Prop where
  held : world.tokenAccounts key = some account
  owned : account.owner = owner
  unapproved : (world.standing key).delegate = none
  minted : ∃ kind, world.mints account.mint = some kind ∧ kind.data.delegated = false

structure Spares (owner : Key) (before after : World Key) : Prop where
  lamports : (before.lamports owner).val ≤ (after.lamports owner).val
  /-- An account that holds nothing may be closed. -/
  tokens : ∀ {key account}, Guarded before owner key account → 0 < (before.amounts key).val →
    Guarded after owner key account ∧ (before.amounts key).val ≤ (after.amounts key).val

theorem Spares.refl (world : World Key) : Spares owner world world :=
  ⟨Nat.le_refl _, fun guarded _ => ⟨guarded, Nat.le_refl _⟩⟩

theorem Spares.trans (first : Spares owner before middle) (second : Spares owner middle after) :
    Spares owner before after := by
  refine ⟨first.lamports.trans second.lamports, ?_⟩
  intro key account guarded some
  obtain ⟨still, grows⟩ := first.tokens guarded some
  obtain ⟨last, more⟩ := second.tokens still (by omega)
  exact ⟨last, grows.trans more⟩

theorem Guarded.same {account : TokenAccount Key} (guarded : Guarded before owner key account)
    (same : SameAccounts before after) : Guarded after owner key account := by
  refine ⟨?_, guarded.owned, (same.standing key).undelegated guarded.unapproved, ?_⟩
  · rw [same.tokenAccounts]
    exact guarded.held
  · rw [same.mints]
    exact guarded.minted

/-- Whoever spends from a guarded account is its owner. -/
theorem Guarded.spender {source mint authority : Key} {kind : Mint Key} {account paying : TokenAccount Key}
    (guarded : Guarded world owner key account) (spendable : World.Spendable world source mint authority kind paying)
    (other : authority ≠ owner) : key ≠ source := by
  rintro rfl
  have held := spendable.held
  rw [guarded.held] at held
  cases held
  obtain ⟨ours, minted, undelegated⟩ := guarded.minted
  rw [spendable.belongs, spendable.minted] at minted
  cases minted
  rcases spendable.agreed with same | delegated | ⟨given, approved, _⟩
  · exact other (same.symm.trans guarded.owned)
  · rw [undelegated] at delegated
    cases delegated
  · rw [guarded.unapproved] at approved
    cases approved

theorem Guarded.extends {account : TokenAccount Key} (guarded : Guarded before owner key account)
    (extended : Extends before after) : Guarded after owner key account := by
  obtain ⟨kind, minted, undelegated⟩ := guarded.minted
  refine ⟨extended.accounts guarded.held, guarded.owned, ?_, kind, extended.mints minted, undelegated⟩
  rw [extended.standing]
  exact guarded.unapproved

theorem Guarded.apart {other : Key} {account held : TokenAccount Key} (guarded : Guarded world owner key account)
    (found : world.tokenAccounts other = some held) (foreign : held.owner ≠ owner) : key ≠ other := by
  rintro rfl
  have ours := guarded.held
  rw [found] at ours
  cases ours
  exact foreign guarded.owned

variable [DecidableEq Key]

/-- What is done to another account. -/
theorem Guarded.elsewhere {other : Key} {account : TokenAccount Key} {replaced : Option (TokenAccount Key)}
    {standing : Standing Key} (guarded : Guarded before owner key account) (different : key ≠ other) :
    Guarded { before.setStanding other standing with tokenAccounts := Function.update before.tokenAccounts other replaced }
      owner key account :=
  ⟨(Function.update_of_ne different _ _).trans guarded.held, guarded.owned,
    (congrArg Standing.delegate (Function.update_of_ne different _ _)).trans guarded.unapproved, guarded.minted⟩

theorem Spares.move (signs : derive.signs owner = true) (others : ¬ agrees owner)
    (move : Move derive agrees born before after) :
    Spares owner before after := by
  have apart : ∀ {party}, agrees party → party ≠ owner := by
    rintro party agreed rfl
    exact others agreed
  cases move with
  | lamports agreed moved =>
    refine ⟨Balances.transfer_grows (apart agreed).symm moved, fun guarded _ => ⟨?_, Nat.le_refl _⟩⟩
    exact guarded.same (Rebalanced.of_lamports _).toSameAccounts
  | tokens agreed done =>
    have same := (World.rebalanced_of_transferChecked done).toSameAccounts
    rcases World.transferChecked_ok done with ⟨_, rfl⟩ | ⟨kind, paying, receiving, transferred⟩
    · exact .refl _
    · refine ⟨by rw [transferred.rest], fun guarded _ => ⟨guarded.same same, ?_⟩⟩
      exact Balances.transfer_grows (guarded.spender transferred.paid (apart agreed)) transferred.moved
  | minted agreed done =>
    have same := (World.rebalanced_of_mintTo done).toSameAccounts
    obtain ⟨kind, account, amounts, supplies, _, _, _, _, credited, _, rfl⟩ := World.mintTo_ok done
    exact ⟨Nat.le_refl _, fun guarded _ => ⟨guarded.same same, Balances.credit_grows credited⟩⟩
  | burned agreed done =>
    have same := (World.rebalanced_of_burn done).toSameAccounts
    obtain ⟨kind, account, spendable, retired⟩ := World.burn_ok done
    refine ⟨by rw [retired.rest], fun guarded _ => ⟨guarded.same same, ?_⟩⟩
    have kept := (Balances.debit_eq_some retired.debited).2.others _ (guarded.spender spendable (apart agreed))
    exact Nat.le_of_eq (congrArg Fin.val kept).symm
  | @incinerated _ mint source amount account found nobody done =>
    have same := (World.rebalanced_of_incinerate done).toSameAccounts
    obtain ⟨held, retired⟩ := World.incinerate_ok done
    have foreign : account.owner ≠ owner := by
      rintro rfl
      rw [derive.incinerates_silent nobody] at signs
      cases signs
    refine ⟨by rw [retired.rest], fun guarded _ => ⟨guarded.same same, ?_⟩⟩
    have kept := (Balances.debit_eq_some retired.debited).2.others _ (guarded.apart found foreign)
    exact Nat.le_of_eq (congrArg Fin.val kept).symm
  | harvested done =>
    have same := (World.rebalanced_of_harvestFees done).toSameAccounts
    obtain ⟨_, _, _, _, _, _, _, _, rfl⟩ := World.harvestFees_ok done
    exact ⟨Nat.le_refl _, fun guarded _ => ⟨guarded.same same, Nat.le_refl _⟩⟩
  | withdrawn done =>
    have same := (World.rebalanced_of_withdrawFees done).toSameAccounts
    obtain ⟨_, _, _, _, _, _, _, credited, rfl⟩ := World.withdrawFees_ok done
    exact ⟨Nat.le_refl _, fun guarded _ => ⟨guarded.same same, Balances.credit_grows credited⟩⟩
  | collected done =>
    have same := (World.rebalanced_of_collectFees done).toSameAccounts
    obtain ⟨kind, paying, receiving, amounts, _, _, _, _, _, _, credited, rfl⟩ := World.collectFees_ok done
    exact ⟨Nat.le_refl _, fun guarded _ => ⟨guarded.same same, Balances.credit_grows credited⟩⟩
  | opened proper done =>
    have extended := World.extends_of_openAccount done
    refine ⟨?_, fun guarded _ => ⟨guarded.extends extended, by rw [extended.amounts]⟩⟩
    obtain ⟨_, _, rfl⟩ := World.openAccount_ok done
    exact Nat.le_refl _
  | assigned agreed signs found free =>
    exact ⟨Nat.le_refl _, fun guarded _ => ⟨guarded.elsewhere (guarded.apart found (apart agreed)), Nat.le_refl _⟩⟩
  | @closed closed _ found allowed empty =>
    refine ⟨Nat.le_refl _, fun {key account} guarded some => ⟨guarded.elsewhere ?_, Nat.le_refl _⟩⟩
    rintro rfl
    rw [empty.1] at some
    exact absurd some (Nat.lt_irrefl 0)
  | @granted other account standing found regrant =>
    refine ⟨Nat.le_refl _, fun {key held} guarded _ =>
      ⟨⟨guarded.held, guarded.owned, ?_, guarded.minted⟩, Nat.le_refl _⟩⟩
    by_cases same : key = other
    · subst same
      obtain rfl := Option.some.inj (found.symm.trans guarded.held)
      simp only [World.setStanding, Function.update_self]
      cases regrant with
      | approved agreed signs approval => exact absurd guarded.owned (apart agreed)
      | revoked => rfl
      | entrusted signs next => exact guarded.unapproved
      | frozen minted freezes frozen => exact guarded.unapproved
    · exact (congrArg Standing.delegate (Function.update_of_ne same _ _)).trans guarded.unapproved
  | openedMint done =>
    have extended := World.extends_of_openMint done
    refine ⟨?_, fun guarded _ => ⟨guarded.extends extended, by rw [extended.amounts]⟩⟩
    obtain ⟨_, rfl⟩ := World.openMint_ok done
    exact Nat.le_refl _
  | @configured mint authority kind next signs found reconfigures =>
    refine ⟨Nat.le_refl _, fun {key account} guarded _ =>
      ⟨⟨guarded.held, guarded.owned, guarded.unapproved, ?_⟩, Nat.le_refl _⟩⟩
    obtain ⟨held, minted, undelegated⟩ := guarded.minted
    by_cases same : account.mint = mint
    · rw [same, found] at minted
      cases minted
      refine ⟨next, ?_, reconfigures.kept.1 ▸ undelegated⟩
      rw [same]
      exact Function.update_self _ _ _
    · exact ⟨held, (Function.update_of_ne same _ _).trans minted, undelegated⟩
  | observed agreed present same =>
    exact ⟨Nat.le_refl _, fun guarded _ => ⟨guarded.same (World.same_of_setPool _ _ _), Nat.le_refl _⟩⟩
  | founded pool new =>
    exact ⟨Nat.le_refl _, fun guarded _ => ⟨guarded.same (World.same_of_setPool _ _ _), Nat.le_refl _⟩⟩
  | advanced later =>
    exact ⟨Nat.le_refl _, fun guarded _ => ⟨guarded.same (.of_rfl rfl rfl rfl rfl rfl rfl rfl), Nat.le_refl _⟩⟩

theorem Spares.moves (signs : derive.signs owner = true) (others : ¬ agrees owner)
    (moves : Moves derive agrees born before after) :
    Spares owner before after := by
  induction moves with
  | refl => exact .refl _
  | tail _ move ih => exact ih.trans (.move signs others move)

/-- No pool has a private key. -/
theorem step_named {action : Program.Action Key} {output : Option (DeepPoolEvent Key)} (sound : Sound derive before)
    (done : Program.step derive rents before action = .ok (after, output)) (named : action.pool = some key) :
    derive.signs key = false := by
  have silent : ∀ {pool}, before.pools key = some pool → derive.signs key = false :=
    fun present => (sound.established present).settled.silent
  cases action with
  | createPool accounts args =>
    obtain ⟨⟨bump, mint, made⟩, valid, _⟩ := bind_ok.mp done
    obtain ⟨_, _, _, _, _, _, valid⟩ := Program.CreatePool.validate_ok valid
    cases named
    exact derive.programAddress_silent (derive.found valid.address)
  | swap accounts args =>
    obtain ⟨loaded, valid, _⟩ := bind_ok.mp done
    cases named
    exact silent (Program.Swap.validate_ok valid).present
  | addLiquidity accounts args =>
    obtain ⟨⟨loaded, made⟩, valid, _⟩ := bind_ok.mp done
    cases named
    exact silent (Program.AddLiquidity.validate_ok valid).present
  | removeLiquidity accounts args =>
    obtain ⟨loaded, valid, _⟩ := bind_ok.mp done
    cases named
    exact silent (Program.RemoveLiquidity.validate_ok valid).present
  | _ => cases named

theorem Spares.run {trace : Program.Trace Key} (sound : Sound derive before)
    (runs : Run (Program.step derive rents) before trace after) (signs : derive.signs owner = true)
    (silent : ∀ entry ∈ trace, owner ∉ entry.1.signers) : Spares owner before after := by
  refine Run.related (Sound derive) (Spares owner) runs ?_ (fun _ _ => .refl _)
    (fun _ _ _ first second => first.trans second) sound
  intro state action next output member sound accepted
  refine ⟨sound.step accepted, Spares.moves signs ?_ (step_moves accepted).1⟩
  rintro (signer | named)
  · exact silent _ member signer
  · rw [step_named sound accepted named] at signs
    cases signs

/-- A party that agrees to nothing has in the end what it had, and what it was given. -/
theorem bystander_keeps {trace : Program.Trace Key} (reachable : Program.Reachable derive rents before)
    (runs : Run (Program.step derive rents) before trace after) (signs : derive.signs owner = true)
    (silent : ∀ entry ∈ trace, owner ∉ entry.1.signers) :
    (before.lamports owner).val ≤ (after.lamports owner).val ∧
      ∀ key account kind, before.tokenAccounts key = some account → account.owner = owner →
        (before.standing key).delegate = none → before.mints account.mint = some kind → kind.data.delegated = false →
          (before.amounts key).val ≤ (after.amounts key).val := by
  have spares := Spares.run reachable.sound runs signs silent
  refine ⟨spares.lamports, ?_⟩
  intro key account kind held owned unapproved minted undelegated
  by_cases empty : (before.amounts key).val = 0
  · rw [empty]
    exact Nat.zero_le _
  · exact (spares.tokens ⟨held, owned, unapproved, kind, minted, undelegated⟩ (Nat.pos_of_ne_zero empty)).2

/-- The second wallet while the first one makes a pool and buys from another. -/
theorem bystander_keeps_second : ∃ before after : World SampleKey, ∃ trace : Program.Trace SampleKey, trace.length = 2 ∧
    (before.lamports (.wallet 1)).val ≤ (after.lamports (.wallet 1)).val ∧
      0 < (before.amounts (.associated .token2022 (.wallet 1) (.wallet 2))).val ∧
      (before.amounts (.associated .token2022 (.wallet 1) (.wallet 2))).val ≤
        (after.amounts (.associated .token2022 (.wallet 1) (.wallet 2))).val := by
  have runs : accepts (sampleRun [sampleCreate 3]) (fun result =>
      result.1.tokenAccounts (.associated .token2022 (.wallet 1) (.wallet 2)) = some ⟨.wallet 2, .wallet 1⟩ &&
      ((result.1.standing (.associated .token2022 (.wallet 1) (.wallet 2))).delegate = none &&
        (result.1.mints (.wallet 2)).any fun kind => !kind.data.delegated) &&
      decide (0 < (result.1.amounts (.associated .token2022 (.wallet 1) (.wallet 2))).val) &&
      accepts (execute (Program.step sampleDerivation sampleRents) result.1
        [sampleCreate 4, sampleSwap 3 0 ⟨1000000, 0, true⟩])
        fun last => last.2.length = 2 && last.2.all fun entry => decide (.wallet 1 ∉ entry.1.signers)) = true := by
    decide +kernel
  obtain ⟨⟨before, earlier⟩, started, holds⟩ := accepts_iff.mp runs
  simp only [Bool.and_eq_true, decide_eq_true_eq, Option.any_eq_true, Bool.not_eq_true'] at holds
  obtain ⟨⟨⟨held, unapproved, kind, minted, undelegated⟩, some⟩, goes⟩ := holds
  obtain ⟨⟨after, trace⟩, done, whole⟩ := accepts_iff.mp goes
  simp only [Bool.and_eq_true, decide_eq_true_eq, List.all_eq_true] at whole
  obtain ⟨lamports, tokens⟩ := bystander_keeps (sampleRun_reachable started) (execute_run done) rfl whole.2
  exact ⟨before, after, trace, whole.1, lamports, some, tokens _ _ kind held rfl unapproved minted undelegated⟩

end DeepPool
