import DeepPool.Proofs.System

/-! The lock keeps pace with the supply. The floored rate of a deposit is backed by a
minimum of one unit, so splitting deposits into dust locks more, not less. -/

namespace DeepPool
open Library

variable {Key : Type} {rent : U64} {before after born chain : Chain Key} {action : Action Key}
  {output : Option (DeepPoolEvent Key)} {trace : Trace Key}

/-- At most twenty-five parts in twenty-six of the supply can be redeemed. -/
def Chain.Anchored (chain : Chain Key) : Prop := chain.lp.supply.val ≤ 26 * chain.locked.val

/-- The worst deposit mints twenty-six units and locks one of them. -/
theorem Deposited.locks {transferFee : TransferFee} {provider : Key} {args : AddLiquidityArgs}
    {event : LiquidityAdded Key} (deposited : Deposited rent transferFee provider args before after event) :
    2 ≤ event.lpToProvider.val + event.lpLocked.val ∧ 1 ≤ event.lpLocked.val ∧
      event.lpToProvider.val + event.lpLocked.val ≤ 26 * event.lpLocked.val := by
  have share := deposited.lpLocked
  have credited := deposited.lpCredited
  refine ⟨?_, ?_, ?_⟩ <;> omega

theorem Created.anchored {transferFee : TransferFee} {accounts : CreatePoolAccounts Key} {args : CreatePoolArgs}
    {ground : Ground Key} {event : PoolCreated Key}
    (created : Created rent transferFee accounts args ground born event) : born.Anchored := by
  have large := created.supply_large
  have share := created.lock
  unfold Chain.Anchored
  rw [created.locked]
  omega

theorem Stepped.anchored (stepped : Stepped rent before after action output) (anchored : before.Anchored) :
    after.Anchored := by
  unfold Chain.Anchored at anchored ⊢
  cases stepped with
  | swap traded =>
    rw [Chain.locked, traded.lp]
    exact anchored
  | addLiquidity deposited =>
    obtain ⟨_, _, share⟩ := deposited.locks
    rw [deposited.minted, deposited.lock]
    omega
  | removeLiquidity withdrawn =>
    have burned := withdrawn.burned
    have kept : after.locked = before.locked := withdrawn.others .pool (by simp)
    rw [kept]
    omega
  | burnLp same burned kept balanced =>
    subst same
    simp only [Chain.locked, kept] at anchored ⊢
    omega
  | transferLp same supply kept balanced =>
    subst same
    simp only [Chain.locked, supply] at anchored kept ⊢
    omega
  | donateSol same gained =>
    subst same
    exact anchored
  | donateTokens same gained =>
    subst same
    exact anchored
  | outside same sol kept =>
    subst same
    exact anchored
  | advance same later =>
    subst same
    exact anchored

variable [DecidableEq Key]

theorem Reachable.anchored (reachable : Reachable rent chain) : chain.Anchored := by
  obtain ⟨_, _, _, _, _, born, _, creates, _, runs⟩ := reachable
  exact runs.invariant Chain.Anchored (fun _ _ _ _ _ kept accepted => (step_ok accepted).anchored kept)
    (createPool_ok creates).anchored

/-- However deposits are sized or split, a fixed share of the supply stays with the
pool, and every deposit adds to both. -/
theorem fixed_share_locked (reachable : Reachable rent chain) :
    chain.lp.supply.val ≤ 26 * chain.locked.val ∧
      26 * (chain.lp.supply.val - chain.locked.val) ≤ 25 * chain.lp.supply.val ∧
      ∀ (transferFee : TransferFee) (provider : Key) (args : AddLiquidityArgs) (after : Chain Key)
        (event : LiquidityAdded Key), addLiquidity rent transferFee provider args chain = .ok (after, event) →
        chain.lp.supply.val + 2 ≤ after.lp.supply.val ∧ chain.locked.val + 1 ≤ after.locked.val := by
  have anchored := reachable.anchored
  unfold Chain.Anchored at anchored
  refine ⟨anchored, by omega, ?_⟩
  intro transferFee provider args after event done
  have deposited := addLiquidity_ok done
  obtain ⟨minted, locked, _⟩ := deposited.locks
  constructor
  · rw [deposited.minted]
    omega
  · rw [deposited.lock]
    omega

theorem fixed_share_locked_sample : ∃ chain : Chain ℕ, chain.lp.supply.val = 158112885 ∧
    chain.lp.supply.val ≤ 26 * chain.locked.val := by
  have found : accepts (sampleHistory .none ⟨5000000, 5000000000⟩
      [.addLiquidity .none 9 ⟨1, 1000000000, 0⟩, .burnLp 0 29])
      (fun result => result.1.lp.supply.val = 158112885) = true := by decide +kernel
  obtain ⟨⟨chain, trace⟩, done, supply⟩ := accepts_iff.mp found
  exact ⟨chain, of_decide_eq_true supply, (fixed_share_locked (sampleHistory_reachable done)).1⟩

end DeepPool
