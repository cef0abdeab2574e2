import DeepPool.Proofs.System

/-! The floor a depositor sets on the LP received. The program compares it with what is minted,
before the lock takes its part. -/

namespace DeepPool
open Library

variable {Key : Type} {rent : U64} {transferFee : TransferFee} {provider : Key} {args : AddLiquidityArgs}
  {before after : Chain Key} {event : LiquidityAdded Key}

/-- The LP that a deposit of these tokens mints, the lock included. -/
def Chain.mints (transferFee : TransferFee) (args : AddLiquidityArgs) (chain : Chain Key) : ℕ :=
  chain.lp.supply.val * (transferFee.net args.tokenAmount).val / chain.tokenReserve.val

/-- The lock takes 7.5% floored, and at least one unit. -/
private theorem unlocked_ge {least minted locked : ℕ} (share : locked = max (minted * 750 / 10000) 1) :
    least + locked ≤ minted ↔ least < minted ∧ 10000 * least < 9250 * minted + 10000 := by
  omega

theorem Deposited.mints (deposited : Deposited rent transferFee provider args before after event) :
    event.lpToProvider.val + event.lpLocked.val = before.mints transferFee args := by
  rw [deposited.lpAmount, deposited.net]
  rfl

variable [DecidableEq Key]

/-- Of a deposit that was accepted: when the provider received the LP asked for. -/
theorem min_lp_out_honoured (done : addLiquidity rent transferFee provider args before = .ok (after, event)) :
    (after.lp.balance (.wallet provider)).val = (before.lp.balance (.wallet provider)).val + event.lpToProvider.val ∧
    (args.minLpOut.val ≤ event.lpToProvider.val ↔
      args.minLpOut.val < before.mints transferFee args ∧
        10000 * args.minLpOut.val < 9250 * before.mints transferFee args + 10000) := by
  have deposited := addLiquidity_ok done
  have whole := deposited.mints
  have share := deposited.lpLocked
  refine ⟨deposited.held, ?_⟩
  rw [whole] at share
  rw [← unlocked_ge share, ← whole, Nat.add_le_add_iff_right]

/-- A deposit of a thousand tokens that asks for all the LP it mints. -/
def sampleDeposit (minLpOut : U64) : Except ProgramError (Chain ℕ × Chain ℕ × LiquidityAdded ℕ) := do
  let (before, _) ← sampleHistory .none ⟨5000000, 5000000000⟩ []
  let (after, event) ← addLiquidity 2000000 .none 9 ⟨1000, 1000000000, minLpOut⟩ before
  return (before, after, event)

theorem min_lp_out_honoured_sample : ∃ event : LiquidityAdded ℕ, 29251 ≤ event.lpToProvider.val := by
  have found : accepts (sampleDeposit 29251) (fun (before, _, _) =>
      before.mints .none ⟨1000, 1000000000, 29251⟩ = 31622) = true := by decide +kernel
  obtain ⟨_, done, minted⟩ := accepts_iff.mp found
  simp only [sampleDeposit, bind_ok, pure_ok] at done
  obtain ⟨⟨before, _⟩, _, ⟨after, event⟩, adds, rfl⟩ := done
  refine ⟨event, (min_lp_out_honoured adds).2.mpr ?_⟩
  rw [of_decide_eq_true minted]
  decide

/-- The provider asks for 31622 and gets 29251. -/
theorem min_lp_out_missed : ∃ before after : Chain ℕ, ∃ event : LiquidityAdded ℕ, Reachable 2000000 before ∧
    addLiquidity 2000000 .none 9 ⟨1000, 1000000000, 31622⟩ before = .ok (after, event) ∧
    ¬ (31622 ≤ event.lpToProvider.val) ∧ (after.lp.balance (.wallet 9)).val = 29251 := by
  have found : accepts (sampleDeposit 31622) (fun (_, after, event) =>
      event.lpToProvider.val = 29251 ∧ (after.lp.balance (.wallet 9)).val = 29251) = true := by decide +kernel
  obtain ⟨_, done, facts⟩ := accepts_iff.mp found
  simp only [sampleDeposit, bind_ok, pure_ok] at done
  obtain ⟨⟨before, _⟩, history, ⟨after, event⟩, adds, rfl⟩ := done
  obtain ⟨credited, held⟩ := of_decide_eq_true facts
  refine ⟨before, after, event, sampleHistory_reachable history, adds, ?_, held⟩
  rw [credited]
  decide

end DeepPool
