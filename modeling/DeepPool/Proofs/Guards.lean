import DeepPool.Proofs.System

/-! The guards that a live pool never trips. -/

namespace DeepPool
open Library

variable {Key : Type} {rent : U64} {transferFee : TransferFee} {chain : Chain Key} {error : DeepPoolError}

/-- The quotient stays below the reserve it is paid from. -/
theorem calcSwapOutput_drains {effectiveIn inputReserve outputReserve out : U64} (input : 0 < inputReserve.val)
    (output : 0 < outputReserve.val) (computed : calcSwapOutput effectiveIn inputReserve outputReserve = some out) :
    out.val < outputReserve.val := by
  obtain ⟨positive, value⟩ := calcSwapOutput_some computed
  rw [value, Nat.div_lt_iff_lt_mul positive, Nat.mul_add, Nat.mul_comm effectiveIn.val]
  exact Nat.lt_add_of_pos_left (Nat.mul_pos output input)

theorem Pool.recordObservation_avoids {pool : Pool Key} {solReserve tokenReserve now : U64} (sol : 0 < solReserve.val)
    (token : 0 < tokenReserve.val) : pool.recordObservation solReserve tokenReserve now ≠ .error (.deepPool error) := by
  unfold Pool.recordObservation
  split
  · simp
  split
  · simp
  obtain ⟨solPerTok, priced, _⟩ := priceQ64_some solReserve token
  obtain ⟨tokPerSol, inverse, _⟩ := priceQ64_some tokenReserve sol
  simp only [ne_eq, priced, inverse, okOr_bind, bind_avoids, orFail_avoids, reduceCtorEq, IsEmpty.forall_iff, true_and]
  intro _ _ _ _
  split
  · simp [orFail_avoids]
  · simp

variable [DecidableEq Key]

theorem handleBuy_avoids {accounts : SwapAccounts Key} {args : SwapArgs} {solReserve tokenReserve : U64}
    (sol : 0 < solReserve.val) (token : 0 < tokenReserve.val)
    (guarded : error = .emptyPool ∨ error = .minimumLiquidityRequired) :
    handleBuy transferFee accounts args solReserve tokenReserve chain ≠ .error (.deepPool error) := by
  rcases guarded with rfl | rfl <;>
    simp only [ne_eq, handleBuy, bind_avoids, require_avoids, okOr_avoids, okOr_ok, systemTransfer_avoids,
      transferChecked_avoids, pure_error, reduceCtorEq, IsEmpty.forall_iff, forall_const, implies_true, true_and,
      not_false_eq_true, and_true]
  intro _ _ _ _ out computed _ _
  exact calcSwapOutput_drains sol token computed

theorem handleSell_avoids {accounts : SwapAccounts Key} {args : SwapArgs} {tokenReserve : U64}
    (sol : 0 < (chain.solReserve rent).val) (token : 0 < tokenReserve.val)
    (guarded : error = .emptyPool ∨ error = .minimumLiquidityRequired) :
    handleSell rent transferFee accounts args (chain.solReserve rent) tokenReserve chain ≠ .error (.deepPool error) := by
  -- What is left are the two guards that a sell makes sure of itself.
  rcases guarded with rfl | rfl <;>
    simp only [ne_eq, handleSell, bind_avoids, require_avoids, require_ok, okOr_avoids, okOr_ok, transferChecked_avoids,
      subLamports_avoids, addLamports_avoids, pure_error, reduceCtorEq, IsEmpty.forall_iff, forall_const, implies_true,
      true_and, not_false_eq_true, and_true]
  case inl =>
    intro _ _ _ _ _ _ _ _ _ solOut computed _
    exact calcSwapOutput_drains token sol computed
  case inr =>
    intro sent moved _ _ _ _ _ _ _ solOut _ _ drained
    obtain ⟨tokens, rfl, _⟩ := transferChecked_ok (by simp) moved
    rw [solReserve_val] at drained
    simp only [Word.saturatingSub_val]
    omega

theorem Live.swap_avoids {accounts : SwapAccounts Key} {args : SwapArgs} (live : Live rent chain)
    (guarded : error = .emptyPool ∨ error = .minimumLiquidityRequired) :
    swap rent transferFee accounts args chain ≠ .error (.deepPool error) := by
  unfold swap
  rw [ne_eq, bind_avoids, require_avoids]
  refine ⟨by rintro rfl; simp at guarded, fun _ _ => ?_⟩
  rw [bind_avoids, require_avoids]
  refine ⟨fun _ => ⟨live.sol, live.token⟩, fun _ _ => ?_⟩
  rw [bind_avoids]
  refine ⟨Pool.recordObservation_avoids live.sol live.token, fun pool _ => ?_⟩
  have sol : 0 < (Chain.solReserve rent { chain with pool }).val := live.sol
  split
  · exact bind_avoids.mpr ⟨handleBuy_avoids live.sol live.token guarded, fun _ _ => pure_error⟩
  · exact bind_avoids.mpr ⟨handleSell_avoids sol live.token guarded, fun _ _ => pure_error⟩

/-- Its own guards report other failures, or ask for what a live pool has. -/
theorem Live.addLiquidity_avoids {provider : Key} {args : AddLiquidityArgs} (live : Live rent chain) :
    addLiquidity rent transferFee provider args chain ≠ .error (.deepPool .emptyPool) := by
  have sol := live.sol
  have token := live.token
  have supply := live.supply
  simp only [ne_eq, addLiquidity, bind_avoids, require_avoids, okOr_avoids, transferChecked_avoids, systemTransfer_avoids,
    mintTo_avoids, pure_error, sol, token, supply, reduceCtorEq, IsEmpty.forall_iff, implies_true, not_false_eq_true,
    and_true]

theorem Live.removeLiquidity_avoids {provider : Key} {args : RemoveLiquidityArgs} (live : Live rent chain) :
    removeLiquidity rent transferFee provider args chain ≠ .error (.deepPool .emptyPool) := by
  have sol := live.sol
  have token := live.token
  have supply := live.supply
  simp only [ne_eq, removeLiquidity, bind_avoids, require_avoids, okOr_avoids, burn_avoids, transferChecked_avoids,
    subLamports_avoids, addLamports_avoids, pure_error, sol, token, supply, reduceCtorEq, IsEmpty.forall_iff, implies_true,
    not_false_eq_true, and_true]

/-- No reachable pool is empty, and no argument makes one of these guards fire. -/
theorem live_pool_guards_unreachable (reachable : Reachable rent chain) :
    rent.val < (chain.lamports .pool).val ∧ 0 < chain.tokenReserve.val ∧ 0 < chain.locked.val ∧
    chain.locked.val ≤ chain.lp.supply.val ∧
    (chain.solReserve rent).val + rent.val = (chain.lamports .pool).val ∧
    (∀ transferFee accounts args, swap rent transferFee accounts args chain ≠ .error (.deepPool .emptyPool) ∧
      swap rent transferFee accounts args chain ≠ .error (.deepPool .minimumLiquidityRequired)) ∧
    (∀ transferFee provider args, addLiquidity rent transferFee provider args chain ≠ .error (.deepPool .emptyPool)) ∧
    (∀ transferFee provider args, removeLiquidity rent transferFee provider args chain ≠ .error (.deepPool .emptyPool)) ∧
    priceQ64 (chain.solReserve rent) chain.tokenReserve ≠ none ∧
    priceQ64 chain.tokenReserve (chain.solReserve rent) ≠ none ∧
    ∀ now, chain.pool.recordObservation (chain.solReserve rent) chain.tokenReserve now ≠
      .error (.deepPool .mathOverflow) := by
  have live := reachable.live
  have funded := live.funded
  obtain ⟨_, priced, _⟩ := priceQ64_some (chain.solReserve rent) live.token
  obtain ⟨_, inverse, _⟩ := priceQ64_some chain.tokenReserve live.sol
  refine ⟨funded, live.token, live.locked, live.locked_le, ?_, ?_, ?_, ?_, ?_, ?_, ?_⟩
  · rw [solReserve_val]
    omega
  · intro transferFee accounts args
    exact ⟨live.swap_avoids (.inl rfl), live.swap_avoids (.inr rfl)⟩
  · intro transferFee provider args
    exact live.addLiquidity_avoids
  · intro transferFee provider args
    exact live.removeLiquidity_avoids
  · simp [priced]
  · simp [inverse]
  · intro now
    exact Pool.recordObservation_avoids live.sol live.token

theorem live_pool_guards_unreachable_sample : ∃ chain : Chain ℕ, chain.tokenReserve.val = 1000000 ∧
    ∀ args : SwapArgs, swap 2000000 .none ⟨7, 7⟩ args chain ≠ .error (.deepPool .emptyPool) := by
  have found : accepts (sampleHistory .none ⟨5000000, 5000000000⟩ [.removeLiquidity .none 0 ⟨126490307, 0, 0⟩])
      (fun result => result.1.tokenReserve.val = 1000000) = true := by decide +kernel
  obtain ⟨⟨chain, _⟩, done, token⟩ := accepts_iff.mp found
  have guards := live_pool_guards_unreachable (sampleHistory_reachable done)
  exact ⟨chain, of_decide_eq_true token, fun args => (guards.2.2.2.2.2.1 .none ⟨7, 7⟩ args).1⟩

end DeepPool
