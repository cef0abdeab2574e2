import DeepPool.Proofs.Retention
import DeepPool.Proofs.Oracle

/-! One slot of the pool. Only the first trade of a slot touches the oracle, and what it
records depends on what the liquidity operations before it left in the pool. -/

namespace DeepPool
open Library

variable {Key : Type} {rent : U64} {before middle next after : Chain Key} {action : Action Key}
  {output : Option (DeepPoolEvent Key)} {trace opening closing : Trace Key} {transferFee : TransferFee}
  {accounts : SwapAccounts Key} {args : SwapArgs}

def Chain.reserves (rent : U64) (chain : Chain Key) : Reserves := ⟨chain.solReserve rent, chain.tokenReserve⟩

theorem Stepped.quiet (stepped : Stepped rent before after action output) (provides : action.provides) :
    after.pool = before.pool ∧ after.slot = before.slot := by
  cases stepped with
  | addLiquidity deposited => exact ⟨deposited.oracle, deposited.slot⟩
  | removeLiquidity withdrawn => exact ⟨withdrawn.oracle, withdrawn.slot⟩
  | _ => cases provides

/-- Once the clock has reached the slot nothing in the same slot moves it again. -/
theorem Stepped.settled (stepped : Stepped rent before after action output) (acts : action.trades ∨ action.provides)
    (current : before.pool.lastCumSlot = before.slot) : after.pool = before.pool ∧ after.slot = before.slot := by
  cases stepped with
  | swap traded =>
    exact ⟨(Pool.recordObservation_ok traded.oracle).1 (by rw [current]), traded.slot⟩
  | addLiquidity deposited => exact ⟨deposited.oracle, deposited.slot⟩
  | removeLiquidity withdrawn => exact ⟨withdrawn.oracle, withdrawn.slot⟩
  | _ =>
    exfalso
    cases acts <;> contradiction

theorem Chain.reserves_deep {chain : Chain Key} (deep : minSpotReserve.val ≤ (chain.solReserve rent).val) :
    (chain.reserves rent).countedSolPerTok = (chain.reserves rent).solPerTok :=
  if_pos (decide_eq_true deep)

theorem Chain.reserves_thin {chain : Chain Key} (thin : ¬ minSpotReserve.val ≤ (chain.solReserve rent).val) :
    (chain.reserves rent).countedSolPerTok = 0 :=
  if_neg fun counted => thin (of_decide_eq_true counted)

/-- The one call of the slot that counts. -/
theorem Traded.interval {event : SwapExecuted Key} (traded : Traded rent transferFee accounts args middle next event)
    (stale : middle.pool.lastCumSlot.val < middle.slot.val) :
    next.pool.lastCumSlot = middle.slot ∧
    next.pool.cumSolPerTok.val =
      (middle.pool.cumSolPerTok.val +
          (middle.reserves rent).countedSolPerTok * (middle.slot.val - middle.pool.lastCumSlot.val)) %
        2 ^ 128 := by
  obtain ⟨clock, thin, deep⟩ := (Pool.recordObservation_ok traded.oracle).2 stale
  refine ⟨clock, ?_⟩
  have bounded := middle.pool.cumSolPerTok.isLt
  by_cases counted : minSpotReserve.val ≤ (middle.solReserve rent).val
  · obtain ⟨price, priced, sum⟩ := deep counted
    have exact := solPerTok_some (middle.reserves rent) priced
    rw [sum, exact, Chain.reserves_deep counted]
    simp only [accumulatePrice, Word.wrappingAdd_val, Word.wrappingMul_val, wrapped_val, widen_val,
      Word.saturatingSub_val]
    rw [Nat.mod_mul_mod, Nat.add_mod_mod]
  · rw [thin (not_le.mp counted), Chain.reserves_thin counted, Nat.zero_mul, Nat.add_zero, Nat.mod_eq_of_lt bounded]

variable [DecidableEq Key]

theorem quiet_run (runs : Run (step rent) before trace after) (quiet : ∀ entry ∈ trace, entry.1.provides) :
    after.pool = before.pool ∧ after.slot = before.slot := by
  refine Run.invariant (fun chain => chain.pool = before.pool ∧ chain.slot = before.slot) runs ?_ ⟨rfl, rfl⟩
  rintro state action next output member ⟨samePool, sameSlot⟩ accepted
  obtain ⟨pool, slot⟩ := (step_ok accepted).quiet (quiet _ member)
  exact ⟨pool.trans samePool, slot.trans sameSlot⟩

theorem settled_run (runs : Run (step rent) before trace after)
    (acts : ∀ entry ∈ trace, entry.1.trades ∨ entry.1.provides) (current : before.pool.lastCumSlot = before.slot) :
    after.pool = before.pool := by
  induction runs with
  | nil => rfl
  | cons accepted rest ih =>
    obtain ⟨pool, slot⟩ := (step_ok accepted).settled (acts _ List.mem_cons_self) current
    rw [ih (fun entry member => acts entry (List.mem_cons_of_mem _ member)) (by rw [pool, slot]; exact current), pool]

/-- Adding nothing is adding the amount exactly when the amount is a multiple of the word. -/
private theorem dropped_iff {total amount : Nat} (bounded : total < 2 ^ 128) :
    total = (total + amount) % 2 ^ 128 ↔ 2 ^ 128 ∣ amount := by
  rw [Nat.dvd_iff_mod_eq_zero]
  omega

/-- All calls of one slot. Without a trade the clock stands still. With one, the slot
keeps the elapsed interval exactly when the first trade finds the pool deep enough
(or what it drops happens to be a multiple of the accumulator's modulus). -/
theorem slot_keeps_interval_iff (stale : before.pool.lastCumSlot.val < before.slot.val)
    (opens : Run (step rent) before opening middle) (quiet : ∀ entry ∈ opening, entry.1.provides) :
    middle.pool.lastCumSlot = before.pool.lastCumSlot ∧
    ∀ transferFee accounts args output next closing after,
      step rent middle (.swap transferFee accounts args) = .ok (next, output) → Run (step rent) next closing after →
      (∀ entry ∈ closing, entry.1.trades ∨ entry.1.provides) →
      ((after.pool.lastCumSlot = before.pool.lastCumSlot ∨
        (after.pool.lastCumSlot = before.slot ∧
          after.pool.cumSolPerTok.val = (before.pool.cumSolPerTok.val +
            (middle.reserves rent).solPerTok * (before.slot.val - before.pool.lastCumSlot.val)) % 2 ^ 128)) ↔
      (minSpotReserve.val ≤ (middle.solReserve rent).val ∨
        2 ^ 128 ∣ (middle.reserves rent).solPerTok * (before.slot.val - before.pool.lastCumSlot.val))) := by
  obtain ⟨pool, slot⟩ := quiet_run opens quiet
  refine ⟨by rw [pool], ?_⟩
  intro transferFee accounts args output next closing after first closes acts
  cases step_ok first with
  | swap traded =>
    obtain ⟨clock, sum⟩ := traded.interval (by rw [pool, slot]; exact stale)
    rw [settled_run closes acts (clock.trans traded.slot.symm), clock, sum, pool, slot]
    have moved : before.slot ≠ before.pool.lastCumSlot := by
      intro same
      rw [same] at stale
      exact lt_irrefl _ stale
    by_cases counted : minSpotReserve.val ≤ (middle.solReserve rent).val
    · rw [Chain.reserves_deep counted]
      exact ⟨fun _ => .inl counted, fun _ => .inr ⟨rfl, rfl⟩⟩
    · rw [Chain.reserves_thin counted, Nat.zero_mul, Nat.add_zero, Nat.mod_eq_of_lt before.pool.cumSolPerTok.isLt,
        dropped_iff before.pool.cumSolPerTok.isLt]
      constructor
      · rintro (same | ⟨_, dropped⟩)
        · exact absurd same moved
        · exact .inr dropped
      · rintro (deep | dropped)
        · exact absurd deep counted
        · exact .inr ⟨rfl, dropped⟩

theorem slot_keeps_interval_iff_sample : ∃ before after : Chain ℕ, before.pool.lastCumSlot.val = 1000 ∧
    after.pool.lastCumSlot.val = 2000 ∧
    after.pool.cumSolPerTok.val = (before.pool.cumSolPerTok.val + (before.reserves 2000000).solPerTok * 1000) % 2 ^ 128 := by
  have found : accepts (sampleHistory .none ⟨5000000, 6000000000⟩ [.advance 2000])
      (fun start => start.1.slot.val = 2000 ∧ start.1.pool.lastCumSlot.val = 1000 ∧
        minSpotReserve.val ≤ (start.1.solReserve 2000000).val ∧
        accepts (step 2000000 start.1 (.swap .none ⟨7, 7⟩ ⟨1000, 0, true⟩)) (fun next =>
          accepts (execute (step 2000000) next.1 [.removeLiquidity .none 0 ⟨1000000, 0, 0⟩,
            .swap .none ⟨7, 7⟩ ⟨5, 0, false⟩])
            (fun finish => finish.1.pool.lastCumSlot.val = 2000 ∧
              ∀ entry ∈ finish.2, entry.1.trades ∨ entry.1.provides))) = true := by decide +kernel
  obtain ⟨⟨before, _⟩, _, start⟩ := accepts_iff.mp found
  obtain ⟨slot, last, deep, start⟩ := of_decide_eq_true start
  simp only at slot last deep
  obtain ⟨⟨next, output⟩, first, start⟩ := accepts_iff.mp start
  obtain ⟨⟨after, closing⟩, closes, finish⟩ := accepts_iff.mp start
  obtain ⟨clock, acts⟩ := of_decide_eq_true finish
  have kept := ((slot_keeps_interval_iff (by omega) (.nil before) (by simp)).2 _ _ _ _ _ _ _ first (execute_run closes)
    acts).mpr (.inl deep)
  refine ⟨before, after, last, clock, ?_⟩
  rcases kept with same | ⟨_, sum⟩
  · rw [same] at clock
    omega
  · rwa [slot, last] at sum

/-- One transaction by the creator and a trader: a withdrawal makes the pool thin, the
trade that follows moves the clock, and a thousand slots of price history are gone. -/
theorem withdrawal_erases_interval : ∃ before middle after : Chain ℕ, Reachable 2000000 before ∧
    before.slot.val = 2000 ∧ before.pool.lastCumSlot.val = 1000 ∧
    minSpotReserve.val ≤ (before.solReserve 2000000).val ∧
    (∃ output, step 2000000 before (.removeLiquidity .none 0 ⟨1000000, 0, 0⟩) = .ok (middle, output)) ∧
    (∃ output, step 2000000 middle (.swap .none ⟨7, 7⟩ ⟨1000, 0, true⟩) = .ok (after, output)) ∧
    after.pool.lastCumSlot.val = 2000 ∧
    after.pool.cumSolPerTok.val ≠
      (before.pool.cumSolPerTok.val + (middle.reserves 2000000).solPerTok * (2000 - 1000)) % 2 ^ 128 := by
  have found : accepts (sampleHistory .none ⟨5000000, 5000000000⟩ [.advance 2000])
      (fun start => start.1.slot.val = 2000 ∧ start.1.pool.lastCumSlot.val = 1000 ∧
        minSpotReserve.val ≤ (start.1.solReserve 2000000).val ∧
        accepts (step 2000000 start.1 (.removeLiquidity .none 0 ⟨1000000, 0, 0⟩)) (fun left =>
          accepts (step 2000000 left.1 (.swap .none ⟨7, 7⟩ ⟨1000, 0, true⟩)) (fun finish =>
            finish.1.pool.lastCumSlot.val = 2000 ∧
            finish.1.pool.cumSolPerTok.val ≠
              (start.1.pool.cumSolPerTok.val + (left.1.reserves 2000000).solPerTok * (2000 - 1000)) % 2 ^ 128))) = true := by
    decide +kernel
  obtain ⟨⟨before, _⟩, done, start⟩ := accepts_iff.mp found
  obtain ⟨slot, last, deep, start⟩ := of_decide_eq_true start
  obtain ⟨⟨middle, _⟩, removed, start⟩ := accepts_iff.mp start
  obtain ⟨⟨after, _⟩, swapped, finish⟩ := accepts_iff.mp start
  obtain ⟨clock, erased⟩ := of_decide_eq_true finish
  exact ⟨before, middle, after, sampleHistory_reachable done, slot, last, deep, ⟨_, removed⟩, ⟨_, swapped⟩, clock, erased⟩

end DeepPool
