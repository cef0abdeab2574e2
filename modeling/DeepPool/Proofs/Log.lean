import DeepPool.Log
import DeepPool.Proofs.Anchor
import DeepPool.Proofs.System

/-! The events of a pool and the gifts to it account for all that it holds. -/

namespace DeepPool
open Library

variable {Key : Type} {rent : U64} {before after born : Chain Key} {action : Action Key}
  {output : Option (DeepPoolEvent Key)} {trace : Trace Key} {event : DeepPoolEvent Key} {supply : U64}

theorem Action.gift_grows (action : Action Key) :
    0 ≤ action.gift.sol ∧ 0 ≤ action.gift.token ∧ action.gift.supply ≤ 0 := by
  cases action <;> simp [Action.gift]

namespace Trace

@[simp] theorem gifts_nil : Trace.gifts ([] : Trace Key) = 0 := rfl

@[simp] theorem stated_nil : Trace.stated ([] : Trace Key) = 0 := rfl

@[simp] theorem gifts_cons : Trace.gifts ((action, output) :: trace) = action.gift + trace.gifts := by
  rw [gifts, List.map_cons, List.sum_cons]
  rfl

@[simp] theorem stated_cons : Trace.stated ((action, output) :: trace) =
    (output.elim 0 DeepPoolEvent.flow) + trace.stated := by
  cases output with
  | none => exact (zero_add _).symm
  | some event => exact List.sum_cons

theorem gifts_grow (trace : Trace Key) : 0 ≤ trace.gifts.sol ∧ 0 ≤ trace.gifts.token ∧ trace.gifts.supply ≤ 0 := by
  induction trace with
  | nil => exact ⟨le_refl _, le_refl _, le_refl _⟩
  | cons entry trace ih =>
    obtain ⟨action, output⟩ := entry
    obtain ⟨sol, token, supply⟩ := action.gift_grows
    obtain ⟨solRest, tokenRest, supplyRest⟩ := ih
    rw [gifts_cons]
    exact ⟨add_nonneg sol solRest, add_nonneg token tokenRest, add_nonpos supply supplyRest⟩

theorem stated_silent (silent : trace.events = []) : trace.stated = 0 := by
  rw [stated, silent]
  rfl

/-- Without an event that states it the supply only falls. -/
theorem stated_supply (silent : trace.events.filterMap DeepPoolEvent.lpSupplyAfter = []) : trace.stated.supply = 0 := by
  rw [stated]
  generalize trace.events = events at silent
  induction events with
  | nil => rfl
  | cons event events ih =>
    cases event with
    | swapExecuted event =>
      rw [List.map_cons, List.sum_cons, Flow.add_supply, ih silent, DeepPoolEvent.flow]
      split <;> rfl
    | _ => cases silent

end Trace

variable [DecidableEq Key]

/-- One step adds what its event states, or what it gives where there is none. -/
theorem Live.step_accounts (live : Live rent before) (done : step rent before action = .ok (after, output)) :
    after.amounts rent = before.amounts rent + (output.elim 0 DeepPoolEvent.flow + action.gift) := by
  have funded := live.funded
  cases step_ok done with
  | swap traded =>
    have supply : after.lp.supply = before.lp.supply := congrArg Ledger.supply traded.lp
    rcases traded.leg with bought | sold
    · have paidIn := bought.leg.paidIn
      have paidOut := bought.leg.paidOut
      rw [solReserve_val, solReserve_val] at paidIn
      apply Flow.ext <;> simp [Chain.amounts, DeepPoolEvent.flow, Action.gift, bought.direction, supply] <;> omega
    · have paidIn := sold.leg.paidIn
      have paidOut := sold.leg.paidOut
      rw [solReserve_val, solReserve_val] at paidOut
      apply Flow.ext <;> simp [Chain.amounts, DeepPoolEvent.flow, Action.gift, sold.direction, supply] <;> omega
  | addLiquidity deposited =>
    have sol := deposited.solPaid
    have token := deposited.tokensPaid
    have minted := deposited.minted
    apply Flow.ext <;> simp [Chain.amounts, DeepPoolEvent.flow, Action.gift] <;> omega
  | removeLiquidity withdrawn =>
    have sol := withdrawn.solPaid
    have token := withdrawn.tokensPaid
    have burned := withdrawn.burned
    have keeps := withdrawn.keepsSol
    rw [solReserve_val] at keeps
    apply Flow.ext <;> simp [Chain.amounts, DeepPoolEvent.flow, Action.gift] <;> omega
  | donateSol same gained =>
    subst same
    apply Flow.ext <;> simp [Chain.amounts, Chain.tokenReserve, Action.gift]
    omega
  | donateTokens same gained =>
    subst same
    rw [TransferFee.net_val] at gained
    apply Flow.ext <;> simp [Chain.amounts, Chain.tokenReserve, Action.gift]
    omega
  | burnLp same burned kept balanced =>
    subst same
    apply Flow.ext <;> simp [Chain.amounts, Chain.tokenReserve, Action.gift]
    omega
  | transferLp same supply kept balanced =>
    subst same
    apply Flow.ext <;> simp [Chain.amounts, Chain.tokenReserve, Action.gift, supply]
  | outside same sol token =>
    subst same
    apply Flow.ext <;> simp [Chain.amounts, Chain.tokenReserve, Action.gift, sol, token]
  | advance same later =>
    subst same
    apply Flow.ext <;> simp [Chain.amounts, Chain.tokenReserve, Action.gift]

/-- The events of a run and its gifts account for all that the pool holds afterwards. -/
theorem Live.run_accounts (live : Live rent before) (runs : Run (step rent) before trace after) :
    after.amounts rent = before.amounts rent + (trace.stated + trace.gifts) := by
  induction runs with
  | nil => exact (add_zero _).symm
  | @cons before middle after action output trace accepted rest ih =>
    have next := (step_ok accepted).live live
    rw [ih next, live.step_accounts accepted, Trace.stated_cons, Trace.gifts_cons]
    ac_rfl

/-- The step that emits an event leaves what the event shows. -/
theorem step_states (done : step rent before action = .ok (after, some event)) : event.States rent after := by
  cases step_ok done with
  | swap traded =>
    refine ⟨traded.solReported, traded.tokenReported, ?_⟩
    intro supply impossible
    cases impossible
  | addLiquidity deposited =>
    refine ⟨deposited.solReported, deposited.tokenReported, ?_⟩
    intro supply same
    exact (Option.some.inj same).symm.trans deposited.supplyReported
  | removeLiquidity withdrawn =>
    refine ⟨withdrawn.solReported, withdrawn.tokenReported, ?_⟩
    intro supply same
    exact (Option.some.inj same).symm.trans withdrawn.supplyReported

/-- Between two events the reserves only grow, and the supply only falls between two that state it. -/
theorem Live.grows (live : Live rent before) (runs : Run (step rent) before trace after) :
    (trace.events = [] → (before.solReserve rent).val ≤ (after.solReserve rent).val ∧
      before.tokenReserve.val ≤ after.tokenReserve.val) ∧
    (trace.events.filterMap DeepPoolEvent.lpSupplyAfter = [] → after.lp.supply.val ≤ before.lp.supply.val) := by
  have accounts := live.run_accounts runs
  obtain ⟨sol, token, supply⟩ := trace.gifts_grow
  constructor
  · intro silent
    rw [Trace.stated_silent silent, zero_add] at accounts
    have solAfter := congrArg Flow.sol accounts
    have tokenAfter := congrArg Flow.token accounts
    simp only [Chain.amounts, Flow.add_sol, Flow.add_token] at solAfter tokenAfter
    omega
  · intro silent
    have supplyAfter := congrArg Flow.supply accounts
    simp only [Chain.amounts, Flow.add_supply, Trace.stated_supply silent] at supplyAfter
    omega

section Birth
variable {transferFee : TransferFee} {mint : MintAccount} {accounts : CreatePoolAccounts Key} {args : CreatePoolArgs}
  {ground : Ground Key} {creation : PoolCreated Key}

theorem createPool_states (done : createPool rent transferFee mint accounts args ground = .ok (born, creation)) :
    (DeepPoolEvent.poolCreated creation).States rent born := by
  have created := createPool_ok done
  refine ⟨created.solReported, created.tokenReported, ?_⟩
  intro supply same
  exact (Option.some.inj same).symm.trans created.supplyReported

/-- From creation on, a pool holds what its events state to have come in, less what they
state to have gone out, the gifts, and the SOL that its address had before. -/
theorem history_accounts (done : createPool rent transferFee mint accounts args ground = .ok (born, creation))
    (runs : Run (step rent) born trace after) :
    after.amounts rent = ⟨((ground.lamports .pool).val - rent.val : Nat), 0, 0⟩ +
      ((DeepPoolEvent.poolCreated creation).flow + trace.stated + trace.gifts) := by
  have created := createPool_ok done
  have truthful := createPool_truthful done
  have sol := truthful.solFlow
  have token := truthful.tokenFlow
  have supply := truthful.supplyFlow
  rw [truthful.sol, solReserve_val] at sol
  rw [truthful.token] at token
  rw [truthful.supply] at supply
  have start : born.amounts rent = ⟨((ground.lamports .pool).val - rent.val : Nat), 0, 0⟩ +
      (DeepPoolEvent.poolCreated creation).flow := by
    apply Flow.ext <;> simp [Chain.amounts, DeepPoolEvent.flow] <;> omega
  rw [created.live.run_accounts runs, start]
  ac_rfl

end Birth

theorem history_accounts_sample : ∃ (after : Chain ℕ) (creation : PoolCreated ℕ) (trace : Trace ℕ) (surplus : ℕ),
    trace.events.length = 3 ∧ trace.gifts = ⟨700, 99, -5⟩ ∧ after.amounts 2000000 =
      ⟨surplus, 0, 0⟩ + ((DeepPoolEvent.poolCreated creation).flow + trace.stated + trace.gifts) := by
  have found : accepts (sampleCreation (.rate 100 5000) ⟨5005000, 5000000000⟩) (fun opened =>
      accepts (execute (step 2000000) opened.1
        [.swap (.rate 100 5000) ⟨7, 7⟩ ⟨1000000, 0, true⟩, .donateSol 6 700,
          .addLiquidity (.rate 100 5000) 7 ⟨1000000, 2000000000, 0⟩, .donateTokens (.rate 100 5000) 6 100,
          .burnLp 7 5, .removeLiquidity (.rate 100 5000) 7 ⟨1000, 0, 0⟩])
        fun result => (Trace.events result.2).length = 3 ∧ Trace.gifts result.2 = ⟨700, 99, -5⟩) = true := by
    decide +kernel
  obtain ⟨⟨born, creation⟩, creates, goes⟩ := accepts_iff.mp found
  obtain ⟨⟨after, trace⟩, done, facts⟩ := accepts_iff.mp goes
  obtain ⟨length, gifts⟩ := of_decide_eq_true facts
  exact ⟨after, creation, trace, _, length, gifts, history_accounts creates (execute_run done)⟩

end DeepPool
