import DeepPool.Proofs.Dilution

/-! Runs of swaps. The product of the reserves grows strictly, so the pool cannot end
with less of both, and the traders together cannot end with more of both. -/

namespace DeepPool
open Library

variable {Key : Type} {rent : U64} {before after : Chain Key} {action : Action Key}
  {output : Option (DeepPoolEvent Key)} {trace : Trace Key} {coalition : Finset Key}

def Action.waits : Action Key → Bool
  | .advance _ => true
  | _ => false

/-- The wallets a swap moves anything in or out of. -/
def Action.traders : Action Key → List Key
  | .swap _ accounts _ => [accounts.user, accounts.solSource]
  | _ => []

def Chain.product (rent : U64) (chain : Chain Key) : Nat := (chain.solReserve rent).val * chain.tokenReserve.val

theorem Stepped.product (stepped : Stepped rent before after action output) (moves : action.trades ∨ action.waits) :
    before.product rent ≤ after.product rent ∧ (action.trades → before.product rent < after.product rent) := by
  cases stepped with
  | swap traded => exact ⟨le_of_lt traded.grows, fun _ => traded.grows⟩
  | advance same later =>
    subst same
    refine ⟨le_refl _, ?_⟩
    intro trades
    cases trades
  | _ =>
    exfalso
    cases moves <;> contradiction

/-- What the pool and the coalition hold together: SOL is only passed around, and a
transfer fee can only take tokens away. -/
structure Passes (coalition : Finset Key) (before after : Chain Key) : Prop where
  sol : (after.lamports .pool).val + after.solWallets.held coalition =
    (before.lamports .pool).val + before.solWallets.held coalition
  token : after.tokenReserve.val + after.tokenWallets.held coalition ≤
    before.tokenReserve.val + before.tokenWallets.held coalition

variable [DecidableEq Key]

theorem Traded.passes {transferFee : TransferFee} {accounts : SwapAccounts Key} {args : SwapArgs}
    {event : SwapExecuted Key}
    (traded : Traded rent transferFee accounts args before after event) (user : accounts.user ∈ coalition)
    (solSource : accounts.solSource ∈ coalition) : Passes coalition before after := by
  have active := traded.sol
  rw [solReserve_val] at active
  rcases traded.leg with bought | sold
  · have sol := Balances.held_changes bought.payerOnly solSource
    have token := Balances.held_changes bought.recipientOnly user
    have paidIn := bought.leg.paidIn
    have paidOut := bought.leg.paidOut
    have payer := bought.payer
    have recipient := bought.recipient
    have net := bought.net
    have received := bought.received
    have withheld := transferFee.net_le event.amountOutGross
    rw [solReserve_val, solReserve_val, net] at paidIn
    constructor
    · omega
    · omega
  · have token := Balances.held_changes sold.payerOnly user
    have sol := Balances.held_changes sold.recipientOnly solSource
    have paidIn := sold.leg.paidIn
    have paidOut := sold.leg.paidOut
    have remains := sold.leg.remains
    have payer := sold.payer
    have recipient := sold.recipient
    have net := sold.net
    have withheld := transferFee.net_le args.amountIn
    rw [solReserve_val] at paidOut remains
    rw [solReserve_val] at paidOut
    constructor
    · omega
    · omega

theorem Stepped.passes (stepped : Stepped rent before after action output) (moves : action.trades ∨ action.waits)
    (members : ∀ key ∈ action.traders, key ∈ coalition) : Passes coalition before after := by
  cases stepped with
  | swap traded => exact traded.passes (members _ (by simp [Action.traders])) (members _ (by simp [Action.traders]))
  | advance same later =>
    subst same
    exact ⟨rfl, le_refl _⟩
  | _ =>
    exfalso
    cases moves <;> contradiction

theorem product_run (runs : Run (step rent) before trace after)
    (moves : ∀ entry ∈ trace, entry.1.trades ∨ entry.1.waits) :
    before.product rent ≤ after.product rent ∧
      ((∃ entry ∈ trace, entry.1.trades) → before.product rent < after.product rent) := by
  induction runs with
  | nil => simp
  | cons accepted rest ih =>
    obtain ⟨kept, grows⟩ := (step_ok accepted).product (moves _ List.mem_cons_self)
    obtain ⟨keptLater, growsLater⟩ := ih fun entry member => moves entry (List.mem_cons_of_mem _ member)
    refine ⟨le_trans kept keptLater, ?_⟩
    rintro ⟨entry, member, trades⟩
    rcases List.mem_cons.mp member with rfl | later
    · exact Nat.lt_of_lt_of_le (grows trades) keptLater
    · exact Nat.lt_of_le_of_lt kept (growsLater ⟨entry, later, trades⟩)

theorem passes_run (runs : Run (step rent) before trace after) (moves : ∀ entry ∈ trace, entry.1.trades ∨ entry.1.waits)
    (members : ∀ entry ∈ trace, ∀ key ∈ entry.1.traders, key ∈ coalition) : Passes coalition before after :=
  Run.related (fun _ => True) (Passes coalition) runs
    (fun _ _ _ _ member _ accepted => ⟨trivial, (step_ok accepted).passes (moves _ member) (members _ member)⟩)
    (fun _ _ => ⟨rfl, le_refl _⟩)
    (fun _ _ _ lower upper => ⟨upper.sol.trans lower.sol, le_trans upper.token lower.token⟩) trivial

/-- For every group that contains all the traders: if it ends with its tokens it ends
with less SOL, and if it ends with its SOL it ends with fewer tokens. -/
theorem swaps_extract_nothing (sol : 1 ≤ (before.solReserve rent).val)
    (runs : Run (step rent) before trace after) (moves : ∀ entry ∈ trace, entry.1.trades ∨ entry.1.waits)
    (some : ∃ entry ∈ trace, entry.1.trades) :
    (before.solReserve rent).val * before.tokenReserve.val < (after.solReserve rent).val * after.tokenReserve.val ∧
    ¬ ((after.solReserve rent).val ≤ (before.solReserve rent).val ∧ after.tokenReserve.val ≤ before.tokenReserve.val) ∧
    ∀ coalition : Finset Key, (∀ entry ∈ trace, ∀ key ∈ entry.1.traders, key ∈ coalition) →
      (before.tokenWallets.held coalition ≤ after.tokenWallets.held coalition →
        after.solWallets.held coalition < before.solWallets.held coalition) ∧
      (before.solWallets.held coalition ≤ after.solWallets.held coalition →
        after.tokenWallets.held coalition < before.tokenWallets.held coalition) := by
  have grows := (product_run runs moves).2 some
  have notBoth : ¬ ((after.solReserve rent).val ≤ (before.solReserve rent).val ∧
      after.tokenReserve.val ≤ before.tokenReserve.val) := by
    rintro ⟨less, fewer⟩
    exact absurd grows (not_lt.mpr (Nat.mul_le_mul less fewer))
  refine ⟨grows, notBoth, ?_⟩
  intro coalition members
  obtain ⟨solPassed, tokenPassed⟩ := passes_run runs moves members
  rw [solReserve_val] at sol
  rw [solReserve_val, solReserve_val] at notBoth
  constructor
  · intro keeps
    by_contra gains
    exact notBoth ⟨by omega, by omega⟩
  · intro keeps
    by_contra gains
    exact notBoth ⟨by omega, by omega⟩

theorem swaps_extract_nothing_sample : ∃ before after : Chain ℕ, after.tokenReserve.val = 5085000 ∧
    before.product 2000000 < after.product 2000000 ∧
    after.solWallets.held {6, 7} < before.solWallets.held {6, 7} := by
  have found : accepts (sampleHistory (.rate 100 5000) ⟨5100000, 5000000000⟩ [])
      (fun born => 1 ≤ (born.1.solReserve 2000000).val ∧ accepts (execute (step 2000000) born.1
        [.swap (.rate 100 5000) ⟨6, 7⟩ ⟨1000000000, 0, true⟩, .advance 1002, .swap .none ⟨7, 7⟩ ⟨1, 0, true⟩,
          .swap (.rate 100 5000) ⟨6, 6⟩ ⟨842396, 0, false⟩])
        (fun result => result.1.tokenReserve.val = 5085000 ∧ (∀ entry ∈ result.2, entry.1.trades ∨ entry.1.waits) ∧
          (∃ entry ∈ result.2, entry.1.trades) ∧
          (∀ entry ∈ result.2, ∀ key ∈ entry.1.traders, key ∈ ({6, 7} : Finset ℕ)) ∧
          born.1.tokenWallets.held {6, 7} ≤ result.1.tokenWallets.held {6, 7})) = true := by decide +kernel
  obtain ⟨⟨before, _⟩, _, start⟩ := accepts_iff.mp found
  obtain ⟨sol, continues⟩ := of_decide_eq_true start
  obtain ⟨⟨after, trace⟩, done, finish⟩ := accepts_iff.mp continues
  obtain ⟨token, moves, some, members, keeps⟩ := of_decide_eq_true finish
  obtain ⟨grows, _, coalitions⟩ := swaps_extract_nothing sol (execute_run done) moves some
  exact ⟨before, after, token, grows, (coalitions {6, 7} members).1 keeps⟩

end DeepPool
