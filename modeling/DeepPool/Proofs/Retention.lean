import DeepPool.Proofs.Dilution

/-! The retention floor of withdrawals. Redeeming leaves at least the locked share of
each reserve, and that share never falls while nobody trades, so the first locked
share decides whether the floor can ever refuse a holder. -/

namespace DeepPool
open Library

variable {Key : Type} {rent : U64} {transferFee : TransferFee} {chain born : Chain Key} {trace : Trace Key} {holder : Key}

def Action.provides : Action Key → Bool
  | .addLiquidity .. | .removeLiquidity .. => true
  | _ => false

theorem Action.provides_still {action : Action Key} (provides : action.provides) : action.trades = false := by
  cases action with
  | swap => cases provides
  | _ => rfl

/-- What is left of a reserve when an amount of the LP supply is redeemed. -/
def leftOver (amount reserve supply : Nat) : Nat := reserve - amount * reserve / supply

private theorem redemption {amount supply : U64} (part : amount.val ≤ supply.val) (positive : 0 < supply.val)
    (reserve : U64) :
    ∃ paid left, calcLpRedeem amount reserve supply = some paid ∧ reserve.checkedSub paid = some left ∧
      left.val = leftOver amount.val reserve.val supply.val := by
  obtain ⟨paid, computed, value, within⟩ := calcLpRedeem_isSome reserve part positive
  refine ⟨paid, reserve.saturatingSub paid, computed, ?_, ?_⟩
  · exact Word.checkedSub_of_le (by omega)
  · rw [Word.saturatingSub_val, value, leftOver]

/-- Redeeming all but the locked part leaves at least the locked share. -/
theorem leftOver_covers {amount supply locked : Nat} (reserve : Nat) (part : amount + locked ≤ supply) :
    locked * reserve ≤ leftOver amount reserve supply * supply := by
  have floored := Nat.div_mul_le_self (amount * reserve) supply
  have scaled := Nat.mul_le_mul_right reserve part
  rw [leftOver, Nat.sub_mul, Nat.mul_comm reserve supply]
  rw [Nat.add_mul] at scaled
  omega

theorem leftOver_exact {amount supply locked : Nat} (reserve : Nat) (whole : amount + locked = supply)
    (positive : 0 < supply) :
    (leftOver amount reserve supply - 1) * supply < locked * reserve ∨ leftOver amount reserve supply = 0 := by
  have next := Nat.lt_mul_div_succ (amount * reserve) positive
  by_cases empty : leftOver amount reserve supply = 0
  · exact .inr empty
  · left
    have split : leftOver amount reserve supply + amount * reserve / supply = reserve := by
      rw [leftOver] at empty ⊢
      omega
    have area : (leftOver amount reserve supply - 1) * supply + supply *
    (amount * reserve / supply + 1) = reserve * supply := by
      rw [Nat.mul_comm supply, ← Nat.add_mul]
      congr 1
      omega
    have whole' : amount * reserve + locked * reserve = reserve * supply := by
      rw [← whole]
      ring
    omega

section Birth
variable {mint : MintAccount} {accounts : CreatePoolAccounts Key} {args : CreatePoolArgs} {ground : Ground Key}
  {event : PoolCreated Key}

/-- The lock is at least a fifth of the supply less one unit. -/
theorem Created.fifth (created : Created rent transferFee accounts args ground born event) :
    born.lp.supply.val ≤ 5 * born.locked.val + 4 ∧ 5 * born.locked.val ≤ born.lp.supply.val := by
  have lock := created.lock
  rw [created.locked]
  omega

/-- On the SOL side the first lock has a wide margin over the floor. -/
theorem Created.locks_sol (created : Created rent transferFee accounts args ground born event) :
    99999999 * born.lp.supply.val < born.locked.val * (born.solReserve rent).val := by
  have lock := created.fifth.1
  have large := created.supply_large
  have gate := le_trans created.solGate created.sol_le
  have area := Nat.mul_le_mul_left born.locked.val gate
  omega

/-- On the token side it has a margin of a few units, in the tokens that arrived. -/
theorem Created.locks_tokens (created : Created rent transferFee accounts args ground born event)
    (net : 4999996 ≤ event.tokensInNet.val) : 999999 * born.lp.supply.val < born.locked.val * born.tokenReserve.val := by
  have lock := created.fifth.1
  have gate := created.solGate
  have above := created.aboveRoot
  have large : 20000000 ≤ born.lp.supply.val := by
    by_contra small
    have bounded : (born.lp.supply.val + 1001) ^ 2 ≤ 20001000 ^ 2 := Nat.pow_le_pow_left (by omega) 2
    have area := Nat.mul_le_mul gate net
    omega
  rw [created.token]
  obtain ⟨extra, more⟩ := Nat.exists_eq_add_of_le net
  rw [more]
  nlinarith [Nat.zero_le (born.locked.val * extra)]

theorem Created.short_of_tokens (created : Created rent transferFee accounts args ground born event)
    (net : event.tokensInNet.val ≤ 4999995) : born.locked.val * born.tokenReserve.val ≤ 999999 * born.lp.supply.val := by
  have lock := created.fifth.2
  have area := Nat.mul_le_mul_left born.locked.val net
  rw [created.token]
  omega

variable [DecidableEq Key]

/-- A holder redeems everything and accepts whatever comes out. -/
def redeemAll (rent : U64) (transferFee : TransferFee) (holder : Key) (chain : Chain Key) :
    Except ProgramError (Chain Key × LiquidityRemoved Key) :=
  removeLiquidity rent transferFee holder ⟨chain.lp.balance (.wallet holder), 0, 0⟩ chain

def Redeemable (rent : U64) (chain : Chain Key) : Prop :=
  ∀ transferFee holder, redeemAll rent transferFee holder chain ≠ .error (.deepPool .minimumLiquidityRequired)

private theorem redeemAll_keeps (live : Live rent chain)
    (sol : 100000000 ≤ leftOver (chain.lp.balance (.wallet holder)).val (chain.solReserve rent).val chain.lp.supply.val)
    (token : 1000000 ≤ leftOver (chain.lp.balance (.wallet holder)).val chain.tokenReserve.val chain.lp.supply.val) :
    redeemAll rent transferFee holder chain ≠ .error (.deepPool .minimumLiquidityRequired) := by
  have part : (chain.lp.balance (.wallet holder)).val ≤ chain.lp.supply.val :=
    le_trans (Nat.le_add_right _ _) (live.holder_le holder)
  obtain ⟨solOut, solLeft, solShare, solKept, solValue⟩ := redemption part live.supply (chain.solReserve rent)
  obtain ⟨tokensOut, tokensLeft, tokenShare, tokensKept, tokenValue⟩ := redemption part live.supply chain.tokenReserve
  rw [← solValue] at sol
  rw [← tokenValue] at token
  simp only [ne_eq, redeemAll, removeLiquidity, solShare, tokenShare, solKept, tokensKept, okOr_bind, bind_avoids,
    require_avoids, okOr_avoids, burn_avoids, transferChecked_avoids, subLamports_avoids, addLamports_avoids, pure_error,
    reduceCtorEq, IsEmpty.forall_iff, forall_const, implies_true, true_and, not_false_eq_true, and_true]
  intros
  exact ⟨sol, token⟩

private theorem redeemAll_refused (live : Live rent chain) (some : 0 < (chain.lp.balance (.wallet holder)).val)
    (token : leftOver (chain.lp.balance (.wallet holder)).val chain.tokenReserve.val chain.lp.supply.val < 1000000) :
    redeemAll rent transferFee holder chain = .error (.deepPool .minimumLiquidityRequired) := by
  have part : (chain.lp.balance (.wallet holder)).val ≤ chain.lp.supply.val :=
    le_trans (Nat.le_add_right _ _) (live.holder_le holder)
  obtain ⟨solOut, solLeft, solShare, solKept, _⟩ := redemption part live.supply (chain.solReserve rent)
  obtain ⟨tokensOut, tokensLeft, tokenShare, tokensKept, tokenValue⟩ := redemption part live.supply chain.tokenReserve
  unfold redeemAll removeLiquidity
  refine bind_error.mpr (.inr ⟨(), require_ok.mpr (le_refl _), ?_⟩)
  refine bind_error.mpr (.inr ⟨(), require_ok.mpr some, ?_⟩)
  refine bind_error.mpr (.inr ⟨(), require_ok.mpr ⟨live.sol, live.token⟩, ?_⟩)
  refine bind_error.mpr (.inr ⟨(), require_ok.mpr live.supply, ?_⟩)
  refine bind_error.mpr (.inr ⟨solOut, okOr_ok.mpr solShare, ?_⟩)
  refine bind_error.mpr (.inr ⟨tokensOut, okOr_ok.mpr tokenShare, ?_⟩)
  refine bind_error.mpr (.inr ⟨(), require_ok.mpr (Nat.zero_le _), ?_⟩)
  refine bind_error.mpr (.inr ⟨(), require_ok.mpr (Nat.zero_le _), ?_⟩)
  refine bind_error.mpr (.inr ⟨solLeft, okOr_ok.mpr solKept, ?_⟩)
  refine bind_error.mpr (.inr ⟨tokensLeft, okOr_ok.mpr tokensKept, ?_⟩)
  refine bind_error.mpr (.inl (require_error.mpr ⟨?_, rfl⟩))
  rintro ⟨_, keeps⟩
  rw [minPoolReserveTokens_val] at keeps
  omega

/-- Between creation and any later state without a trade the locked share only grows. -/
theorem Created.redeemable (created : Created rent transferFee accounts args ground born event)
    (net : 4999996 ≤ event.tokensInNet.val) (runs : Run (step rent) born trace chain)
    (still : ∀ entry ∈ trace, entry.1.trades = false) : Redeemable rent chain := by
  have start := created.live
  have live := start.run runs
  obtain ⟨sol, token⟩ := (start.backs runs still).holding (locked_run runs)
  simp only [Chain.pot] at sol token
  have keeps : ∀ {reserve first minimum holder},
    first * chain.lp.supply.val ≤ chain.locked.val * reserve * born.lp.supply.val →
      minimum * born.lp.supply.val < first →
      minimum < leftOver (chain.lp.balance (.wallet holder)).val reserve chain.lp.supply.val := by
    intro reserve first minimum holder grown margin
    have covers := leftOver_covers reserve (live.holder_le holder)
    apply Nat.lt_of_mul_lt_mul_right (a := chain.lp.supply.val * born.lp.supply.val)
    calc minimum * (chain.lp.supply.val * born.lp.supply.val)
      _ = minimum * born.lp.supply.val * chain.lp.supply.val := by ring
      _ < first * chain.lp.supply.val := Nat.mul_lt_mul_of_pos_right margin live.supply
      _ ≤ chain.locked.val * reserve * born.lp.supply.val := grown
      _ ≤ leftOver _ reserve chain.lp.supply.val * chain.lp.supply.val * born.lp.supply.val :=
        Nat.mul_le_mul_right _ covers
      _ = leftOver _ reserve chain.lp.supply.val * (chain.lp.supply.val * born.lp.supply.val) := Nat.mul_assoc _ _ _
  intro transferFee holder
  exact redeemAll_keeps live (keeps sol created.locks_sol) (keeps token (created.locks_tokens net))

/-- The creator is refused in the very first state. -/
theorem Created.refused (created : Created rent transferFee accounts args ground born event)
    (net : event.tokensInNet.val ≤ 4999995) :
    redeemAll rent transferFee accounts.creator born = .error (.deepPool .minimumLiquidityRequired) := by
  have live := created.live
  have whole : (born.lp.balance (.wallet accounts.creator)).val + born.locked.val = born.lp.supply.val := by
    rw [created.held, created.locked, created.supply]
  refine redeemAll_refused live ?_ ?_
  · rw [created.held]
    exact created.lpCredited
  · rcases leftOver_exact born.tokenReserve.val whole live.supply with short | empty
    · have less := Nat.lt_of_lt_of_le short (created.short_of_tokens net)
      have small := Nat.lt_of_mul_lt_mul_right less
      omega
    · omega

/-- The creation gate is on the tokens sent, and the floor of a withdrawal is on the
tokens held: only what arrives decides whether the LP of a pool without trades can
always be redeemed. -/
theorem redeemable_iff_net_deposit
    (creates : createPool rent transferFee mint accounts args ground = .ok (born, event)) :
    (∀ trace chain, Run (step rent) born trace chain → (∀ entry ∈ trace, entry.1.provides) →
      ∀ transferFee holder,
        redeemAll rent transferFee holder chain ≠ .error (.deepPool .minimumLiquidityRequired)) ↔
    4999996 ≤ (transferFee.net args.initialTokenAmount).val := by
  have created := createPool_ok creates
  rw [← created.net]
  constructor
  · intro redeemable
    by_contra short
    exact redeemable [] born (.nil born) (by simp) transferFee accounts.creator (created.refused (by omega))
  · intro net trace chain runs provides
    exact created.redeemable net runs fun entry member => Action.provides_still (provides entry member)

end Birth

theorem redeemable_iff_net_deposit_sample : ∃ chain : Chain ℕ, chain.tokenReserve.val = 5002000 ∧
    redeemAll 2000000 .none 0 chain ≠ .error (.deepPool .minimumLiquidityRequired) := by
  have found : accepts (sampleCreation .none ⟨5000000, 5000000000⟩)
      (fun born => accepts (execute (step 2000000) born.1 [.addLiquidity .none 9 ⟨2000, 1000000000, 0⟩])
        (fun result => result.1.tokenReserve.val = 5002000 ∧ ∀ entry ∈ result.2, entry.1.provides)) = true := by
    decide +kernel
  obtain ⟨⟨born, event⟩, creates, start⟩ := accepts_iff.mp found
  obtain ⟨⟨chain, trace⟩, continues, finish⟩ := accepts_iff.mp start
  obtain ⟨token, provides⟩ := of_decide_eq_true finish
  exact ⟨chain, token,
    (redeemable_iff_net_deposit creates).mpr (by decide) trace chain (execute_run continues) provides .none 0⟩

/-- A transfer fee of one basis point is enough. -/
theorem transfer_fee_freezes_creator : ∃ (born : Chain ℕ) (event : PoolCreated ℕ),
    sampleCreation (.rate 1 1000000) ⟨5000000, 5000000000⟩ = .ok (born, event) ∧ event.tokensInNet.val = 4999500 ∧
      redeemAll 2000000 (.rate 1 1000000) 0 born = .error (.deepPool .minimumLiquidityRequired) := by
  have found : accepts (sampleCreation (.rate 1 1000000) ⟨5000000, 5000000000⟩)
      (fun result => result.2.tokensInNet.val = 4999500 ∧
        refusal (redeemAll 2000000 (.rate 1 1000000) 0 result.1) = some
          (.deepPool .minimumLiquidityRequired)) = true := by
    decide +kernel
  obtain ⟨⟨born, event⟩, creates, start⟩ := accepts_iff.mp found
  obtain ⟨net, refused⟩ := of_decide_eq_true start
  exact ⟨born, event, creates, net, refusal_iff.mp refused⟩

end DeepPool
