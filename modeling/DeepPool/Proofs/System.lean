import DeepPool.System
import DeepPool.Proofs.Swap
import DeepPool.Proofs.AddLiquidity
import DeepPool.Proofs.RemoveLiquidity
import DeepPool.Proofs.CreatePool

/-! One step of the pool's world, inverted once. -/

namespace DeepPool
open Library

variable {Key : Type} {rent : U64}

/-- Everything one transaction can do to the pool. The last four cannot touch the
reserves other than upwards, nor the locked LP other than upwards. -/
inductive Stepped (rent : U64) (before after : Chain Key) : Action Key → Option (DeepPoolEvent Key) → Prop where
  | swap {transferFee accounts args event} (traded : Traded rent transferFee accounts args before after event) :
      Stepped rent before after (.swap transferFee accounts args) (some (.swapExecuted event))
  | addLiquidity {transferFee provider args event}
      (deposited : Deposited rent transferFee provider args before after event) :
      Stepped rent before after (.addLiquidity transferFee provider args) (some (.liquidityAdded event))
  | removeLiquidity {transferFee provider args event}
      (withdrawn : Withdrawn rent transferFee provider args before after event) :
      Stepped rent before after (.removeLiquidity transferFee provider args) (some (.liquidityRemoved event))
  | donateSol {source amount lamports} (same : after = { before with lamports })
      (gained : (lamports .pool).val = (before.lamports .pool).val + amount.val) :
      Stepped rent before after (.donateSol source amount) none
  | donateTokens {transferFee source amount tokens} (same : after = { before with tokens })
      (gained : (tokens .pool).val = (before.tokens .pool).val + (transferFee.net amount).val) :
      Stepped rent before after (.donateTokens transferFee source amount) none
  | burnLp {holder amount lp} (same : after = { before with lp })
    (burned : lp.supply.val + amount.val = before.lp.supply.val)
      (kept : lp.balance .pool = before.lp.balance .pool) (balanced : before.lp.Balanced → lp.Balanced) :
      Stepped rent before after (.burnLp holder amount) none
  | transferLp {source dest amount lp} (same : after = { before with lp }) (supply : lp.supply = before.lp.supply)
      (kept : (before.lp.balance .pool).val ≤ (lp.balance .pool).val) (balanced : before.lp.Balanced → lp.Balanced) :
      Stepped rent before after (.transferLp source dest amount) none
  | outside {key lamports tokens} {lamportsAfter tokensAfter : Balances (Owner Key) 64}
      (same : after = { before with lamports := lamportsAfter, tokens := tokensAfter })
      (sol : lamportsAfter .pool = before.lamports .pool) (token : tokensAfter .pool = before.tokens .pool) :
      Stepped rent before after (.outside key lamports tokens) none
  | advance {slot} (same : after = { before with slot }) (later : before.slot.val ≤ slot.val) :
      Stepped rent before after (.advance slot) none

variable {before after born chain : Chain Key} {action : Action Key} {output : Option (DeepPoolEvent Key)}
  {trace : Trace Key}

/-- A pool in this state cannot be emptied: it holds SOL above its rent minimum,
tokens, and LP that nobody can redeem. -/
structure Live (rent : U64) (chain : Chain Key) : Prop where
  funded : rent.val < (chain.lamports .pool).val
  token : 0 < chain.tokenReserve.val
  locked : 0 < chain.locked.val
  balanced : chain.lp.Balanced

theorem Live.sol (live : Live rent chain) : 0 < (chain.solReserve rent).val := by
  rw [solReserve_val]
  exact Nat.sub_pos_of_lt live.funded

theorem Stepped.live (stepped : Stepped rent before after action output) (live : Live rent before) : Live rent after := by
  have funded := live.funded
  have token := live.token
  have locked := live.locked
  cases stepped with
  | swap traded =>
    rcases traded.leg with bought | sold
    · refine ⟨?_, bought.leg.remains, by simpa only [Chain.locked, traded.lp] using locked, traded.lp ▸ live.balanced⟩
      have paid := bought.leg.paidIn
      rw [solReserve_val, solReserve_val] at paid
      omega
    · refine ⟨?_, ?_, by simpa only [Chain.locked, traded.lp] using locked, traded.lp ▸ live.balanced⟩
      · have remains := sold.leg.remains
        rw [solReserve_val] at remains
        omega
      · rw [sold.leg.paidIn]
        omega
  | addLiquidity deposited =>
    refine ⟨?_, ?_, ?_, deposited.balanced live.balanced⟩
    · rw [deposited.solPaid]
      omega
    · rw [deposited.tokensPaid]
      omega
    · rw [deposited.lock]
      omega
  | removeLiquidity withdrawn =>
    refine ⟨?_, ?_, ?_, withdrawn.balanced live.balanced⟩
    · have keeps := withdrawn.keepsSol
      rw [solReserve_val] at keeps
      omega
    · have keeps := withdrawn.keepsTokens
      omega
    · rw [Chain.locked, withdrawn.others .pool (by simp)]
      exact locked
  | donateSol same gained =>
    subst same
    exact ⟨by simp only; omega, token, locked, live.balanced⟩
  | donateTokens same gained =>
    subst same
    exact ⟨funded, by simp only [Chain.tokenReserve] at token ⊢; omega, locked, live.balanced⟩
  | burnLp same burned kept balanced =>
    subst same
    exact ⟨funded, token, by simpa only [Chain.locked, kept] using locked, balanced live.balanced⟩
  | transferLp same supply kept balanced =>
    subst same
    exact ⟨funded, token, Nat.lt_of_lt_of_le locked kept, balanced live.balanced⟩
  | outside same sol kept =>
    subst same
    exact ⟨by simpa only [sol] using funded, by simpa only [Chain.tokenReserve, kept] using token, locked, live.balanced⟩
  | advance same later =>
    subst same
    exact ⟨funded, token, locked, live.balanced⟩

section Birth
variable {transferFee : TransferFee} {accounts : CreatePoolAccounts Key} {args : CreatePoolArgs} {ground : Ground Key}
  {event : PoolCreated Key}

/-- The gate on the SOL side alone makes the first LP supply large. -/
theorem Created.supply_large (created : Created rent transferFee accounts args ground born event) :
    69710 ≤ born.lp.supply.val := by
  by_contra small
  have bounded : (born.lp.supply.val + 1001) ^ 2 ≤ 70710 ^ 2 := Nat.pow_le_pow_left (by omega) 2
  have area := Nat.mul_le_mul created.solGate created.positive
  have above := created.aboveRoot
  omega

theorem Created.live (created : Created rent transferFee accounts args ground born event) : Live rent born := by
  have large := created.supply_large
  refine ⟨?_, ?_, ?_, created.balanced⟩
  · rw [created.sol]
    have gate := created.solGate
    omega
  · rw [created.token]
    exact created.positive
  · rw [created.locked, created.lock]
    omega

theorem Created.sol_le (created : Created rent transferFee accounts args ground born event) :
    args.initialSolAmount.val ≤ (born.solReserve rent).val := by
  rw [solReserve_val, created.sol]
  omega

/-- The first supply is the root of the deposit less a constant, and the PDA holds at
least the deposit. -/
theorem Created.covered (created : Created rent transferFee accounts args ground born event) :
    born.lp.supply.val ^ 2 ≤ (born.solReserve rent).val * born.tokenReserve.val := by
  calc born.lp.supply.val ^ 2 ≤ (born.lp.supply.val + 1000) ^ 2 := Nat.pow_le_pow_left (Nat.le_add_right _ _) 2
    _ ≤ args.initialSolAmount.val * event.tokensInNet.val := created.belowRoot
    _ ≤ (born.solReserve rent).val * born.tokenReserve.val := by
        rw [created.token]
        exact Nat.mul_le_mul_right _ created.sol_le

end Birth

variable [DecidableEq Key]

theorem Live.locked_le (live : Live rent chain) : chain.locked.val ≤ chain.lp.supply.val :=
  live.balanced.le .pool

theorem Live.supply (live : Live rent chain) : 0 < chain.lp.supply.val :=
  Nat.lt_of_lt_of_le live.locked live.locked_le

theorem Live.holder_le (live : Live rent chain) (holder : Key) :
    (chain.lp.balance (.wallet holder)).val + chain.locked.val ≤ chain.lp.supply.val :=
  live.balanced.pair_le (by simp)

private theorem transferLp_pool {source : Key} {dest : Owner Key} {amount : U64} {lp : Ledger (Owner Key) 64}
    (moved : before.lp.balance.transfer (.wallet source) dest amount amount = some lp.balance) :
    (before.lp.balance .pool).val ≤ (lp.balance .pool).val := by
  obtain ⟨debited, paid, earned⟩ := Option.bind_eq_some_iff.mp moved
  obtain ⟨_, unspent⟩ := Balances.debit_eq_some paid
  obtain ⟨gained, ungained⟩ := Balances.credit_eq_some earned
  have untouched : debited .pool = before.lp.balance .pool := unspent.others .pool (by simp)
  cases dest with
  | pool =>
    rw [gained, untouched]
    exact Nat.le_add_right _ _
  | wallet key => rw [ungained.others .pool (by simp), untouched]

theorem step_ok (done : step rent before action = .ok (after, output)) : Stepped rent before after action output := by
  cases action with
  | swap transferFee accounts args =>
    obtain ⟨⟨_, event⟩, traded, same⟩ := bind_ok.mp done
    cases same
    exact .swap (swap_ok traded)
  | addLiquidity transferFee provider args =>
    obtain ⟨⟨_, event⟩, deposited, same⟩ := bind_ok.mp done
    cases same
    exact .addLiquidity (addLiquidity_ok deposited)
  | removeLiquidity transferFee provider args =>
    obtain ⟨⟨_, event⟩, withdrawn, same⟩ := bind_ok.mp done
    cases same
    exact .removeLiquidity (removeLiquidity_ok withdrawn)
  | donateSol source amount =>
    obtain ⟨_, moved, same⟩ := bind_ok.mp done
    cases same
    obtain ⟨lamports, same, _, gained, _⟩ := systemTransfer_ok (by simp) moved
    exact .donateSol same gained
  | donateTokens transferFee source amount =>
    obtain ⟨_, moved, same⟩ := bind_ok.mp done
    cases same
    obtain ⟨tokens, same, _, gained, _⟩ := transferChecked_ok (by simp) moved
    exact .donateTokens same gained
  | burnLp holder amount =>
    obtain ⟨_, retired, same⟩ := bind_ok.mp done
    cases same
    obtain ⟨lp, same, burned⟩ := burn_ok retired
    obtain ⟨supply, _, changes⟩ := Ledger.burn_eq_some burned
    exact .burnLp same supply (changes.others .pool (by simp)) (fun balanced => balanced.burn burned)
  | transferLp source dest amount =>
    obtain ⟨lp, moved, same⟩ := bind_ok.mp done
    cases same
    rw [orFail_ok] at moved
    obtain ⟨supply, balance⟩ := Ledger.transfer_eq_some moved
    exact .transferLp rfl supply (transferLp_pool balance) (fun balanced => balanced.transfer moved)
  | outside key lamports tokens =>
    cases done
    exact .outside rfl (Function.update_of_ne (by simp) _ _) (Function.update_of_ne (by simp) _ _)
  | advance slot =>
    simp only [step] at done
    split at done
    next later =>
      cases done
      exact .advance rfl later
    · cases done

theorem Live.run (live : Live rent before) (runs : Run (step rent) before trace after) : Live rent after :=
  Run.invariant (Live rent) runs (fun _ _ _ _ _ now accepted => (step_ok accepted).live now) live

theorem Reachable.live (reachable : Reachable rent chain) : Live rent chain := by
  obtain ⟨_, _, _, _, _, born, _, creates, _, runs⟩ := reachable
  exact (createPool_ok creates).live.run runs

theorem Reachable.run (reachable : Reachable rent before) (runs : Run (step rent) before trace after) :
    Reachable rent after := by
  obtain ⟨transferFee, mint, accounts, args, ground, born, event, creates, earlier, started⟩ := reachable
  exact ⟨transferFee, mint, accounts, args, ground, born, event, creates, _, started.append runs⟩

theorem sampleHistory_reachable {transferFee : TransferFee} {args : CreatePoolArgs} {actions : List (Action ℕ)}
    {chain : Chain ℕ} {trace : Trace ℕ} (done : sampleHistory transferFee args actions = .ok (chain, trace)) :
    Reachable 2000000 chain := by
  obtain ⟨⟨born, event⟩, creates, continues⟩ := bind_ok.mp done
  exact ⟨transferFee, _, _, args, _, born, event, creates, trace, execute_run continues⟩

end DeepPool
