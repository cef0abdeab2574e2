import DeepPool.Instructions.CreatePool
import DeepPool.Proofs.Handlers
import DeepPool.Proofs.Math

/-! What a successful creation did. -/

namespace DeepPool
open Library

variable {Key : Type} {rent : U64} {transferFee : TransferFee} {mint : MintAccount} {accounts : CreatePoolAccounts Key}
  {args : CreatePoolArgs} {ground : Ground Key} {born : Chain Key} {event : PoolCreated Key}

/-- The gates are checked on the gross amounts. The LP supply is the root of the
deposited amounts less a constant, and a fifth of it is locked. -/
structure Created (rent : U64) (transferFee : TransferFee) (accounts : CreatePoolAccounts Key) (args : CreatePoolArgs)
    (ground : Ground Key) (born : Chain Key) (event : PoolCreated Key) : Prop where
  solGate : 5000000000 ≤ args.initialSolAmount.val
  tokenGate : 5000000 ≤ args.initialTokenAmount.val
  solIn : event.solInGross = args.initialSolAmount ∧ event.solInNet = args.initialSolAmount
  tokensSent : event.tokensInGross = args.initialTokenAmount
  net : event.tokensInNet.val = (transferFee.net args.initialTokenAmount).val
  positive : 0 < event.tokensInNet.val
  sol : (born.lamports .pool).val = max (ground.lamports .pool).val rent.val + args.initialSolAmount.val
  token : born.tokenReserve.val = event.tokensInNet.val
  belowRoot : (born.lp.supply.val + 1000) ^ 2 ≤ args.initialSolAmount.val * event.tokensInNet.val
  aboveRoot : args.initialSolAmount.val * event.tokensInNet.val < (born.lp.supply.val + 1001) ^ 2
  supply : event.lpToCreator.val + event.lpLocked.val = born.lp.supply.val
  lock : event.lpLocked.val = born.lp.supply.val / 5
  lpCredited : 0 < event.lpToCreator.val
  held : born.lp.balance (.wallet accounts.creator) = event.lpToCreator
  locked : born.locked = event.lpLocked
  balanced : born.lp.Balanced
  oracle : ∃ pool : Pool Key, born.pool = pool.initOracle born.slot
  slot : born.slot = ground.slot
  address : born.address = accounts.pool
  solReported : event.solReserveAfter = born.solReserve rent
  tokenReported : event.tokenReserveAfter = born.tokenReserve
  supplyReported : event.lpSupplyAfter = born.lp.supply

private theorem lpLockCreator_some {lpTotal locked : U64} (computed : lpLockCreator lpTotal = some locked) :
    locked.val = lpTotal.val / 5 := by
  simp only [lpLockCreator, Option.bind_eq_bind, Option.bind_eq_some_iff, Option.pure_def, Option.some.injEq] at computed
  obtain ⟨product, multiplied, quotient, divided, rfl⟩ := computed
  rw [Word.checkedMul_eq_some, widen_val, widen_val, lpLockCreatorBps_val] at multiplied
  rw [Word.checkedDiv_eq_some, multiplied] at divided
  have scale : (10000 : U128).val = 10000 := rfl
  have bounded := lpTotal.isLt
  rw [scale] at divided
  rw [Word.truncate_val (by omega), divided.2]
  omega

variable [DecidableEq Key]

/-- The PDA holds the rent minimum, or whatever it was funded with above that. -/
private theorem init_ok {opened : Chain Key} (done : ground.init rent accounts = .ok opened) :
    (opened.lamports .pool).val = max (ground.lamports .pool).val rent.val ∧ opened.tokens .pool = 0 ∧
      opened.lp = Ledger.empty ∧ opened.slot = ground.slot ∧ opened.address = accounts.pool := by
  simp only [Ground.init] at done
  split at done
  next needed =>
    obtain ⟨lamports, rfl, _, pool, _⟩ := systemTransfer_ok (by simp) done
    rw [Word.saturatingSub_val] at needed pool
    refine ⟨?_, rfl, rfl, rfl, rfl⟩
    simp only at pool ⊢
    omega
  next enough =>
    cases done
    rw [Word.saturatingSub_val] at enough
    refine ⟨?_, rfl, rfl, rfl, rfl⟩
    simp only
    omega

theorem createPool_ok (done : createPool rent transferFee mint accounts args ground = .ok (born, event)) :
    Created rent transferFee accounts args ground born event := by
  simp only [createPool, bind_ok, okOr_ok, orFail_ok, require_ok, pure_ok, exists_const] at done
  obtain ⟨opened, opens, _, _, solGate, tokenGate, _, _, funded, sent, net, counted, positive, paid, moved, product,
    multiplied, root, rooted, large, lpTotal, reduced, lpBurn, locked, lpToCreator, split, credited, provided, minted, last, burned,
    same⟩ := done
  cases same
  obtain ⟨sol, token, ledger, slot, address⟩ := init_ok opens
  obtain ⟨tokens, rfl, _, vault, _⟩ := transferChecked_ok (by simp) sent
  obtain ⟨lamports, rfl, _, pool, _⟩ := systemTransfer_ok (by simp) moved
  obtain ⟨lp, rfl, toCreator⟩ := mintTo_ok minted
  obtain ⟨lp', rfl, toPool⟩ := mintTo_ok burned
  simp only [ledger] at toCreator toPool
  obtain ⟨supplyFirst, heldFirst, changesFirst⟩ := Ledger.mint_eq_some toCreator
  obtain ⟨supplyLast, heldLast, changesLast⟩ := Ledger.mint_eq_some toPool
  rw [Word.checkedSub_eq_some] at counted split reduced
  rw [minLiquidity_val] at reduced large
  rw [minInitialSol_val] at solGate
  rw [minInitialTokens_val] at tokenGate
  have noTokens : (opened.tokens .pool).val = 0 := by
    rw [token]
    rfl
  have arrived : net.val = (transferFee.net args.initialTokenAmount).val := by
    simp only [Chain.tokenReserve] at counted vault
    omega
  obtain ⟨area, whole, value⟩ := widen_mul_some args.initialSolAmount net
  obtain rfl : area = product := Option.some.inj (whole.symm.trans multiplied)
  obtain ⟨below, above⟩ := integerSqrt_some rooted
  rw [value] at below above
  have narrow : root.val < 2 ^ 64 := by
    by_contra wide
    have largest : args.initialSolAmount.val * net.val < 2 ^ 64 * 2 ^ 64 :=
      Nat.mul_lt_mul'' args.initialSolAmount.isLt net.isLt
    have square := Nat.mul_le_mul (not_lt.mp wide) (not_lt.mp wide)
    omega
  rw [Word.truncate_val narrow] at reduced
  have share := lpLockCreator_some locked
  have keeps : lp'.balance (.wallet accounts.creator) = lp.balance (.wallet accounts.creator) :=
    changesLast.others _ (by simp)
  have waits : lp.balance .pool = (Ledger.empty : Ledger (Owner Key) 64).balance .pool := changesFirst.others _ (by simp)
  have noSupply : (Ledger.empty : Ledger (Owner Key) 64).supply.val = 0 := rfl
  have noBalance : ∀ owner, ((Ledger.empty : Ledger (Owner Key) 64).balance owner).val = 0 := fun _ => rfl
  have supply : lp'.supply = lpTotal := by
    apply Fin.ext
    omega
  constructor
  case solGate => exact solGate
  case tokenGate => exact tokenGate
  case solIn => exact ⟨rfl, rfl⟩
  case tokensSent => rfl
  case net => exact arrived
  case positive => exact positive
  case sol =>
    simp only at pool ⊢
    rw [pool, sol]
  case token =>
    simp only [Chain.tokenReserve] at vault ⊢
    omega
  case belowRoot =>
    simp only [supply, reduced]
    rw [Nat.pow_two]
    exact below
  case aboveRoot =>
    have next : lpTotal.val + 1001 = root.val + 1 := by omega
    simp only [supply, next]
    rw [Nat.pow_two]
    exact above
  case supply =>
    simp only [supply]
    exact split
  case lock =>
    simp only [supply]
    exact share
  case lpCredited => exact credited
  case held =>
    apply Fin.ext
    rw [keeps, heldFirst, noBalance, Nat.zero_add]
  case locked =>
    apply Fin.ext
    simp only [Chain.locked]
    rw [heldLast, waits, noBalance, Nat.zero_add]
  case balanced => exact (Ledger.Balanced.empty.mint toCreator).mint toPool
  case oracle => exact ⟨_, rfl⟩
  case slot => exact slot
  case address => exact address
  case supplyReported => exact supply.symm
  all_goals rfl

end DeepPool
