import DeepPool.Chain
import DeepPool.Library.Transition

/-! Inversion of the handlers' monadic steps, both ways out, and of the account
operations they call. -/

namespace DeepPool
open Library

section Steps
variable {α β : Type} {value : Option α} {computation : Except ProgramError α} {next : α → Except ProgramError β}

theorem require_ok {condition : Prop} [Decidable condition] {error : DeepPoolError} {done : Unit} :
    require condition error = .ok done ↔ condition := by
  unfold require
  split
  next holds => exact ⟨fun _ => holds, fun _ => rfl⟩
  next fails =>
    constructor
    · intro impossible
      cases impossible
    · intro holds
      exact absurd holds fails

theorem require_error {condition : Prop} [Decidable condition] {error : DeepPoolError} {failure : ProgramError} :
    require condition error = .error failure ↔ ¬ condition ∧ failure = .deepPool error := by
  unfold require
  split
  next holds =>
    constructor
    · intro impossible
      cases impossible
    · intro fails
      exact absurd holds fails.1
  next fails =>
    constructor
    · intro same
      cases same
      exact ⟨fails, rfl⟩
    · rintro ⟨_, rfl⟩
      rfl

theorem okOr_ok {error : DeepPoolError} {result : α} : okOr value error = .ok result ↔ value = some result := by
  cases value with
  | none => simp [okOr]
  | some found => simp [okOr]

theorem okOr_error {error : DeepPoolError} {failure : ProgramError} :
    okOr value error = .error failure ↔ value = none ∧ failure = .deepPool error := by
  cases value with
  | none => simp [okOr, eq_comm]
  | some found => simp [okOr]

theorem orFail_ok {failure : ProgramError} {result : α} : orFail value failure = .ok result ↔ value = some result := by
  cases value with
  | none => simp [orFail]
  | some found => simp [orFail]

theorem orFail_error {reported failure : ProgramError} :
    orFail value reported = .error failure ↔ value = none ∧ failure = reported := by
  cases value with
  | none => simp [orFail, eq_comm]
  | some found => simp [orFail]

theorem pure_ok {Failure : Type} {result expected : α} :
    (pure result : Except Failure α) = .ok expected ↔ result = expected := by
  constructor
  · intro same
    cases same
    rfl
  · rintro rfl
    rfl

theorem pure_error {result : α} {failure : ProgramError} : ¬ (pure result : Except ProgramError α) = .error failure := by
  intro impossible
  cases impossible

theorem orFail_bind {failure : ProgramError} {found : α} : (orFail (some found) failure >>= next) = next found := rfl

theorem okOr_bind {error : DeepPoolError} {found : α} : (okOr (some found) error >>= next) = next found := rfl

/-! What keeps a handler from failing in one way: no part of it does, and of its own guards
only those that report this failure matter. -/

theorem bind_avoids {failure : ProgramError} : ¬ (computation >>= next) = .error failure ↔
    ¬ computation = .error failure ∧ ∀ middle, computation = .ok middle → ¬ next middle = .error failure := by
  rw [bind_error, not_or, not_exists]
  simp only [not_and]

theorem require_avoids {condition : Prop} [Decidable condition] {error other : DeepPoolError} :
    ¬ require condition error = .error (.deepPool other) ↔ error = other → condition := by
  rw [require_error, not_and]
  constructor
  · rintro avoids rfl
    by_contra fails
    exact avoids fails rfl
  · intro holds fails same
    cases same
    exact fails (holds rfl)

theorem okOr_avoids {error other : DeepPoolError} :
    ¬ okOr value error = .error (.deepPool other) ↔ error = other → value ≠ none := by
  rw [okOr_error, not_and]
  constructor
  · rintro avoids rfl nothing
    exact avoids nothing rfl
  · intro some nothing same
    cases same
    exact some rfl nothing

theorem orFail_avoids {reported : ProgramError} {error : DeepPoolError} :
    ¬ orFail value reported = .error (.deepPool error) ↔ reported = .deepPool error → value ≠ none := by
  rw [orFail_error, not_and]
  constructor
  · intro avoids same nothing
    exact avoids nothing same.symm
  · intro some nothing same
    exact some same.symm nothing

end Steps

/-! The balances after an account operation, and the accounts it leaves alone. -/

section Accounts
variable {Key : Type} [DecidableEq Key] {before after : Chain Key} {source dest owner : Owner Key} {amount : U64}

theorem systemTransfer_ok (distinct : source ≠ dest) (done : before.systemTransfer source dest amount = .ok after) :
    ∃ lamports, after = { before with lamports } ∧
      (lamports source).val + amount.val = (before.lamports source).val ∧
      (lamports dest).val = (before.lamports dest).val + amount.val ∧
      ∀ other, other ≠ source → other ≠ dest → lamports other = before.lamports other := by
  obtain ⟨lamports, moved, same⟩ := bind_ok.mp done
  exact ⟨lamports, (pure_ok.mp same).symm, Balances.transfer_eq_some distinct (orFail_ok.mp moved)⟩

theorem transferChecked_ok {transferFee : TransferFee} (distinct : source ≠ dest)
    (done : before.transferChecked transferFee source dest amount = .ok after) :
    ∃ tokens, after = { before with tokens } ∧
      (tokens source).val + amount.val = (before.tokens source).val ∧
      (tokens dest).val = (before.tokens dest).val + (transferFee.net amount).val ∧
      ∀ other, other ≠ source → other ≠ dest → tokens other = before.tokens other := by
  obtain ⟨tokens, moved, same⟩ := bind_ok.mp done
  exact ⟨tokens, (pure_ok.mp same).symm, Balances.transfer_eq_some distinct (orFail_ok.mp moved)⟩

theorem mintTo_ok (done : before.mintTo dest amount = .ok after) :
    ∃ lp, after = { before with lp } ∧ before.lp.mint dest amount = some lp := by
  obtain ⟨lp, minted, same⟩ := bind_ok.mp done
  exact ⟨lp, (pure_ok.mp same).symm, orFail_ok.mp minted⟩

theorem burn_ok (done : before.burn source amount = .ok after) :
    ∃ lp, after = { before with lp } ∧ before.lp.burn source amount = some lp := by
  obtain ⟨lp, burned, same⟩ := bind_ok.mp done
  exact ⟨lp, (pure_ok.mp same).symm, orFail_ok.mp burned⟩

theorem subLamports_ok (done : before.subLamports source amount = .ok after) :
    ∃ lamports, after = { before with lamports } ∧
      (lamports source).val + amount.val = (before.lamports source).val ∧
      Balances.Changes before.lamports lamports source := by
  obtain ⟨lamports, debited, same⟩ := bind_ok.mp done
  exact ⟨lamports, (pure_ok.mp same).symm, Balances.debit_eq_some (orFail_ok.mp debited)⟩

theorem addLamports_ok (done : before.addLamports dest amount = .ok after) :
    ∃ lamports, after = { before with lamports } ∧
      (lamports dest).val = (before.lamports dest).val + amount.val ∧
      Balances.Changes before.lamports lamports dest := by
  obtain ⟨lamports, credited, same⟩ := bind_ok.mp done
  exact ⟨lamports, (pure_ok.mp same).symm, Balances.credit_eq_some (orFail_ok.mp credited)⟩

theorem systemTransfer_isOk (distinct : source ≠ dest) (funds : amount.val ≤ (before.lamports source).val)
    (fits : (before.lamports dest).val + amount.val < 2 ^ 64) :
    ∃ after, before.systemTransfer source dest amount = .ok after := by
  obtain ⟨lamports, moved⟩ := Balances.transfer_isSome distinct funds fits
  exact ⟨_, bind_ok.mpr ⟨lamports, orFail_ok.mpr moved, rfl⟩⟩

theorem transferChecked_isOk {transferFee : TransferFee} (distinct : source ≠ dest)
    (funds : amount.val ≤ (before.tokens source).val)
    (fits : (before.tokens dest).val + (transferFee.net amount).val < 2 ^ 64) :
    ∃ after, before.transferChecked transferFee source dest amount = .ok after := by
  obtain ⟨tokens, moved⟩ := Balances.transfer_isSome distinct funds fits
  exact ⟨_, bind_ok.mpr ⟨tokens, orFail_ok.mpr moved, rfl⟩⟩

theorem subLamports_isOk (funds : amount.val ≤ (before.lamports source).val) :
    ∃ after, before.subLamports source amount = .ok after := by
  obtain ⟨lamports, debited⟩ := Balances.debit_isSome funds
  exact ⟨_, bind_ok.mpr ⟨lamports, orFail_ok.mpr debited, rfl⟩⟩

theorem addLamports_isOk (fits : (before.lamports dest).val + amount.val < 2 ^ 64) :
    ∃ after, before.addLamports dest amount = .ok after := by
  obtain ⟨lamports, credited⟩ := Balances.credit_isSome fits
  exact ⟨_, bind_ok.mpr ⟨lamports, orFail_ok.mpr credited, rfl⟩⟩

section Refusals
variable {error : DeepPoolError} {transferFee : TransferFee} {chain : Chain Key}

omit [DecidableEq Key] in
private theorem moved_avoids {Balance : Type} {moved : Option Balance} {reported : ProgramError}
    {make : Balance → Chain Key} (foreign : reported ≠ .deepPool error) :
    ¬ (orFail moved reported >>= fun balance => pure (make balance)) = .error (.deepPool error) :=
  bind_avoids.mpr ⟨orFail_avoids.mpr fun same => absurd same foreign, fun _ _ => pure_error⟩

/-- The programs that own the accounts refuse with errors of their own. -/
theorem systemTransfer_avoids : chain.systemTransfer source dest amount ≠ .error (.deepPool error) :=
  moved_avoids (by simp)

theorem transferChecked_avoids : chain.transferChecked transferFee source dest amount ≠ .error (.deepPool error) :=
  moved_avoids (by simp)

theorem mintTo_avoids : chain.mintTo dest amount ≠ .error (.deepPool error) :=
  moved_avoids (by simp)

theorem burn_avoids : chain.burn source amount ≠ .error (.deepPool error) :=
  moved_avoids (by simp)

theorem subLamports_avoids : chain.subLamports source amount ≠ .error (.deepPool error) :=
  moved_avoids (by simp)

theorem addLamports_avoids : chain.addLamports dest amount ≠ .error (.deepPool error) :=
  moved_avoids (by simp)

end Refusals
end Accounts

@[simp] theorem TransferFee.net_val (transferFee : TransferFee) (amount : U64) :
    (transferFee.net amount).val = amount.val - (transferFee.fee amount).val := rfl

theorem TransferFee.net_le (transferFee : TransferFee) (amount : U64) : (transferFee.net amount).val ≤ amount.val := by
  rw [TransferFee.net_val]
  omega

@[simp] theorem solReserve_val {Key : Type} (rent : U64) (chain : Chain Key) :
    (chain.solReserve rent).val = (chain.lamports .pool).val - rent.val := rfl

end DeepPool
