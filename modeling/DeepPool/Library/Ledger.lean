import DeepPool.Library.Word
import Mathlib.Algebra.BigOperators.Group.Finset.Basic
import Mathlib.Algebra.Order.BigOperators.Group.Finset

/-! Balances of one asset over any set of accounts, and the ledger of an asset that
can be minted and burned. A ledger is balanced when the finitely many nonzero
balances add up to the supply. -/

namespace Library

abbrev Balances (Account : Type) (bits : Nat) := Account → Word bits

namespace Balances
variable {Account : Type} {bits : Nat}

def debit [DecidableEq Account] (balances : Balances Account bits) (account : Account) (amount : Word bits) :
    Option (Balances Account bits) :=
  ((balances account).checkedSub amount).map (Function.update balances account)

def credit [DecidableEq Account] (balances : Balances Account bits) (account : Account) (amount : Word bits) :
    Option (Balances Account bits) :=
  ((balances account).checkedAdd amount).map (Function.update balances account)

/-- What the source loses and what the destination gains may differ by a fee. -/
def transfer [DecidableEq Account] (balances : Balances Account bits) (source dest : Account)
    (amount received : Word bits) : Option (Balances Account bits) :=
  (balances.debit source amount).bind fun debited => debited.credit dest received

/-- The balances differ at one account only. -/
structure Changes (before after : Balances Account bits) (account : Account) : Prop where
  others : ∀ other, other ≠ account → after other = before other

theorem debit_eq_some [DecidableEq Account] {before after : Balances Account bits} {account : Account}
    {amount : Word bits} (done : before.debit account amount = some after) :
    (after account).val + amount.val = (before account).val ∧ Changes before after account := by
  obtain ⟨left, spent, rfl⟩ := Option.map_eq_some_iff.mp done
  rw [Word.checkedSub_eq_some] at spent
  refine ⟨by rw [Function.update_self]; exact spent, ⟨?_⟩⟩
  intro other different
  exact Function.update_of_ne different _ _

theorem credit_eq_some [DecidableEq Account] {before after : Balances Account bits} {account : Account}
    {amount : Word bits} (done : before.credit account amount = some after) :
    (after account).val = (before account).val + amount.val ∧ Changes before after account := by
  obtain ⟨sum, added, rfl⟩ := Option.map_eq_some_iff.mp done
  rw [Word.checkedAdd_eq_some] at added
  refine ⟨by rw [Function.update_self]; exact added, ⟨?_⟩⟩
  intro other different
  exact Function.update_of_ne different _ _

/-- Both ends of a transfer between different accounts, and everybody else. -/
theorem transfer_eq_some [DecidableEq Account] {before after : Balances Account bits} {source dest : Account}
    {amount received : Word bits} (distinct : source ≠ dest)
    (done : before.transfer source dest amount received = some after) :
    (after source).val + amount.val = (before source).val ∧
      (after dest).val = (before dest).val + received.val ∧
      ∀ other, other ≠ source → other ≠ dest → after other = before other := by
  obtain ⟨debited, paid, earned⟩ := Option.bind_eq_some_iff.mp done
  obtain ⟨spent, unspent⟩ := debit_eq_some paid
  obtain ⟨gained, ungained⟩ := credit_eq_some earned
  refine ⟨?_, ?_, ?_⟩
  · rw [ungained.others source distinct]
    exact spent
  · rw [gained, unspent.others dest distinct.symm]
  · intro other notSource notDest
    rw [ungained.others other notDest, unspent.others other notSource]

/-- Whoever pays nothing loses nothing. -/
theorem credit_grows [DecidableEq Account] {before after : Balances Account bits} {dest other : Account}
    {amount : Word bits} (done : before.credit dest amount = some after) : (before other).val ≤ (after other).val := by
  obtain ⟨gained, ungained⟩ := credit_eq_some done
  by_cases same : other = dest
  · rw [same, gained]
    exact Nat.le_add_right _ _
  · rw [ungained.others other same]

theorem transfer_grows [DecidableEq Account] {before after : Balances Account bits} {source dest other : Account}
    {amount received : Word bits} (different : other ≠ source)
    (done : before.transfer source dest amount received = some after) : (before other).val ≤ (after other).val := by
  obtain ⟨debited, paid, earned⟩ := Option.bind_eq_some_iff.mp done
  rw [← (debit_eq_some paid).2.others other different]
  exact credit_grows earned

theorem debit_isSome [DecidableEq Account] {balances : Balances Account bits} {account : Account} {amount : Word bits}
    (funds : amount.val ≤ (balances account).val) : ∃ after, balances.debit account amount = some after := by
  have left : (balances account).checkedSub amount = some ((balances account).saturatingSub amount) :=
    Word.checkedSub_of_le (by omega)
  exact ⟨_, Option.map_eq_some_iff.mpr ⟨_, left, rfl⟩⟩

theorem credit_isSome [DecidableEq Account] {balances : Balances Account bits} {account : Account} {amount : Word bits}
    (fits : (balances account).val + amount.val < 2 ^ bits) : ∃ after, balances.credit account amount = some after := by
  obtain ⟨sum, added, _⟩ := Word.ofNat?_isSome _ fits
  exact ⟨_, Option.map_eq_some_iff.mpr ⟨sum, added, rfl⟩⟩

/-- A funded transfer between different accounts that the destination can hold goes through. -/
theorem transfer_isSome [DecidableEq Account] {balances : Balances Account bits} {source dest : Account}
    {amount received : Word bits} (distinct : source ≠ dest) (funds : amount.val ≤ (balances source).val)
    (fits : (balances dest).val + received.val < 2 ^ bits) :
    ∃ after, balances.transfer source dest amount received = some after := by
  obtain ⟨debited, paid⟩ := debit_isSome funds
  obtain ⟨_, unspent⟩ := debit_eq_some paid
  rw [← unspent.others dest distinct.symm] at fits
  obtain ⟨after, earned⟩ := credit_isSome fits
  exact ⟨after, Option.bind_eq_some_iff.mpr ⟨debited, paid, earned⟩⟩

/-- What a group of accounts holds together. -/
def held (balances : Balances Account bits) (group : Finset Account) : Nat := ∑ account ∈ group, (balances account).val

theorem held_changes [DecidableEq Account] {before after : Balances Account bits} {account : Account}
    (changes : Changes before after account) {group : Finset Account} (member : account ∈ group) :
    after.held group + (before account).val = before.held group + (after account).val := by
  have rest : ∑ other ∈ group.erase account, (after other).val = ∑ other ∈ group.erase account, (before other).val :=
    Finset.sum_congr rfl fun other inside => by rw [changes.others other (Finset.ne_of_mem_erase inside)]
  have old := Finset.add_sum_erase group (fun other => (before other).val) member
  have new := Finset.add_sum_erase group (fun other => (after other).val) member
  simp only [held]
  omega

/-- Finitely many accounts hold everything, and together they hold the total. -/
def Totals (balances : Balances Account bits) (total : Nat) : Prop :=
  ∃ holders : Finset Account, (∀ account, account ∉ holders → (balances account).val = 0) ∧
    balances.held holders = total

theorem Totals.empty : Totals (fun _ => 0 : Balances Account bits) 0 := ⟨∅, by simp, by simp [held]⟩

private theorem Totals.including [DecidableEq Account] {balances : Balances Account bits} {total : Nat}
    (totals : balances.Totals total) (account : Account) :
    ∃ holders : Finset Account, account ∈ holders ∧ (∀ other, other ∉ holders → (balances other).val = 0) ∧
      balances.held holders = total := by
  obtain ⟨holders, nothing, sum⟩ := totals
  refine ⟨insert account holders, Finset.mem_insert_self _ _, ?_, ?_⟩
  · intro other outside
    exact nothing other (fun inside => outside (Finset.mem_insert_of_mem inside))
  · rw [held, Finset.sum_insert_of_eq_zero_if_notMem (nothing account)]
    exact sum

/-- A change at one account moves the total by exactly what it moves the balance. -/
theorem Totals.change [DecidableEq Account] {before after : Balances Account bits} {account : Account} {total moved : Nat}
    (totals : before.Totals total) (changes : Changes before after account)
    (same : total + (after account).val = moved + (before account).val) : after.Totals moved := by
  obtain ⟨holders, member, nothing, sum⟩ := totals.including account
  have shifted := held_changes changes member
  refine ⟨holders, ?_, by omega⟩
  intro other outside
  rw [changes.others other (fun equal => outside (equal ▸ member))]
  exact nothing other outside

theorem Totals.le [DecidableEq Account] {balances : Balances Account bits} {total : Nat}
    (totals : balances.Totals total) (account : Account) : (balances account).val ≤ total := by
  obtain ⟨holders, member, _, rfl⟩ := totals.including account
  exact Finset.single_le_sum (f := fun other => (balances other).val) (fun _ _ => Nat.zero_le _) member

theorem Totals.credit [DecidableEq Account] {before after : Balances Account bits} {account : Account} {total : Nat}
    {amount : Word bits} (totals : before.Totals total) (done : before.credit account amount = some after) :
    after.Totals (total + amount.val) := by
  obtain ⟨gained, changes⟩ := credit_eq_some done
  exact totals.change changes (by omega)

theorem Totals.debit [DecidableEq Account] {before after : Balances Account bits} {account : Account} {total : Nat}
    {amount : Word bits} (totals : before.Totals total) (done : before.debit account amount = some after) :
    ∃ left, left + amount.val = total ∧ after.Totals left := by
  obtain ⟨spent, changes⟩ := debit_eq_some done
  have enough := totals.le account
  exact ⟨total - amount.val, by omega, totals.change changes (by omega)⟩

theorem Totals.transfer [DecidableEq Account] {before after : Balances Account bits} {source dest : Account} {total : Nat}
    {amount received : Word bits} (totals : before.Totals total)
    (done : before.transfer source dest amount received = some after) :
    ∃ left, left + amount.val = total ∧ after.Totals (left + received.val) := by
  obtain ⟨debited, paid, earned⟩ := Option.bind_eq_some_iff.mp done
  obtain ⟨left, spent, between⟩ := totals.debit paid
  exact ⟨left, spent, between.credit earned⟩

/-- Two different accounts never hold more than everything. -/
theorem Totals.pair_le [DecidableEq Account] {balances : Balances Account bits} {total : Nat}
    (totals : balances.Totals total) {first second : Account} (distinct : first ≠ second) :
    (balances first).val + (balances second).val ≤ total := by
  obtain ⟨holders, member, nothing, rfl⟩ := totals.including first
  have split := Finset.add_sum_erase holders (fun other => (balances other).val) member
  by_cases inside : second ∈ holders
  · have part := Finset.single_le_sum (f := fun other => (balances other).val)
      (s := holders.erase first) (fun _ _ => Nat.zero_le _) (Finset.mem_erase.mpr ⟨distinct.symm, inside⟩)
    simp only [held]
    omega
  · rw [nothing second inside]
    simp only [held]
    omega

end Balances

/-- An asset whose supply is counted: an LP mint with its token accounts. -/
structure Ledger (Account : Type) (bits : Nat) where
  supply : Word bits
  balance : Balances Account bits

namespace Ledger
variable {Account : Type} {bits : Nat}

def empty : Ledger Account bits := ⟨0, fun _ => 0⟩

def Balanced (ledger : Ledger Account bits) : Prop := ledger.balance.Totals ledger.supply.val

theorem Balanced.empty : (Ledger.empty : Ledger Account bits).Balanced := Balances.Totals.empty

variable [DecidableEq Account]

def mint (ledger : Ledger Account bits) (account : Account) (amount : Word bits) : Option (Ledger Account bits) := do
  let balance ← ledger.balance.credit account amount
  let supply ← ledger.supply.checkedAdd amount
  return ⟨supply, balance⟩

def burn (ledger : Ledger Account bits) (account : Account) (amount : Word bits) : Option (Ledger Account bits) := do
  let balance ← ledger.balance.debit account amount
  let supply ← ledger.supply.checkedSub amount
  return ⟨supply, balance⟩

def transfer (ledger : Ledger Account bits) (source dest : Account) (amount : Word bits) :
    Option (Ledger Account bits) := do
  let balance ← ledger.balance.transfer source dest amount amount
  return ⟨ledger.supply, balance⟩

variable {before after : Ledger Account bits} {account source dest : Account} {amount : Word bits}

theorem mint_eq_some (done : before.mint account amount = some after) :
    after.supply.val = before.supply.val + amount.val ∧
      (after.balance account).val = (before.balance account).val + amount.val ∧
      Balances.Changes before.balance after.balance account := by
  simp only [mint, Option.bind_eq_bind, Option.bind_eq_some_iff, Option.pure_def, Option.some.injEq] at done
  obtain ⟨balance, credited, supply, added, rfl⟩ := done
  exact ⟨Word.checkedAdd_eq_some.mp added, Balances.credit_eq_some credited⟩

theorem burn_eq_some (done : before.burn account amount = some after) :
    after.supply.val + amount.val = before.supply.val ∧
      (after.balance account).val + amount.val = (before.balance account).val ∧
      Balances.Changes before.balance after.balance account := by
  simp only [burn, Option.bind_eq_bind, Option.bind_eq_some_iff, Option.pure_def, Option.some.injEq] at done
  obtain ⟨balance, debited, supply, removed, rfl⟩ := done
  exact ⟨Word.checkedSub_eq_some.mp removed, Balances.debit_eq_some debited⟩

theorem transfer_eq_some (done : before.transfer source dest amount = some after) :
    after.supply = before.supply ∧ before.balance.transfer source dest amount amount = some after.balance := by
  simp only [transfer, Option.bind_eq_bind, Option.bind_eq_some_iff, Option.pure_def, Option.some.injEq] at done
  obtain ⟨balance, moved, rfl⟩ := done
  exact ⟨rfl, moved⟩

theorem Balanced.mint (balanced : before.Balanced) (done : before.mint account amount = some after) : after.Balanced := by
  obtain ⟨supply, credited, changes⟩ := mint_eq_some done
  exact Balances.Totals.change balanced changes (by omega)

theorem Balanced.burn (balanced : before.Balanced) (done : before.burn account amount = some after) : after.Balanced := by
  obtain ⟨supply, debited, changes⟩ := burn_eq_some done
  exact Balances.Totals.change balanced changes (by omega)

theorem Balanced.transfer (balanced : before.Balanced) (done : before.transfer source dest amount = some after) :
    after.Balanced := by
  obtain ⟨supply, moved⟩ := transfer_eq_some done
  obtain ⟨debited, paid, earned⟩ := Option.bind_eq_some_iff.mp moved
  obtain ⟨spent, unspent⟩ := Balances.debit_eq_some paid
  obtain ⟨gained, ungained⟩ := Balances.credit_eq_some earned
  have enough := Balances.Totals.le balanced source
  have between : debited.Totals (before.supply.val - amount.val) :=
    Balances.Totals.change balanced unspent (by omega)
  exact Balances.Totals.change between ungained (by rw [supply]; omega)

end Ledger
end Library
