import DeepPool.Library.Ledger

/-! Balances seen under other names. A name stands for at most one account and no
account has two names, so what is done to a named account is done to its name, and
what is done to an account without a name is not seen. -/

namespace Library
variable {Name Account : Type} {bits : Nat}

abbrev Naming (Name Account : Type) := Name → Option Account

namespace Naming

def Unique (naming : Naming Name Account) : Prop :=
  ∀ first second account, naming first = some account → naming second = some account → first = second

def Unseen (naming : Naming Name Account) (account : Account) : Prop := ∀ name, naming name ≠ some account

end Naming

namespace Balances
variable {naming other : Naming Name Account} {balances after : Balances Account bits} {account source dest : Account}
  {name first second : Name} {amount received : Word bits}

/-- A name that stands for no account holds nothing. -/
def named (naming : Naming Name Account) (balances : Balances Account bits) : Balances Name bits :=
  fun name => (naming name).elim Word.least balances

theorem named_some (found : naming name = some account) : balances.named naming name = balances account := by
  rw [named, found, Option.elim_some]

theorem named_none (nothing : naming name = none) : balances.named naming name = 0 := by
  rw [named, nothing, Option.elim_none]
  rfl

/-- A name may come or go while its account holds nothing. -/
theorem named_congr (same : ∀ name, naming name = other name ∨
    (∀ account, naming name = some account → balances account = 0) ∧
      ∀ account, other name = some account → balances account = 0) :
    balances.named naming = balances.named other := by
  funext name
  rcases same name with same | ⟨before, after⟩
  · rw [named, same]
    rfl
  · have vanishes : ∀ {naming : Naming Name Account}, (∀ account, naming name = some account → balances account = 0) →
        balances.named naming name = 0 := by
      intro naming empty
      cases found : naming name with
      | none => exact named_none found
      | some account => rw [named_some found, empty account found]
    rw [vanishes before, vanishes after]

section Change
variable [DecidableEq Account]

theorem named_unseen (unseen : naming.Unseen account) (value : Word bits) :
    named naming (Function.update balances account value) = balances.named naming := by
  funext name
  cases found : naming name with
  | none => rw [named_none found, named_none found]
  | some held =>
    have different : held ≠ account := by
      rintro rfl
      exact unseen name found
    rw [named_some found, named_some found, Function.update_of_ne different]

theorem debit_unseen (unseen : naming.Unseen account) (done : balances.debit account amount = some after) :
    after.named naming = balances.named naming := by
  obtain ⟨left, _, rfl⟩ := Option.map_eq_some_iff.mp done
  exact named_unseen unseen left

theorem credit_unseen (unseen : naming.Unseen account) (done : balances.credit account amount = some after) :
    after.named naming = balances.named naming := by
  obtain ⟨sum, _, rfl⟩ := Option.map_eq_some_iff.mp done
  exact named_unseen unseen sum

theorem transfer_unseen (noSource : naming.Unseen source) (noDest : naming.Unseen dest)
    (done : balances.transfer source dest amount received = some after) :
    after.named naming = balances.named naming := by
  obtain ⟨debited, paid, earned⟩ := Option.bind_eq_some_iff.mp done
  rw [credit_unseen noDest earned, debit_unseen noSource paid]

variable [DecidableEq Name]

theorem named_update (unique : naming.Unique) (found : naming name = some account) (value : Word bits) :
    named naming (Function.update balances account value) = Function.update (balances.named naming) name value := by
  funext seen
  by_cases same : seen = name
  · rw [same, Function.update_self, named_some found, Function.update_self]
  · rw [Function.update_of_ne same]
    cases held : naming seen with
    | none => rw [named_none held, named_none held]
    | some other =>
      have different : other ≠ account := by
        rintro rfl
        exact same (unique _ _ _ held found)
      rw [named_some held, named_some held, Function.update_of_ne different]

/-- What is done to a name is done to its account, and goes through just when that does. -/
theorem named_debit (unique : naming.Unique) (found : naming name = some account) :
    (balances.named naming).debit name amount = (balances.debit account amount).map (named naming) := by
  rw [debit, debit, named_some found, Option.map_map]
  exact congrFun (congrArg Option.map (funext fun left => (named_update unique found left).symm)) _

theorem named_credit (unique : naming.Unique) (found : naming name = some account) :
    (balances.named naming).credit name amount = (balances.credit account amount).map (named naming) := by
  rw [credit, credit, named_some found, Option.map_map]
  exact congrFun (congrArg Option.map (funext fun sum => (named_update unique found sum).symm)) _

theorem named_transfer (unique : naming.Unique) (payer : naming first = some source) (payee : naming second = some dest) :
    (balances.named naming).transfer first second amount received =
      (balances.transfer source dest amount received).map (named naming) := by
  rw [transfer, transfer, named_debit unique payer]
  cases balances.debit source amount with
  | none => rfl
  | some debited => exact named_credit unique payee

theorem debit_named (unique : naming.Unique) (found : naming name = some account)
    (done : balances.debit account amount = some after) :
    (balances.named naming).debit name amount = some (after.named naming) := by
  rw [named_debit unique found, done, Option.map_some]

theorem credit_named (unique : naming.Unique) (found : naming name = some account)
    (done : balances.credit account amount = some after) :
    (balances.named naming).credit name amount = some (after.named naming) := by
  rw [named_credit unique found, done, Option.map_some]

theorem transfer_named (unique : naming.Unique) (payer : naming first = some source) (payee : naming second = some dest)
    (done : balances.transfer source dest amount received = some after) :
    (balances.named naming).transfer first second amount received = some (after.named naming) := by
  rw [named_transfer unique payer payee, done, Option.map_some]

end Change

/-- The balances differ at the listed accounts at most. -/
def Differ (touched : List Account) (before after : Balances Account bits) : Prop :=
  ∀ account, account ∉ touched → after account = before account

theorem Differ.trans {before middle after : Balances Account bits} {earlier later : List Account}
    (first : Differ earlier before middle) (second : Differ later middle after) :
    Differ (earlier ++ later) before after := by
  intro account outside
  rw [List.mem_append, not_or] at outside
  rw [second account outside.2, first account outside.1]

theorem Differ.of_debit [DecidableEq Account] (done : balances.debit account amount = some after) :
    Differ [account] balances after := by
  intro other outside
  exact (debit_eq_some done).2.others other (List.ne_of_not_mem_cons outside)

theorem Differ.of_credit [DecidableEq Account] (done : balances.credit account amount = some after) :
    Differ [account] balances after := by
  intro other outside
  exact (credit_eq_some done).2.others other (List.ne_of_not_mem_cons outside)

theorem Differ.of_transfer [DecidableEq Account] (done : balances.transfer source dest amount received = some after) :
    Differ [source, dest] balances after := by
  obtain ⟨debited, paid, earned⟩ := Option.bind_eq_some_iff.mp done
  exact (Differ.of_debit paid).trans (Differ.of_credit earned)

/-- A change at finitely many accounts is seen at finitely many names. -/
theorem Differ.named {touched : List Account} (unique : naming.Unique) (differ : Differ touched balances after) :
    ∃ names : List Name, Differ names (balances.named naming) (after.named naming) ∧
      ∀ name ∈ names, ∃ account ∈ touched, naming name = some account := by
  classical
  refine ⟨touched.filterMap fun account =>
    if known : ∃ name, naming name = some account then some known.choose else none, ?_, ?_⟩
  · intro name outside
    cases found : naming name with
    | none => rw [named_none found, named_none found]
    | some account =>
      rw [named_some found, named_some found]
      apply differ
      intro inside
      have known : ∃ name, naming name = some account := ⟨name, found⟩
      apply outside
      rw [List.mem_filterMap]
      refine ⟨account, inside, ?_⟩
      rw [dif_pos known, unique _ _ _ known.choose_spec found]
  · intro name member
    obtain ⟨account, inside, chosen⟩ := List.mem_filterMap.mp member
    split at chosen
    next known =>
      cases chosen
      exact ⟨account, inside, known.choose_spec⟩
    · cases chosen

end Balances
end Library
