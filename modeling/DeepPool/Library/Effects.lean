/-! Inversion of computations that keep their state when they fail. -/

namespace Library
variable {State Failure A B : Type}

theorem bind_done {computation : EStateM Failure State A} {next : A → EStateM Failure State B} {before after : State}
    {result : B} :
    (computation >>= next) before = .ok result after ↔
      ∃ value middle, computation before = .ok value middle ∧ next value middle = .ok result after := by
  change EStateM.bind computation next before = _ ↔ _
  unfold EStateM.bind
  cases computation before with
  | ok value middle =>
    constructor
    · intro done
      exact ⟨value, middle, rfl, done⟩
    · rintro ⟨_, _, same, done⟩
      cases same
      exact done
  | error failure middle =>
    constructor
    · intro impossible
      cases impossible
    · rintro ⟨_, _, impossible, _⟩
      cases impossible

theorem pure_done {before after : State} {value result : A} :
    (pure value : EStateM Failure State A) before = .ok result after ↔ value = result ∧ before = after := by
  change EStateM.Result.ok value before = EStateM.Result.ok result after ↔ _
  constructor
  · intro same
    cases same
    exact ⟨rfl, rfl⟩
  · rintro ⟨rfl, rfl⟩
    rfl

theorem get_done {before after result : State} :
    (get : EStateM Failure State State) before = .ok result after ↔ before = result ∧ before = after := by
  change EStateM.Result.ok before before = EStateM.Result.ok result after ↔ _
  constructor
  · intro same
    cases same
    exact ⟨rfl, rfl⟩
  · rintro ⟨rfl, rfl⟩
    rfl

theorem modify_done {change : State → State} {before after : State} {result : Unit} :
    (modify change : EStateM Failure State Unit) before = .ok result after ↔ change before = after := by
  show EStateM.Result.ok () (change before) = EStateM.Result.ok result after ↔ _
  constructor
  · intro same
    cases same
    rfl
  · rintro rfl
    rfl

theorem bind_failed {computation : EStateM Failure State A} {next : A → EStateM Failure State B} {before after : State}
    {failure : Failure} :
    (computation >>= next) before = .error failure after ↔ computation before = .error failure after ∨
      ∃ value middle, computation before = .ok value middle ∧ next value middle = .error failure after := by
  change EStateM.bind computation next before = _ ↔ _
  unfold EStateM.bind
  cases computation before with
  | ok value middle =>
    constructor
    · intro failed
      exact .inr ⟨value, middle, rfl, failed⟩
    · rintro (impossible | ⟨_, _, same, failed⟩)
      · cases impossible
      · cases same
        exact failed
  | error first middle =>
    constructor
    · intro failed
      cases failed
      exact .inl rfl
    · rintro (failed | ⟨_, _, impossible, _⟩)
      · cases failed
        rfl
      · cases impossible

theorem pure_failed {before after : State} {value : A} {failure : Failure} :
    ¬ (pure value : EStateM Failure State A) before = .error failure after := by
  intro impossible
  cases impossible

theorem get_failed {before after : State} {failure : Failure} :
    ¬ (get : EStateM Failure State State) before = .error failure after := by
  intro impossible
  cases impossible

theorem modify_failed {change : State → State} {before after : State} {failure : Failure} :
    ¬ (modify change : EStateM Failure State Unit) before = .error failure after := by
  intro impossible
  cases impossible

/-- What a computation returned. -/
def returned? : EStateM.Result Failure State A → Option A
  | .ok result _ => some result
  | .error _ _ => none

theorem returned?_some {outcome : EStateM.Result Failure State A} {result : A} :
    returned? outcome = some result ↔ ∃ after, outcome = .ok result after := by
  cases outcome with
  | ok value after => simp [returned?]
  | error failure after => simp [returned?]

theorem returned?_none {outcome : EStateM.Result Failure State A} :
    returned? outcome = none ↔ ∃ failure after, outcome = .error failure after := by
  cases outcome with
  | ok value after => simp [returned?]
  | error failure after => simp [returned?]

/-! Two computations that go alike: both fail, or both succeed, with one result and in related states. -/

inductive Alike (related : State → State → Prop) :
    EStateM.Result Failure State A → EStateM.Result Failure State A → Prop where
  | ok {first last : State} (value : A) (states : related first last) : Alike related (.ok value first) (.ok value last)
  | error {first last : State} (failure : Failure) (states : related first last) :
    Alike related (.error failure first) (.error failure last)

section Alike
variable {related : State → State → Prop} {computation other : EStateM Failure State A}
  {next continued : A → EStateM Failure State B} {first last : State}

theorem Alike.bind (start : Alike related (computation first) (other last))
    (rest : ∀ value middle twin, computation first = .ok value middle → other last = .ok value twin →
      related middle twin → Alike related (next value middle) (continued value twin)) :
    Alike related ((computation >>= next) first) ((other >>= continued) last) := by
  change Alike related (EStateM.bind computation next first) (EStateM.bind other continued last)
  unfold EStateM.bind
  generalize one : computation first = outcome, two : other last = twin at start ⊢
  cases start with
  | ok value states => exact rest value _ _ one two states
  | error failure states => exact .error failure states

end Alike
end Library
