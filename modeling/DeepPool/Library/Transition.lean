/-! Runs of a step function that may refuse an event, and the two ways a fact about
one step becomes a fact about every run: an invariant of the state, and a
transitive relation between the first state and the last. -/

namespace Library
variable {State Event Output Failure : Type}

/-- A successful run, with the output each accepted event produced. -/
inductive Run (step : State → Event → Except Failure (State × Output)) :
    State → List (Event × Output) → State → Prop where
  | nil (state : State) : Run step state [] state
  | cons {before middle after : State} {event : Event} {output : Output} {trace : List (Event × Output)}
      (first : step before event = .ok (middle, output)) (rest : Run step middle trace after) :
      Run step before ((event, output) :: trace) after

namespace Run
variable {step : State → Event → Except Failure (State × Output)} {before middle after : State}
  {trace first last : List (Event × Output)}

theorem append (runs : Run step before first middle) (continues : Run step middle last after) :
    Run step before (first ++ last) after := by
  induction runs with
  | nil => exact continues
  | cons accepted _ ih => exact .cons accepted (ih continues)

theorem split (runs : Run step before (first ++ last) after) :
    ∃ middle, Run step before first middle ∧ Run step middle last after := by
  induction first generalizing before with
  | nil => exact ⟨before, .nil before, runs⟩
  | cons entry first ih =>
    cases runs with
    | cons accepted rest =>
      obtain ⟨middle, reached, onward⟩ := ih rest
      exact ⟨middle, .cons accepted reached, onward⟩

/-- What every step keeps, every run keeps. -/
theorem invariant (kept : State → Prop) (runs : Run step before trace after)
    (preserved : ∀ state event next output, (event, output) ∈ trace → kept state →
      step state event = .ok (next, output) → kept next)
    (initial : kept before) : kept after := by
  induction runs with
  | nil => exact initial
  | cons accepted rest ih =>
    exact ih (fun state event next output member => preserved state event next output (List.mem_cons_of_mem _ member))
      (preserved _ _ _ _ List.mem_cons_self initial accepted)

/-- What every step relates, every run relates, when the relation is a preorder on
the states that satisfy the invariant. -/
theorem related (kept : State → Prop) (relation : State → State → Prop) (runs : Run step before trace after)
    (preserved : ∀ state event next output, (event, output) ∈ trace → kept state →
      step state event = .ok (next, output) → kept next ∧ relation state next)
    (refl : ∀ state, kept state → relation state state)
    (trans : ∀ {a b c}, kept a → kept b → kept c → relation a b → relation b c → relation a c)
    (initial : kept before) : relation before after := by
  induction runs with
  | nil => exact refl _ initial
  | cons accepted rest ih =>
    have onward := fun state event next output member =>
      preserved state event next output (List.mem_cons_of_mem _ member)
    obtain ⟨keptNext, stepped⟩ := preserved _ _ _ _ List.mem_cons_self initial accepted
    have keptLast := invariant kept rest (fun state event next output member now accepted =>
      (onward state event next output member now accepted).1) keptNext
    exact trans initial keptNext keptLast stepped (ih onward keptNext)

end Run

/-- Whether a computation succeeds with a result that passes the check. -/
def accepts {Result : Type} (computation : Except Failure Result) (check : Result → Bool) : Bool :=
  match computation with
  | .error _ => false
  | .ok result => check result

theorem accepts_iff {Result : Type} {computation : Except Failure Result} {check : Result → Bool} :
    accepts computation check = true ↔ ∃ result, computation = .ok result ∧ check result = true := by
  cases computation with
  | error failure => simp [accepts]
  | ok result => simp [accepts]

def refusal {Result : Type} : Except Failure Result → Option Failure
  | .error failure => some failure
  | .ok _ => none

theorem refusal_iff {Result : Type} {computation : Except Failure Result} {failure : Failure} :
    refusal computation = some failure ↔ computation = .error failure := by
  cases computation with
  | error first => simp [refusal]
  | ok result => simp [refusal]

section Bind
variable {A B : Type} {computation : Except Failure A} {next : A → Except Failure B}

theorem bind_ok {result : B} :
    (computation >>= next) = .ok result ↔ ∃ middle, computation = .ok middle ∧ next middle = .ok result := by
  cases computation with
  | error failure =>
    constructor
    · intro impossible
      cases impossible
    · rintro ⟨_, impossible, _⟩
      cases impossible
  | ok middle =>
    constructor
    · intro done
      exact ⟨middle, rfl, done⟩
    · rintro ⟨_, same, done⟩
      cases same
      exact done

theorem bind_error {failure : Failure} :
    (computation >>= next) = .error failure ↔
      computation = .error failure ∨ ∃ middle, computation = .ok middle ∧ next middle = .error failure := by
  cases computation with
  | error first =>
    constructor
    · intro failed
      cases failed
      exact .inl rfl
    · rintro (failed | ⟨_, impossible, _⟩)
      · cases failed
        rfl
      · cases impossible
  | ok middle =>
    constructor
    · intro failed
      exact .inr ⟨middle, rfl, failed⟩
    · rintro (impossible | ⟨_, same, failed⟩)
      · cases impossible
      · cases same
        exact failed

/-- What never fails afterwards leaves the failures as they are. -/
theorem bind_error_of_total {failure : Failure} (total : ∀ middle, ∃ result, next middle = .ok result) :
    (computation >>= next) = .error failure ↔ computation = .error failure := by
  rw [bind_error]
  constructor
  · rintro (failed | ⟨middle, _, failed⟩)
    · exact failed
    · obtain ⟨result, done⟩ := total middle
      rw [done] at failed
      cases failed
  · exact .inl

/-- A check of a whole list succeeds when each of its elements does. -/
theorem forM_ok {items : List A} {check : A → Except Failure PUnit} :
    items.forM check = .ok () ↔ ∀ item ∈ items, check item = .ok () := by
  induction items with
  | nil =>
    constructor
    · intro _ item impossible
      cases impossible
    · intro _
      rfl
  | cons item items ih =>
    change (check item >>= fun _ => items.forM check) = .ok () ↔ _
    rw [bind_ok, List.forall_mem_cons, ← ih]
    constructor
    · rintro ⟨_, first, rest⟩
      exact ⟨first, rest⟩
    · rintro ⟨first, rest⟩
      exact ⟨(), first, rest⟩

end Bind

/-- Runs the events in order and stops at the first one that is refused. -/
def execute (step : State → Event → Except Failure (State × Output)) :
    State → List Event → Except Failure (State × List (Event × Output))
  | state, [] => .ok (state, [])
  | state, event :: events =>
    match step state event with
    | .error failure => .error failure
    | .ok (next, output) =>
      match execute step next events with
      | .error failure => .error failure
      | .ok (last, trace) => .ok (last, (event, output) :: trace)

section Execute
variable {step : State → Event → Except Failure (State × Output)} {before after : State} {event : Event}
  {events : List Event} {trace : List (Event × Output)}

theorem execute_cons : execute step before (event :: events) = .ok (after, trace) ↔
    ∃ next output rest, step before event = .ok (next, output) ∧ execute step next events = .ok (after, rest) ∧
      trace = (event, output) :: rest := by
  rw [execute]
  constructor
  · intro done
    split at done
    · cases done
    next next output accepted =>
      split at done
      · cases done
      next last rest finished =>
        cases done
        exact ⟨next, output, rest, accepted, finished, rfl⟩
  · rintro ⟨next, output, rest, accepted, finished, rfl⟩
    simp only [accepted, finished]

theorem execute_run (done : execute step before events = .ok (after, trace)) : Run step before trace after := by
  induction events generalizing before trace with
  | nil =>
    cases done
    exact .nil _
  | cons event events ih =>
    obtain ⟨next, output, rest, accepted, finished, rfl⟩ := execute_cons.mp done
    exact .cons accepted (ih finished)

theorem execute_events (done : execute step before events = .ok (after, trace)) : trace.map Prod.fst = events := by
  induction events generalizing before trace with
  | nil =>
    cases done
    rfl
  | cons event events ih =>
    obtain ⟨next, output, rest, _, finished, rfl⟩ := execute_cons.mp done
    rw [List.map_cons, ih finished]

end Execute

/-- The step function that refuses whatever does not meet a condition. -/
def restrict (step : State → Event → Except Failure (State × Output)) (meets : State → Event → Output → Prop)
    [∀ state event output, Decidable (meets state event output)] (refused : Failure) :
    State → Event → Except Failure (State × Output) := fun state event =>
  match step state event with
  | .error failure => .error failure
  | .ok (next, output) => if meets state event output then .ok (next, output) else .error refused

theorem restrict_ok {step : State → Event → Except Failure (State × Output)} {meets : State → Event → Output → Prop}
    [∀ state event output, Decidable (meets state event output)] {refused : Failure} {state next : State} {event : Event}
    {output : Output} (done : restrict step meets refused state event = .ok (next, output)) :
    step state event = .ok (next, output) ∧ meets state event output := by
  unfold restrict at done
  split at done
  · cases done
  next accepted =>
    split at done
    next met =>
      cases done
      exact ⟨accepted, met⟩
    · cases done

end Library
