/-! Computations whose state only remembers: from every state that holds what is so, the
result is the same. -/

namespace Library
variable {State A B : Type}

/-- The computation has one result whatever the state remembers, and remembers only what is so. -/
def Answers (kept : State → Prop) (computation : StateM State A) (result : A) : Prop :=
  ∀ state, kept state → (computation.run state).1 = result ∧ kept (computation.run state).2

namespace Answers
variable {kept : State → Prop} {computation : StateM State A} {next : A → StateM State B} {result : A} {last : B}

theorem pure (result : A) : Answers kept (pure result) result := fun _ holds => ⟨rfl, holds⟩

theorem bind (first : Answers kept computation result) (rest : Answers kept (next result) last) :
    Answers kept (computation >>= next) last := by
  intro state holds
  obtain ⟨same, still⟩ := first state holds
  have later := rest _ still
  rw [← same] at later
  exact later

/-- What is done may depend on what is remembered, as long as the result does not. -/
theorem get {decide : State → StateM State A}
    (each : ∀ state, kept state → ((decide state).run state).1 = result ∧ kept ((decide state).run state).2) :
    Answers kept (get >>= decide) result := each

theorem mapM {ask : A → StateM State B} {answer : A → B} {questions : List A}
    (each : ∀ question ∈ questions, Answers kept (ask question) (answer question)) :
    Answers kept (questions.mapM ask) (questions.map answer) := by
  induction questions with
  | nil => exact pure []
  | cons question questions ih =>
    obtain ⟨first, rest⟩ := List.forall_mem_cons.mp each
    rw [List.mapM_cons, List.map_cons]
    apply bind first
    apply bind (ih rest)
    exact pure _

end Answers
end Library
