import Mathlib.Data.List.Basic
import DeepPool.Library.Transition

/-! Loops that collect what their items give and stop at the first item that fails. -/

namespace Library
variable {Failure A B : Type} {read : A → Except Failure (Option B)} {found result : List B} {items : List A}

/-- Each item appends at most one result to those found so far. -/
def collect (read : A → Except Failure (Option B)) (found : List B) (items : List A) : Except Failure (List B) :=
  items.foldlM (fun found item => do return found ++ (← read item).toList) found

/-- What one item gives when it does not fail. -/
def given (read : A → Except Failure (Option B)) (item : A) : Option B := (read item).toOption.join

theorem given_ok {item : A} {outcome : Option B} (done : read item = .ok outcome) : given read item = outcome := by
  rw [given, done]
  rfl

theorem collect_cons {item : A} {rest : List A} :
    collect read found (item :: rest) = read item >>= fun outcome => collect read (found ++ outcome.toList) rest := by
  unfold collect
  rw [List.foldlM_cons, bind_assoc]
  simp only [pure_bind]

theorem filterMap_head {give : A → Option B} {item : A} {rest : List A} :
    (item :: rest).filterMap give = (give item).toList ++ rest.filterMap give := by
  cases outcome : give item with
  | none => rw [List.filterMap_cons_none outcome, Option.toList_none, List.nil_append]
  | some value => rw [List.filterMap_cons_some outcome, Option.toList_some, List.singleton_append]

theorem collect_ok : collect read found items = .ok result ↔
    (∀ item ∈ items, ∃ outcome, read item = .ok outcome) ∧ result = found ++ items.filterMap (given read) := by
  induction items generalizing found with
  | nil =>
    rw [List.filterMap_nil, List.append_nil]
    constructor
    · intro done
      exact ⟨fun item impossible => absurd impossible List.not_mem_nil, (Except.ok.inj done).symm⟩
    · rintro ⟨_, rfl⟩
      rfl
  | cons item rest ih =>
    rw [collect_cons, bind_ok, List.forall_mem_cons, filterMap_head]
    constructor
    · rintro ⟨outcome, first, later⟩
      obtain ⟨each, whole⟩ := ih.mp later
      refine ⟨⟨⟨outcome, first⟩, each⟩, ?_⟩
      rw [whole, given_ok first, List.append_assoc]
    · rintro ⟨⟨⟨outcome, first⟩, each⟩, whole⟩
      refine ⟨outcome, first, ih.mpr ⟨each, ?_⟩⟩
      rw [whole, given_ok first, List.append_assoc]

/-- Items in groups are collected like one list of items. -/
theorem collect_groups {groups : List (List A)} :
    groups.foldlM (collect read) found = collect read found groups.flatten := by
  induction groups generalizing found with
  | nil => rfl
  | cons group rest ih =>
    rw [List.foldlM_cons, List.flatten_cons, collect, collect, List.foldlM_append]
    exact congrArg _ (funext fun _ => ih)

section Cover
variable {first second : A → Option B}

private theorem covered_length (covers : ∀ item ∈ items, ∀ value, second item = some value → first item = some value) :
    (items.filterMap second).length ≤ (items.filterMap first).length := by
  induction items with
  | nil => exact Nat.le_refl _
  | cons item rest ih =>
    obtain ⟨head, tail⟩ := List.forall_mem_cons.mp covers
    rw [filterMap_head, filterMap_head, List.length_append, List.length_append]
    have one : (second item).toList.length ≤ (first item).toList.length := by
      cases outcome : second item with
      | none => exact Nat.zero_le _
      | some value => exact Nat.le_of_eq (congrArg (fun outcome => outcome.toList.length) (head value outcome).symm)
    exact Nat.add_le_add one (ih tail)

/-- Where one collection has all that the other gives, they are equal only item by item. -/
theorem filterMap_eq_of_covers
    (covers : ∀ item ∈ items, ∀ value, second item = some value → first item = some value) :
    items.filterMap first = items.filterMap second ↔ ∀ item ∈ items, first item = second item := by
  constructor
  · intro same
    induction items with
    | nil => exact fun item impossible => absurd impossible List.not_mem_nil
    | cons item rest ih =>
      obtain ⟨head, tail⟩ := List.forall_mem_cons.mp covers
      rw [filterMap_head, filterMap_head] at same
      have equal : first item = second item := by
        cases outcome : second item with
        | some value => exact head value outcome
        | none =>
          cases extra : first item with
          | none => rfl
          | some value =>
            -- The extra value has no counterpart in the rest.
            have lengths := congrArg List.length same
            have bound := covered_length tail
            rw [outcome, extra, Option.toList_some, Option.toList_none, List.nil_append, List.length_append,
              List.length_singleton] at lengths
            omega
      rw [equal] at same
      exact List.forall_mem_cons.mpr ⟨equal, ih tail (List.append_cancel_left same)⟩
  · exact fun same => List.filterMap_congr same

/-- A loop whose outcomes have all that is wanted of their items collects just that only
when each of them is. -/
theorem collect_eq_filterMap {give : A → Option B}
    (covers : ∀ item ∈ items, ∀ outcome value, read item = .ok outcome → give item = some value →
      outcome = some value) :
    collect read [] items = .ok (items.filterMap give) ↔ ∀ item ∈ items, read item = .ok (give item) := by
  rw [collect_ok, List.nil_append]
  constructor
  · rintro ⟨each, same⟩
    have wider : ∀ item ∈ items, ∀ value, give item = some value → given read item = some value := by
      intro item member value wanted
      obtain ⟨outcome, done⟩ := each item member
      rw [given_ok done, covers item member outcome value done wanted]
    intro item member
    obtain ⟨outcome, done⟩ := each item member
    rw [done, ← (filterMap_eq_of_covers wider).mp same.symm item member, given_ok done]
  · intro each
    exact ⟨fun item member => ⟨_, each item member⟩,
      List.filterMap_congr fun item member => (given_ok (each item member)).symm⟩

end Cover
end Library
