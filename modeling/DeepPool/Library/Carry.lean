/-! A value that some items of a list set and the others leave as it was. -/

namespace Library
variable {Item Value : Type} {value : Item → Option Value} {start held : Option Value} {early middle late : List Item}

/-- The value after the items: the last one set, or the one from before. -/
def carry (value : Item → Option Value) (start : Option Value) (items : List Item) : Option Value :=
  items.foldl (fun held item => (value item).or held) start

@[simp] theorem carry_nil (start : Option Value) : carry value start [] = start := rfl

@[simp] theorem carry_cons (start : Option Value) (item : Item) (items : List Item) :
    carry value start (item :: items) = carry value ((value item).or start) items := rfl

theorem carry_append : carry value start (early ++ late) = carry value (carry value start early) late :=
  List.foldl_append

theorem carry_or (start : Option Value) (items : List Item) :
    carry value start items = (carry value none items).or start := by
  induction items generalizing start with
  | nil => rfl
  | cons item items ih =>
    rw [carry_cons, carry_cons, ih, ih ((value item).or none)]
    cases carry value none items with
    | some last => rfl
    | none => simp

/-- The last value set, or the one from before. -/
theorem carry_last (start : Option Value) (items : List Item) :
    carry value start items = (items.filterMap value).getLast?.or start := by
  induction items generalizing start with
  | nil => rfl
  | cons item items ih =>
    rw [carry_cons, ih, List.filterMap_cons]
    cases value item with
    | none => rfl
    | some first =>
      rw [List.getLast?_cons]
      cases (items.filterMap value).getLast? <;> rfl

theorem carry_isSome {items : List Item} {item : Item} (member : item ∈ items) (sets : (value item).isSome)
    (start : Option Value) : (carry value start items).isSome := by
  induction items generalizing start with
  | nil => cases member
  | cons first items ih =>
    rcases List.mem_cons.mp member with rfl | later
    · obtain ⟨last, found⟩ := Option.isSome_iff_exists.mp sets
      rw [carry_cons, carry_or, found]
      cases carry value none items <;> rfl
    · exact ih later _

/-- Whatever was set last, setting the end of the list again changes nothing. -/
theorem carry_again : carry value (carry value none (early ++ late)) late = carry value none (early ++ late) := by
  rw [carry_append, carry_or (carry value (carry value none early) late), carry_or (carry value none early) late]
  cases carry value none late <;> rfl

/-- A value that the end of the list completes is also completed from further back. -/
theorem carry_rewind (completes : carry value held late = carry value none (early ++ middle ++ late)) :
    carry value held (middle ++ late) = carry value none (early ++ middle ++ late) := by
  have whole : carry value none (early ++ middle ++ late) =
      (carry value none late).or ((carry value none middle).or (carry value none early)) := by
    rw [carry_append, carry_append, carry_or (carry value (carry value none early) middle) late,
      carry_or (carry value none early) middle]
  rw [whole] at completes ⊢
  rw [carry_or held late] at completes
  rw [carry_append, carry_or (carry value held middle) late, carry_or held middle]
  cases last : carry value none late with
  | some found => rfl
  | none =>
    cases between : carry value none middle with
    | some found => rfl
    | none =>
      rw [last, between] at completes
      exact completes

end Library
