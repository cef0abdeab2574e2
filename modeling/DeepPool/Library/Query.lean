import Mathlib.Data.List.Sort

/-! Ordered queries: the columns of an ORDER BY, compared one after the other, and
DISTINCT ON, which keeps the first row for each value. -/

namespace Library

section Order
variable {Row Column : Type}

/-- Rows by one column, the smallest first. -/
def ascending [LE Column] (column : Row → Column) (a b : Row) : Prop := column a ≤ column b

/-- Rows by one column, the greatest first. -/
def descending [LE Column] (column : Row → Column) (a b : Row) : Prop := column b ≤ column a

/-- Rows by one order, ties broken by the other. -/
def thenBy (first rest : Row → Row → Prop) (a b : Row) : Prop := first a b ∧ (first b a → rest a b)

instance [LE Column] [DecidableLE Column] (column : Row → Column) : DecidableRel (ascending column) :=
  fun a b => inferInstanceAs (Decidable (column a ≤ column b))

instance [LE Column] [DecidableLE Column] (column : Row → Column) : DecidableRel (descending column) :=
  fun a b => inferInstanceAs (Decidable (column b ≤ column a))

instance (first rest : Row → Row → Prop) [DecidableRel first] [DecidableRel rest] : DecidableRel (thenBy first rest) :=
  fun a b => inferInstanceAs (Decidable (first a b ∧ (first b a → rest a b)))

instance [LinearOrder Column] (column : Row → Column) : Std.Total (ascending column) where
  total a b := le_total (column a) (column b)

instance [LinearOrder Column] (column : Row → Column) : IsTrans Row (ascending column) where
  trans _ _ _ := le_trans

instance [LinearOrder Column] (column : Row → Column) : Std.Total (descending column) where
  total a b := le_total (column b) (column a)

instance [LinearOrder Column] (column : Row → Column) : IsTrans Row (descending column) where
  trans _ _ _ low high := le_trans high low

variable {first rest : Row → Row → Prop}

instance [Std.Total first] [Std.Total rest] : Std.Total (thenBy first rest) where
  total a b := by
    by_cases forward : first a b
    · by_cases backward : first b a
      · rcases Std.Total.total (r := rest) a b with lower | upper
        · exact .inl ⟨forward, fun _ => lower⟩
        · exact .inr ⟨backward, fun _ => upper⟩
      · exact .inl ⟨forward, fun tied => absurd tied backward⟩
    · have backward := (Std.Total.total (r := first) a b).resolve_left forward
      exact .inr ⟨backward, fun tied => absurd tied forward⟩

instance [IsTrans Row first] [IsTrans Row rest] : IsTrans Row (thenBy first rest) where
  trans a b c := by
    rintro ⟨low, tie⟩ ⟨high, next⟩
    refine ⟨IsTrans.trans a b c low high, ?_⟩
    intro back
    exact IsTrans.trans a b c (tie (IsTrans.trans b c a high back)) (next (IsTrans.trans c a b back low))

end Order

section Distinct
variable {Row Key : Type} [DecidableEq Key] {key : Row → Key} {rows : List Row} {found : Row}

/-- `SELECT DISTINCT ON (key)` over ordered rows. -/
def distinctOn (key : Row → Key) : List Row → List Row
  | [] => []
  | row :: rows => row :: (distinctOn key rows).filter (key · ≠ key row)

/-- For each key the first of its rows is shown. -/
theorem distinctOn_filter (rows : List Row) (wanted : Key) :
    (distinctOn key rows).filter (key · = wanted) = (rows.find? (key · = wanted)).toList := by
  induction rows with
  | nil => rfl
  | cons row rows ih =>
    by_cases same : key row = wanted
    · subst same
      have others : ((distinctOn key rows).filter (key · ≠ key row)).filter (key · = key row) = [] := by
        rw [List.filter_eq_nil_iff]
        intro other listed
        simpa using (List.mem_filter.mp listed).2
      rw [distinctOn, List.filter_cons_of_pos (by simp), others, List.find?_cons_of_pos (by simp)]
      rfl
    · have kept : ((distinctOn key rows).filter (key · ≠ key row)).filter (key · = wanted) =
          (distinctOn key rows).filter (key · = wanted) := by
        rw [List.filter_filter]
        apply List.filter_congr
        intro other _
        by_cases equal : key other = wanted
        · simp [equal, Ne.symm same]
        · simp [equal]
      rw [distinctOn, List.filter_cons_of_neg (by simpa using same), kept, ih,
        List.find?_cons_of_neg (by simpa using same)]

end Distinct

/-- The first row of an ordered query that meets a condition comes before all others that do. -/
theorem find?_insertionSort {Row : Type} {before : Row → Row → Prop} [DecidableRel before] [Std.Total before]
    [IsTrans Row before] {rows : List Row} {p : Row → Bool} {found : Row}
    (first : (rows.insertionSort before).find? p = some found) :
    found ∈ rows ∧ p found ∧ ∀ row ∈ rows, p row → row = found ∨ before found row := by
  have ordered := List.pairwise_insertionSort before rows
  obtain ⟨meets, earlier, later, sorted, skipped⟩ := List.find?_eq_some_iff_append.mp first
  rw [sorted] at ordered
  have within : ∀ row, row ∈ rows ↔ row ∈ earlier ++ found :: later := by
    intro row
    rw [← sorted, List.mem_insertionSort]
  refine ⟨(within found).mpr (List.mem_append_right _ List.mem_cons_self), meets, ?_⟩
  intro row listed also
  rcases List.mem_append.mp ((within row).mp listed) with impossible | rest
  · have refused := skipped row impossible
    rw [also] at refused
    cases refused
  · rcases List.mem_cons.mp rest with same | after
    · exact .inl same
    · exact .inr (List.rel_of_pairwise_cons (List.pairwise_append.mp ordered).2.1 after)

/-- The first row of an ordered query comes before all others. -/
theorem head?_insertionSort {Row : Type} {before : Row → Row → Prop} [DecidableRel before] [Std.Total before]
    [IsTrans Row before] {rows : List Row} {found : Row} (first : (rows.insertionSort before).head? = some found) :
    found ∈ rows ∧ ∀ row ∈ rows, row = found ∨ before found row := by
  have any : (rows.insertionSort before).find? (fun _ => true) = some found := by
    rw [← first]
    cases rows.insertionSort before <;> rfl
  obtain ⟨member, _, least⟩ := find?_insertionSort any
  exact ⟨member, fun row listed => least row listed rfl⟩

section Top
variable {Row Column : Type} [LinearOrder Column] {column : Row → Column} {limit : Nat} {matching rows : List Row}
  {row : Row}

/-- What `ORDER BY column DESC LIMIT limit` may answer. Rows with one value stand in any order. -/
structure Top (column : Row → Column) (limit : Nat) (matching rows : List Row) : Prop where
  distinct : rows.Nodup
  listed : ∀ row ∈ rows, row ∈ matching
  ordered : rows.Pairwise (descending column)
  bounded : rows.length ≤ limit
  whole : ∀ row ∈ matching, row ∉ rows → rows.length = limit ∧ ∀ shown ∈ rows, column row ≤ column shown

instance [DecidableEq Row] : Decidable (Top column limit matching rows) :=
  decidable_of_iff (rows.Nodup ∧ (∀ row ∈ rows, row ∈ matching) ∧ rows.Pairwise (descending column) ∧
      rows.length ≤ limit ∧
        ∀ row ∈ matching, row ∉ rows → rows.length = limit ∧ ∀ shown ∈ rows, column row ≤ column shown)
    ⟨fun ⟨distinct, listed, ordered, bounded, whole⟩ => ⟨distinct, listed, ordered, bounded, whole⟩,
      fun ⟨distinct, listed, ordered, bounded, whole⟩ => ⟨distinct, listed, ordered, bounded, whole⟩⟩

theorem Top.nil_iff : Top column limit [] rows ↔ rows = [] := by
  constructor
  · intro top
    exact List.eq_nil_iff_forall_not_mem.mpr fun row shown => List.not_mem_nil (top.listed row shown)
  · rintro rfl
    exact ⟨List.nodup_nil, fun _ => id, .nil, Nat.zero_le _, fun _ impossible => absurd impossible List.not_mem_nil⟩

/-- A row is shown if no more rows than the limit are as great as it is. -/
theorem Top.shows (top : Top column limit matching rows) (member : row ∈ matching)
    (few : (matching.filter (column row ≤ column ·)).length ≤ limit) : row ∈ rows := by
  by_contra omitted
  obtain ⟨full, above⟩ := top.whole row member omitted
  have distinct : (row :: rows).Nodup := List.nodup_cons.mpr ⟨omitted, top.distinct⟩
  have within : row :: rows ⊆ matching.filter (column row ≤ column ·) := by
    intro shown listed
    rcases List.mem_cons.mp listed with rfl | later
    · exact List.mem_filter.mpr ⟨member, decide_eq_true (le_refl _)⟩
    · exact List.mem_filter.mpr ⟨top.listed shown later, decide_eq_true (above shown later)⟩
  have counted := (List.subperm_of_subset distinct within).length_le
  rw [List.length_cons, full] at counted
  omega

/-- A row is shown only if fewer rows than the limit are greater. -/
theorem Top.few (top : Top column limit matching rows) (distinct : matching.Nodup) (member : row ∈ rows) :
    (matching.filter (column row < column ·)).length < limit := by
  have fresh : row ∉ matching.filter (column row < column ·) := by
    intro listed
    exact absurd (of_decide_eq_true (List.mem_filter.mp listed).2) (lt_irrefl _)
  have within : row :: matching.filter (column row < column ·) ⊆ rows := by
    intro shown listed
    rcases List.mem_cons.mp listed with rfl | greater
    · exact member
    · obtain ⟨meets, above⟩ := List.mem_filter.mp greater
      by_contra omitted
      exact absurd (of_decide_eq_true above) (not_lt.mpr ((top.whole shown meets omitted).2 row member))
  have counted := (List.subperm_of_subset (List.nodup_cons.mpr ⟨fresh, distinct.filter _⟩) within).length_le
  rw [List.length_cons] at counted
  exact Nat.lt_of_lt_of_le counted top.bounded

/-- The first rows of any ordered list of the matching rows are an answer. -/
theorem Top.take {sorted : List Row} (distinct : sorted.Nodup) (ordered : sorted.Pairwise (descending column))
    (same : ∀ row, row ∈ sorted ↔ row ∈ matching) (limit : Nat) : Top column limit matching (sorted.take limit) where
  distinct := (List.take_sublist _ _).nodup distinct
  listed := fun row member => (same row).mp (List.mem_of_mem_take member)
  ordered := ordered.sublist (List.take_sublist _ _)
  bounded := List.length_take_le _ _
  whole := by
    intro row member omitted
    have listed := (same row).mpr member
    rw [← List.take_append_drop limit sorted] at listed ordered
    have later := (List.mem_append.mp listed).resolve_left omitted
    refine ⟨?_, fun shown first => (List.pairwise_append.mp ordered).2.2 shown first row later⟩
    have left := List.length_pos_of_mem later
    rw [List.length_drop] at left
    rw [List.length_take]
    omega

/-- If fewer rows than the limit are greater, some answer shows the row. -/
theorem Top.exists_showing (distinct : matching.Nodup) (member : row ∈ matching)
    (few : (matching.filter (column row < column ·)).length < limit) :
    ∃ rows, Top column limit matching rows ∧ row ∈ rows := by
  classical
  let greater := (matching.filter (column row < column ·)).insertionSort (descending column)
  let rest := (matching.filter (fun other => column other ≤ column row ∧ other ≠ row)).insertionSort (descending column)
  have above : ∀ other, other ∈ greater ↔ other ∈ matching ∧ column row < column other := by
    intro other
    rw [List.mem_insertionSort, List.mem_filter, decide_eq_true_eq]
  have below : ∀ other, other ∈ rest ↔ other ∈ matching ∧ column other ≤ column row ∧ other ≠ row := by
    intro other
    rw [List.mem_insertionSort, List.mem_filter, decide_eq_true_eq]
  have unequal : (greater ++ row :: rest).Nodup := by
    rw [List.nodup_append, List.nodup_cons]
    refine ⟨(List.perm_insertionSort _ _).nodup_iff.mpr (distinct.filter _), ⟨?_, ?_⟩, ?_⟩
    · intro listed
      exact ((below row).mp listed).2.2 rfl
    · exact (List.perm_insertionSort _ _).nodup_iff.mpr (distinct.filter _)
    · rintro first listed second later rfl
      have low := ((above first).mp listed).2
      rcases List.mem_cons.mp later with rfl | last
      · exact lt_irrefl _ low
      · exact absurd low (not_lt.mpr ((below first).mp last).2.1)
  have ordered : (greater ++ row :: rest).Pairwise (descending column) := by
    rw [List.pairwise_append, List.pairwise_cons]
    refine ⟨List.pairwise_insertionSort _ _, ⟨?_, List.pairwise_insertionSort _ _⟩, ?_⟩
    · intro other listed
      exact ((below other).mp listed).2.1
    · intro first listed second later
      have low := ((above first).mp listed).2
      rcases List.mem_cons.mp later with rfl | last
      · exact low.le
      · exact ((below second).mp last).2.1.trans low.le
  have same : ∀ other, other ∈ greater ++ row :: rest ↔ other ∈ matching := by
    intro other
    rw [List.mem_append, List.mem_cons, above, below]
    constructor
    · rintro (⟨listed, _⟩ | rfl | ⟨listed, _⟩)
      · exact listed
      · exact member
      · exact listed
    · intro listed
      rcases lt_or_ge (column row) (column other) with high | low
      · exact .inl ⟨listed, high⟩
      · by_cases equal : other = row
        · exact .inr (.inl equal)
        · exact .inr (.inr ⟨listed, low, equal⟩)
  refine ⟨_, Top.take unequal ordered same limit, ?_⟩
  have counted : greater.length < limit := by rwa [List.length_insertionSort]
  obtain ⟨extra, rfl⟩ := Nat.exists_eq_add_of_lt counted
  rw [Nat.add_assoc, List.take_append, List.take_of_length_le (Nat.le_add_right _ _), Nat.add_sub_cancel_left]
  exact List.mem_append_right _ List.mem_cons_self

/-- Dropping a condition does no harm exactly if every row that can be shown meets it. -/
theorem Top.all_meet {meets : Row → Bool} (distinct : matching.Nodup) :
    (∀ rows, Top column limit matching rows → ∀ row ∈ rows, meets row) ↔
      ∀ row ∈ matching, (matching.filter (column row < column ·)).length < limit → meets row := by
  constructor
  · intro right row member few
    obtain ⟨rows, top, shown⟩ := Top.exists_showing distinct member few
    exact right rows top row shown
  · intro harmless rows top row shown
    exact harmless row (top.listed row shown) (top.few distinct shown)

/-- An answer whose rows all meet a further condition is an answer to the narrower query. -/
theorem Top.narrow {meets : Row → Bool} (top : Top column limit matching rows) (all : ∀ row ∈ rows, meets row) :
    Top column limit (matching.filter meets) rows where
  distinct := top.distinct
  listed := fun row member => List.mem_filter.mpr ⟨top.listed row member, all row member⟩
  ordered := top.ordered
  bounded := top.bounded
  whole := fun row member => top.whole row (List.mem_filter.mp member).1

/-- `ORDER BY column DESC`, cut off where there is a limit. A negative limit is an error. -/
def Page (column : Row → Column) (limit : Option Int) (matching rows : List Row) : Prop :=
  match limit with
  | none => rows.Perm matching ∧ rows.Pairwise (descending column)
  | some limit => 0 ≤ limit ∧ Top column limit.toNat matching rows

end Top

end Library
