import Mathlib.Data.Vector.Basic
import Mathlib.Data.List.GetD
import Mathlib.Data.List.Perm.Subperm

/-! A circular buffer that overwrites its oldest entry, seen as the first entries of
an unbounded log that grows at the front. -/

namespace Library

/-- Where the entry of the given age stands when the next write goes to `head`. -/
def ringIndex (size head age : Nat) : Nat := if age < head then head - 1 - age else head + size - 1 - age

section Index
variable {size head age index : Nat}

theorem ringIndex_lt (inside : head < size) (young : age < size) : ringIndex size head age < size := by
  unfold ringIndex
  split <;> omega

/-- Every position is the place of exactly one age. -/
theorem ringIndex_surjective (inside : head < size) (within : index < size) :
    ∃ age, age < size ∧ ringIndex size head age = index := by
  by_cases recent : index < head
  · refine ⟨head - 1 - index, by omega, ?_⟩
    unfold ringIndex
    split <;> omega
  · refine ⟨head + size - 1 - index, by omega, ?_⟩
    unfold ringIndex
    split <;> omega

theorem ringIndex_injective {other : Nat} (young : age < size) (fresh : other < size)
    (same : ringIndex size head age = ringIndex size head other) : age = other := by
  unfold ringIndex at same
  split at same <;> split at same <;> omega

theorem ringIndex_perm (inside : head < size) : ((List.range size).map (ringIndex size head)).Perm (List.range size) := by
  have distinct : ((List.range size).map (ringIndex size head)).Nodup := by
    apply List.Nodup.map_on _ List.nodup_range
    intro age young other fresh same
    exact ringIndex_injective (List.mem_range.mp young) (List.mem_range.mp fresh) same
  apply (distinct.subperm _).perm_of_length_le
  · rw [List.length_map]
  · intro index member
    obtain ⟨age, young, rfl⟩ := List.mem_map.mp member
    exact List.mem_range.mpr (ringIndex_lt inside (List.mem_range.mp young))

private theorem next_head (inside : head < size) : (head + 1) % size = if head + 1 = size then 0 else head + 1 := by
  split
  next full =>
    rw [full]
    exact Nat.mod_self size
  next room => exact Nat.mod_eq_of_lt (by omega)

theorem ringIndex_newest (inside : head < size) : ringIndex size ((head + 1) % size) 0 = head := by
  rw [next_head inside]
  unfold ringIndex
  split <;> split <;> omega

theorem ringIndex_older (inside : head < size) (young : age + 1 < size) :
    ringIndex size ((head + 1) % size) (age + 1) = ringIndex size head age ∧ ringIndex size head age ≠ head := by
  rw [next_head inside]
  unfold ringIndex
  constructor
  · split <;> split <;> split <;> omega
  · split <;> omega

end Index

/-- The slots hold the newest entries of the log, and blanks where it is too short. -/
structure Recent {α : Type} {size : Nat} (slots : Vector α size) (head : Nat) (blank : α) (log : List α) : Prop where
  inside : head < size
  entries : ∀ age, age < size → slots[ringIndex size head age]? = some (log.getD age blank)

namespace Recent
variable {α : Type} {size head : Nat} {slots : Vector α size} {blank entry : α} {log : List α}

theorem unwritten (positive : 0 < size) : Recent (Vector.replicate size blank) 0 blank [] := by
  refine ⟨positive, ?_⟩
  intro age young
  rw [Vector.getElem?_replicate, if_pos (ringIndex_lt positive young)]
  rfl

theorem newest (recent : Recent slots head blank log) :
    slots[if head = 0 then size - 1 else head - 1]? = some (log.headD blank) := by
  have positive := Nat.lt_of_le_of_lt (Nat.zero_le head) recent.inside
  have place : (if head = 0 then size - 1 else head - 1) = ringIndex size head 0 := by
    unfold ringIndex
    split <;> split <;> omega
  rw [place, recent.entries 0 positive]
  cases log <;> rfl

theorem write (recent : Recent slots head blank log) (entry : α) :
    Recent (slots.set head entry recent.inside) ((head + 1) % size) blank (entry :: log) := by
  have positive := Nat.lt_of_le_of_lt (Nat.zero_le head) recent.inside
  refine ⟨Nat.mod_lt _ positive, ?_⟩
  intro age young
  cases age with
  | zero =>
    rw [ringIndex_newest recent.inside, Vector.getElem?_set_self]
    rfl
  | succ age =>
    obtain ⟨same, elsewhere⟩ := ringIndex_older recent.inside young
    rw [same, Vector.getElem?_set_ne _ elsewhere.symm, recent.entries age (by omega)]
    rfl

/-- What a scan of all the slots meets, in whatever order. -/
theorem mem_iff (recent : Recent slots head blank log) :
    entry ∈ slots.toList ↔ entry ∈ log.take size ∨ (log.length < size ∧ entry = blank) := by
  rw [Vector.mem_toList_iff, Vector.mem_iff_getElem?]
  constructor
  · rintro ⟨index, found⟩
    obtain ⟨within, _⟩ := Vector.getElem?_eq_some_iff.mp found
    obtain ⟨age, young, rfl⟩ := ringIndex_surjective recent.inside within
    rw [recent.entries age young, Option.some.injEq] at found
    by_cases written : age < log.length
    · left
      rw [List.getD_eq_getElem _ _ written] at found
      rw [← found]
      exact List.mem_take_iff_getElem.mpr ⟨age, by omega, rfl⟩
    · right
      rw [List.getD_eq_default _ _ (by omega)] at found
      exact ⟨by omega, found.symm⟩
  · rintro (logged | ⟨short, rfl⟩)
    · obtain ⟨age, written, rfl⟩ := List.mem_take_iff_getElem.mp logged
      refine ⟨_, (recent.entries age (by omega)).trans ?_⟩
      rw [List.getD_eq_getElem _ _ (by omega)]
    · refine ⟨_, (recent.entries log.length short).trans ?_⟩
      rw [List.getD_eq_default _ _ (le_refl _)]

private theorem getD_range (log : List α) (size : Nat) :
    (List.range size).map (fun age => log.getD age blank) =
      log.take size ++ List.replicate (size - log.length) blank := by
  induction size generalizing log with
  | zero => simp
  | succ size ih =>
    rw [List.range_succ_eq_map, List.map_cons, List.map_map]
    cases log with
    | nil =>
      have rest := ih []
      simp only [List.getD_nil, List.take_nil, List.nil_append, List.length_nil, Nat.sub_zero] at rest ⊢
      rw [List.replicate_succ, ← rest]
      rfl
    | cons first log =>
      rw [List.take_succ_cons, List.cons_append, List.length_cons, Nat.add_sub_add_right, ← ih log]
      rfl

/-- Read in any order, the slots are the newest entries and blanks. -/
theorem perm (recent : Recent slots head blank log) :
    slots.toList.Perm (log.take size ++ List.replicate (size - log.length) blank) := by
  have placed : (List.range size).map (fun index => slots[index]?) = slots.toList.map some := by
    apply List.ext_getElem (by simp)
    intro index left right
    simp only [List.length_map, List.length_range] at left
    simp [left]
  have aged : ((List.range size).map (ringIndex size head)).map (fun index => slots[index]?) =
      ((List.range size).map fun age => log.getD age blank).map some := by
    rw [List.map_map, List.map_map]
    apply List.map_congr_left
    intro age young
    exact recent.entries age (List.mem_range.mp young)
  have moved := (ringIndex_perm recent.inside).map (fun index => slots[index]?)
  rw [aged, placed, getD_range] at moved
  exact ((List.map_perm_map_iff (Option.some_injective α)).mp moved).symm

end Recent

/-! Entries that keep a distance. -/

/-- However old an entry is, the newest one is at least that many gaps ahead of it. -/
theorem spread {α : Type} (key : α → Nat) {gap : Nat} {log : List α} {newest entry : α} {age : Nat}
    (spaced : log.IsChain fun newer older => key older + gap ≤ key newer) (first : log.head? = some newest)
    (placed : log[age]? = some entry) : key entry + age * gap ≤ key newest := by
  induction age generalizing log newest with
  | zero =>
    rw [← List.head?_eq_getElem?, first] at placed
    cases placed
    omega
  | succ age ih =>
    cases log with
    | nil => cases placed
    | cons head log =>
      cases first
      cases log with
      | nil => cases placed
      | cons second log =>
        obtain ⟨apart, spaced⟩ := List.isChain_cons_cons.mp spaced
        rw [List.getElem?_cons_succ] at placed
        have rest := ih spaced rfl placed
        rw [Nat.succ_mul]
        omega

/-! A scan that keeps the first of the greatest entries that pass a test. -/

section Scan
variable {α : Type} (eligible : α → Prop) [DecidablePred eligible] (key : α → Nat)

def keepGreatest (chosen : Option α) (entry : α) : Option α :=
  if eligible entry then
    match chosen with
    | none => some entry
    | some best => if key best < key entry then some entry else some best
  else chosen

variable {eligible key} {chosen : Option α} {entries : List α} {best : α}

private theorem keepGreatest_mem {entry : α} (kept : keepGreatest eligible key chosen entry = some best) :
    chosen = some best ∨ (best = entry ∧ eligible entry) := by
  unfold keepGreatest at kept
  split at kept
  next passes =>
    split at kept
    · exact .inr ⟨(Option.some.inj kept).symm, passes⟩
    · split at kept
      · exact .inr ⟨(Option.some.inj kept).symm, passes⟩
      · exact .inl kept
  · exact .inl kept

private theorem keepGreatest_old (eligible : α → Prop) [DecidablePred eligible] (key : α → Nat) (old entry : α) :
    ∃ kept, keepGreatest eligible key (some old) entry = some kept ∧ key old ≤ key kept := by
  unfold keepGreatest
  split
  · simp only
    split
    next larger => exact ⟨entry, rfl, le_of_lt larger⟩
    · exact ⟨old, rfl, le_refl _⟩
  · exact ⟨old, rfl, le_refl _⟩

private theorem keepGreatest_new {entry : α} (key : α → Nat) (chosen : Option α) (passes : eligible entry) :
    ∃ kept, keepGreatest eligible key chosen entry = some kept ∧ key entry ≤ key kept := by
  unfold keepGreatest
  rw [if_pos passes]
  cases chosen with
  | none => exact ⟨entry, rfl, le_refl _⟩
  | some old =>
    simp only
    split
    · exact ⟨entry, rfl, le_refl _⟩
    next smaller => exact ⟨old, rfl, not_lt.mp smaller⟩

private theorem scan_grows (eligible : α → Prop) [DecidablePred eligible] (key : α → Nat) (entries : List α) (old : α) :
    ∃ kept, entries.foldl (keepGreatest eligible key) (some old) = some kept ∧ key old ≤ key kept := by
  induction entries generalizing old with
  | nil => exact ⟨old, rfl, le_refl _⟩
  | cons entry entries ih =>
    obtain ⟨middle, kept, grown⟩ := keepGreatest_old eligible key old entry
    obtain ⟨last, found, more⟩ := ih middle
    refine ⟨last, ?_, le_trans grown more⟩
    rw [List.foldl_cons, kept]
    exact found

private theorem scan_mem (found : entries.foldl (keepGreatest eligible key) chosen = some best) :
    chosen = some best ∨ (best ∈ entries ∧ eligible best) := by
  induction entries generalizing chosen with
  | nil => exact .inl found
  | cons entry entries ih =>
    rcases ih found with kept | ⟨member, passes⟩
    · rcases keepGreatest_mem kept with old | ⟨rfl, passes⟩
      · exact .inl old
      · exact .inr ⟨List.mem_cons_self, passes⟩
    · exact .inr ⟨List.mem_cons_of_mem _ member, passes⟩

theorem scan_some (found : entries.foldl (keepGreatest eligible key) none = some best) :
    best ∈ entries ∧ eligible best := by
  rcases scan_mem found with impossible | chosen
  · cases impossible
  · exact chosen

/-- An entry that passes is never passed over for a smaller one. -/
theorem scan_greatest (eligible : α → Prop) [DecidablePred eligible] (key : α → Nat) (chosen : Option α) {entry : α}
    (member : entry ∈ entries) (passes : eligible entry) :
    ∃ best, entries.foldl (keepGreatest eligible key) chosen = some best ∧ key entry ≤ key best := by
  induction entries generalizing chosen with
  | nil => cases member
  | cons first entries ih =>
    rcases List.mem_cons.mp member with rfl | later
    · obtain ⟨kept, same, grown⟩ := keepGreatest_new key chosen passes
      obtain ⟨last, found, more⟩ := scan_grows eligible key entries kept
      refine ⟨last, ?_, le_trans grown more⟩
      rw [List.foldl_cons, same]
      exact found
    · exact ih _ later

end Scan
end Library
