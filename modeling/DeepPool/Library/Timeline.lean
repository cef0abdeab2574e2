import Mathlib.Data.List.Basic
import Mathlib.Algebra.Order.Ring.Nat
import Mathlib.Tactic.Linarith

/-! A record of what held over consecutive intervals of time, newest first, and
time-weighted sums and averages over a part of it. -/

namespace Library

structure Interval (α : Type) where
  stop : Nat
  elapsed : Nat
  held : α

abbrev Timeline (α : Type) := List (Interval α)

namespace Timeline
variable {α : Type}

def latest (start : Nat) : Timeline α → Nat
  | [] => start
  | interval :: _ => interval.stop

/-- Every interval begins where the one before it stopped, the first one at the start. -/
def Chained (start : Nat) : Timeline α → Prop
  | [] => True
  | interval :: rest => interval.stop = latest start rest + interval.elapsed ∧ 0 < interval.elapsed ∧ Chained start rest

def weight (value : α → Nat) : Timeline α → Nat
  | [] => 0
  | interval :: rest => value interval.held * interval.elapsed + weight value rest

def duration : Timeline α → Nat
  | [] => 0
  | interval :: rest => interval.elapsed + duration rest

def upTo (time : Nat) (timeline : Timeline α) : Timeline α := timeline.filter fun interval => interval.stop ≤ time

def since (time : Nat) (timeline : Timeline α) : Timeline α := timeline.filter fun interval => time < interval.stop

variable {start time bound : Nat} {timeline : Timeline α} {interval : Interval α} {value other : α → Nat}

theorem mem_since : interval ∈ timeline.since time ↔ interval ∈ timeline ∧ time < interval.stop := by
  simp [since]

theorem upTo_cons_later (later : time < interval.stop) : upTo time (interval :: timeline) = upTo time timeline := by
  simp [upTo, not_le.mpr later]

theorem since_cons_later (later : time < interval.stop) :
    since time (interval :: timeline) = interval :: since time timeline := by
  simp [since, later]

theorem upTo_cons_earlier (earlier : interval.stop ≤ time) :
    upTo time (interval :: timeline) = interval :: upTo time timeline := by
  simp [upTo, earlier]

theorem since_cons_earlier (earlier : interval.stop ≤ time) :
    since time (interval :: timeline) = since time timeline := by
  simp [since, not_lt.mpr earlier]

/-- Cutting the record at any time loses nothing. -/
theorem weight_split (value : α → Nat) (time : Nat) (timeline : Timeline α) :
    weight value (timeline.upTo time) + weight value (timeline.since time) = weight value timeline := by
  induction timeline with
  | nil => rfl
  | cons interval rest ih =>
    by_cases later : time < interval.stop
    · rw [upTo_cons_later later, since_cons_later later, weight, weight]
      omega
    · rw [upTo_cons_earlier (not_lt.mp later), since_cons_earlier (not_lt.mp later), weight, weight]
      omega

theorem weight_congr (same : ∀ interval ∈ timeline, value interval.held = other interval.held) :
    weight value timeline = weight other timeline := by
  induction timeline with
  | nil => rfl
  | cons interval rest ih =>
    rw [weight, weight, same interval List.mem_cons_self,
      ih fun interval member => same interval (List.mem_cons_of_mem _ member)]

theorem Chained.stop_le (chained : Chained start timeline) (member : interval ∈ timeline) :
    interval.stop ≤ latest start timeline := by
  induction timeline with
  | nil => cases member
  | cons first rest ih =>
    obtain ⟨stop, _, chained⟩ := chained
    simp only [latest]
    rcases List.mem_cons.mp member with rfl | member
    · exact le_refl _
    · have earlier := ih chained member
      omega

theorem Chained.since_latest (chained : Chained start timeline) : since (latest start timeline) timeline = [] := by
  rw [since, List.filter_eq_nil_iff]
  intro interval member
  simpa using chained.stop_le member

theorem Chained.upTo_latest (chained : Chained start timeline) : upTo (latest start timeline) timeline = timeline := by
  rw [upTo, List.filter_eq_self]
  intro interval member
  simpa using chained.stop_le member

/-- The intervals after one of the stops fill the time since then exactly. -/
theorem Chained.duration_since (chained : Chained start timeline)
    (stopped : ∃ interval ∈ timeline, interval.stop = time) :
    time + duration (timeline.since time) = latest start timeline := by
  induction timeline with
  | nil => simp at stopped
  | cons first rest ih =>
    have whole := chained
    obtain ⟨stop, positive, chained⟩ := chained
    obtain ⟨interval, member, rfl⟩ := stopped
    rcases List.mem_cons.mp member with rfl | member
    · have nothing := whole.since_latest
      simp only [latest] at nothing ⊢
      rw [nothing]
      rfl
    · have earlier := chained.stop_le member
      have rest := ih chained ⟨interval, member, rfl⟩
      rw [since_cons_later (by omega), duration, latest]
      omega

theorem weight_le (bounded : ∀ interval ∈ timeline, value interval.held ≤ bound) :
    weight value timeline ≤ bound * duration timeline := by
  induction timeline with
  | nil => exact le_refl _
  | cons interval rest ih =>
    have first := Nat.mul_le_mul_right interval.elapsed (bounded interval List.mem_cons_self)
    have others := ih fun interval member => bounded interval (List.mem_cons_of_mem _ member)
    rw [weight, duration, Nat.mul_add]
    omega

theorem le_weight (bounded : ∀ interval ∈ timeline, bound ≤ value interval.held) :
    bound * duration timeline ≤ weight value timeline := by
  induction timeline with
  | nil => exact le_refl _
  | cons interval rest ih =>
    have first := Nat.mul_le_mul_right interval.elapsed (bounded interval List.mem_cons_self)
    have others := ih fun interval member => bounded interval (List.mem_cons_of_mem _ member)
    rw [weight, duration, Nat.mul_add]
    omega

/-- The average lies between two values that were held, even after rounding down. -/
theorem average_between (value : α → Nat) (positive : 0 < duration timeline) :
    (∃ interval ∈ timeline, value interval.held ≤ weight value timeline / duration timeline) ∧
      ∃ interval ∈ timeline, weight value timeline / duration timeline ≤ value interval.held := by
  constructor
  · by_contra none
    have above : ∀ interval ∈ timeline, weight value timeline / duration timeline + 1 ≤ value interval.held := by
      intro interval member
      by_contra small
      exact none ⟨interval, member, by omega⟩
    have whole := le_weight above
    have next := Nat.lt_mul_div_succ (weight value timeline) positive
    rw [Nat.mul_comm] at next
    omega
  · by_contra none
    have below : ∀ interval ∈ timeline, value interval.held ≤ weight value timeline / duration timeline - 1 := by
      intro interval member
      by_contra large
      exact none ⟨interval, member, by omega⟩
    have nonzero : 0 < weight value timeline / duration timeline := by
      rcases timeline with _ | ⟨first, rest⟩
      · simp [duration] at positive
      · by_contra zero
        exact none ⟨first, List.mem_cons_self, by omega⟩
    have whole := weight_le below
    have floor := Nat.div_mul_le_self (weight value timeline) (duration timeline)
    obtain ⟨rest, split⟩ := Nat.exists_eq_add_of_lt nonzero
    rw [split] at whole floor
    simp only [Nat.zero_add, Nat.add_sub_cancel] at whole floor
    rw [Nat.add_mul, Nat.one_mul] at floor
    omega

end Timeline
end Library
