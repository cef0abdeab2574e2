import Mathlib.Data.Int.Log
import Mathlib.Data.Rat.Floor
import Mathlib.Data.Nat.Cast.Order.Field
import Mathlib.Tactic.Linarith
import Mathlib.Tactic.Ring
import Mathlib.Tactic.Positivity

/-! Binary floating point on exact rationals: every operation is the exact one rounded
to the nearest number with 53 significant bits, ties to even. Exponents are unbounded,
so there is no overflow and no subnormal number. -/

namespace Library

/-- The nearest integer, of two equally near ones the even one. -/
def nearestInt (x : ℚ) : ℤ :=
  let low := ⌊x⌋
  if x - low < 1 / 2 then low
  else if 1 / 2 < x - low then low + 1
  else if low % 2 = 0 then low else low + 1

namespace Double

/-- The distance between neighbouring numbers of that magnitude. -/
def spacing (x : ℚ) : ℚ := 2 ^ (Int.log 2 |x| - 52)

def round (x : ℚ) : ℚ := nearestInt (x / spacing x) * spacing x

def add (a b : ℚ) : ℚ := round (a + b)
def sub (a b : ℚ) : ℚ := round (a - b)
def mul (a b : ℚ) : ℚ := round (a * b)
def div (a b : ℚ) : ℚ := round (a / b)
def floor (a : ℚ) : ℚ := ⌊a⌋

end Double

theorem floor_le_nearestInt (x : ℚ) : ⌊x⌋ ≤ nearestInt x := by
  unfold nearestInt
  simp only
  split
  · exact le_refl _
  · split
    · omega
    · split <;> omega

theorem nearestInt_near (x : ℚ) : |(nearestInt x : ℚ) - x| ≤ 1 / 2 := by
  have below := Int.floor_le x
  have above := Int.lt_floor_add_one x
  unfold nearestInt
  simp only
  split
  next near =>
    rw [abs_le]
    constructor <;> linarith
  next far =>
    split
    · push_cast
      rw [abs_le]
      constructor <;> linarith
    next half =>
      split
      · rw [abs_le]
        constructor <;> linarith
      · push_cast
        rw [abs_le]
        constructor <;> linarith

theorem nearestInt_cast (n : ℤ) : nearestInt (n : ℚ) = n := by
  unfold nearestInt
  simp only [Int.floor_intCast, sub_self]
  rw [if_pos (by norm_num)]

namespace Double

theorem spacing_pos (x : ℚ) : 0 < spacing x := zpow_pos (by norm_num) _

/-- Rounding moves a number by half a spacing at most. -/
theorem round_near (x : ℚ) : |round x - x| ≤ spacing x / 2 := by
  have positive := spacing_pos x
  have near := nearestInt_near (x / spacing x)
  have scaled : round x - x = (nearestInt (x / spacing x) - x / spacing x) * spacing x := by
    rw [round, sub_mul, div_mul_cancel₀ _ (ne_of_gt positive)]
  rw [scaled, abs_mul, abs_of_pos positive]
  calc |(nearestInt (x / spacing x) : ℚ) - x / spacing x| * spacing x ≤ 1 / 2 * spacing x :=
        mul_le_mul_of_nonneg_right near (le_of_lt positive)
    _ = spacing x / 2 := by ring

/-- A positive number is at least 2 ^ 52 spacings large, and less than twice that. -/
theorem spacing_le {x : ℚ} (positive : 0 < x) : 2 ^ 52 * spacing x ≤ x := by
  have power := Int.zpow_log_le_self (R := ℚ) (b := 2) (by decide) positive
  rw [spacing, abs_of_pos positive, zpow_sub₀ (by norm_num)]
  norm_num at power ⊢
  linarith

/-- A whole number of spacings is a number, so rounding never crosses it. -/
theorem le_round {x : ℚ} {n : ℤ} (below : n * spacing x ≤ x) : n * spacing x ≤ round x := by
  have positive := spacing_pos x
  have quotient : (n : ℚ) ≤ x / spacing x := (le_div_iff₀ positive).mpr below
  have whole : n ≤ nearestInt (x / spacing x) := le_trans (Int.le_floor.mpr quotient) (floor_le_nearestInt _)
  exact mul_le_mul_of_nonneg_right (by exact_mod_cast whole) (le_of_lt positive)

/-- Below 2 ^ 53 a spacing divides one. -/
private theorem spacing_of_lt {x : ℚ} (positive : 0 < x) (small : x < 2 ^ 53) : ∃ k : ℕ, spacing x * 2 ^ k = 1 := by
  have bounded : Int.log 2 |x| < 53 := by
    rw [abs_of_pos positive, ← Int.lt_zpow_iff_log_lt (by decide) positive]
    exact_mod_cast small
  refine ⟨(52 - Int.log 2 |x|).toNat, ?_⟩
  rw [spacing, ← zpow_natCast, ← zpow_add₀ (by norm_num), Int.toNat_of_nonneg (by omega)]
  norm_num

theorem round_natCast {n : ℕ} (small : n < 2 ^ 53) : round n = n := by
  rcases Nat.eq_zero_or_pos n with rfl | positive
  · simp [round, nearestInt]
  · have large : (0 : ℚ) < n := by exact_mod_cast positive
    obtain ⟨k, unit⟩ := spacing_of_lt large (by exact_mod_cast small)
    have nonzero := ne_of_gt (spacing_pos (n : ℚ))
    have whole : (n : ℚ) / spacing n = ((n * 2 ^ k : ℤ) : ℚ) := by
      rw [div_eq_iff nonzero]
      push_cast
      rw [mul_assoc, mul_comm (2 ^ k : ℚ), unit, mul_one]
    rw [round, whole, nearestInt_cast]
    push_cast
    rw [mul_assoc, mul_comm (2 ^ k : ℚ), unit, mul_one]

theorem mul_natCast {a b : ℕ} (small : a * b < 2 ^ 53) : mul a b = ((a * b : ℕ) : ℚ) := by
  rw [mul, ← Nat.cast_mul, round_natCast small]

theorem sub_natCast {a b : ℕ} (small : a < 2 ^ 53) (ordered : b ≤ a) : sub a b = ((a - b : ℕ) : ℚ) := by
  rw [sub, ← Nat.cast_sub ordered, round_natCast (by omega)]

theorem round_nonneg {x : ℚ} (nonneg : 0 ≤ x) : 0 ≤ round x := by
  have bound := le_round (x := x) (n := 0) (by simpa using nonneg)
  simpa using bound

/-- Rounding keeps the sign. -/
theorem round_nonpos_iff {x : ℚ} : round x ≤ 0 ↔ x ≤ 0 := by
  have positive := spacing_pos x
  constructor
  · intro nonpos
    by_contra large
    have bound := le_round (x := x) (n := 2 ^ 52) (by exact_mod_cast spacing_le (not_le.mp large))
    push_cast at bound
    linarith
  · intro nonpos
    have near := (abs_le.mp (nearestInt_near (x / spacing x))).2
    have quotient : x / spacing x ≤ 0 := div_nonpos_of_nonpos_of_nonneg nonpos (le_of_lt positive)
    have below : (nearestInt (x / spacing x) : ℚ) < 1 := by linarith
    have whole : nearestInt (x / spacing x) ≤ 0 := Int.lt_add_one_iff.mp (by exact_mod_cast below)
    exact mul_nonpos_of_nonpos_of_nonneg (by exact_mod_cast whole) (le_of_lt positive)

theorem sub_nonpos_iff {a b : ℚ} : sub a b ≤ 0 ↔ a ≤ b := round_nonpos_iff.trans sub_nonpos

/-- A number of 2 ^ 53 or more stays there. -/
theorem le_round_of_le {x : ℚ} (large : 2 ^ 53 ≤ x) : 2 ^ 53 ≤ round x := by
  have positive : 0 < x := lt_of_lt_of_le (by norm_num) large
  have least : (53 : ℤ) ≤ Int.log 2 |x| := by
    rw [abs_of_pos positive, ← Int.zpow_le_iff_le_log (by decide) positive]
    exact_mod_cast large
  have unit : (2 : ℚ) ≤ spacing x := by
    have grown := zpow_le_zpow_right₀ (a := (2 : ℚ)) (by norm_num) (show (1 : ℤ) ≤ Int.log 2 |x| - 52 by omega)
    simpa [spacing] using grown
  have bound := le_round (x := x) (n := 2 ^ 52) (by exact_mod_cast spacing_le positive)
  push_cast at bound
  linarith

/-- The relative error is at most one part in 2 ^ 53. -/
theorem round_le {x : ℚ} (nonneg : 0 ≤ x) : round x ≤ x + x / 2 ^ 53 := by
  rcases eq_or_lt_of_le nonneg with rfl | positive
  · simp [round, nearestInt]
  · have near := (abs_le.mp (round_near x)).2
    have unit := spacing_le positive
    linarith

/-- A quotient of whole numbers never rounds up to the next whole number, as long as
the numerator is below 2 ^ 53. -/
theorem floor_div_natCast {a b : ℕ} (small : a < 2 ^ 53) (positive : 0 < b) :
    floor (div a b) = ((a / b : ℕ) : ℚ) := by
  rcases Nat.eq_zero_or_pos a with rfl | numerator
  · simp [floor, div, round, nearestInt]
  have denominator : (0 : ℚ) < b := by exact_mod_cast positive
  have quotient : (0 : ℚ) < a / b := div_pos (by exact_mod_cast numerator) denominator
  have bounded : (a : ℚ) < 2 ^ 53 := by exact_mod_cast small
  have one : (1 : ℚ) ≤ b := by exact_mod_cast positive
  have below : ((a / b : ℕ) : ℚ) ≤ a / b := Nat.cast_div_le
  have above : (a : ℚ) / b + 1 / b ≤ ((a / b : ℕ) : ℚ) + 1 := by
    have next : a + 1 ≤ (a / b + 1) * b := by
      have whole := Nat.lt_mul_div_succ a positive
      rw [Nat.mul_comm] at whole
      exact whole
    rw [← add_div, div_le_iff₀ denominator]
    exact_mod_cast next
  have lower : ((a / b : ℕ) : ℚ) ≤ round (a / b) := by
    have within : (a : ℚ) / b < 2 ^ 53 := lt_of_le_of_lt (div_le_self (by positivity) one) bounded
    obtain ⟨k, unit⟩ := spacing_of_lt quotient within
    have whole : (((a / b * 2 ^ k : ℕ) : ℤ) : ℚ) * spacing (a / b) = ((a / b : ℕ) : ℚ) := by
      rw [Int.cast_natCast, Nat.cast_mul, Nat.cast_pow, Nat.cast_ofNat]
      rw [mul_assoc, mul_comm (2 ^ k : ℚ), unit, mul_one]
    have reached := le_round (x := (a : ℚ) / b) (n := ((a / b * 2 ^ k : ℕ) : ℤ)) (by rw [whole]; exact below)
    rwa [whole] at reached
  have upper : round (a / b) < ((a / b : ℕ) : ℚ) + 1 := by
    have error : (a : ℚ) / b / 2 ^ 53 < 1 / b := by
      rw [div_div, mul_comm, ← div_div, div_lt_div_iff_of_pos_right denominator, div_lt_one (by norm_num)]
      exact bounded
    have rounded := round_le (le_of_lt quotient)
    linarith
  have exact_ : ⌊round ((a : ℚ) / b)⌋ = ((a / b : ℕ) : ℤ) := by
    rw [Int.floor_eq_iff]
    exact ⟨by exact_mod_cast lower, by exact_mod_cast upper⟩
  rw [floor, div, exact_]
  norm_cast

/-- The same with a rounded denominator: if it is too large to be exact, the quotient is below one. -/
theorem floor_div_round {a b : ℕ} (small : a < 2 ^ 53) (positive : 0 < b) :
    floor (div a (round b)) = ((a / b : ℕ) : ℚ) := by
  by_cases exact_ : b < 2 ^ 53
  · rw [round_natCast exact_, floor_div_natCast small positive]
  · have large := le_round_of_le (x := (b : ℚ)) (by exact_mod_cast not_lt.mp exact_)
    have denominator : (0 : ℚ) < round b := lt_of_lt_of_le (by norm_num) large
    have numerator : (a : ℚ) ≤ 2 ^ 53 - 1 := by
      have next : ((a + 1 : ℕ) : ℚ) ≤ 2 ^ 53 := by exact_mod_cast small
      push_cast at next
      linarith
    have nonneg : (0 : ℚ) ≤ a / round b := div_nonneg (by positivity) (le_of_lt denominator)
    have quotient : (a : ℚ) / round b ≤ (2 ^ 53 - 1) / 2 ^ 53 := div_le_div₀ (by norm_num) numerator (by norm_num) large
    have rounded := round_le nonneg
    have below : round (a / round b) < 1 := by
      norm_num at quotient rounded ⊢
      linarith
    have nothing : ⌊round ((a : ℚ) / round b)⌋ = 0 := Int.floor_eq_zero_iff.mpr ⟨round_nonneg nonneg, below⟩
    rw [floor, div, nothing, Nat.div_eq_of_lt (lt_of_lt_of_le small (not_lt.mp exact_))]
    norm_num

end Double
end Library
