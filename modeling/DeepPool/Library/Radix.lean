import Mathlib.Data.Nat.Digits.Lemmas

/-! Digit lists: a change of base that keeps leading zeros loses nothing, and neither
do the little-endian digits of a number that fits them. -/

namespace Library

section Convert

/-- Big-endian digits of one base as big-endian digits of another. A leading zero
stays a leading zero. -/
def convert (source target : Nat) : List Nat → List Nat
  | 0 :: digits => 0 :: convert source target digits
  | digits => (Nat.digits target (Nat.ofDigits source digits.reverse)).reverse

variable {source target : Nat} {digits : List Nat}

private theorem convert_significant (significant : digits.head? ≠ some 0) :
    convert source target digits = (Nat.digits target (Nat.ofDigits source digits.reverse)).reverse := by
  cases digits with
  | nil => rfl
  | cons first rest =>
    cases first with
    | zero => exact absurd rfl significant
    | succ first => rfl

private theorem digits_significant (base value : Nat) : (Nat.digits base value).reverse.head? ≠ some 0 := by
  intro zero
  rw [List.head?_reverse] at zero
  have positive : value ≠ 0 := by
    rintro rfl
    rw [Nat.digits_zero] at zero
    cases zero
  have last := Nat.getLast_digit_ne_zero base positive
  rw [List.getLast?_eq_some_getLast (Nat.digits_ne_nil_iff_ne_zero.mpr positive)] at zero
  exact last (Option.some.inj zero)

theorem convert_lt (large : 1 < target) : ∀ digit ∈ convert source target digits, digit < target := by
  fun_induction convert source target digits with
  | case1 digits ih =>
    intro digit member
    rcases List.mem_cons.mp member with rfl | later
    · exact Nat.lt_of_lt_of_le Nat.zero_lt_one (le_of_lt large)
    · exact ih digit later
  | case2 digits =>
    intro digit member
    exact Nat.digits_lt_base large (List.mem_reverse.mp member)

theorem convert_convert (wide : 1 < source) (small : ∀ digit ∈ digits, digit < source) :
    convert target source (convert source target digits) = digits := by
  fun_induction convert source target digits with
  | case1 digits ih =>
    rw [convert, ih fun digit member => small digit (List.mem_cons_of_mem _ member)]
  | case2 digits significant =>
    rw [convert_significant (digits_significant _ _), List.reverse_reverse, Nat.ofDigits_digits,
      Nat.digits_ofDigits source wide]
    · exact List.reverse_reverse _
    · intro digit member
      exact small digit (List.mem_reverse.mp member)
    · intro present
      rw [List.getLast_reverse]
      cases digits with
      | nil => exact absurd rfl present
      | cons first rest =>
        rintro rfl
        exact significant _ rfl

end Convert

section LittleEndian

/-- The lowest digits of a number, lowest first. -/
def littleEndian (base : Nat) : Nat → Nat → List Nat
  | 0, _ => []
  | width + 1, value => value % base :: littleEndian base width (value / base)

variable {base width value : Nat} {digits : List Nat}

@[simp] theorem littleEndian_length : (littleEndian base width value).length = width := by
  induction width generalizing value with
  | zero => rfl
  | succ width ih => rw [littleEndian, List.length_cons, ih]

theorem littleEndian_lt (positive : 0 < base) : ∀ digit ∈ littleEndian base width value, digit < base := by
  induction width generalizing value with
  | zero =>
    intro digit member
    cases member
  | succ width ih =>
    intro digit member
    rcases List.mem_cons.mp member with rfl | later
    · exact Nat.mod_lt _ positive
    · exact ih digit later

theorem ofDigits_littleEndian (fits : value < base ^ width) :
    Nat.ofDigits base (littleEndian base width value) = value := by
  induction width generalizing value with
  | zero =>
    rw [Nat.pow_zero, Nat.lt_one_iff] at fits
    rw [fits]
    rfl
  | succ width ih =>
    have rest : value / base < base ^ width := Nat.div_lt_of_lt_mul (by rwa [Nat.pow_succ, Nat.mul_comm] at fits)
    rw [littleEndian, Nat.ofDigits_cons, ih rest]
    exact Nat.mod_add_div value base

theorem littleEndian_ofDigits (small : ∀ digit ∈ digits, digit < base) :
    littleEndian base digits.length (Nat.ofDigits base digits) = digits := by
  induction digits with
  | nil => rfl
  | cons digit digits ih =>
    have bound := small digit List.mem_cons_self
    have positive : 0 < base := Nat.lt_of_le_of_lt (Nat.zero_le _) bound
    rw [List.length_cons, littleEndian, Nat.ofDigits_cons]
    rw [Nat.add_mul_mod_self_left, Nat.mod_eq_of_lt bound, Nat.add_mul_div_left _ _ positive, Nat.div_eq_of_lt bound,
      Nat.zero_add, ih fun later member => small later (List.mem_cons_of_mem _ member)]

end LittleEndian
end Library
