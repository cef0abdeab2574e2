import Mathlib.Algebra.Order.Ring.Canonical
import Mathlib.Algebra.Order.Ring.Pow
import Mathlib.Tactic.Ring

/-! Two reserves owned in common by the holders of one kind of share. What a share
is worth is compared by cross multiplication, so nothing is divided and rounding
appears only as the direction of an inequality. -/

namespace Library

structure Pot (α : Type*) where
  first : α
  second : α
  shares : α

namespace Pot
variable {α : Type*} [CommSemiring α] [LinearOrder α] {before middle after : Pot α}

/-- Each reserve, counted per share, is at least what it was. -/
structure Backs (before after : Pot α) : Prop where
  first : before.first * after.shares ≤ after.first * before.shares
  second : before.second * after.shares ≤ after.second * before.shares

/-- The geometric mean of the reserves, counted per share, is at least what it was. -/
def Worth (before after : Pot α) : Prop :=
  before.first * before.second * after.shares ^ 2 ≤ after.first * after.second * before.shares ^ 2

theorem Worth.refl (pot : Pot α) : Worth pot pot := le_refl _

/-- A unit of the second reserve costs at least as much of the first one as before, and
stands for at most as many shares. -/
structure Dearer (before after : Pot α) : Prop where
  first : before.first * after.second ≤ after.first * before.second
  shares : after.shares * before.second ≤ before.shares * after.second

theorem Backs.refl (pot : Pot α) : Backs pot pot := ⟨le_refl _, le_refl _⟩

theorem Dearer.refl (pot : Pot α) : Dearer pot pot := ⟨le_refl _, le_refl _⟩

variable [IsStrictOrderedRing α]

private theorem withdraw_side {reserve left paid shares rest burned : α} (spent : reserve = left + paid)
    (retired : shares = rest + burned) (floored : paid * shares ≤ burned * reserve) :
    reserve * rest ≤ left * shares := by
  apply le_of_add_le_add_right (a := burned * reserve)
  calc reserve * rest + burned * reserve = reserve * shares := by rw [retired]; ring
    _ = left * shares + paid * shares := by rw [spent]; ring
    _ ≤ left * shares + burned * reserve := add_le_add_right floored _

private theorem withdrawn_side {reserve left paid shares rest burned : α} (spent : reserve = left + paid)
    (retired : shares = rest + burned) (kept : reserve * rest ≤ left * shares) : paid * shares ≤ burned * reserve := by
  apply le_of_add_le_add_left (a := reserve * rest)
  calc reserve * rest + paid * shares ≤ left * shares + paid * shares := add_le_add_left kept _
    _ = reserve * shares := by rw [spent]; ring
    _ = reserve * rest + burned * reserve := by rw [retired]; ring

/-- A withdrawal whose payout is rounded down on both sides. -/
theorem Backs.withdraw (firstPaid secondPaid burned : α) (first : before.first = after.first + firstPaid)
    (second : before.second = after.second + secondPaid) (shares : before.shares = after.shares + burned)
    (firstFloored : firstPaid * before.shares ≤ burned * before.first)
    (secondFloored : secondPaid * before.shares ≤ burned * before.second) : Backs before after :=
  ⟨withdraw_side first shares firstFloored, withdraw_side second shares secondFloored⟩

/-- What was paid out for burned shares is covered by what they stood for. -/
theorem Backs.paid_le {firstPaid secondPaid burned : α} (backs : Backs before after)
    (first : before.first = after.first + firstPaid) (second : before.second = after.second + secondPaid)
    (shares : before.shares = after.shares + burned) :
    firstPaid * before.shares ≤ burned * before.first ∧ secondPaid * before.shares ≤ burned * before.second :=
  ⟨withdrawn_side first shares backs.first, withdrawn_side second shares backs.second⟩

theorem Dearer.deposit (pot : Pot α) {charged paid minted : α} (ceiled : paid * pot.first ≤ charged * pot.second)
    (floored : minted * pot.second ≤ paid * pot.shares) :
    Dearer pot ⟨pot.first + charged, pot.second + paid, pot.shares + minted⟩ := by
  constructor
  · simp only [mul_add, add_mul]
    exact add_le_add_right (by rw [mul_comm]; exact ceiled) _
  · simp only [mul_add, add_mul]
    exact add_le_add_right (by rw [mul_comm pot.shares]; exact floored) _

/-- What was issued stands for no more than what was paid in. -/
theorem Backs.issued_le {charged paid minted : α} (backs : Backs before after)
    (first : after.first = before.first + charged) (second : after.second = before.second + paid)
    (shares : after.shares = before.shares + minted) :
    before.first * minted ≤ charged * before.shares ∧ before.second * minted ≤ paid * before.shares := by
  obtain ⟨sol, token⟩ := backs
  rw [first, shares, mul_add, add_mul] at sol
  rw [second, shares, mul_add, add_mul] at token
  exact ⟨le_of_add_le_add_left sol, le_of_add_le_add_left token⟩

/-- Several deposits paid for at least what they brought, at the first price. -/
theorem Dearer.charged_ge {charged paid minted : α} (dearer : Dearer before after)
    (first : after.first = before.first + charged) (second : after.second = before.second + paid)
    (shares : after.shares = before.shares + minted) :
    paid * before.first ≤ charged * before.second ∧ minted * before.second ≤ paid * before.shares := by
  obtain ⟨price, issued⟩ := dearer
  rw [first, second, mul_add, add_mul] at price
  rw [shares, second, mul_add, add_mul] at issued
  constructor
  · rw [mul_comm paid]
    exact le_of_add_le_add_left price
  · rw [mul_comm paid]
    exact le_of_add_le_add_left issued

variable [CanonicallyOrderedAdd α]

theorem Backs.worth (backs : Backs before after) : Worth before after := by
  calc before.first * before.second * after.shares ^ 2
      = before.first * after.shares * (before.second * after.shares) := by ring
    _ ≤ after.first * before.shares * (after.second * before.shares) :=
        mul_le_mul backs.first backs.second zero_le zero_le
    _ = after.first * after.second * before.shares ^ 2 := by ring

/-- Cross multiplied comparisons chain through a positive denominator. -/
theorem cross_trans {a b c x y z : α} (positive : 0 < y) (lower : a * y ≤ b * x) (upper : b * z ≤ c * y) :
    a * z ≤ c * x := by
  apply le_of_mul_le_mul_right _ positive
  calc a * z * y = a * y * z := by ring
    _ ≤ b * x * z := mul_le_mul_of_nonneg_right lower zero_le
    _ = b * z * x := by ring
    _ ≤ c * y * x := mul_le_mul_of_nonneg_right upper zero_le
    _ = c * x * y := by ring

theorem Worth.trans (lower : Worth before middle) (upper : Worth middle after) (positive : 0 < middle.shares) :
    Worth before after :=
  cross_trans (pow_pos positive 2) lower upper

theorem Backs.trans (lower : Backs before middle) (upper : Backs middle after) (positive : 0 < middle.shares) :
    Backs before after :=
  ⟨cross_trans positive lower.first upper.first, cross_trans positive lower.second upper.second⟩

theorem Dearer.trans (lower : Dearer before middle) (upper : Dearer middle after) (positive : 0 < middle.second) :
    Dearer before after :=
  ⟨cross_trans positive lower.first upper.first, cross_trans positive upper.shares lower.shares⟩

/-- Shares that never exceed the geometric mean of the reserves keep below it. -/
theorem Worth.covered (worth : Worth before after) (positive : 0 < before.shares)
    (covered : before.shares ^ 2 ≤ before.first * before.second) :
    after.shares ^ 2 ≤ after.first * after.second := by
  apply le_of_mul_le_mul_right _ (pow_pos positive 2)
  calc after.shares ^ 2 * before.shares ^ 2 = before.shares ^ 2 * after.shares ^ 2 := by ring
    _ ≤ before.first * before.second * after.shares ^ 2 := mul_le_mul_of_nonneg_right covered zero_le
    _ ≤ after.first * after.second * before.shares ^ 2 := worth

/-- A deposit whose charge is rounded up and whose shares are rounded down. -/
theorem Backs.deposit (pot : Pot α) {charged paid minted : α} (positive : 0 < pot.second)
    (ceiled : paid * pot.first ≤ charged * pot.second) (floored : minted * pot.second ≤ paid * pot.shares) :
    Backs pot ⟨pot.first + charged, pot.second + paid, pot.shares + minted⟩ := by
  have owed : pot.first * minted ≤ charged * pot.shares := by
    apply le_of_mul_le_mul_right _ positive
    calc pot.first * minted * pot.second = minted * pot.second * pot.first := by ring
      _ ≤ paid * pot.shares * pot.first := mul_le_mul_of_nonneg_right floored zero_le
      _ = paid * pot.first * pot.shares := by ring
      _ ≤ charged * pot.second * pot.shares := mul_le_mul_of_nonneg_right ceiled zero_le
      _ = charged * pot.shares * pot.second := by ring
  constructor
  · simp only [mul_add, add_mul]
    exact add_le_add_right owed _
  · simp only [mul_add, add_mul]
    exact add_le_add_right (by rw [mul_comm]; exact floored) _

/-- Gifts to the reserves and shares that are thrown away only help the others. -/
theorem Backs.gift (first : before.first ≤ after.first) (second : before.second ≤ after.second)
    (shares : after.shares ≤ before.shares) : Backs before after :=
  ⟨mul_le_mul first shares zero_le zero_le, mul_le_mul second shares zero_le zero_le⟩

theorem Worth.trade (shares : after.shares = before.shares)
    (grows : before.first * before.second ≤ after.first * after.second) : Worth before after := by
  unfold Worth
  rw [shares]
  exact mul_le_mul_of_nonneg_right grows zero_le

/-- What a fixed holding of shares stands for never falls while the holding does not. -/
theorem Backs.holding {held kept : α} (backs : Backs before after) (keeps : held ≤ kept) :
    held * before.first * after.shares ≤ kept * after.first * before.shares ∧
      held * before.second * after.shares ≤ kept * after.second * before.shares := by
  constructor
  · calc held * before.first * after.shares = held * (before.first * after.shares) := by ring
      _ ≤ kept * (after.first * before.shares) := mul_le_mul keeps backs.first zero_le zero_le
      _ = kept * after.first * before.shares := by ring
  · calc held * before.second * after.shares = held * (before.second * after.shares) := by ring
      _ ≤ kept * (after.second * before.shares) := mul_le_mul keeps backs.second zero_le zero_le
      _ = kept * after.second * before.shares := by ring

end Pot

/-! A constant-product exchange: the payout is rounded down against the curve. -/

section Curve
variable {α : Type*} [CommSemiring α] [LinearOrder α] [IsStrictOrderedRing α]
  {reserveIn reserveOut left effective payout : α}

theorem curve_kept (spent : reserveOut = left + payout)
    (floored : payout * (reserveIn + effective) ≤ effective * reserveOut) :
    reserveIn * reserveOut ≤ (reserveIn + effective) * left := by
  apply le_of_add_le_add_right (a := effective * reserveOut)
  calc reserveIn * reserveOut + effective * reserveOut = (reserveIn + effective) * reserveOut := by ring
    _ = (reserveIn + effective) * left + payout * (reserveIn + effective) := by rw [spent]; ring
    _ ≤ (reserveIn + effective) * left + effective * reserveOut := add_le_add_right floored _

/-- A fee that stays in the pool makes the product grow strictly. -/
theorem curve_grows {fee : α} (spent : reserveOut = left + payout) (charged : 0 < fee) (remains : 0 < left)
    (floored : payout * (reserveIn + effective) ≤ effective * reserveOut) :
    reserveIn * reserveOut < (reserveIn + effective + fee) * left := by
  calc reserveIn * reserveOut ≤ (reserveIn + effective) * left := curve_kept spent floored
    _ < (reserveIn + effective) * left + fee * left := lt_add_of_pos_right _ (mul_pos charged remains)
    _ = (reserveIn + effective + fee) * left := by ring

end Curve

/-- Shares that were just issued redeem for no more than what they cost. -/
theorem round_trip {reserve charged supply minted burned paid : Nat} (issued : reserve * minted ≤ charged * supply)
    (part : burned ≤ minted) (share : paid = burned * (reserve + charged) / (supply + minted)) : paid ≤ charged := by
  rw [share]
  apply Nat.div_le_of_le_mul
  calc burned * (reserve + charged) ≤ minted * (reserve + charged) := Nat.mul_le_mul_right _ part
    _ = reserve * minted + charged * minted := by ring
    _ ≤ charged * supply + charged * minted := Nat.add_le_add_right issued _
    _ = (supply + minted) * charged := by ring

/-! Floors of the parts of a sum. -/

/-- Each part but the first loses less than a unit. -/
theorem sum_div_le {divisor : Nat} (positive : 0 < divisor) {parts : List Nat} (some_ : parts ≠ []) :
    parts.sum / divisor ≤ (parts.map (· / divisor)).sum + (parts.length - 1) := by
  induction parts with
  | nil => exact absurd rfl some_
  | cons part parts ih =>
    cases parts with
    | nil => simp
    | cons next parts =>
      have rest := ih (List.cons_ne_nil _ _)
      have joined : (part + (next :: parts).sum) / divisor ≤ part / divisor + (next :: parts).sum / divisor + 1 := by
        rw [Nat.add_div positive]
        split <;> omega
      simp only [List.map_cons, List.sum_cons, List.length_cons] at rest joined ⊢
      omega

end Library
