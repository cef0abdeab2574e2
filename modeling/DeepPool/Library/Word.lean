import Mathlib.Data.Fin.Basic
import Mathlib.Data.Nat.ModEq

/-! Fixed-width unsigned words with the checked, saturating, wrapping and
narrowing operations of a systems language. A checked operation is characterised
by the natural number it stands for, so callers never look at the width again. -/

namespace Library

abbrev Word (bits : Nat) := Fin (2 ^ bits)

namespace Word

/-! Literals of the machine widths need to know that the width is not empty. -/

instance nonempty8 : NeZero (2 ^ 8) := ⟨by decide⟩
instance nonempty16 : NeZero (2 ^ 16) := ⟨by decide⟩
instance nonempty64 : NeZero (2 ^ 64) := ⟨by decide⟩
instance nonempty128 : NeZero (2 ^ 128) := ⟨by decide⟩

variable {bits wide : Nat}

def ofNat? (n : Nat) : Option (Word bits) := if fits : n < 2 ^ bits then some ⟨n, fits⟩ else none

def checkedAdd (a b : Word bits) : Option (Word bits) := ofNat? (a.val + b.val)
def checkedMul (a b : Word bits) : Option (Word bits) := ofNat? (a.val * b.val)

def checkedSub (a b : Word bits) : Option (Word bits) :=
  if b.val ≤ a.val then ofNat? (a.val - b.val) else none

def checkedDiv (a b : Word bits) : Option (Word bits) :=
  if b.val = 0 then none else ofNat? (a.val / b.val)

protected def max (a b : Word bits) : Word bits := if a.val ≤ b.val then b else a
protected def min (a b : Word bits) : Word bits := if a.val ≤ b.val then a else b

def least : Word bits := ⟨0, Nat.two_pow_pos bits⟩
def greatest : Word bits := ⟨2 ^ bits - 1, Nat.sub_lt (Nat.two_pow_pos _) Nat.one_pos⟩

def saturatingAdd (a b : Word bits) : Word bits := (checkedAdd a b).getD greatest
def saturatingMul (a b : Word bits) : Word bits := (checkedMul a b).getD greatest
def saturatingSub (a b : Word bits) : Word bits := ⟨a.val - b.val, by omega⟩

def wrappingAdd (a b : Word bits) : Word bits := ⟨(a.val + b.val) % 2 ^ bits, Nat.mod_lt _ (Nat.two_pow_pos _)⟩
def wrappingMul (a b : Word bits) : Word bits := ⟨(a.val * b.val) % 2 ^ bits, Nat.mod_lt _ (Nat.two_pow_pos _)⟩

def wrappingSub (a b : Word bits) : Word bits :=
  ⟨(a.val + (2 ^ bits - b.val)) % 2 ^ bits, Nat.mod_lt _ (Nat.two_pow_pos _)⟩

def widen (a : Word bits) (wider : bits ≤ wide) : Word wide :=
  ⟨a.val, Nat.lt_of_lt_of_le a.isLt (Nat.pow_le_pow_right (by decide) wider)⟩

/-- Narrowing that drops the high bits, as an unchecked cast does. -/
def truncate (a : Word wide) : Word bits := ⟨a.val % 2 ^ bits, Nat.mod_lt _ (Nat.two_pow_pos _)⟩

/-- Narrowing that refuses a value whose high bits are set. -/
def tryNarrow (a : Word wide) : Option (Word bits) := ofNat? a.val

theorem ofNat?_eq_some {n : Nat} {w : Word bits} : ofNat? n = some w ↔ w.val = n := by
  unfold ofNat?
  split
  next fits =>
    rw [Option.some.injEq, Fin.ext_iff]
    exact eq_comm
  next large =>
    have bound := w.isLt
    constructor
    · intro impossible
      cases impossible
    · omega

theorem ofNat?_isSome (n : Nat) (fits : n < 2 ^ bits) : ∃ w : Word bits, ofNat? n = some w ∧ w.val = n :=
  ⟨⟨n, fits⟩, ofNat?_eq_some.mpr rfl, rfl⟩

theorem checkedAdd_eq_some {a b c : Word bits} : a.checkedAdd b = some c ↔ c.val = a.val + b.val := ofNat?_eq_some

theorem checkedMul_eq_some {a b c : Word bits} : a.checkedMul b = some c ↔ c.val = a.val * b.val := ofNat?_eq_some

theorem checkedSub_eq_some {a b c : Word bits} : a.checkedSub b = some c ↔ c.val + b.val = a.val := by
  unfold checkedSub
  split
  · rw [ofNat?_eq_some]
    omega
  · constructor
    · intro impossible
      cases impossible
    · omega

theorem checkedDiv_eq_some {a b c : Word bits} :
    a.checkedDiv b = some c ↔ 0 < b.val ∧ c.val = a.val / b.val := by
  unfold checkedDiv
  split
  · constructor
    · intro impossible
      cases impossible
    · omega
  · rw [ofNat?_eq_some]
    omega

theorem tryNarrow_eq_some {a : Word wide} {c : Word bits} : a.tryNarrow = some c ↔ c.val = a.val := ofNat?_eq_some

@[simp] theorem max_val (a b : Word bits) : (a.max b).val = max a.val b.val := by
  unfold Word.max
  split <;> omega

@[simp] theorem min_val (a b : Word bits) : (a.min b).val = min a.val b.val := by
  unfold Word.min
  split <;> omega

theorem ofNat?_getD {n : Nat} (fits : n < 2 ^ bits) (other : Word bits) : ((ofNat? n).getD other).val = n := by
  rw [ofNat?, dif_pos fits]
  rfl

theorem saturatingAdd_val {a b : Word bits} (fits : a.val + b.val < 2 ^ bits) :
    (a.saturatingAdd b).val = a.val + b.val := ofNat?_getD fits _

theorem saturatingMul_val {a b : Word bits} (fits : a.val * b.val < 2 ^ bits) :
    (a.saturatingMul b).val = a.val * b.val := ofNat?_getD fits _

@[simp] theorem saturatingSub_val (a b : Word bits) : (a.saturatingSub b).val = a.val - b.val := rfl

theorem checkedSub_of_le {a b : Word bits} (le : b.val ≤ a.val) : a.checkedSub b = some (a.saturatingSub b) := by
  rw [checkedSub_eq_some, saturatingSub_val]
  omega

theorem checkedSub_isSome {a b : Word bits} : (∃ c, a.checkedSub b = some c) ↔ b.val ≤ a.val := by
  constructor
  · rintro ⟨left, subtracted⟩
    rw [checkedSub_eq_some] at subtracted
    omega
  · intro le
    exact ⟨_, checkedSub_of_le le⟩

@[simp] theorem widen_val (a : Word bits) (wider : bits ≤ wide) : (a.widen wider).val = a.val := rfl

@[simp] theorem wrappingAdd_val (a b : Word bits) : (a.wrappingAdd b).val = (a.val + b.val) % 2 ^ bits := rfl

@[simp] theorem wrappingMul_val (a b : Word bits) : (a.wrappingMul b).val = (a.val * b.val) % 2 ^ bits := rfl

theorem truncate_val {a : Word wide} (fits : a.val < 2 ^ bits) : (truncate a : Word bits).val = a.val :=
  Nat.mod_eq_of_lt fits

theorem checkedDiv_widen (a : Word wide) {b : Word wide} (positive : 0 < b.val) :
    ∃ c : Word wide, a.checkedDiv b = some c ∧ c.val = a.val / b.val := by
  have fits : a.val / b.val < 2 ^ wide := Nat.lt_of_le_of_lt (Nat.div_le_self _ _) a.isLt
  exact ⟨⟨a.val / b.val, fits⟩, checkedDiv_eq_some.mpr ⟨positive, rfl⟩, rfl⟩

/-- Two words that fit half the width never overflow their product. -/
theorem checkedMul_widen (a b : Word bits) :
    ∃ c : Word (bits + bits), (a.widen (Nat.le_add_left _ _)).checkedMul (b.widen (Nat.le_add_left _ _)) = some c ∧
      c.val = a.val * b.val := by
  have fits : a.val * b.val < 2 ^ (bits + bits) := by
    rw [Nat.pow_add]
    exact Nat.mul_lt_mul'' a.isLt b.isLt
  exact ⟨⟨a.val * b.val, fits⟩, checkedMul_eq_some.mpr rfl, rfl⟩

/-- A wrapping difference recovers what was added since the subtrahend, whatever
number of wraps lies between them. -/
theorem wrappingSub_of_mod {a b : Word bits} {total early : Nat} (current : a.val = total % 2 ^ bits)
    (past : b.val = early % 2 ^ bits) (ordered : early ≤ total) :
    (a.wrappingSub b).val = (total - early) % 2 ^ bits := by
  obtain ⟨gained, rfl⟩ := Nat.exists_eq_add_of_le ordered
  have bound := b.isLt
  have split : a.val + (2 ^ bits - b.val) ≡ gained [MOD 2 ^ bits] := by
    have early_mod : early ≡ b.val [MOD 2 ^ bits] := by
      rw [past]
      exact (Nat.mod_modEq _ _).symm
    have now_mod : a.val ≡ b.val + gained [MOD 2 ^ bits] := by
      rw [current]
      exact (Nat.mod_modEq _ _).trans (early_mod.add_right gained)
    have whole : b.val + gained + (2 ^ bits - b.val) = gained + 2 ^ bits := by omega
    have shifted := now_mod.add_right (2 ^ bits - b.val)
    rw [whole] at shifted
    exact shifted.trans (Nat.add_modEq_right)
  rw [Nat.add_sub_cancel_left]
  exact split

end Word
end Library
