import UiStyle.Binary
import UiStyle.Proofs.Binary.Nearest

/-!
# Equality of numbers

Two numbers of a format differ in their bit patterns (`toBits_injective`).  Equality of numbers asks
for less and for more: it does not see the sign of a zero, and it holds of nothing that is not a
number (`numEq_iff`).  So between numbers that are none of the exceptions it is identity, and the
numbers that `finiteOrZero` makes are of this kind.
-/

namespace UiStyle.Binary

variable {f : BinaryFormat} {x y : Binary f}

/-- The zero with a sign. -/
def negativeZero : Binary f := ⟨true, 0, f.signBit_pos⟩

/-- The same number, but a zero without its sign. -/
def unsignZero (x : Binary f) : Binary f :=
  if x.isZero then zero else x

theorem ext_iff : x = y ↔ x.negative = y.negative ∧ x.magnitude = y.magnitude := by
  cases x
  cases y
  simp

theorem isZero_iff : x.isZero = true ↔ x.magnitude = 0 := by
  simp [isZero]

theorem isFinite_iff : x.isFinite = true ↔ x.magnitude < f.infinity := by
  simp [isFinite]

theorem eq_negativeZero_iff : x = negativeZero ↔ x.negative = true ∧ x.magnitude = 0 :=
  ext_iff

/-! ### Bit patterns -/

theorem ofBits_toBits (x : Binary f) : ofBits x.toBits = x := by
  have hpos := f.signBit_pos
  have hlt := x.inRange
  rw [ext_iff]
  cases hx : x.negative <;>
    simp [ofBits, toBits, hx, Nat.mod_eq_of_lt hlt, Nat.div_eq_of_lt hlt, Nat.add_div_left, hpos]

theorem toBits_injective : Function.Injective (toBits (f := f)) := by
  intro x y h
  rw [← ofBits_toBits x, h, ofBits_toBits]

/-! ### The sign of a zero -/

theorem unsignZero_eq_self_iff : x.unsignZero = x ↔ x ≠ negativeZero := by
  rw [unsignZero]
  split
  · rename_i hzero
    rw [isZero_iff] at hzero
    simp [ext_iff, zero, negativeZero, hzero]
  · rename_i hzero
    rw [isZero_iff] at hzero
    simp [ext_iff, negativeZero, hzero]

theorem isNaN_unsignZero : x.unsignZero.isNaN = x.isNaN := by
  rw [unsignZero]
  split
  · rename_i hzero
    rw [isZero_iff] at hzero
    simp [isNaN, zero, hzero]
  · rfl

theorem rank_eq_iff : x.rank = y.rank ↔ x.unsignZero = y.unsignZero := by
  by_cases hx : x.magnitude = 0 <;> by_cases hy : y.magnitude = 0 <;>
    cases hxs : x.negative <;> cases hys : y.negative <;>
    simp [rank, unsignZero, isZero, ext_iff, zero, *] <;> omega

theorem numLt_iff (hx : x.isNaN = false) (hy : y.isNaN = false) :
    x.numLt y = true ↔ x.rank < y.rank := by
  simp [numLt, hx, hy]

theorem numEq_iff : x.numEq y = true ↔ x.isNaN = false ∧ x.unsignZero = y.unsignZero := by
  have hsame : x.unsignZero = y.unsignZero → y.isNaN = x.isNaN := by
    intro h
    rw [← isNaN_unsignZero, ← h, isNaN_unsignZero]
  rw [numEq, Bool.and_eq_true, Bool.and_eq_true, beq_iff_eq, rank_eq_iff, Bool.not_eq_true',
    Bool.not_eq_true']
  constructor
  · rintro ⟨⟨hx, -⟩, heq⟩
    exact ⟨hx, heq⟩
  · rintro ⟨hx, heq⟩
    exact ⟨⟨hx, hsame heq ▸ hx⟩, heq⟩

/-! ### What the constructors keep -/

theorem isNaN_of_isFinite (h : x.isFinite = true) : x.isNaN = false := by
  rw [isFinite_iff] at h
  simp only [isNaN, decide_eq_false_iff_not]
  omega

theorem isFinite_finiteOrZero [f.IsProper] (x : Binary f) : x.finiteOrZero.isFinite = true := by
  rw [finiteOrZero]
  split
  · rename_i h
    exact (Bool.and_eq_true _ _ ▸ h).1
  · exact isFinite_iff.mpr BinaryFormat.IsProper.infinity_pos

theorem finiteOrZero_ne_negativeZero (x : Binary f) : x.finiteOrZero ≠ negativeZero := by
  rw [finiteOrZero]
  split
  · rename_i h
    rintro rfl
    simp [isZero, negativeZero] at h
  · simp [zero, negativeZero]

end UiStyle.Binary
