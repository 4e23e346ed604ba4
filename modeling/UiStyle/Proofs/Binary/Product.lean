import UiStyle.Proofs.Binary.Equality

/-!
# Products and intervals

A number that is multiplied by a finite one other than zero keeps its place among the others: a
greater magnitude has a greater product, or the same (`magnitude_mul_mono`).  The product of finite
numbers is rounded once (`mul_of_isFinite`), and rounding keeps the order
(`BinaryFormat.nearest_mono`); infinity stays infinity, which is above everything that is rounded.

Moving a number without a sign into the interval from zero to another takes the smaller of the two
(`clamp_of_not_negative`).  A number with a sign becomes zero or keeps its sign
(`clamp_of_negative`): it stays as it is only if it is the negative zero.
-/

namespace UiStyle.Binary

variable {f : BinaryFormat} {x y z : Binary f}

/-! ### Order -/

/-- The order of numbers together with equality; what is not a number is not even equal to
itself. -/
def numLe (x y : Binary f) : Bool :=
  x.numLt y || x.numEq y

theorem numLe_iff : x.numLe y = true ↔ x.isNaN = false ∧ y.isNaN = false ∧ x.rank ≤ y.rank := by
  cases hx : x.isNaN <;> cases hy : y.isNaN <;> simp [numLe, numLt, numEq, hx, hy]
  omega

theorem rank_of_not_negative (h : x.negative = false) : x.rank = x.magnitude := by
  rw [rank, h, if_neg (by decide)]

theorem rank_of_negative (h : x.negative = true) : x.rank = -x.magnitude := by
  rw [rank, h, if_pos rfl]

/-- What has a sign does not stand above zero. -/
theorem not_negative_of_rank_pos (h : 0 < x.rank) : x.negative = false := by
  cases hsign : x.negative with
  | false => rfl
  | true =>
      rw [rank_of_negative hsign] at h
      omega

/-! ### Finite and infinite numbers -/

theorem isNaN_eq_false_iff : x.isNaN = false ↔ x.magnitude ≤ f.infinity := by
  rw [isNaN, decide_eq_false_iff_not, Nat.not_lt]

theorem isFinite_or_isInfinite (h : x.isNaN = false) : x.isFinite = true ∨ x.isInfinite = true := by
  rw [isFinite_iff, isInfinite, beq_iff_eq]
  exact Nat.lt_or_eq_of_le (isNaN_eq_false_iff.mp h)

theorem isNaN_of_isInfinite (h : x.isInfinite = true) : x.isNaN = false := by
  rw [isInfinite, beq_iff_eq] at h
  exact isNaN_eq_false_iff.mpr h.le

theorem isInfinite_of_isFinite (h : x.isFinite = true) : x.isInfinite = false := by
  rw [isInfinite, beq_eq_false_iff_ne]
  exact Nat.ne_of_lt (isFinite_iff.mp h)

@[simp] theorem negative_infinite (negative : Bool) :
    (infinite negative : Binary f).negative = negative := rfl

@[simp] theorem negative_rounded (negative : Bool) (n d : Nat) :
    (rounded negative n d : Binary f).negative = negative := rfl

theorem isNaN_infinite (negative : Bool) : (infinite negative : Binary f).isNaN = false :=
  isNaN_eq_false_iff.mpr (Nat.le_refl f.infinity)

theorem isNaN_rounded (negative : Bool) (n d : Nat) :
    (rounded negative n d : Binary f).isNaN = false :=
  isNaN_eq_false_iff.mpr (f.nearest_le_infinity n d)

/-- A number of units is a fraction of them with any denominator. -/
theorem rounded_mul [f.IsProper] (negative : Bool) (n : Nat) {d : Nat} (hd : 0 < d) :
    (rounded negative (n * d) d : Binary f) = rounded negative n 1 := by
  have hnearest := f.nearest_mul n Nat.one_pos hd
  rw [Nat.one_mul] at hnearest
  exact ext_iff.mpr ⟨rfl, hnearest⟩

/-! ### Products -/

theorem mul_of_isFinite (hx : x.isFinite = true) (hy : y.isFinite = true) :
    x.mul y = rounded (x.negative != y.negative) (f.units x.magnitude * f.units y.magnitude)
      f.unitsPerOne := by
  simp [mul, isNaN_of_isFinite hx, isNaN_of_isFinite hy, isInfinite_of_isFinite hx,
    isInfinite_of_isFinite hy]

theorem mul_of_isInfinite (hx : x.isInfinite = true) (hy : y.isFinite = true)
    (hzero : y.isZero = false) : x.mul y = infinite (x.negative != y.negative) := by
  simp [mul, hx, isNaN_of_isInfinite hx, isNaN_of_isFinite hy, isInfinite_of_isFinite hy, hzero]

/-- A product is a number, and has a sign if one of the two has. -/
theorem mul_spec (hx : x.isNaN = false) (hy : y.isFinite = true) (hzero : y.isZero = false) :
    (x.mul y).isNaN = false ∧ (x.mul y).negative = (x.negative != y.negative) := by
  rcases isFinite_or_isInfinite hx with hfinite | hinfinite
  · rw [mul_of_isFinite hfinite hy]
    exact ⟨isNaN_rounded _ _ _, negative_rounded _ _ _⟩
  · rw [mul_of_isInfinite hinfinite hy hzero]
    exact ⟨isNaN_infinite _, negative_infinite _⟩

/-- A greater magnitude has a greater product, or the same. -/
theorem magnitude_mul_mono [f.IsProper] (hx : x.isNaN = false) (hy : y.isNaN = false)
    (hz : z.isFinite = true) (hzero : z.isZero = false) (hle : x.magnitude ≤ y.magnitude) :
    (x.mul z).magnitude ≤ (y.mul z).magnitude := by
  have hbound := isNaN_eq_false_iff.mp (mul_spec hx hz hzero).1
  rcases isFinite_or_isInfinite hy with hfinite | hinfinite
  · have hfinite' : x.isFinite = true :=
      isFinite_iff.mpr (Nat.lt_of_le_of_lt hle (isFinite_iff.mp hfinite))
    have hunits := f.units_strictMono.monotone hle
    rw [mul_of_isFinite hfinite hz, mul_of_isFinite hfinite' hz]
    exact f.nearest_mono (Nat.two_pow_pos _) (Nat.mul_le_mul_right _ hunits)
  · rw [mul_of_isInfinite hinfinite hz hzero]
    exact hbound

/-! ### Intervals -/

/-- Without a sign, what lies above the interval is moved to its end. -/
theorem clamp_of_not_negative {high : Binary f} (hx : x.isNaN = false) (hsign : x.negative = false)
    (hhigh : high.isNaN = false) (hsign' : high.negative = false) :
    (x.clamp zero high).isNaN = false ∧ (x.clamp zero high).negative = false ∧
      (x.clamp zero high).magnitude = min x.magnitude high.magnitude := by
  have hlow : ¬ x.numLt zero = true := by
    have hzero : (zero : Binary f).rank = 0 := rfl
    have hnan : (zero : Binary f).isNaN = false := isNaN_eq_false_iff.mpr (Nat.zero_le _)
    rw [numLt_iff hx hnan, rank_of_not_negative hsign, hzero]
    omega
  have habove : high.numLt x = true ↔ high.magnitude < x.magnitude := by
    rw [numLt_iff hhigh hx, rank_of_not_negative hsign, rank_of_not_negative hsign']
    omega
  rw [clamp, if_neg hlow]
  split
  · rename_i hlt
    exact ⟨hhigh, hsign', (Nat.min_eq_right (habove.mp hlt).le).symm⟩
  · rename_i hle
    rw [habove, Nat.not_lt] at hle
    exact ⟨hx, hsign, (Nat.min_eq_left hle).symm⟩

/-- With a sign, all that is not moved to zero has the sign still. -/
theorem clamp_of_negative {high : Binary f} (hx : x.isNaN = false) (hsign : x.negative = true)
    (hhigh : high.isNaN = false) (hsign' : high.negative = false) :
    x.clamp zero high = zero ∨ x.clamp zero high = x := by
  have habove : ¬ high.numLt x = true := by
    rw [numLt_iff hhigh hx, rank_of_negative hsign, rank_of_not_negative hsign']
    omega
  rw [clamp, if_neg habove]
  split
  · exact .inl rfl
  · exact .inr rfl

/-- What is not a number is in no interval and is not moved. -/
theorem clamp_of_isNaN {low high : Binary f} (hx : x.isNaN = true) : x.clamp low high = x := by
  simp [clamp, numLt, hx]

end UiStyle.Binary
