import UiStyle.Decimal
import UiStyle.Proofs.Binary.Nearest

/-!
# Shortest decimals read back

Whether a decimal reads as a magnitude is whether the magnitude is the nearest one to it
(`readsAs_iff`).  This depends on the number that the decimal stands for, not on how many zeros its
coefficient ends in (`readsAs_stripZeros`).  A point that is taken from a grid has been tested, and
the exact value reads back because nothing is nearer to a magnitude than itself; so whatever grid
`shortest` stops at, its answer reads back (`readsAs_shortest`).
-/

namespace UiStyle.Decimal

variable {f : BinaryFormat} {k : Nat}

/-- The numerator of a decimal over the denominator of its power of ten. -/
def numerator (d : Decimal) : Nat := d.coefficient * (powerOfTen d.exponent).1

/-- The denominator of the power of ten of a decimal. -/
def denominator (d : Decimal) : Nat := (powerOfTen d.exponent).2

theorem powerOfTen_natCast (n : Nat) : powerOfTen n = (10 ^ n, 1) := by
  rw [powerOfTen, if_pos (Int.natCast_nonneg n), Int.toNat_natCast]
  rfl

theorem powerOfTen_neg_natCast (n : Nat) : powerOfTen (-(n : Int)) = (1, 10 ^ n) := by
  cases n with
  | zero => rfl
  | succ n =>
      rw [powerOfTen, if_neg (by omega), Int.neg_neg, Int.toNat_natCast]
      rfl

theorem denominator_pos (d : Decimal) : 0 < d.denominator := by
  rw [denominator]
  obtain ⟨n, hn | hn⟩ := d.exponent.eq_nat_or_neg
  · rw [hn, powerOfTen_natCast]
    exact Nat.zero_lt_one
  · rw [hn, powerOfTen_neg_natCast]
    exact Nat.pow_pos (by decide)

theorem readsAs_iff {d : Decimal} :
    readsAs f k d = true ↔ f.IsNearest k (d.numerator * f.unitsPerOne) d.denominator := by
  have hnum : 2 * f.unitsPerOne * d.coefficient * (powerOfTen d.exponent).1 =
      2 * (d.numerator * f.unitsPerOne) := by
    rw [numerator]
    ring
  rw [readsAs, BinaryFormat.IsNearest]
  simp only [hnum, denominator]
  split <;> simp

/-- A factor of ten may stand in the coefficient or in the exponent. -/
theorem readsAs_shift {c : Nat} {e : Int} : readsAs f k ⟨10 * c, e⟩ = readsAs f k ⟨c, e + 1⟩ := by
  rw [Bool.eq_iff_iff, readsAs_iff, readsAs_iff]
  rcases lt_or_ge e 0 with hneg | hnonneg
  · obtain ⟨n, rfl⟩ : ∃ n : Nat, e = -((n + 1 : Nat) : Int) := ⟨(-e).toNat - 1, by omega⟩
    have hnext : -((n + 1 : Nat) : Int) + 1 = -(n : Int) := by omega
    have hnum : numerator ⟨10 * c, -((n + 1 : Nat) : Int)⟩ * f.unitsPerOne =
        numerator ⟨c, -(n : Int)⟩ * f.unitsPerOne * 10 := by
      simp only [numerator, powerOfTen_neg_natCast]
      ring
    have hden : denominator ⟨10 * c, -((n + 1 : Nat) : Int)⟩ =
        denominator ⟨c, -(n : Int)⟩ * 10 := by
      simp only [denominator, powerOfTen_neg_natCast, Nat.pow_succ]
    rw [hnext, hnum, hden, BinaryFormat.isNearest_mul_iff (by decide)]
  · obtain ⟨n, rfl⟩ := Int.eq_ofNat_of_zero_le hnonneg
    have hnum : numerator ⟨10 * c, (n : Int)⟩ = numerator ⟨c, ((n + 1 : Nat) : Int)⟩ := by
      simp only [numerator, powerOfTen_natCast]
      ring
    have hden : denominator ⟨10 * c, (n : Int)⟩ = denominator ⟨c, ((n + 1 : Nat) : Int)⟩ := by
      simp only [denominator, powerOfTen_natCast]
    rw [hnum, hden]
    rfl

theorem readsAs_stripZeros (d : Decimal) : readsAs f k d.stripZeros = readsAs f k d := by
  fun_induction stripZeros d with
  | case1 d h ih =>
      rw [ih, ← readsAs_shift, Nat.mul_div_cancel' (Nat.dvd_of_mod_eq_zero h.2)]
  | case2 => rfl

theorem readsAs_exact : readsAs f k (exact f k) = true := by
  obtain ⟨e, he⟩ : ∃ e, f.unitsPerOne = 2 ^ e := ⟨_, rfl⟩
  have hexact : exact f k = ⟨f.units k * 5 ^ e, -(e : Int)⟩ := by
    rw [exact, he, Nat.log2_two_pow]
    rfl
  have hvalue : (exact f k).numerator * f.unitsPerOne = f.units k * 10 ^ e := by
    have hten : 10 ^ e = 5 ^ e * 2 ^ e := by rw [← Nat.mul_pow]
    rw [hexact, numerator, powerOfTen_neg_natCast, he, hten]
    ring
  have hden : (exact f k).denominator = 10 ^ e := by
    rw [hexact, denominator, powerOfTen_neg_natCast]
  rw [readsAs_iff, hvalue, hden]
  exact f.isNearest_units k (Nat.pow_pos (by decide))

theorem readsAs_of_onGrid? {tie : Tie} {e : Int} {d : Decimal}
    (h : onGrid? f tie k e = some d) : readsAs f k d = true := by
  unfold onGrid? at h
  dsimp only at h
  split at h
  · rename_i hbelow habove
    rw [Option.some_inj] at h
    split at h
    · exact h ▸ habove
    · exact h ▸ hbelow
  · rename_i hbelow _
    exact Option.some_inj.mp h ▸ hbelow
  · rename_i _ habove
    exact Option.some_inj.mp h ▸ habove
  · cases h

theorem readsAs_shortest (tie : Tie) : readsAs f k (shortest f tie k) = true := by
  rw [shortest, readsAs_stripZeros]
  cases h : (List.range 17).findSome? fun i =>
      onGrid? f tie k (leadingExponent f k - (i : Nat)) with
  | none => exact readsAs_exact
  | some d =>
      obtain ⟨i, -, hd⟩ := List.exists_of_findSome?_eq_some h
      exact readsAs_of_onGrid? hd

/-- What reads as a positive magnitude is not zero. -/
theorem coefficient_ne_zero {d : Decimal} (hk : 0 < k) (h : readsAs f k d = true) :
    d.coefficient ≠ 0 := by
  intro hzero
  have hlow := (readsAs_iff.mp h).bounds.1
  have hunits : 0 < f.units k := by
    have hlt := f.units_strictMono hk
    omega
  have hpos : 0 < (f.units (k - 1) + f.units k) * d.denominator :=
    Nat.mul_pos (by omega) d.denominator_pos
  have hnum : d.numerator = 0 := by rw [numerator, hzero, Nat.zero_mul]
  rw [hnum, Nat.zero_mul] at hlow
  omega

end UiStyle.Decimal
