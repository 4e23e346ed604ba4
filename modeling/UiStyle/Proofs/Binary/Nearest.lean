import Mathlib.Order.Monotone.Basic
import Mathlib.Tactic.Ring
import UiStyle.Binary

/-!
# Rounding to the nearest magnitude

The finite magnitudes, measured in units, grow strictly (`units_strictMono`): within one step of the
exponent field a magnitude is a significand shifted (`units_shifted`), and the next step starts
where the last one ends.  So a number lies between the midpoints to the neighbours of one magnitude
only (`IsNearest.eq`), where a midpoint itself belongs to the even one of the two that share it.

Rounding shifts a number until its integer part has all the digits of a significand, and rounds
that to the nearest whole number.  This is the magnitude that is nearest to the number
(`isNearest_of_shift`), also at the ends of a step, where the midpoints are not half a shifted unit
away on both sides.  Hence `nearest` answers with a finite magnitude exactly if that is the nearest
one (`nearest_eq_iff`), and never with a smaller one for a greater number (`nearest_mono`).
-/

namespace UiStyle.BinaryFormat

/-- A format whose significands have more than one digit, and that has finite magnitudes. -/
class IsProper (f : BinaryFormat) : Prop where
  normal_even : f.normal % 2 = 0
  infinity_pos : 0 < f.infinity

instance : IsProper single := ⟨by decide, by decide⟩

instance : IsProper double := ⟨by decide, by decide⟩

variable {f : BinaryFormat}

/-! ### Units -/

theorem units_of_lt {k : Nat} (hk : k < f.normal) : f.units k = k := by
  rw [units, if_pos hk]

/-- A magnitude whose exponent field is not zero. -/
theorem units_step {q r : Nat} (hr : r < f.normal) :
    f.units ((q + 1) * f.normal + r) = (f.normal + r) * 2 ^ q := by
  have hdiv : ((q + 1) * f.normal + r) / f.normal = q + 1 := by
    rw [Nat.add_comm, Nat.add_mul_div_right _ _ f.normal_pos, Nat.div_eq_of_lt hr, Nat.zero_add]
  have hmod : ((q + 1) * f.normal + r) % f.normal = r := by
    rw [Nat.add_comm, Nat.add_mul_mod_self_right, Nat.mod_eq_of_lt hr]
  have hge : ¬ (q + 1) * f.normal + r < f.normal := by
    rw [Nat.succ_mul]
    omega
  rw [units, if_neg hge, hdiv, hmod, Nat.add_sub_cancel]
  rfl

/-- Within a step of the exponent field, and up to its end, units are the significand shifted. -/
theorem units_shifted {shift m : Nat} (hlow : shift = 0 ∨ f.normal ≤ m)
    (hhigh : m ≤ 2 * f.normal) : f.units (shift * f.normal + m) = m * 2 ^ shift := by
  have hpos := f.normal_pos
  by_cases hsmall : m < f.normal
  · obtain rfl : shift = 0 := hlow.resolve_right (by omega)
    rw [Nat.zero_mul, Nat.zero_add, units_of_lt hsmall, Nat.pow_zero, Nat.mul_one]
  by_cases hend : m = 2 * f.normal
  · have hsplit : shift * f.normal + m = (shift + 1 + 1) * f.normal + 0 := by
      rw [hend]
      ring
    rw [hsplit, units_step hpos, hend]
    ring
  · have hsplit : shift * f.normal + m = (shift + 1) * f.normal + (m - f.normal) := by
      rw [Nat.succ_mul]
      omega
    rw [hsplit, units_step (by omega), Nat.add_sub_cancel' (by omega)]

/-- Every magnitude is a significand in one step of the exponent field. -/
theorem exists_shifted (f : BinaryFormat) (k : Nat) :
    ∃ shift m, (shift = 0 ∨ f.normal ≤ m) ∧ m < 2 * f.normal ∧ k = shift * f.normal + m := by
  have hpos := f.normal_pos
  by_cases hk : k < f.normal
  · exact ⟨0, k, .inl rfl, by omega, by rw [Nat.zero_mul, Nat.zero_add]⟩
  · have hmod := Nat.mod_lt k hpos
    have hdiv : 1 ≤ k / f.normal := (Nat.one_le_div_iff hpos).mpr (by omega)
    refine ⟨k / f.normal - 1, f.normal + k % f.normal, .inr (by omega), by omega, ?_⟩
    have hsplit := Nat.div_add_mod' k f.normal
    obtain ⟨q, hq⟩ : ∃ q, k / f.normal = q + 1 := ⟨k / f.normal - 1, by omega⟩
    rw [hq, Nat.succ_mul] at hsplit
    rw [hq, Nat.add_sub_cancel]
    omega

theorem units_lt_units_succ (k : Nat) : f.units k < f.units (k + 1) := by
  obtain ⟨shift, m, hlow, hhigh, rfl⟩ := f.exists_shifted k
  rw [Nat.add_assoc, units_shifted hlow (by omega), units_shifted (by omega) (by omega)]
  exact Nat.mul_lt_mul_of_pos_right (Nat.lt_succ_self m) (Nat.two_pow_pos shift)

theorem units_strictMono (f : BinaryFormat) : StrictMono f.units :=
  strictMono_nat_of_lt_succ units_lt_units_succ

/-- Cutting off to whole numbers keeps the order. -/
theorem floor_mono {k l : Nat} (h : k ≤ l) : f.floor k ≤ f.floor l :=
  Nat.div_le_div_right (f.units_strictMono.monotone h)

@[simp] theorem units_zero : f.units 0 = 0 := units_of_lt f.normal_pos

/-! ### Midpoints -/

/-- Whether `n / d` units lie between the midpoints to the neighbours of a magnitude, and on one of
them only if the magnitude is even. -/
def IsNearest (f : BinaryFormat) (k n d : Nat) : Prop :=
  if k % 2 = 0 then
    (f.units (k - 1) + f.units k) * d ≤ 2 * n ∧ 2 * n ≤ (f.units k + f.units (k + 1)) * d
  else
    (f.units (k - 1) + f.units k) * d < 2 * n ∧ 2 * n < (f.units k + f.units (k + 1)) * d

/-- The weak inequalities hold in either case. -/
theorem IsNearest.bounds {k n d : Nat} (h : f.IsNearest k n d) :
    (f.units (k - 1) + f.units k) * d ≤ 2 * n ∧ 2 * n ≤ (f.units k + f.units (k + 1)) * d := by
  unfold IsNearest at h
  split at h
  · exact h
  · exact ⟨h.1.le, h.2.le⟩

theorem IsNearest.strict_of_odd {k n d : Nat} (h : f.IsNearest k n d) (hodd : k % 2 = 1) :
    (f.units (k - 1) + f.units k) * d < 2 * n ∧ 2 * n < (f.units k + f.units (k + 1)) * d := by
  rwa [IsNearest, if_neg (by omega)] at h

/-- A number strictly between the midpoints, or at the bottom. -/
theorem isNearest_of_strict {k n d : Nat}
    (hlow : (f.units (k - 1) + f.units k) * d < 2 * n ∨ k = 0)
    (hhigh : 2 * n < (f.units k + f.units (k + 1)) * d) : f.IsNearest k n d := by
  unfold IsNearest
  rcases hlow with hlow | rfl
  · split
    · exact ⟨hlow.le, hhigh.le⟩
    · exact ⟨hlow, hhigh⟩
  · rw [if_pos rfl]
    exact ⟨by simp, hhigh.le⟩

/-- A magnitude is nearest to itself. -/
theorem isNearest_units (k : Nat) {d : Nat} (hd : 0 < d) : f.IsNearest k (f.units k * d) d := by
  have hdouble : 2 * (f.units k * d) = (f.units k + f.units k) * d := by ring
  apply isNearest_of_strict
  · rcases Nat.eq_zero_or_pos k with hzero | hpos
    · exact .inr hzero
    · have hstep : f.units (k - 1) < f.units k := f.units_strictMono (by omega)
      rw [hdouble]
      exact .inl (Nat.mul_lt_mul_of_pos_right (by omega) hd)
  · have hstep := f.units_lt_units_succ k
    rw [hdouble]
    exact Nat.mul_lt_mul_of_pos_right (by omega) hd

theorem isNearest_mul_iff {k n d c : Nat} (hc : 0 < c) :
    f.IsNearest k (n * c) (d * c) ↔ f.IsNearest k n d := by
  have hle : ∀ a b : Nat, a * c ≤ b * c ↔ a ≤ b := fun _ _ => Nat.mul_le_mul_right_iff hc
  have hlt : ∀ a b : Nat, a * c < b * c ↔ a < b := fun _ _ => Nat.mul_lt_mul_right hc
  simp only [IsNearest, ← Nat.mul_assoc, hle, hlt]

/-- Greater magnitudes are nearest to greater numbers. -/
theorem IsNearest.mono {k l m n d : Nat} (hd : 0 < d) (hmn : m ≤ n) (hk : f.IsNearest k m d)
    (hl : f.IsNearest l n d) : k ≤ l := by
  by_contra hlt
  rcases Nat.lt_or_ge (l + 1) k with hfar | hnext
  · -- with a magnitude between the two, so are the midpoints
    have hmiddle : f.units l + f.units (l + 1) < f.units (k - 1) + f.units k := by
      have hone : f.units l < f.units (k - 1) := f.units_strictMono (by omega)
      have htwo : f.units (l + 1) < f.units k := f.units_strictMono hfar
      omega
    have hgap := Nat.mul_lt_mul_of_pos_right hmiddle hd
    have hlow := hk.bounds.1
    have hhigh := hl.bounds.2
    omega
  · -- neighbours share a midpoint, and one of them is odd
    obtain rfl : k = l + 1 := by omega
    have hlow := hk.bounds.1
    have hhigh := hl.bounds.2
    rw [Nat.add_sub_cancel] at hlow
    rcases Nat.mod_two_eq_zero_or_one l with heven | hodd
    · have hstrict := (hk.strict_of_odd (by omega)).1
      rw [Nat.add_sub_cancel] at hstrict
      omega
    · have hstrict := (hl.strict_of_odd hodd).2
      omega

theorem IsNearest.eq {k l n d : Nat} (hd : 0 < d) (hk : f.IsNearest k n d)
    (hl : f.IsNearest l n d) : k = l :=
  Nat.le_antisymm (hk.mono hd (Nat.le_refl n) hl) (hl.mono hd (Nat.le_refl n) hk)

/-! ### Rounding -/

/-- A quotient is at most a half away from what it is rounded to, and exactly a half only if that
is even. -/
theorem roundHalfEven_bounds (n : Nat) {d : Nat} (hd : 0 < d) :
    2 * (roundHalfEven n d * d) ≤ 2 * n + d ∧ 2 * n ≤ 2 * (roundHalfEven n d * d) + d ∧
      (roundHalfEven n d % 2 = 1 →
        2 * (roundHalfEven n d * d) < 2 * n + d ∧ 2 * n < 2 * (roundHalfEven n d * d) + d) := by
  have hsplit := Nat.div_add_mod' n d
  have hmod := Nat.mod_lt n hd
  have hnext : (n / d + 1) * d = n / d * d + d := Nat.succ_mul _ _
  unfold roundHalfEven
  split <;> omega

/-- The shift that rounding chooses: the quotient has all the binary digits of a significand, or
fewer if there is nothing to shift. -/
theorem nearest_eq (f : BinaryFormat) (n : Nat) {d : Nat} (hd : 0 < d) :
    ∃ shift, f.nearest n d =
        min (shift * f.normal + roundHalfEven n (d * 2 ^ shift)) f.infinity ∧
      (shift = 0 ∨ f.normal * (d * 2 ^ shift) ≤ n) ∧ n < 2 * f.normal * (d * 2 ^ shift) := by
  refine ⟨Nat.log2 (n / d) - (f.precision - 1), rfl, ?_, ?_⟩
  · by_cases hshort : Nat.log2 (n / d) ≤ f.precision - 1
    · exact .inl (Nat.sub_eq_zero_of_le hshort)
    · have hne : n / d ≠ 0 := by
        rintro hzero
        rw [hzero] at hshort
        exact hshort (Nat.zero_le _)
      have hpow : f.normal * 2 ^ (Nat.log2 (n / d) - (f.precision - 1)) =
          2 ^ Nat.log2 (n / d) := by
        have hnormal : f.normal = 2 ^ (f.precision - 1) := rfl
        rw [hnormal, ← Nat.pow_add, Nat.add_sub_cancel' (by omega)]
      right
      calc f.normal * (d * 2 ^ (Nat.log2 (n / d) - (f.precision - 1)))
          = 2 ^ Nat.log2 (n / d) * d := by rw [← hpow]; ring
        _ ≤ n / d * d := Nat.mul_le_mul_right d (Nat.log2_self_le hne)
        _ ≤ n := Nat.div_mul_le_self n d
  · have hpow : 2 ^ (Nat.log2 (n / d) + 1) ≤
        2 * f.normal * 2 ^ (Nat.log2 (n / d) - (f.precision - 1)) := by
      have hnormal : 2 * f.normal = 2 ^ (f.precision - 1 + 1) := (Nat.pow_succ').symm
      rw [hnormal, ← Nat.pow_add]
      exact Nat.pow_le_pow_right (by decide) (by omega)
    calc n < (n / d + 1) * d := (Nat.div_lt_iff_lt_mul hd).mp (Nat.lt_succ_self _)
      _ ≤ 2 ^ (Nat.log2 (n / d) + 1) * d := Nat.mul_le_mul_right d Nat.lt_log2_self
      _ ≤ 2 * f.normal * 2 ^ (Nat.log2 (n / d) - (f.precision - 1)) * d :=
        Nat.mul_le_mul_right d hpow
      _ = 2 * f.normal * (d * 2 ^ (Nat.log2 (n / d) - (f.precision - 1))) := by ring

/-- The magnitude in front of a shifted significand is one less in the last place of it, unless the
significand is the least one of its step. -/
theorem units_pred_shifted {shift m : Nat} (hlow : shift = 0 ∨ f.normal < m)
    (hhigh : m ≤ 2 * f.normal) (hm : 0 < m) :
    f.units (shift * f.normal + m - 1) + 2 ^ shift = m * 2 ^ shift := by
  obtain ⟨m, rfl⟩ : ∃ l, m = l + 1 := ⟨m - 1, by omega⟩
  rw [← Nat.add_assoc, Nat.add_sub_cancel, units_shifted (by omega) (by omega), Nat.succ_mul]

theorem le_units_succ_shifted {shift m : Nat} (hlow : shift = 0 ∨ f.normal ≤ m)
    (hhigh : m ≤ 2 * f.normal) :
    (m + 1) * 2 ^ shift ≤ f.units (shift * f.normal + m + 1) := by
  have hpos := f.normal_pos
  rcases Nat.lt_or_eq_of_le hhigh with hlt | rfl
  · rw [Nat.add_assoc, units_shifted (by omega) (by omega)]
  · have hsplit : shift * f.normal + 2 * f.normal + 1 =
        (shift + 1) * f.normal + (f.normal + 1) := by ring
    rw [hsplit, units_shifted (.inr (by omega)) (by omega), Nat.pow_succ', ← Nat.mul_assoc]
    exact Nat.mul_le_mul_right _ (by omega)

/-- The midpoint below a shifted significand is half a shifted unit away, unless the significand is
the least one of its step.  Then the midpoint is nearer, but nothing is cut off there. -/
theorem lower_midpoint {shift m n d : Nat} (hd : 0 < d) (hm : 0 < m)
    (hmin : shift = 0 ∨ f.normal ≤ m) (hmax : m ≤ 2 * f.normal)
    (hlow : shift = 0 ∨ f.normal * (d * 2 ^ shift) ≤ n) :
    (f.units (shift * f.normal + m - 1) + f.units (shift * f.normal + m)) * d + d * 2 ^ shift =
        2 * (m * (d * 2 ^ shift)) ∨
      (f.units (shift * f.normal + m - 1) + f.units (shift * f.normal + m)) * d < 2 * n := by
  by_cases hleast : shift = 0 ∨ f.normal < m
  · left
    calc (f.units (shift * f.normal + m - 1) + f.units (shift * f.normal + m)) * d + d * 2 ^ shift
        = (f.units (shift * f.normal + m - 1) + 2 ^ shift +
            f.units (shift * f.normal + m)) * d := by ring
      _ = (m * 2 ^ shift + m * 2 ^ shift) * d := by
          rw [units_pred_shifted hleast hmax hm, units_shifted hmin hmax]
      _ = 2 * (m * (d * 2 ^ shift)) := by ring
  · right
    have hn : f.normal * (d * 2 ^ shift) ≤ n := hlow.resolve_left fun h => hleast (.inl h)
    obtain rfl : m = f.normal := by omega
    have hstep : f.units (shift * f.normal + f.normal - 1) <
        f.units (shift * f.normal + f.normal) :=
      f.units_strictMono (by omega)
    calc (f.units (shift * f.normal + f.normal - 1) + f.units (shift * f.normal + f.normal)) * d
        < (f.units (shift * f.normal + f.normal) + f.units (shift * f.normal + f.normal)) * d :=
          Nat.mul_lt_mul_of_pos_right (by omega) hd
      _ = 2 * (f.normal * (d * 2 ^ shift)) := by
          rw [units_shifted hmin hmax]
          ring
      _ ≤ 2 * n := Nat.mul_le_mul_left 2 hn

theorem upper_midpoint {shift m d : Nat} (hmin : shift = 0 ∨ f.normal ≤ m)
    (hmax : m ≤ 2 * f.normal) :
    2 * (m * (d * 2 ^ shift)) + d * 2 ^ shift ≤
      (f.units (shift * f.normal + m) + f.units (shift * f.normal + m + 1)) * d := by
  calc 2 * (m * (d * 2 ^ shift)) + d * 2 ^ shift
      = (m * 2 ^ shift + (m + 1) * 2 ^ shift) * d := by ring
    _ = (f.units (shift * f.normal + m) + (m + 1) * 2 ^ shift) * d := by
        rw [units_shifted hmin hmax]
    _ ≤ _ := Nat.mul_le_mul_right d (Nat.add_le_add_left (le_units_succ_shifted hmin hmax) _)

/-- Rounding leaves a step at most for its end. -/
theorem roundHalfEven_mem_step {n d low high : Nat} (hd : 0 < d) (hlow : low * d ≤ n)
    (hhigh : n < high * d) : low ≤ roundHalfEven n d ∧ roundHalfEven n d ≤ high := by
  obtain ⟨hbelow, habove, -⟩ := roundHalfEven_bounds n hd
  constructor
  · have hlt : low * d < (roundHalfEven n d + 1) * d := by
      rw [Nat.succ_mul]
      omega
    exact Nat.le_of_lt_succ (Nat.lt_of_mul_lt_mul_right hlt)
  · have hlt : roundHalfEven n d * d < (high + 1) * d := by
      rw [Nat.succ_mul]
      omega
    exact Nat.le_of_lt_succ (Nat.lt_of_mul_lt_mul_right hlt)

/-- The significand that a shifted number is rounded to. -/
theorem isNearest_of_shift [f.IsProper] {n d shift : Nat} (hd : 0 < d)
    (hlow : shift = 0 ∨ f.normal * (d * 2 ^ shift) ≤ n)
    (hhigh : n < 2 * f.normal * (d * 2 ^ shift)) :
    f.IsNearest (shift * f.normal + roundHalfEven n (d * 2 ^ shift)) n d := by
  have hunit : 0 < d * 2 ^ shift := Nat.mul_pos hd (Nat.two_pow_pos shift)
  have hmin : shift = 0 ∨ f.normal ≤ roundHalfEven n (d * 2 ^ shift) :=
    hlow.imp_right fun hn => (roundHalfEven_mem_step hunit hn hhigh).1
  have hzero : 0 * (d * 2 ^ shift) ≤ n := by
    rw [Nat.zero_mul]
    exact Nat.zero_le n
  have hmax := (roundHalfEven_mem_step hunit hzero hhigh).2
  obtain ⟨hbelow, habove, hodd⟩ := roundHalfEven_bounds n hunit
  generalize roundHalfEven n (d * 2 ^ shift) = m at *
  have hparity : (shift * f.normal + m) % 2 = m % 2 := by
    rw [Nat.add_mod, Nat.mul_mod, IsProper.normal_even, Nat.mul_zero, Nat.zero_mod, Nat.zero_add,
      Nat.mod_mod]
  have hupper := upper_midpoint (d := d) hmin hmax
  unfold IsNearest
  rw [hparity]
  rcases Nat.eq_zero_or_pos m with rfl | hm
  · obtain rfl : shift = 0 := hmin.resolve_right (Nat.not_le.mpr f.normal_pos)
    rw [if_pos rfl]
    exact ⟨by simp, by omega⟩
  · have hlower := lower_midpoint hd hm hmin hmax hlow
    split <;> omega

/-- Rounding gives the nearest magnitude, or infinity if the nearest one is not finite. -/
theorem exists_isNearest [f.IsProper] (n : Nat) {d : Nat} (hd : 0 < d) :
    ∃ k, f.nearest n d = min k f.infinity ∧ f.IsNearest k n d := by
  obtain ⟨shift, hnearest, hlow, hhigh⟩ := f.nearest_eq n hd
  exact ⟨_, hnearest, isNearest_of_shift hd hlow hhigh⟩

/-- **Rounding.** A number is rounded to a finite magnitude exactly if this is the nearest one. -/
theorem nearest_eq_iff [f.IsProper] {k n d : Nat} (hd : 0 < d) (hk : k < f.infinity) :
    f.nearest n d = k ↔ f.IsNearest k n d := by
  obtain ⟨l, hnearest, hself⟩ := f.exists_isNearest n hd
  rw [hnearest]
  constructor
  · intro h
    have hfinite : l = k := by omega
    rwa [hfinite] at hself
  · intro h
    rw [hself.eq hd h, Nat.min_eq_left hk.le]

/-- Rounding looks at a fraction, and not at how it is written. -/
theorem nearest_mul [f.IsProper] (n : Nat) {d c : Nat} (hd : 0 < d) (hc : 0 < c) :
    f.nearest (n * c) (d * c) = f.nearest n d := by
  obtain ⟨k, hk, hscaled⟩ := f.exists_isNearest (n * c) (Nat.mul_pos hd hc)
  obtain ⟨l, hl, hnearest⟩ := f.exists_isNearest n hd
  rw [hk, hl, ((isNearest_mul_iff hc).mp hscaled).eq hd hnearest]

/-- A greater number is not rounded to a smaller magnitude. -/
theorem nearest_mono [f.IsProper] {m n d : Nat} (hd : 0 < d) (hmn : m ≤ n) :
    f.nearest m d ≤ f.nearest n d := by
  obtain ⟨k, hk, hnearest⟩ := f.exists_isNearest m hd
  obtain ⟨l, hl, hnearest'⟩ := f.exists_isNearest n hd
  rw [hk, hl]
  exact min_le_min_right f.infinity (hnearest.mono hd hmn hnearest')

end UiStyle.BinaryFormat
