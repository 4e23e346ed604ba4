import UiStyle.Proofs.Binary.Product
import UiStyle.Proofs.Value.Opacity

/-!
# Channels of intensities

A channel is made of an intensity in three steps: it is multiplied by 255 and rounded, moved into
the interval from 0 to 255, and cut off to a whole number.  Each step keeps the order of numbers, so
a greater intensity never gives a smaller channel, wherever the two lie:

```text
intensity              product                     channel
not a number           not a number                0
below 0 or a zero      below 0 or a zero           0
between 0 and 1        rounded once, at most 255   integer part of the product
1 and above            255 and above, or infinite  255
```

For an intensity without a sign, the second and the third step take the smaller of the product and
255 and cut it off (`toNat_channelOfUnit`).  `channelOfUnit_rises` is the table and the order, and
what both say of colors that are made of intensities.
-/

namespace UiStyle

open Binary

variable {c d : Binary32}

/-- The greatest channel, as a number. -/
def Binary.greatest : Binary32 := .ofNat false 255

/-- An intensity multiplied by the greatest channel. -/
def Binary.scaled (c : Binary32) : Binary32 := c.mul greatest

theorem greatest_spec :
    greatest.isFinite = true ∧ greatest.isZero = false ∧ greatest.negative = false := by
  decide +kernel

theorem units_greatest : BinaryFormat.units .single greatest.magnitude =
    255 * BinaryFormat.unitsPerOne .single := by
  decide +kernel

theorem floor_greatest : BinaryFormat.floor .single greatest.magnitude = 255 := by
  decide +kernel

theorem scaled_one : one.scaled = greatest := by
  decide +kernel

/-! ### The product -/

theorem isNaN_scaled (h : c.isNaN = true) : c.scaled.isNaN = true := by
  have hnan : (nan : Binary32).isNaN = true := by decide
  simp [scaled, mul, h, hnan]

/-- A product has the sign of the intensity. -/
theorem scaled_spec (h : c.isNaN = false) :
    c.scaled.isNaN = false ∧ c.scaled.negative = c.negative := by
  obtain ⟨hfinite, hzero, hsign⟩ := greatest_spec
  have hspec := mul_spec h hfinite hzero
  rwa [hsign, Bool.bne_false] at hspec

theorem magnitude_scaled_mono (hc : c.isNaN = false) (hd : d.isNaN = false)
    (hle : c.magnitude ≤ d.magnitude) : c.scaled.magnitude ≤ d.scaled.magnitude := by
  obtain ⟨hfinite, hzero, -⟩ := greatest_spec
  exact magnitude_mul_mono hc hd hfinite hzero hle

/-- The product of a finite intensity is rounded once. -/
theorem scaled_of_isFinite (h : c.isFinite = true) :
    c.scaled = rounded c.negative (255 * BinaryFormat.units .single c.magnitude) 1 := by
  obtain ⟨hfinite, -, hsign⟩ := greatest_spec
  have hunits : BinaryFormat.units .single c.magnitude *
      BinaryFormat.units .single greatest.magnitude =
        255 * BinaryFormat.units .single c.magnitude * BinaryFormat.unitsPerOne .single := by
    rw [units_greatest]
    ring
  have hone : 0 < BinaryFormat.unitsPerOne .single := Nat.two_pow_pos _
  rw [scaled, mul_of_isFinite h hfinite, hunits, hsign, Bool.bne_false]
  exact rounded_mul _ _ hone

/-! ### The channel -/

theorem channelOfUnit_eq (c : Binary32) :
    channelOfUnit c =
      if (c.scaled.clamp .zero greatest).isNaN || (c.scaled.clamp .zero greatest).negative then 0
      else .ofNat (BinaryFormat.floor .single (c.scaled.clamp .zero greatest).magnitude) := rfl

theorem channelOfUnit_of_isNaN (h : c.isNaN = true) : channelOfUnit c = 0 := by
  rw [channelOfUnit_eq, clamp_of_isNaN (isNaN_scaled h), isNaN_scaled h, Bool.true_or, if_pos rfl]

/-- The channel of an intensity without a sign is the smaller of the product and 255, cut off. -/
theorem toNat_channelOfUnit (h : c.isNaN = false) (hsign : c.negative = false) :
    (channelOfUnit c).toNat =
      BinaryFormat.floor .single (min c.scaled.magnitude greatest.magnitude) := by
  obtain ⟨hnan, hsign'⟩ := scaled_spec h
  obtain ⟨hfinite, -, hgreatest⟩ := greatest_spec
  obtain ⟨hclampNaN, hclampSign, hclamp⟩ := clamp_of_not_negative hnan (hsign'.trans hsign)
    (isNaN_of_isFinite hfinite) hgreatest
  have hbyte : BinaryFormat.floor .single (min c.scaled.magnitude greatest.magnitude) ≤ 255 := by
    rw [← floor_greatest]
    exact BinaryFormat.floor_mono (Nat.min_le_right _ _)
  rw [channelOfUnit_eq, hclampNaN, hclampSign, hclamp, Bool.or_false, if_neg (by decide),
    UInt8.toNat_ofNat_of_lt' (Nat.lt_succ_of_le hbyte)]

/-- What is below zero keeps its sign or becomes zero, and so does the negative zero. -/
theorem channelOfUnit_of_negative (h : c.isNaN = false) (hsign : c.negative = true) :
    channelOfUnit c = 0 := by
  obtain ⟨hnan, hsign'⟩ := scaled_spec h
  rw [hsign] at hsign'
  obtain ⟨hfinite, -, hgreatest⟩ := greatest_spec
  rw [channelOfUnit_eq]
  rcases clamp_of_negative hnan hsign' (isNaN_of_isFinite hfinite) hgreatest with hzero | hsame
  · rw [hzero]
    decide
  · rw [hsame, hsign', Bool.or_true, if_pos rfl]

theorem channelOfUnit_of_rank (h : c.isNaN = false) (hrank : c.rank ≤ 0) : channelOfUnit c = 0 := by
  cases hsign : c.negative with
  | true => exact channelOfUnit_of_negative h hsign
  | false =>
      rw [rank_of_not_negative hsign] at hrank
      have hzero : c = .zero := ext_iff.mpr ⟨hsign, Nat.le_zero.mp (by exact_mod_cast hrank)⟩
      rw [hzero]
      decide +kernel

theorem channelOfUnit_mono (h : c.numLe d = true) : channelOfUnit c ≤ channelOfUnit d := by
  obtain ⟨hc, hd, hrank⟩ := numLe_iff.mp h
  by_cases hlow : c.rank ≤ 0
  · rw [channelOfUnit_of_rank hc hlow]
    exact UInt8.zero_le
  · -- above zero there are no signs, and all that is left to compare are magnitudes
    have hcsign : c.negative = false := not_negative_of_rank_pos (by omega)
    have hdsign : d.negative = false := not_negative_of_rank_pos (by omega)
    rw [rank_of_not_negative hcsign, rank_of_not_negative hdsign] at hrank
    have hproduct := magnitude_scaled_mono hc hd (by exact_mod_cast hrank)
    rw [UInt8.le_iff_toNat_le, toNat_channelOfUnit hc hcsign, toNat_channelOfUnit hd hdsign]
    exact BinaryFormat.floor_mono (min_le_min_right _ hproduct)

theorem one_spec : one.isNaN = false ∧ one.negative = false ∧ 0 < one.rank := by
  decide +kernel

/-- From one on the product reaches 255. -/
theorem channelOfUnit_of_one_le (h : one.numLe c = true) : channelOfUnit c = 255 := by
  obtain ⟨hone, hc, hrank⟩ := numLe_iff.mp h
  obtain ⟨-, honeSign, hpositive⟩ := one_spec
  have hsign : c.negative = false := not_negative_of_rank_pos (by omega)
  rw [rank_of_not_negative honeSign, rank_of_not_negative hsign] at hrank
  have hproduct := magnitude_scaled_mono hone hc (by exact_mod_cast hrank)
  rw [scaled_one] at hproduct
  rw [← UInt8.toNat_inj, toNat_channelOfUnit hc hsign, Nat.min_eq_right hproduct, floor_greatest]
  rfl

/-- Between zero and one the product is finite, and no greater than 255. -/
theorem channelOfUnit_of_lt_one (hpositive : zero.numLt c = true) (hlt : c.numLt one = true) :
    c.scaled.isFinite = true ∧
      BinaryFormat.IsNearest .single c.scaled.magnitude
        (255 * BinaryFormat.units .single c.magnitude) 1 ∧
      (channelOfUnit c).toNat = BinaryFormat.floor .single c.scaled.magnitude := by
  have hc : c.isNaN = false := by
    cases hnan : c.isNaN with
    | false => rfl
    | true => simp [numLt, hnan] at hlt
  have hzero : (zero : Binary32).isNaN = false ∧ (zero : Binary32).rank = 0 := ⟨rfl, rfl⟩
  obtain ⟨hone, honeSign, -⟩ := one_spec
  rw [numLt_iff hzero.1 hc, hzero.2] at hpositive
  have hsign := not_negative_of_rank_pos hpositive
  rw [numLt_iff hc hone, rank_of_not_negative honeSign, rank_of_not_negative hsign] at hlt
  have hle : c.magnitude ≤ one.magnitude := by omega
  have hproduct := magnitude_scaled_mono hc hone hle
  rw [scaled_one] at hproduct
  have hfinite : c.scaled.magnitude < BinaryFormat.infinity .single :=
    Nat.lt_of_le_of_lt hproduct (isFinite_iff.mp greatest_spec.1)
  refine ⟨isFinite_iff.mpr hfinite, ?_, ?_⟩
  · have hrounded := congrArg magnitude (scaled_of_isFinite (isFinite_of_le_one hle))
    exact (BinaryFormat.nearest_eq_iff Nat.one_pos hfinite).mp hrounded.symm
  · rw [toNat_channelOfUnit hc hsign, Nat.min_eq_left hproduct]

/-! ### Colors -/

namespace Color

/-- The colors that are made of three intensities, with an opacity or without one. -/
inductive MadeOfUnits (red green blue : Binary32) : Color → Prop
  | plain : MadeOfUnits red green blue (ofUnits red green blue)
  | withAlpha (alpha : Binary32) :
    MadeOfUnits red green blue (ofUnitsWithAlpha red green blue alpha)

/-- The channels of a color, if it has any. -/
def channels? : Color → Option (UInt8 × UInt8 × UInt8)
  | .rgb red green blue | .rgba red green blue _ => some (red, green, blue)
  | .hex _ | .named _ => none

theorem MadeOfUnits.channels?_eq {r g b : Binary32} {x : Color} (h : x.MadeOfUnits r g b) :
    x.channels? = some (channelOfUnit r, channelOfUnit g, channelOfUnit b) := by
  cases h <;> rfl

end Color

/-- **Channels of intensities.**  For numbers of 32 bits of any kind,

* a greater intensity does not give a smaller channel;
* the channel is 0 for what is not a number and for what is not above zero, and 255 from one on;
* between zero and one it is the integer part of the product with 255, rounded to the nearest
  number of 32 bits, a tie going to the even one.

So a color that is made of intensities has three channels, none of which gets smaller when its
intensity gets greater, whatever the others and the opacity are. -/
theorem channelOfUnit_rises :
    (∀ c d : Binary32, c.numLe d = true → channelOfUnit c ≤ channelOfUnit d) ∧
      (∀ c : Binary32, c.isNaN = true ∨ c.numLe .zero = true → channelOfUnit c = 0) ∧
      (∀ c : Binary32, one.numLe c = true → channelOfUnit c = 255) ∧
      (∀ c : Binary32, zero.numLt c = true → c.numLt one = true →
        c.scaled.isFinite = true ∧
          BinaryFormat.IsNearest .single c.scaled.magnitude
            (255 * BinaryFormat.units .single c.magnitude) 1 ∧
          (channelOfUnit c).toNat = BinaryFormat.floor .single c.scaled.magnitude) ∧
      ∀ (r g b r' g' b' : Binary32) (x y : Color), x.MadeOfUnits r g b → y.MadeOfUnits r' g' b' →
        ∃ red green blue red' green' blue', x.channels? = some (red, green, blue) ∧
          y.channels? = some (red', green', blue') ∧ (r.numLe r' = true → red ≤ red') ∧
          (g.numLe g' = true → green ≤ green') ∧ (b.numLe b' = true → blue ≤ blue') := by
  refine ⟨fun c d => channelOfUnit_mono, fun c hc => ?_, fun c => channelOfUnit_of_one_le,
    fun c => channelOfUnit_of_lt_one, fun r g b r' g' b' x y hx hy => ?_⟩
  · rcases hc with hnan | hlow
    · exact channelOfUnit_of_isNaN hnan
    · obtain ⟨hnan, -, hrank⟩ := numLe_iff.mp hlow
      exact channelOfUnit_of_rank hnan hrank
  · exact ⟨_, _, _, _, _, _, hx.channels?_eq, hy.channels?_eq, channelOfUnit_mono,
      channelOfUnit_mono, channelOfUnit_mono⟩

/-! The greatest number below one misses the greatest channel. -/

example : channelOfUnit (.ofBits 0x3f7fffff) = 254 ∧ channelOfUnit (.ofBits 0x3f800000) = 255 := by
  decide +kernel

end UiStyle
