import UiStyle.Proofs.Decimal.Plain
import UiStyle.Proofs.Value.Equality

/-!
# Opacities

A color that is made of an opacity gets one between 0 and 1.  What is not a number and what lies
below gives 0, what lies above gives 1, and all else stays as it is, the negative zero included: it
does not lie below the other zero (`Color.opacityOf_spec`).

```text
opacity given          decimal written
not a number, below 0  0
0 to 1                 what is read back as it, at most 1
above 1                1
negative zero          -0
```

Since the text of a color is read in one way only (`Color.text_rgba_inj`), two such colors have the
same text if they are equal, unless one is made of the negative zero and the other is not
(`Color.text_eq_iff_of_alpha`, `Color.text_negativeZero`).
-/

namespace UiStyle

/-! ### Between 0 and 1 -/

namespace Binary

/-- One, the greatest opacity. -/
def one : Binary32 := .ofNat false 1

theorem units_one :
    BinaryFormat.units .single one.magnitude = BinaryFormat.unitsPerOne .single := by
  decide +kernel

theorem isFinite_of_le_one {x : Binary32} (h : x.magnitude ≤ one.magnitude) :
    x.isFinite = true := by
  have hone : one.magnitude < BinaryFormat.infinity .single := by decide +kernel
  exact isFinite_iff.mpr (h.trans_lt hone)

theorem eq_iff_unsignZero {f : BinaryFormat} {x y : Binary f} :
    x = y ↔ x.unsignZero = y.unsignZero ∧ (x = negativeZero ↔ y = negativeZero) := by
  refine ⟨fun h => h ▸ ⟨rfl, Iff.rfl⟩, fun ⟨hsame, hsign⟩ => ?_⟩
  by_cases hx : x = negativeZero
  · rw [hx, hsign.mp hx]
  · rw [← unsignZero_eq_self_iff.mpr hx, hsame, unsignZero_eq_self_iff.mpr (mt hsign.mpr hx)]

end Binary

/-- Whether the value of a decimal is between 0 and 1. -/
def PlainDecimal.IsInUnit (p : PlainDecimal) : Prop :=
  (p.negative = true → p.coefficient = 0) ∧ p.coefficient ≤ p.denominator

/-- A decimal that stands for a number up to one is no greater than one. -/
theorem PlainDecimal.coefficient_le_denominator {p : PlainDecimal} {x : Binary32}
    (hp : p.toBinary .single = x) (htext : NumberStyle.stylesheet.text x = p.text)
    (hx : x.magnitude ≤ Binary.one.magnitude) : p.coefficient ≤ p.denominator := by
  have hmagnitude := Binary.isFinite_iff.mp (Binary.isFinite_of_le_one hx)
  rcases Nat.lt_or_eq_of_le hx with hlt | heq
  · have hnearest := (BinaryFormat.nearest_eq_iff p.denominator_pos hmagnitude).mp
      (congrArg Binary.magnitude hp)
    have hunits : BinaryFormat.units .single x.magnitude +
        BinaryFormat.units .single (x.magnitude + 1) ≤ 2 * BinaryFormat.unitsPerOne .single := by
      have hself : BinaryFormat.units .single x.magnitude ≤ _ :=
        (BinaryFormat.units_strictMono .single).monotone hlt.le
      have hnext : BinaryFormat.units .single (x.magnitude + 1) ≤ _ :=
        (BinaryFormat.units_strictMono .single).monotone hlt
      rw [Binary.units_one] at hself hnext
      omega
    have hbound : p.coefficient * BinaryFormat.unitsPerOne .single ≤
        p.denominator * BinaryFormat.unitsPerOne .single := by
      have hhigh := hnearest.bounds.2
      have hscaled := Nat.mul_le_mul_right p.denominator hunits
      have hcomm : 2 * BinaryFormat.unitsPerOne .single * p.denominator =
          2 * (p.denominator * BinaryFormat.unitsPerOne .single) := by ring
      omega
    exact Nat.le_of_mul_le_mul_right hbound (Nat.two_pow_pos _)
  · -- a number of size one is written with one digit
    obtain ⟨negative, magnitude, hrange⟩ := x
    obtain rfl : magnitude = Binary.one.magnitude := heq
    have hone : ∀ b : Bool, NumberStyle.stylesheet.text
        (⟨b, Binary.one.magnitude, Binary.one.inRange⟩ : Binary32) =
          (ofDigit b '1' rfl).text := by decide +kernel
    have hdigit : p = ofDigit negative '1' rfl := text_injective (htext.symm.trans (hone negative))
    rw [hdigit]
    exact Nat.le_refl 1

namespace Color

/-- The opacity that a color is given. -/
def opacityOf (alpha : Binary32) : Binary32 :=
  if alpha.isNaN then .zero else alpha.clamp .zero .one

theorem opacityOf_eq (alpha : Binary32) :
    opacityOf alpha =
      if alpha.isNaN = true ∨ alpha.rank < 0 then .zero
      else if (Binary.one.magnitude : Int) < alpha.rank then .one else alpha := by
  have hends : (Binary.zero : Binary32).isNaN = false ∧ (Binary.zero : Binary32).rank = 0 ∧
      Binary.one.isNaN = false ∧ Binary.one.rank = Binary.one.magnitude := by decide +kernel
  obtain ⟨hzeroNaN, hzeroRank, honeNaN, honeRank⟩ := hends
  unfold opacityOf Binary.clamp
  cases hnan : alpha.isNaN with
  | true => simp
  | false =>
      simp [Binary.numLt_iff hnan hzeroNaN, Binary.numLt_iff honeNaN hnan, hzeroRank, honeRank]

/-- An opacity is at most one, and has a sign only if it is the negative zero, which stays. -/
theorem opacityOf_spec (alpha : Binary32) :
    (opacityOf alpha).magnitude ≤ Binary.one.magnitude ∧
      ((opacityOf alpha).negative = true ↔ alpha = .negativeZero) ∧
      (opacityOf alpha = .negativeZero ↔ alpha = .negativeZero) := by
  -- only what is not the negative zero is replaced, and by an end without a sign
  have hreplaced : ∀ {y : Binary32}, y.magnitude ≤ Binary.one.magnitude → y.negative = false →
      alpha ≠ .negativeZero → y.magnitude ≤ Binary.one.magnitude ∧
        (y.negative = true ↔ alpha = .negativeZero) ∧
        (y = .negativeZero ↔ alpha = .negativeZero) := by
    intro y hle hsign halpha
    refine ⟨hle, iff_of_false (by simp [hsign]) halpha, iff_of_false ?_ halpha⟩
    rintro rfl
    cases hsign
  rw [opacityOf_eq]
  split
  · rename_i hbelow
    apply hreplaced (Nat.zero_le _) rfl
    rintro rfl
    exact absurd hbelow (by decide +kernel)
  split
  · rename_i habove
    apply hreplaced (Nat.le_refl _) rfl
    rintro rfl
    exact absurd habove (by decide +kernel)
  · rename_i hbelow habove
    have hnonneg : ¬ alpha.rank < 0 := fun h => hbelow (.inr h)
    rw [Binary.eq_negativeZero_iff]
    cases hsign : alpha.negative with
    | false =>
        rw [Binary.rank, hsign, if_neg (by decide)] at habove
        exact ⟨by omega, by simp, Iff.rfl⟩
    | true =>
        rw [Binary.rank, hsign, if_pos rfl] at hnonneg
        have hmagnitude : alpha.magnitude = 0 := by omega
        exact ⟨by omega, by simp [hmagnitude], Iff.rfl⟩

/-- What is written for an opacity. -/
theorem exists_plainDecimal_opacityOf (alpha : Binary32) :
    ∃ p : PlainDecimal, NumberStyle.stylesheet.text (opacityOf alpha) = p.text ∧
      p.toBinary .single = opacityOf alpha ∧ p.IsInUnit ∧
      (p.negative = true ↔ alpha = .negativeZero) := by
  obtain ⟨hle, hsign, hzero⟩ := opacityOf_spec alpha
  obtain ⟨p, hp, htext⟩ := NumberStyle.exists_plainDecimal (Binary.isFinite_of_le_one hle)
  have hnegative : p.negative = true ↔ alpha = .negativeZero := by
    rw [← hsign, ← hp]
    rfl
  refine ⟨p, htext, hp, ⟨fun h => ?_, p.coefficient_le_denominator hp htext hle⟩, hnegative⟩
  -- the only sign is that of the zero, which is written with one digit
  have hwritten : NumberStyle.stylesheet.text (.negativeZero : Binary32) =
      (PlainDecimal.ofDigit true '0' rfl).text := by decide +kernel
  have hdigit : p = .ofDigit true '0' rfl := by
    apply PlainDecimal.text_injective
    rw [← htext, hzero.mpr (hnegative.mp h), hwritten]
  rw [hdigit]
  rfl

/-! ### Texts of channels -/

/-- A whole number is told from what follows, if that does not start with a digit. -/
theorem toString_append_inj {m n : Nat} {s t : List Char} (hs : ∀ c ∈ s.head?, c.isDigit = false)
    (ht : ∀ c ∈ t.head?, c.isDigit = false)
    (h : (toString m).toList ++ s = (toString n).toList ++ t) : m = n ∧ s = t := by
  have hdigits : ∀ k : Nat, ∀ c ∈ Nat.toDigits 10 k, c.isDigit = true :=
    fun k c hc => Nat.isDigit_of_mem_toDigits (by decide) (by decide) hc
  have hlist : ∀ k : Nat, (toString k).toList = Nat.toDigits 10 k := fun _ => Nat.toList_repr
  rw [hlist, hlist] at h
  obtain ⟨hsame, hrest⟩ := Text.run_append_inj (hdigits m) (hdigits n) hs ht h
  have hvalue := congrArg (fun ds => Nat.ofDigitChars 10 ds 0) hsame
  simp only [Nat.ofDigitChars_ten_toDigits] at hvalue
  exact ⟨hvalue, hrest⟩

theorem isDigit_of_head?_comma (rest : List Char) :
    ∀ c ∈ (", ".toList ++ rest).head?, c.isDigit = false := by
  rintro c ⟨⟩
  decide

theorem channelsText_append_inj {r g b r' g' b' : UInt8} {s t : List Char}
    (hs : ∀ c ∈ s.head?, c.isDigit = false) (ht : ∀ c ∈ t.head?, c.isDigit = false)
    (h : (channelsText r g b).toList ++ s = (channelsText r' g' b').toList ++ t) :
    r = r' ∧ g = g' ∧ b = b' ∧ s = t := by
  simp only [channelsText, String.toList_append, List.append_assoc] at h
  obtain ⟨hred, h⟩ := toString_append_inj (isDigit_of_head?_comma _) (isDigit_of_head?_comma _) h
  obtain ⟨hgreen, h⟩ := toString_append_inj (isDigit_of_head?_comma _) (isDigit_of_head?_comma _)
    (List.append_cancel_left h)
  obtain ⟨hblue, h⟩ := toString_append_inj hs ht (List.append_cancel_left h)
  exact ⟨UInt8.toNat_inj.mp hred, UInt8.toNat_inj.mp hgreen, UInt8.toNat_inj.mp hblue, h⟩

/-- Colors with finite opacities and the same text are the same. -/
theorem text_rgba_inj {r g b r' g' b' : UInt8} {a a' : Binary32} (ha : a.isFinite = true)
    (ha' : a'.isFinite = true) :
    StyleValue.text (rgba r g b a) = StyleValue.text (rgba r' g' b' a') ↔
      rgba r g b a = rgba r' g' b' a' := by
  refine ⟨fun h => ?_, fun h => by rw [h]⟩
  have hlists := congrArg String.toList h
  simp only [StyleValue.text, String.toList_append, List.append_assoc] at hlists
  obtain ⟨rfl, rfl, rfl, hrest⟩ := channelsText_append_inj (isDigit_of_head?_comma _)
    (isDigit_of_head?_comma _) (List.append_cancel_left hlists)
  have hopacity : NumberStyle.stylesheet.text a ++ ")" = NumberStyle.stylesheet.text a' ++ ")" := by
    apply String.toList_inj.mp
    rw [String.toList_append, String.toList_append]
    exact List.append_cancel_left hrest
  rw [(NumberStyle.text_append_inj ha ha' (by decide) (by decide) hopacity).1]

/-! ### Opacities that constructors are given -/

/-- The colors that are made of an opacity, and of channels that are bytes or lie between 0
and 1. -/
inductive MadeWithAlpha : UInt8 → UInt8 → UInt8 → Binary32 → Color → Prop
  | ofBytes (r g b : UInt8) (alpha : Binary32) :
    MadeWithAlpha r g b alpha (withAlpha r g b alpha)
  | ofUnits (r g b alpha : Binary32) :
    MadeWithAlpha (channelOfUnit r) (channelOfUnit g) (channelOfUnit b) alpha
      (ofUnitsWithAlpha r g b alpha)

theorem MadeWithAlpha.eq {r g b : UInt8} {alpha : Binary32} {c : Color}
    (h : c.MadeWithAlpha r g b alpha) : c = rgba r g b (opacityOf alpha) := by
  cases h <;> rfl

/-- **Texts of opacities.** A color that is made of an opacity is written with its channels and a
decimal between 0 and 1 that the moved opacity is read back from.  The decimal has a sign exactly if
the opacity given is the negative zero.  Two such colors have the same text exactly if they are
equal and either both or none are made of the negative zero. -/
theorem text_eq_iff_of_alpha {r g b r' g' b' : UInt8} {alpha alpha' : Binary32} {c c' : Color}
    (hc : c.MadeWithAlpha r g b alpha) (hc' : c'.MadeWithAlpha r' g' b' alpha') :
    (∃ p : PlainDecimal,
      StyleValue.text c = "rgba(" ++ channelsText r g b ++ ", " ++ p.text ++ ")" ∧
        p.toBinary .single = opacityOf alpha ∧ p.IsInUnit ∧
        (p.negative = true ↔ alpha = .negativeZero)) ∧
      (StyleValue.text c = StyleValue.text c' ↔
        c.numEq c' = true ∧ (alpha = .negativeZero ↔ alpha' = .negativeZero)) := by
  obtain ⟨hle, -, hzero⟩ := opacityOf_spec alpha
  obtain ⟨hle', -, hzero'⟩ := opacityOf_spec alpha'
  have hfinite := Binary.isFinite_of_le_one hle
  have hfinite' := Binary.isFinite_of_le_one hle'
  rw [hc.eq, hc'.eq]
  constructor
  · obtain ⟨p, htext, hp, hunit, hnegative⟩ := exists_plainDecimal_opacityOf alpha
    refine ⟨p, ?_, hp, hunit, hnegative⟩
    rw [← htext]
    rfl
  · have hnumEq : (rgba r g b (opacityOf alpha)).numEq (rgba r' g' b' (opacityOf alpha')) = true ↔
        r = r' ∧ g = g' ∧ b = b' ∧
          (opacityOf alpha).unsignZero = (opacityOf alpha').unsignZero := by
      simp [numEq, Binary.numEq_iff, Binary.isNaN_of_isFinite hfinite, and_assoc]
    rw [text_rgba_inj hfinite hfinite', hnumEq, ← hzero, ← hzero', rgba.injEq,
      Binary.eq_iff_unsignZero]
    simp only [and_assoc]

/-- What is not a number and a number below zero make the same color as opacities. -/
theorem text_eq_iff_of_alpha_below :
    (withAlpha 0 255 255 .nan).MadeWithAlpha 0 255 255 .nan ∧
      (ofUnitsWithAlpha .zero .one .one (.ofNat true 1)).MadeWithAlpha
        (channelOfUnit .zero) (channelOfUnit .one) (channelOfUnit .one) (.ofNat true 1) ∧
      StyleValue.text (withAlpha 0 255 255 .nan) = "rgba(0, 255, 255, 0)" ∧
      StyleValue.text (withAlpha 0 255 255 .nan) =
        StyleValue.text (ofUnitsWithAlpha .zero .one .one (.ofNat true 1)) := by
  have hbytes : (withAlpha 0 255 255 .nan).MadeWithAlpha 0 255 255 .nan := .ofBytes ..
  have hunits : (ofUnitsWithAlpha .zero .one .one (.ofNat true 1)).MadeWithAlpha
      (channelOfUnit .zero) (channelOfUnit .one) (channelOfUnit .one) (.ofNat true 1) := .ofUnits ..
  have hequal : (withAlpha 0 255 255 .nan).numEq
      (ofUnitsWithAlpha .zero .one .one (.ofNat true 1)) = true := by decide +kernel
  have hsigns : (.nan : Binary32) = .negativeZero ↔ (.ofNat true 1 : Binary32) = .negativeZero := by
    decide +kernel
  exact ⟨hbytes, hunits, by decide +kernel,
    (text_eq_iff_of_alpha hbytes hunits).2.mpr ⟨hequal, hsigns⟩⟩

/-- The negative zero is written with its sign, although it equals the other zero. -/
theorem text_negativeZero :
    (withAlpha 1 2 3 .negativeZero).MadeWithAlpha 1 2 3 .negativeZero ∧
      (withAlpha 1 2 3 .zero).MadeWithAlpha 1 2 3 .zero ∧
      StyleValue.text (withAlpha 1 2 3 .negativeZero) = "rgba(1, 2, 3, -0)" ∧
      StyleValue.text (withAlpha 1 2 3 .zero) = "rgba(1, 2, 3, 0)" ∧
      (withAlpha 1 2 3 .negativeZero).numEq (withAlpha 1 2 3 .zero) = true :=
  ⟨.ofBytes .., .ofBytes .., by decide +kernel, by decide +kernel, by decide +kernel⟩

end Color

end UiStyle
