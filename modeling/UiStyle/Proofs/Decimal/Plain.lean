import UiStyle.Decimal
import UiStyle.Proofs.Binary.Equality
import UiStyle.Proofs.Decimal.ReadBack
import UiStyle.Proofs.Value.Text

/-!
# Plain decimals

A plain decimal is written with digits, a point in front of the last of them if there is a fraction,
and a hyphen in front of all if it is negative.  Whatever follows that does not start as a number
goes on, the text is read in one way only (`PlainDecimal.append_inj`): the characters of a number
end where the decimal ends, and its digits end where the point stands.

The text of every finite number in a stylesheet is a plain decimal, and the number is the one that
is nearest to it (`exists_plainDecimal`).  So finite numbers with the same text are the same,
whatever stands behind them (`text_append_inj`).
-/

namespace UiStyle

/-- A run of characters of one class is told from what follows, if that starts with another
character. -/
theorem Text.run_append_inj {p : Char → Bool} {run run' rest rest' : List Char}
    (hrun : ∀ c ∈ run, p c = true) (hrun' : ∀ c ∈ run', p c = true)
    (hrest : ∀ c ∈ rest.head?, p c = false) (hrest' : ∀ c ∈ rest'.head?, p c = false)
    (h : run ++ rest = run' ++ rest') : run = run' ∧ rest = rest' := by
  have htake : ∀ {run rest : List Char}, (∀ c ∈ run, p c = true) →
      (∀ c ∈ rest.head?, p c = false) → (run ++ rest).takeWhile p = run := by
    intro run rest hrun hrest
    have hstop : rest.takeWhile p = [] := by
      cases rest with
      | nil => rfl
      | cons c cs => exact List.takeWhile_cons_of_neg (by simp [hrest c rfl])
    rw [List.takeWhile_append_of_pos hrun, hstop, List.append_nil]
  have hsame : run = run' := by rw [← htake hrun hrest, h, htake hrun' hrest']
  subst hsame
  exact ⟨rfl, List.append_cancel_left h⟩

/-- Digits with a point in front of the last of them, and perhaps a sign in front. -/
structure PlainDecimal where
  negative : Bool
  /-- The digits in front of the point. -/
  whole : List Char
  /-- The digits behind the point; if there are none, there is no point either. -/
  fraction : List Char
  whole_ne_nil : whole ≠ []
  isDigit_whole : ∀ c ∈ whole, c.isDigit = true
  isDigit_fraction : ∀ c ∈ fraction, c.isDigit = true

namespace PlainDecimal

variable {p q : PlainDecimal}

/-- The point with the digits behind it. -/
def pointed (p : PlainDecimal) : List Char :=
  if p.fraction = [] then [] else '.' :: p.fraction

/-- The characters of a decimal. -/
def chars (p : PlainDecimal) : List Char :=
  (if p.negative then ['-'] else []) ++ (p.whole ++ p.pointed)

/-- The text of a decimal. -/
def text (p : PlainDecimal) : String := .ofList p.chars

/-- A decimal of one digit. -/
def ofDigit (negative : Bool) (c : Char) (hc : c.isDigit = true) : PlainDecimal where
  negative := negative
  whole := [c]
  fraction := []
  whole_ne_nil := List.cons_ne_nil c []
  isDigit_whole := List.forall_mem_singleton.mpr hc
  isDigit_fraction := nofun

/-- The number that all digits make, without a point. -/
def coefficient (p : PlainDecimal) : Nat := Nat.ofDigitChars 10 (p.whole ++ p.fraction) 0

/-- What the coefficient is divided by. -/
def denominator (p : PlainDecimal) : Nat := 10 ^ p.fraction.length

theorem denominator_pos (p : PlainDecimal) : 0 < p.denominator := Nat.pow_pos (by decide)

@[simp] theorem toList_text (p : PlainDecimal) : p.text.toList = p.chars := String.toList_ofList

/-- The number of a format that is nearest to a decimal. -/
def toBinary (p : PlainDecimal) (f : BinaryFormat) : Binary f :=
  .rounded p.negative (p.coefficient * f.unitsPerOne) p.denominator

/-- Whether a decimal is a zero with a sign. -/
def IsNegativeZero (p : PlainDecimal) : Prop := p.negative = true ∧ p.coefficient = 0

/-- A zero with a sign is read as one. -/
theorem IsNegativeZero.toBinary {f : BinaryFormat} [f.IsProper] (h : p.IsNegativeZero) :
    p.toBinary f = .negativeZero := by
  obtain ⟨hnegative, hcoefficient⟩ := h
  have hunits : p.coefficient * f.unitsPerOne = f.units 0 * p.denominator := by
    rw [hcoefficient, BinaryFormat.units_zero, Nat.zero_mul, Nat.zero_mul]
  have hself : f.IsNearest 0 (p.coefficient * f.unitsPerOne) p.denominator :=
    hunits ▸ f.isNearest_units 0 p.denominator_pos
  rw [Binary.eq_negativeZero_iff]
  exact ⟨hnegative,
    (BinaryFormat.nearest_eq_iff p.denominator_pos BinaryFormat.IsProper.infinity_pos).mpr hself⟩

/-! ### Reading -/

/-- The characters that numbers are written with. -/
def isNumeral (c : Char) : Bool := c.isDigit || c == '.' || c == '-'

theorem chars_ne_nil (p : PlainDecimal) : p.chars ≠ [] :=
  List.append_ne_nil_of_right_ne_nil _ (List.append_ne_nil_of_left_ne_nil p.whole_ne_nil _)

theorem isNumeral_of_mem_chars {c : Char} (hc : c ∈ p.chars) : isNumeral c = true := by
  rw [chars, List.mem_append, List.mem_append] at hc
  rcases hc with hsign | hwhole | hpointed
  · split at hsign
    · rw [List.mem_singleton.mp hsign]
      rfl
    · cases hsign
  · simp [isNumeral, p.isDigit_whole c hwhole]
  · unfold pointed at hpointed
    split at hpointed
    · cases hpointed
    · rcases List.mem_cons.mp hpointed with rfl | hc
      · rfl
      · simp [isNumeral, p.isDigit_fraction c hc]

theorem isWord_chars (p : PlainDecimal) : Text.IsWord p.chars where
  nonempty := p.chars_ne_nil
  solid c hc := by
    have hnumeral := p.isNumeral_of_mem_chars hc
    simp only [isNumeral, Bool.or_eq_true, beq_iff_eq] at hnumeral
    rcases hnumeral with (hdigit | rfl) | rfl
    · exact Text.isBlank_of_isDigit hdigit
    · decide
    · decide

theorem isDigit_of_head?_pointed {c : Char} (hc : c ∈ p.pointed.head?) : c.isDigit = false := by
  unfold pointed at hc
  split at hc
  · cases hc
  · obtain rfl := Option.some_inj.mp hc
    rfl

theorem pointed_inj (h : p.pointed = q.pointed) : p.fraction = q.fraction := by
  unfold pointed at h
  split at h <;> split at h
  · rename_i hp hq
    rw [hp, hq]
  · cases h
  · cases h
  · exact (List.cons.inj h).2

/-- Digits in front of something else do not start with a sign. -/
theorem head?_whole_append (rest : List Char) : (p.whole ++ rest).head? ≠ some '-' := by
  obtain ⟨c, cs, hwhole⟩ := List.exists_cons_of_ne_nil p.whole_ne_nil
  have hdigit : c.isDigit = true := p.isDigit_whole c (hwhole ▸ List.mem_cons_self ..)
  rw [hwhole]
  rintro ⟨⟩
  exact absurd hdigit (by decide)

/-- The characters of a decimal tell which one it is. -/
theorem chars_injective : Function.Injective chars := by
  intro p q h
  have hparts : p.negative = q.negative ∧ p.whole ++ p.pointed = q.whole ++ q.pointed := by
    unfold chars at h
    cases hp : p.negative <;> cases hq : q.negative <;> rw [hp, hq] at h
    · exact ⟨rfl, h⟩
    · exact absurd (congrArg List.head? h) (head?_whole_append _)
    · exact absurd (congrArg List.head? h).symm (head?_whole_append _)
    · exact ⟨rfl, (List.cons.inj h).2⟩
  obtain ⟨hnegative, hunsigned⟩ := hparts
  obtain ⟨hwhole, hpointed⟩ := Text.run_append_inj p.isDigit_whole q.isDigit_whole
    (fun _ => isDigit_of_head?_pointed) (fun _ => isDigit_of_head?_pointed) hunsigned
  cases p
  cases q
  simp only [PlainDecimal.mk.injEq]
  exact ⟨hnegative, hwhole, pointed_inj hpointed⟩

theorem text_injective : Function.Injective text := fun _ _ h =>
  chars_injective (String.ofList_injective h)

/-- A decimal is told from what follows, if that starts with no character of a number. -/
theorem append_inj {rest rest' : List Char} (hrest : ∀ c ∈ rest.head?, isNumeral c = false)
    (hrest' : ∀ c ∈ rest'.head?, isNumeral c = false) (h : p.chars ++ rest = q.chars ++ rest') :
    p = q ∧ rest = rest' := by
  obtain ⟨hchars, hsame⟩ := Text.run_append_inj (fun _ => isNumeral_of_mem_chars)
    (fun _ => isNumeral_of_mem_chars) hrest hrest' h
  exact ⟨chars_injective hchars, hsame⟩

end PlainDecimal

/-- Whether a text starts with no character of a number. -/
def IsUnitText (unit : String) : Prop :=
  ∀ c ∈ unit.toList.head?, PlainDecimal.isNumeral c = false

instance (unit : String) : Decidable (IsUnitText unit) :=
  decidable_of_iff (unit.toList.head?.all (!PlainDecimal.isNumeral ·) = true) (by
    simp [IsUnitText, Option.all_eq_true])

namespace Decimal

theorem ofDigitChars_digits (n : Nat) : Nat.ofDigitChars 10 (digits n) 0 = n := by
  unfold digits
  split
  · rename_i hzero
    rw [hzero, Nat.ofDigitChars_nil]
  · exact Nat.ofDigitChars_ten_toDigits

theorem digits_ne_nil {n : Nat} (hn : n ≠ 0) : digits n ≠ [] := by
  rw [digits, if_neg hn]
  exact Nat.toDigits_ne_nil

end Decimal

/-! ### Writing -/

namespace NumberStyle

theorem isDigit_of_mem_zeros {n : Nat} : ∀ c ∈ List.replicate n '0', c.isDigit = true := by
  intro c hc
  rw [List.eq_of_mem_replicate hc]
  rfl

/-- Digits with a point somewhere, and zeros where digits are missing, are a plain decimal. -/
theorem exists_plainDecimal_of_digits (negative : Bool) {digits : List Char}
    (hdigits : ∀ c ∈ digits, c.isDigit = true) (hne : digits ≠ []) (e : Int) :
    ∃ p : PlainDecimal, p.negative = negative ∧
      p.whole ++ p.pointed = stylesheet.positionalText digits (digits.length + e) ∧
      p.coefficient = Nat.ofDigitChars 10 digits 0 * (Decimal.powerOfTen e).1 ∧
      p.denominator = (Decimal.powerOfTen e).2 := by
  have hlength : 0 < digits.length := List.length_pos_iff.mpr hne
  unfold positionalText
  split
  · -- the point stands in front of all digits
    rename_i hpoint
    obtain ⟨n, rfl⟩ : ∃ n : Nat, e = -((n + digits.length : Nat) : Int) :=
      ⟨(-(digits.length + e)).toNat, by omega⟩
    have hzeros : (-((digits.length : Int) + -((n + digits.length : Nat) : Int))).toNat = n := by
      omega
    have hfraction : List.replicate n '0' ++ digits ≠ [] :=
      List.append_ne_nil_of_right_ne_nil _ hne
    have hwhole : ∀ c ∈ ['0'], c.isDigit = true := List.forall_mem_singleton.mpr rfl
    refine ⟨⟨negative, ['0'], List.replicate n '0' ++ digits, by simp, hwhole, ?_⟩, rfl, ?_, ?_, ?_⟩
    · exact List.forall_mem_append.mpr ⟨isDigit_of_mem_zeros, hdigits⟩
    · rw [PlainDecimal.pointed, if_neg hfraction, hzeros]
      rfl
    · rw [Decimal.powerOfTen_neg_natCast, Nat.mul_one, PlainDecimal.coefficient,
        List.singleton_append, Nat.ofDigitChars_cons, Nat.ofDigitChars_append,
        Nat.ofDigitChars_replicate_zero]
      simp
    · rw [Decimal.powerOfTen_neg_natCast, PlainDecimal.denominator, List.length_append,
        List.length_replicate]
  split
  · -- the point stands between two digits
    rename_i hpoint hinside
    obtain ⟨n, hn, rfl⟩ : ∃ n : Nat, n < digits.length ∧ e = (n : Int) - digits.length :=
      ⟨(digits.length + e).toNat, by omega, by omega⟩
    have hplace : ((digits.length : Int) + (n - digits.length)).toNat = n := by omega
    have hexponent : (n : Int) - digits.length = -((digits.length - n : Nat) : Int) := by omega
    have hwhole : digits.take n ≠ [] := by
      rw [Ne, List.take_eq_nil_iff]
      rintro (rfl | hnil)
      · omega
      · exact hne hnil
    have hfraction : digits.drop n ≠ [] := by
      rw [Ne, List.drop_eq_nil_iff]
      omega
    refine ⟨⟨negative, digits.take n, digits.drop n, hwhole, ?_, ?_⟩, rfl, ?_, ?_, ?_⟩
    · exact fun c hc => hdigits c (List.mem_of_mem_take hc)
    · exact fun c hc => hdigits c (List.mem_of_mem_drop hc)
    · rw [PlainDecimal.pointed, if_neg hfraction, hplace]
    · rw [hexponent, Decimal.powerOfTen_neg_natCast, Nat.mul_one, PlainDecimal.coefficient,
        List.take_append_drop]
    · rw [hexponent, Decimal.powerOfTen_neg_natCast, PlainDecimal.denominator, List.length_drop]
  · -- zeros fill the places between the digits and the point
    rename_i hpoint houtside
    obtain ⟨n, rfl⟩ : ∃ n : Nat, e = n := ⟨e.toNat, by omega⟩
    have hzeros : ((digits.length : Int) + (n : Int)).toNat - digits.length = n := by omega
    refine ⟨⟨negative, digits ++ List.replicate n '0', [], ?_, ?_, nofun⟩, rfl, ?_, ?_, ?_⟩
    · exact List.append_ne_nil_of_left_ne_nil hne _
    · exact List.forall_mem_append.mpr ⟨hdigits, isDigit_of_mem_zeros⟩
    · rw [PlainDecimal.pointed, if_pos rfl, hzeros]
      rfl
    · rw [Decimal.powerOfTen_natCast, PlainDecimal.coefficient, List.append_nil,
        Nat.ofDigitChars_append, Nat.ofDigitChars_replicate_zero, Nat.mul_comm]
    · rw [Decimal.powerOfTen_natCast]
      rfl

variable {f : BinaryFormat} {x y : Binary f}

theorem exists_plainDecimal_magnitude (hx : x.isFinite = true) :
    ∃ p : PlainDecimal, p.negative = x.negative ∧
      p.whole ++ p.pointed = stylesheet.magnitudeText x ∧
      f.IsNearest x.magnitude (p.coefficient * f.unitsPerOne) p.denominator := by
  have hinfinite : x.isInfinite = false := by
    rw [Binary.isFinite_iff] at hx
    simp only [Binary.isInfinite, beq_eq_false_iff_ne]
    omega
  have hmagnitude : stylesheet.magnitudeText x =
      if x.isZero then ['0'] else stylesheet.decimalText (Decimal.shortest f .up x.magnitude) := by
    rw [magnitudeText, hinfinite]
    rfl
  rw [hmagnitude]
  split
  · rename_i hzero
    rw [Binary.isZero_iff] at hzero
    have hnearest : f.IsNearest 0 (0 * f.unitsPerOne) 1 := by
      have hunits : 0 * f.unitsPerOne = f.units 0 * 1 := by
        rw [BinaryFormat.units_zero, Nat.zero_mul, Nat.zero_mul]
      rw [hunits]
      exact f.isNearest_units 0 Nat.zero_lt_one
    rw [hzero]
    exact ⟨.ofDigit x.negative '0' rfl, rfl, rfl, hnearest⟩
  · rename_i hzero
    have hpos : 0 < x.magnitude := Nat.pos_of_ne_zero fun h => hzero (Binary.isZero_iff.mpr h)
    have hreads := Decimal.readsAs_shortest (f := f) (k := x.magnitude) .up
    have hne := Decimal.digits_ne_nil (Decimal.coefficient_ne_zero hpos hreads)
    obtain ⟨p, hnegative, htext, hcoefficient, hdenominator⟩ := exists_plainDecimal_of_digits
      x.negative (fun _ => Decimal.isDigit_of_mem_digits) hne
      (Decimal.shortest f .up x.magnitude).exponent
    refine ⟨p, hnegative, htext, ?_⟩
    rw [hcoefficient, hdenominator, Decimal.ofDigitChars_digits]
    exact Decimal.readsAs_iff.mp hreads

variable [f.IsProper]

/-- **Texts of numbers.** The text of a finite number in a stylesheet is a plain decimal, and the
number is the one that is nearest to it. -/
theorem exists_plainDecimal (hx : x.isFinite = true) :
    ∃ p : PlainDecimal, p.toBinary f = x ∧ stylesheet.text x = p.text := by
  obtain ⟨p, hnegative, htext, hnearest⟩ := exists_plainDecimal_magnitude hx
  refine ⟨p, ?_, ?_⟩
  · rw [Binary.ext_iff]
    refine ⟨hnegative, (BinaryFormat.nearest_eq_iff p.denominator_pos ?_).mpr hnearest⟩
    exact Binary.isFinite_iff.mp hx
  · rw [text, Binary.isNaN_of_isFinite hx, ← htext, ← hnegative]
    rfl

/-- Finite numbers in front of texts that start with no character of a number, such as units. -/
theorem text_append_inj {s t : String} (hx : x.isFinite = true) (hy : y.isFinite = true)
    (hs : IsUnitText s) (ht : IsUnitText t)
    (h : stylesheet.text x ++ s = stylesheet.text y ++ t) : x = y ∧ s = t := by
  obtain ⟨p, hp, hpx⟩ := exists_plainDecimal hx
  obtain ⟨q, hq, hqy⟩ := exists_plainDecimal hy
  have hchars : p.chars ++ s.toList = q.chars ++ t.toList := by
    have hlists := congrArg String.toList h
    rwa [hpx, hqy, String.toList_append, String.toList_append, PlainDecimal.toList_text,
      PlainDecimal.toList_text] at hlists
  obtain ⟨hdecimal, hrest⟩ := PlainDecimal.append_inj hs ht hchars
  exact ⟨by rw [← hp, ← hq, hdecimal], String.toList_inj.mp hrest⟩

end NumberStyle

end UiStyle
