import UiStyle.Proofs.Declaration.Reports
import UiStyle.Proofs.Declaration.Text
import UiStyle.Proofs.Value.Color

/-!
# Declaring the text of a color

A color can be declared as it is or by its text.  The two are not judged by the same check: a color
knows its form, and a text is only checked if it starts as a code does.  `judgedAlike_text_color`
says for which colors this makes no difference:

```text
codes                       the text is the code again, and judged as such
channels                    neither is ever wrong
keywords that are none      wrong as a color; as a text, only if it starts as a code and is none
other keywords              neither is wrong
```

So the only colors that are judged differently are keywords that are none, and it is always the text
that passes (`Color.PassesAsText`): `light blue` is reported as a color and goes unnoticed as a text
(`text_accepts_lightBlue`).

A text that starts with a number sign is taken for a code.  The check makes a color of it, which
takes all its signs off, whereas the rule keeps the text as it is.  So the rule is valid not only if
the text is a code, but also if it is a code with more signs in front of it (`valid_text_code`),
which stands for no color (`text_accepts_doubleSign`).
-/

namespace UiStyle

open Text

/-- A keyword that is none, but whose text is not found wrong. -/
def Color.PassesAsText : Color → Prop
  | .named keyword => isKeyword keyword = false ∧
      ((trimmed keyword).toList.head? = some '#' → (ofHex (trimmed keyword)).isWellFormed = true)
  | _ => False

namespace Declaration

/-- The rules of two declarations have the same verdict, and something is reported about both of
them or about neither. -/
def JudgedAlike (d e : Declaration) : Prop :=
  d.rule.valid = e.rule.valid ∧ d.violation?.isSome = e.violation?.isSome

theorem judgedAlike_iff {d e : Declaration} :
    d.JudgedAlike e ↔ d.violation?.isSome = e.violation?.isSome := by
  have hvalid : ∀ d : Declaration, d.rule.valid = !d.violation?.isSome := by
    intro d
    rw [valid_rule, Option.not_isSome]
  rw [JudgedAlike, hvalid, hvalid]
  exact ⟨And.right, fun h => ⟨by rw [h], h⟩⟩

/-! ### A color and its text -/

section Comparison

variable {p : Property} (hp : p.form = .color)

include hp in
/-- A text for a property of colors is only checked if it starts as a code. -/
theorem isSome_textViolation (value : String) :
    (textViolation p value).isSome = true ↔
      value.toList.head? = some '#' ∧ (Color.ofHex value).isWellFormed = false := by
  have horigin : p ≠ .transformOrigin := Property.ne_transformOrigin_of_form (by simp [hp])
  have hauto : p.acceptsAuto = true :=
    Property.acceptsAuto_of_form (by simp [hp]) (by simp [hp]) horigin
  have hcolor : p.isColor = true := by simp [Property.isColor, hp]
  rw [textViolation]
  · by_cases hsign : value.toList.head? = some '#'
    · cases hwell : (Color.ofHex value).isWellFormed <;>
        simp [hauto, hcolor, hsign, colorViolation, hwell]
    · simp [hauto, hsign]
  · exact fun _ _ h => absurd h horigin

include hp in
theorem isSome_violation?_text (value : String) :
    (text p value).violation?.isSome = true ↔ (trimmed value).toList.head? = some '#' ∧
      (Color.ofHex (trimmed value)).isWellFormed = false :=
  isSome_textViolation hp (trimmed value)

theorem isSome_violation?_color (c : Color) :
    (color p hp c).violation?.isSome = true ↔ c.isWellFormed = false := by
  rw [violation?, colorViolation]
  cases c.isWellFormed <;> simp

/-- Text that starts with another character than a code goes unnoticed, as channels do. -/
theorem judgedAlike_of_head? {c : Color} (htight : IsTight (StyleValue.text c).toList)
    (hhead : (StyleValue.text c).toList.head? ≠ some '#') (hwell : c.isWellFormed = true) :
    (text p (StyleValue.text c)).JudgedAlike (color p hp c) := by
  rw [judgedAlike_iff, Bool.eq_iff_iff, isSome_violation?_text hp, isSome_violation?_color hp,
    htight.trimmed]
  simp [hhead, hwell]

theorem judgedAlike_ofHex (code : String) :
    (text p (StyleValue.text (Color.ofHex code))).JudgedAlike (color p hp (Color.ofHex code)) := by
  have htight : IsTight (StyleValue.text (Color.ofHex code)).toList := by
    rw [Color.toList_text_ofHex]
    exact Color.isTight_code _
  have hhead : (StyleValue.text (Color.ofHex code)).toList.head? = some '#' := by
    rw [Color.toList_text_ofHex]
    rfl
  rw [judgedAlike_iff, Bool.eq_iff_iff, isSome_violation?_text hp, isSome_violation?_color hp,
    htight.trimmed, Color.ofHex_text_ofHex]
  simp [hhead]

theorem judgedAlike_rgb (red green blue : UInt8) :
    (text p (StyleValue.text (Color.rgb red green blue))).JudgedAlike
      (color p hp (.rgb red green blue)) := by
  apply judgedAlike_of_head? hp (Color.isTight_text_rgb red green blue) _ rfl
  rw [Color.head?_text_rgb]
  decide

theorem judgedAlike_rgba (red green blue : UInt8) (alpha : Binary32) :
    (text p (StyleValue.text (Color.rgba red green blue alpha))).JudgedAlike
      (color p hp (.rgba red green blue alpha)) := by
  apply judgedAlike_of_head? hp (Color.isTight_text_rgba red green blue alpha) _ rfl
  rw [Color.head?_text_rgba]
  decide

/-- A keyword is judged differently exactly if it is none and its text passes. -/
theorem judgedAlike_named (keyword : String) :
    (text p (StyleValue.text (Color.named keyword))).JudgedAlike (color p hp (.named keyword)) ↔
      ¬ (Color.named keyword).PassesAsText := by
  cases hkeyword : Color.isKeyword keyword with
  | true =>
      have hhead := Color.head?_ne_numberSign_of_isKeyword hkeyword
      have halike := judgedAlike_of_head? hp (c := .named keyword)
        (Color.isWord_of_isKeyword hkeyword).isTight hhead hkeyword
      exact iff_of_true halike (by simp [Color.PassesAsText, hkeyword])
  | false =>
      rw [judgedAlike_iff, Bool.eq_iff_iff, isSome_violation?_text hp, isSome_violation?_color hp]
      have hwell : (Color.named keyword).isWellFormed = false := hkeyword
      simp [hwell, Color.PassesAsText, hkeyword]

/-- **Colors and their texts.**  A color that a constructor has made and its text are judged alike
for a property of colors, unless the color is a keyword that is none and passes as a text.  Such a
keyword makes an invalid rule and is reported, whereas its text makes a valid one and is not. -/
theorem judgedAlike_text_color {c : Color} (hc : c.Made) :
    ((text p (StyleValue.text c)).JudgedAlike (color p hp c) ↔ ¬ c.PassesAsText) ∧
      (c.PassesAsText → (color p hp c).rule.valid = false ∧
        (color p hp c).violation? = some (.malformedColor p (StyleValue.text c)) ∧
        (text p (StyleValue.text c)).rule.valid = true ∧
        (text p (StyleValue.text c)).violation? = none) := by
  cases hc with
  | hex code => exact ⟨iff_of_true (judgedAlike_ofHex hp code) not_false, nofun⟩
  | rgb | ofUnits => exact ⟨iff_of_true (judgedAlike_rgb hp _ _ _) not_false, nofun⟩
  | rgba | ofUnitsWithAlpha =>
      exact ⟨iff_of_true (judgedAlike_rgba hp _ _ _ _) not_false, nofun⟩
  | named keyword =>
      refine ⟨judgedAlike_named hp keyword, fun hpasses => ?_⟩
      obtain ⟨hkeyword, hcode⟩ := hpasses
      have hwell : (Color.named keyword).isWellFormed = false := hkeyword
      have hcolor : (color p hp (.named keyword)).violation? =
          some (.malformedColor p (StyleValue.text (Color.named keyword))) := by
        simp [violation?, colorViolation, hwell]
      have htext : (text p (StyleValue.text (Color.named keyword))).violation? = none := by
        rw [← Option.not_isSome_iff_eq_none, isSome_violation?_text hp, Color.text_named]
        rintro ⟨hsign, hmalformed⟩
        rw [hcode hsign] at hmalformed
        cases hmalformed
      refine ⟨?_, hcolor, ?_, htext⟩
      · rw [valid_rule, hcolor]
        rfl
      · rw [valid_rule, htext]
        rfl

/-- A keyword that is none and starts as a code that is none is found wrong either way. -/
theorem judgedAlike_text_color_sign :
    Property.form .borderColor = .color ∧ (Color.named "\u00a0#12 ").Made ∧
      (color .borderColor rfl (.named "\u00a0#12 ")).rule.valid = false ∧
      (text .borderColor "\u00a0#12 ").JudgedAlike
        (color .borderColor rfl (.named "\u00a0#12 ")) := by
  have hcaught : ¬ (Color.named "\u00a0#12 ").PassesAsText := by
    rintro ⟨-, hcode⟩
    exact absurd (hcode (by decide +kernel)) (by decide +kernel)
  have halike := judgedAlike_text_color (p := .borderColor) rfl (.named "\u00a0#12 ")
  exact ⟨rfl, .named _, by decide +kernel, halike.1.mpr hcaught⟩

/-- Two words are no keyword of a color, but nothing is found wrong with them as a text. -/
theorem text_accepts_lightBlue :
    (Color.named "light blue").Made ∧
      (color .color rfl (.named "light blue")).rule = ⟨"color", .color, "light blue", false⟩ ∧
      (color .color rfl (.named "light blue")).violation? =
        some (.malformedColor .color "light blue") ∧
      (text .color "light blue").rule = ⟨"color", .color, "light blue", true⟩ ∧
      (text .color "light blue").violation? = none :=
  ⟨.named _, by decide +kernel, by decide +kernel, by decide +kernel, by decide +kernel⟩

end Comparison

/-! ### Text that starts as a code -/

section Codes

variable {p : Property} {value : String}

/-- A text for a property of colors is written as it is. -/
theorem textValue_of_form (hp : p.form = .color) (value : String) : textValue p value = value := by
  have horigin : p ≠ .transformOrigin := Property.ne_transformOrigin_of_form (by simp [hp])
  exact textValue_eq_self fun h => absurd h horigin

theorem valid_text_iff (hp : p.form = .color)
    (hsign : (trimmed value).toList.head? = some '#') :
    (text p value).rule.valid = true ↔
      Color.AreDigits ((trimmed value).toList.dropWhile (· == '#')) := by
  have htrim : trim (trimmed value).toList = (trimmed value).toList := by
    rw [toList_trimmed, trim_trim]
  have hwell : (Color.ofHex (trimmed value)).isWellFormed = true ↔
      Color.AreDigits ((trimmed value).toList.dropWhile (· == '#')) := by
    rw [Color.isWellFormed_ofHex_iff, htrim]
  have hwrong := isSome_violation?_text hp value
  rw [valid_rule, Option.isNone_iff_eq_none, ← Option.not_isSome_iff_eq_none, hwrong, ← hwell,
    not_and, Bool.not_eq_false]
  exact ⟨fun h => h hsign, fun h _ => h⟩

/-- **Text that starts as a code.**  For a property of colors, a text that starts with a number sign
once it is trimmed makes a rule with the trimmed text as its value, and the rule is written with
this value.  The rule is valid exactly if the trimmed text is a code with any number of signs more
in front of it.  So it is valid exactly if the trimmed text is a code, as long as the second
character is no sign too; if it is one, the trimmed text is no code. -/
theorem valid_text_code (hp : p.form = .color)
    (hsign : (trimmed value).toList.head? = some '#') :
    (text p value).rule.value = trimmed value ∧
      (text p value).rule.text = p.name ++ ": " ++ trimmed value ++ ";" ∧
      ((text p value).rule.valid = true ↔ ∃ more code,
        (trimmed value).toList = List.replicate more '#' ++ code ∧ Color.IsCode code) ∧
      if (trimmed value).toList[1]? = some '#' then ¬ Color.IsCode (trimmed value).toList
      else ((text p value).rule.valid = true ↔ Color.IsCode (trimmed value).toList) := by
  have hvalue : (text p value).rule.value = trimmed value := by
    rw [value_rule]
    exact textValue_of_form hp (trimmed value)
  have hvalid : (text p value).rule.valid = true ↔ ∃ more code,
      (trimmed value).toList = List.replicate more '#' ++ code ∧ Color.IsCode code := by
    rw [valid_text_iff hp hsign, Color.areDigits_dropSigns_iff hsign]
  refine ⟨hvalue, ?_, hvalid, ?_⟩
  · have hname : (text p value).rule.name = p.name := rfl
    rw [Rule.text, hname, hvalue]
  split
  · rename_i hdouble
    rintro ⟨digits, hcode, hdigits⟩
    rw [hcode, List.getElem?_cons_succ] at hdouble
    exact absurd (hdigits.hex '#' (List.mem_of_getElem? hdouble)) (by decide)
  · rename_i hsingle
    rw [hvalid]
    constructor
    · rintro ⟨more, code, htext, hcode⟩
      cases more with
      | zero => rwa [htext]
      | succ more =>
          -- a sign more in front would leave one in the second place
          obtain ⟨digits, rfl, -⟩ := hcode
          have hsecond : (List.replicate (more + 1) '#' ++ '#' :: digits)[1]? = some '#' := by
            cases more <;> simp [List.replicate_succ]
          rw [htext] at hsingle
          exact absurd hsecond hsingle
    · exact fun hcode => ⟨0, (trimmed value).toList, (List.nil_append _).symm, hcode⟩

theorem valid_text_code_padded :
    Property.form .borderColor = .color ∧
      (trimmed "\t#Fc03\u00a0").toList.head? = some '#' ∧
      (text .borderColor "\t#Fc03\u00a0").rule = ⟨"border-color", .borderColor, "#Fc03", true⟩ ∧
      Color.IsCode "#Fc03".toList := by
  have hsign : (trimmed "\t#Fc03\u00a0").toList.head? = some '#' := by decide +kernel
  have htrimmed : trimmed "\t#Fc03\u00a0" = "#Fc03" := by decide +kernel
  have hrule : (text .borderColor "\t#Fc03\u00a0").rule =
      ⟨"border-color", .borderColor, "#Fc03", true⟩ := by decide +kernel
  obtain ⟨-, -, -, hcode⟩ := valid_text_code (p := .borderColor) rfl hsign
  rw [htrimmed, if_neg (by decide), hrule] at hcode
  exact ⟨rfl, hsign, hrule, hcode.mp rfl⟩

/-- A second sign in front of a code goes unnoticed and is written. -/
theorem text_accepts_doubleSign :
    Property.form .color = .color ∧ (trimmed "##fff").toList.head? = some '#' ∧
      (text .color "##fff").rule = ⟨"color", .color, "##fff", true⟩ ∧
      ¬ Color.IsCode "##fff".toList := by
  refine ⟨rfl, by decide +kernel, by decide +kernel, ?_⟩
  rintro ⟨digits, hcode, hdigits⟩
  obtain rfl : "#fff".toList = digits := (List.cons.inj hcode).2
  exact absurd (hdigits.hex '#' (by decide)) (by decide)

end Codes

end Declaration

end UiStyle
