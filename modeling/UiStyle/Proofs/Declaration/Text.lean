import UiStyle.Declaration
import UiStyle.Journal
import UiStyle.Proofs.Value.Text

/-!
# Declaring a text again

The value of a rule is text, and `Declaration.text` declares text.  For every declaration that is
typed, that is whose value is neither text already nor a color, the two agree: the property and the
value of its rule make the same rule again, with the same verdict and the same report.

A declaration `Rereads` if its text passes through the three things that `Declaration.text` does:

* trimming, which leaves a tight text alone;
* the check of the words, which must find `auto` exactly where the value holds it;
* the check for two origin keywords, which must find those that were given and no others.

Most properties accept `auto` and have no origin, so their text only has to be tight
(`Rereads.of_tight`); an asset may hold any words then.  For lengths, the words of the text are
looked at (`Rereads.of_lengths`).
-/

namespace UiStyle

open Text

namespace Property

/-- Only properties of lengths refuse `auto`. -/
theorem acceptsAuto_of_form {p : Property} (hedges : p.form ≠ .edges) (hlength : p.form ≠ .length)
    (horigin : p ≠ .transformOrigin) : p.acceptsAuto = true := by
  revert hedges hlength horigin
  cases p <;> decide

theorem ne_transformOrigin_of_form {p : Property} (hown : p.form ≠ .own) :
    p ≠ .transformOrigin := by
  rintro rfl
  exact hown rfl

theorem isColor_eq_false {p : Property} (hcolor : p.form ≠ .color) : p.isColor = false := by
  simpa [isColor] using hcolor

end Property

theorem OriginAlign.isWord_toKeyword (a : OriginAlign) : IsWord a.toKeyword.toList :=
  KeywordSet.oneWord a

namespace Declaration

/-- Whether a value is given by its type, and not as text or as a color. -/
def isTyped : Declaration → Bool
  | .color .. | .custom .. | .text .. => false
  | _ => true

/-! ### Words of lengths and of origin keywords -/

theorem mentionsAuto_edges (e : Edges) :
    mentionsAuto (StyleValue.text e) = StyleValue.isAuto e := by
  rw [mentionsAuto, e.words_text, List.any_map]
  exact List.any_congr rfl fun l => l.sameIgnoringCase_auto

theorem mentionsAuto_length (l : Length) :
    mentionsAuto (StyleValue.text l) = StyleValue.isAuto l := by
  show (words l.text.toList).any (sameIgnoringCase "auto".toList) = StyleValue.isAuto l
  rw [l.isWord_text.words, List.any_cons, List.any_nil, Bool.or_false]
  exact l.sameIgnoringCase_auto

/-- Two lengths are no origin keywords. -/
theorem originKeywords?_axes (x y : Length) :
    originKeywords? (StyleValue.text (Edges.axes x y)) = none := by
  have hwords : words (StyleValue.text (Edges.axes x y)).toList = [x.text.toList, y.text.toList] :=
    Edges.words_text _
  simp [originKeywords?, hwords, x.ofKeyword?_text]

theorem toList_keywordPair (first second : OriginAlign) :
    (keywordPair first second).toList =
      first.toKeyword.toList ++ [' '] ++ second.toKeyword.toList := by
  simp [keywordPair, String.toList_append]

theorem words_keywordPair (first second : OriginAlign) :
    words (keywordPair first second).toList =
      [first.toKeyword.toList, second.toKeyword.toList] := by
  rw [toList_keywordPair, List.append_assoc, List.singleton_append,
    first.isWord_toKeyword.words_append isBlank_space, second.isWord_toKeyword.words]

theorem mentionsAuto_keywordPair (first second : OriginAlign) :
    mentionsAuto (keywordPair first second) = false := by
  rw [mentionsAuto, words_keywordPair]
  cases first <;> cases second <;> decide

/-- A text consists of two origin keywords if these are its words. -/
theorem originKeywords?_eq_some_iff {value : String} {first second : OriginAlign} :
    originKeywords? value = some (first, second) ↔
      words value.toList = [first.toKeyword.toList, second.toKeyword.toList] := by
  constructor
  · intro h
    unfold originKeywords? at h
    split at h
    · rename_i v w hwords
      obtain ⟨a, ha, h⟩ := Option.bind_eq_some_iff.mp h
      obtain ⟨b, hb, h⟩ := Option.bind_eq_some_iff.mp h
      cases h
      have hv : first.toKeyword = .ofList v := KeywordSet.ofKeyword?_eq_some.mp ha
      have hw : second.toKeyword = .ofList w := KeywordSet.ofKeyword?_eq_some.mp hb
      rw [hwords, hv, hw, String.toList_ofList, String.toList_ofList]
    · cases h
  · intro h
    have hkeyword : ∀ a : OriginAlign, KeywordSet.ofKeyword? a.toKeyword = some a :=
      KeywordSet.ofKeyword?_keyword
    simp [originKeywords?, h, hkeyword]

theorem originKeywords?_keywordPair (first second : OriginAlign) :
    originKeywords? (keywordPair first second) = some (first, second) :=
  originKeywords?_eq_some_iff.mpr (words_keywordPair first second)

/-! ### Checking a text -/

theorem not_originKeywords {p : Property} {value : String}
    (horigin : p = .transformOrigin → originKeywords? value = none) (first second : OriginAlign) :
    p = .transformOrigin → originKeywords? value = some (first, second) → False := by
  intro hp hsome
  rw [horigin hp] at hsome
  cases hsome

/-- Text that is neither a color nor two origin keywords can only be wrong by its `auto`. -/
theorem textViolation_eq_autoForbidden {p : Property} {value : String}
    (horigin : p = .transformOrigin → originKeywords? value = none) (hcolor : p.isColor = false) :
    textViolation p value =
      if mentionsAuto value && !p.acceptsAuto then some (.autoForbidden p) else none := by
  rw [textViolation, Bool.and_comm]
  · simp [hcolor]
  · exact not_originKeywords horigin

/-- Text that is not two origin keywords is written as it is. -/
theorem textValue_eq_self {p : Property} {value : String}
    (horigin : p = .transformOrigin → originKeywords? value = none) :
    textValue p value = value := by
  rw [textValue]
  · exact ite_self value
  · exact not_originKeywords horigin

/-- What is written for a declaration is taken as it is and found wrong for the same reason. -/
structure Rereads (d : Declaration) : Prop where
  tight : IsTight d.valueText.toList
  value : textValue d.property d.valueText = d.valueText
  violation : textViolation d.property d.valueText = d.violation?

namespace Rereads

variable {d : Declaration}

theorem of_lengths (htight : IsTight d.valueText.toList)
    (horigin : d.property = .transformOrigin → originKeywords? d.valueText = none)
    (hcolor : d.property.isColor = false)
    (hviolation : d.violation? = if mentionsAuto d.valueText && !d.property.acceptsAuto then
      some (.autoForbidden d.property) else none) : d.Rereads where
  tight := htight
  value := textValue_eq_self horigin
  violation := by rw [textViolation_eq_autoForbidden horigin hcolor, hviolation]

theorem of_tight (htight : IsTight d.valueText.toList) (hauto : d.property.acceptsAuto = true)
    (horigin : d.property ≠ .transformOrigin) (hcolor : d.property.isColor = false)
    (hviolation : d.violation? = none) : d.Rereads :=
  of_lengths htight (fun h => absurd h horigin) hcolor (by simp [hauto, hviolation])

/-- A property of a shared form that is not one of lengths or colors takes any tight text. -/
theorem of_form {form : ValueForm} (htight : IsTight d.valueText.toList)
    (hform : d.property.form = form) (hshared : form ∉ [.edges, .length, .color, .own])
    (hviolation : d.violation? = none) : d.Rereads := by
  subst hform
  simp only [List.mem_cons, List.not_mem_nil, not_or, or_false] at hshared
  obtain ⟨hedges, hlength, hcolor, hown⟩ := hshared
  have horigin := Property.ne_transformOrigin_of_form hown
  exact of_tight htight (Property.acceptsAuto_of_form hedges hlength horigin) horigin
    (Property.isColor_eq_false hcolor) hviolation

/-- A keyword for a property that accepts `auto` and has no origin. -/
theorem of_keyword {α : Type} [KeywordSet α] {a : α} (htext : d.valueText = KeywordSet.keyword a)
    (hauto : d.property.acceptsAuto = true) (horigin : d.property ≠ .transformOrigin)
    (hcolor : d.property.isColor = false) (hviolation : d.violation? = none) : d.Rereads :=
  of_tight (htext ▸ (KeywordSet.oneWord a).isTight) hauto horigin hcolor hviolation

end Rereads

/-! ### All typed declarations -/

theorem rereads_edges {p : Property} (hform : p.form = .edges) (e : Edges) :
    (edges p hform e).Rereads := by
  have horigin : p ≠ .transformOrigin := Property.ne_transformOrigin_of_form (by simp [hform])
  refine .of_lengths e.isTight_text (fun h => absurd h horigin)
    (Property.isColor_eq_false (by simp [property, hform])) ?_
  rw [valueText, mentionsAuto_edges]
  rfl

theorem rereads_length {p : Property} (hform : p.form = .length) (l : Length) :
    (length p hform l).Rereads := by
  have horigin : p ≠ .transformOrigin := Property.ne_transformOrigin_of_form (by simp [hform])
  refine .of_lengths l.isWord_text.isTight (fun h => absurd h horigin)
    (Property.isColor_eq_false (by simp [property, hform])) ?_
  rw [valueText, mentionsAuto_length]
  rfl

theorem rereads_translate (x y : Length) : (translate x y).Rereads := by
  refine .of_lengths (Edges.isTight_text _) nofun rfl ?_
  rw [valueText, mentionsAuto_edges]
  rfl

theorem rereads_transformOrigin (x y : Length) : (transformOrigin x y).Rereads := by
  refine .of_lengths (Edges.isTight_text _) (fun _ => originKeywords?_axes x y) rfl ?_
  rw [valueText, mentionsAuto_edges]
  rfl

theorem rereads_originKeywords (first second : OriginAlign) :
    (originKeywords first second).Rereads where
  tight :=
    (KeywordSet.oneWord first).isTight.spaced (KeywordSet.oneWord second).isTight
  value := by
    simp [property, valueText, textValue, mentionsAuto_keywordPair, originKeywords?_keywordPair]
  violation := by
    simp [property, valueText, textViolation, violation?, mentionsAuto_keywordPair,
      originKeywords?_keywordPair]

/-- Every typed declaration rereads. -/
theorem rereads_of_isTyped {d : Declaration} (hd : d.isTyped = true) : d.Rereads := by
  cases d with
  | color | custom | text => cases hd
  | edges p hform e => exact rereads_edges hform e
  | length p hform l => exact rereads_length hform l
  | translate x y => exact rereads_translate x y
  | transformOrigin x y => exact rereads_transformOrigin x y
  | originKeywords first second => exact rereads_originKeywords first second
  | asset p hform a => exact .of_form a.isTight_text hform (by decide) rfl
  | number p hform x =>
      exact .of_form (NumberStyle.stylesheet.isWord_text _).isTight hform (by decide) rfl
  | pixels p hform i => exact .of_form (isWord_toString i.toInt).isTight hform (by decide) rfl
  | alignment p hform a =>
      exact .of_form (KeywordSet.oneWord a).isTight hform (by decide) rfl
  | noBackgroundImage | noScale =>
      exact .of_tight (IsWord.isTight (by decide)) rfl (by decide) rfl rfl
  | backgroundScaleMode v | fontStyle v | textAlign v | whiteSpace v | position v | display v
  | flexDirection v | flexWrap v | justifyContent v | cursor v | overflow v | visibility v =>
      exact .of_keyword (a := v) rfl rfl nofun rfl rfl
  | cursorImage image x y =>
      have hx := (isWord_toString x.toInt).isTight
      have hy := (isWord_toString y.toInt).isTight
      exact .of_tight ((image.isTight_text.spaced hx).spaced hy) rfl nofun rfl rfl
  | rotate angle => exact .of_tight angle.isWord_text.isTight rfl nofun rfl rfl
  | scale x y =>
      have hnumber : ∀ n : Number, IsTight (StyleValue.text n).toList :=
        fun n => (NumberStyle.stylesheet.isWord_text n.value).isTight
      exact .of_tight ((hnumber _).spaced (hnumber _)) rfl nofun rfl rfl

/-- A declaration that is not one of a custom property makes its rule for its property. -/
theorem rule_eq_withValidity {d : Declaration} (hd : d.isTyped = true) :
    d.rule = .withValidity d.property d.valueText d.violation?.isNone := by
  rw [rule]
  rintro name value rfl
  cases hd

/-- The rule of a text with nothing to trim. -/
theorem rule_text (p : Property) {value : String} (h : trimmed value = value) :
    (text p value).rule = .withValidity p (textValue p value) (textViolation p value).isNone := by
  rw [rule, property, valueText, violation?, h]
  intro name custom heq
  cases heq

theorem Rereads.rule_eq {d : Declaration} (h : d.Rereads) :
    (text d.property d.valueText).rule =
      .withValidity d.property d.valueText d.violation?.isNone := by
  rw [rule_text d.property h.tight.trimmed, h.value, h.violation]

theorem Rereads.violation?_eq {d : Declaration} (h : d.Rereads) :
    (text d.property d.valueText).violation? = d.violation? := by
  rw [violation?, h.tight.trimmed, h.violation]

/-- The property and the value of the rule of a typed declaration, declared as text, make the same
rule and are wrong in the same way, if at all.  So what is sent to a sink is the same: nothing, or
one and the same report. -/
theorem text_rule (d : Declaration) (hd : d.isTyped = true) :
    (text d.rule.property d.rule.value).rule = d.rule ∧
      (text d.rule.property d.rule.value).violation? = d.violation? ∧
      ∀ (sink : Sink) (j : Journal),
        j.reportAll sink ((text d.rule.property d.rule.value).violation?.toList.map
            Violation.message) =
          j.reportAll sink (d.violation?.toList.map Violation.message) := by
  have hrereads := rereads_of_isTyped hd
  have hrule := rule_eq_withValidity hd
  have hproperty : d.rule.property = d.property := by rw [hrule, Rule.withValidity]
  have hvalue : d.rule.value = d.valueText := by rw [hrule, Rule.withValidity]
  have hviolation : (text d.rule.property d.rule.value).violation? = d.violation? := by
    rw [hproperty, hvalue, hrereads.violation?_eq]
  refine ⟨?_, hviolation, fun sink j => by rw [hviolation]⟩
  rw [hproperty, hvalue, hrereads.rule_eq, hrule]

/-- The two agree on a padding that is refused. -/
theorem text_rule_padding :
    let d := Declaration.edges .padding rfl (.axes (.pixels .nan) .auto)
    d.isTyped = true ∧ d.rule = ⟨"padding", .padding, "NaNpx auto", false⟩ ∧
      (text .padding "NaNpx auto").rule = d.rule ∧
      (text .padding "NaNpx auto").violation? = some (.autoForbidden .padding) := by
  have h := text_rule (.edges .padding rfl (.axes (.pixels .nan) .auto)) rfl
  have hrule : (Declaration.edges .padding rfl (.axes (.pixels .nan) .auto)).rule =
      ⟨"padding", .padding, "NaNpx auto", false⟩ := by decide +kernel
  rw [hrule] at h
  exact ⟨rfl, hrule, h.1.trans hrule.symm, h.2.1⟩

end Declaration

end UiStyle
