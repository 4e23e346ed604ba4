import UiStyle.Proofs.Declaration.Text
import UiStyle.Proofs.Manifest.Contents

/-!
# Rules that declare themselves

A rule can be written as a pair of a manifest, its name and its value, and a rule is settled if this
pair makes it again.  Rules that a pair has made are settled (`MakesRule.isSettled`), because all
that loading does to a name or a value changes nothing when it is done again:

* trimming (`Text.trim_trim`), and the text of a number has nothing to trim;
* taking the marks off the name of a custom property and putting one in front (`custom_custom`);
* writing two origin keywords with one space between them (`text_textValue`), after which the same
  is wrong with them as before.
-/

namespace UiStyle

open Text

theorem JsonNumber.isWord_text (n : JsonNumber) : IsWord n.text.toList := by
  cases n with
  | natural n => exact isWord_repr n
  | negative n =>
      have hsign : (JsonNumber.negative n).text.toList = "-".toList ++ n.repr.toList :=
        String.toList_append
      rw [hsign]
      exact IsWord.append (by decide) (isWord_repr n)
  | float x => exact NumberStyle.manifest.isWord_text x

theorem IsRuleText.trimmed_eq {value : Json} {text : String} (h : IsRuleText value text) :
    trimmed text = text := by
  cases h with
  | string s => exact trimmed_trimmed s
  | number n => exact n.isWord_text.isTight.trimmed

namespace Rule

/-! ### Names of custom properties -/

theorem stripMarks_suffix (cs : List Char) : stripMarks cs <:+ cs := by
  fun_induction stripMarks cs with
  | case1 rest ih => exact ih.trans ⟨['-', '-'], rfl⟩
  | case2 cs => exact List.suffix_rfl

theorem stripMarks_stripMarks (cs : List Char) : stripMarks (stripMarks cs) = stripMarks cs := by
  fun_induction stripMarks cs with
  | case1 rest ih => exact ih
  | case2 cs hmark => rw [stripMarks]; exact hmark

theorem toList_name_custom (name value : String) :
    (custom name value).name.toList = '-' :: '-' :: stripMarks (trim name.toList) := by
  simp [custom, Property.customMark, String.toList_append]

theorem isCustomName_name_custom (name value : String) :
    Property.isCustomName (custom name value).name = true := by
  rw [Property.isCustomName, toList_name_custom]
  rfl

/-- The name of a custom property is tight, whatever it was made of. -/
theorem isTight_name_custom (name value : String) : IsTight (custom name value).name.toList := by
  rw [toList_name_custom]
  refine ⟨⟨'-', _, rfl, by decide⟩, ?_⟩
  by_cases hbare : stripMarks (trim name.toList) = []
  · rw [hbare]
    exact ⟨['-'], '-', rfl, by decide⟩
  · -- the name ends as the text it was trimmed from does
    obtain ⟨r, c, hlast, hc⟩ := last_of_suffix_trim (stripMarks_suffix _) hbare
    rw [hlast]
    exact ⟨'-' :: '-' :: r, c, rfl, hc⟩

/-- A custom property makes its own name of its name. -/
theorem custom_custom (name value : String) :
    custom (custom name value).name value = custom name value := by
  have hbare : stripMarks (trim (custom name value).name.toList) =
      stripMarks (trim name.toList) := by
    rw [(isTight_name_custom name value).trim, toList_name_custom, stripMarks,
      stripMarks_stripMarks]
  rw [custom, hbare]
  rfl

end Rule

/-! ### Values that are text -/

namespace Declaration

/-- A text is written as it is, unless it is two origin keywords. -/
theorem textValue_eq (p : Property) (value : String) :
    textValue p value = value ∨ ∃ first second, p = .transformOrigin ∧
      textValue p value = keywordPair first second ∧
      textViolation p value = axisViolation first second := by
  by_cases hp : p = .transformOrigin
  · subst hp
    cases horigin : originKeywords? value with
    | none => exact .inl (textValue_eq_self fun _ => horigin)
    | some pair =>
        obtain ⟨first, second⟩ := pair
        cases hauto : mentionsAuto value with
        | true => exact .inl (by simp [textValue, hauto, Property.acceptsAuto])
        | false =>
            refine .inr ⟨first, second, rfl, ?_, ?_⟩
            · simp [textValue, hauto, horigin]
            · simp [textViolation, hauto, horigin]
  · exact .inl (textValue_eq_self fun h => absurd h hp)

/-- What is written for a text is found wrong for the same reason, and written as it is. -/
theorem text_textValue (p : Property) (value : String) :
    textValue p (textValue p value) = textValue p value ∧
      textViolation p (textValue p value) = textViolation p value := by
  rcases textValue_eq p value with hvalue | ⟨first, second, rfl, hvalue, hviolation⟩
  · rw [hvalue]
    exact ⟨hvalue, rfl⟩
  · have hrereads := rereads_originKeywords first second
    rw [hvalue, hviolation]
    exact ⟨hrereads.value, hrereads.violation⟩

theorem trimmed_textValue (p : Property) {value : String} (h : trimmed value = value) :
    trimmed (textValue p value) = textValue p value := by
  rcases textValue_eq p value with hvalue | ⟨first, second, -, hvalue, -⟩
  · rw [hvalue, h]
  · rw [hvalue]
    exact (rereads_originKeywords first second).tight.trimmed

end Declaration

/-! ### Settled rules -/

namespace Rule

/-- The pair that a rule is written as. -/
def pair (r : Rule) : String × Json := (r.name, .string r.value)

/-- A rule that its own pair makes. -/
def IsSettled (r : Rule) : Prop := MakesRule r.pair r

end Rule

theorem Property.isTight_name {p : Property} (hp : p ∈ registered) : IsTight p.name.toList := by
  have hword : ∀ p ∈ registered, IsWord p.name.toList := by decide +kernel
  exact (hword p hp).isTight

theorem declares_custom (name : String) {value : String} (h : trimmed value = value) :
    Declares (Rule.custom name value).pair (.custom (Rule.custom name value).name value) := by
  have hkey : Property.isCustomName (trimmed (Rule.custom name value).name) = true := by
    rw [(Rule.isTight_name_custom name value).trimmed, Rule.isCustomName_name_custom]
  have hdeclares := Declares.custom (.string value) hkey
  rwa [h] at hdeclares

theorem declares_registered {p : Property} (hp : p ∈ Property.registered) {value : String}
    (h : trimmed value = value) : Declares (p.name, .string value) (.text p value) := by
  have hname : trimmed p.name = p.name := (Property.isTight_name hp).trimmed
  have hkey : Property.isCustomName (trimmed p.name) = false := by
    rw [hname, Property.isCustomName_eq_false hp]
  have hdeclares := Declares.registered (.string value) hkey hp hname.symm
  rwa [h] at hdeclares

/-- A rule that a pair has made is settled. -/
theorem MakesRule.isSettled {pair : String × Json} {r : Rule} (h : MakesRule pair r) :
    r.IsSettled := by
  obtain ⟨d, hdeclares, rfl⟩ := h
  cases hdeclares with
  | @custom key value text hvalue hkey =>
      exact ⟨_, declares_custom key hvalue.trimmed_eq, Rule.custom_custom key text⟩
  | @registered key value text p hvalue hkey hp hname =>
      have htext : trimmed text = text := hvalue.trimmed_eq
      have hwritten := Declaration.trimmed_textValue p htext
      obtain ⟨hsame, hviolation⟩ := Declaration.text_textValue p text
      have hrule := Declaration.rule_text p htext
      refine ⟨.text p (Declaration.textValue p text), ?_, ?_⟩
      · rw [hrule]
        exact declares_registered hp hwritten
      · rw [hrule, Declaration.rule_text p hwritten, hsame, hviolation]

end UiStyle
