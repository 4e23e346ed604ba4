import UiStyle.Proofs.Declaration.Reports
import UiStyle.Proofs.Manifest.Reports
import UiStyle.Proofs.Rule.Settled
import UiStyle.Proofs.Sheet.Spacing

/-!
# Values as they were written

The value of a rule that is declared with a text is this text, trimmed, whether or not anything is
wrong with it.  There is one exception.  Two keywords for the origin of a transform are taken apart
and written anew with one space between them, so that the white space that stood there is lost
(`Declaration.IsSpread`):

```text
width               "  100%  auto "     100%  auto      any text for another property
transform-origin    " left  10px "      left  10px      words that are not two origin keywords
transform-origin    " left top "        left top        the space that is written anyway
transform-origin    " left  top "       left top        another gap
```

A string in a manifest is declared with its text, so the same is true of the line that its rule has
in the block of the map it stands in (`Block.ShowsTexts`), unless a later key of the map stands for
the same property and takes its place.
-/

namespace UiStyle

open Text

namespace Declaration

/-! ### Two origin keywords -/

/-- Two origin keywords with white space between them that is not one space. -/
def IsSpread (value : String) (first second : OriginAlign) : Prop :=
  ∃ gap, value.toList = first.toKeyword.toList ++ gap ++ second.toKeyword.toList ∧ gap ≠ [] ∧
    (∀ c ∈ gap, isBlank c = true) ∧ gap ≠ [' ']

/-- A tight text consists of two origin keywords if it is the two with one space between them, or if
they are spread. -/
theorem originKeywords?_iff_of_isTight {value : String} (h : IsTight value.toList)
    {first second : OriginAlign} :
    originKeywords? value = some (first, second) ↔
      value = keywordPair first second ∨ IsSpread value first second := by
  rw [originKeywords?_eq_some_iff, h.words_eq_pair_iff]
  constructor
  · rintro ⟨-, -, gap, hvalue, hne, hgap⟩
    by_cases hone : gap = [' ']
    · left
      rw [← String.toList_inj, hvalue, hone, toList_keywordPair]
    · exact .inr ⟨gap, hvalue, hne, hgap, hone⟩
  · rintro (hvalue | ⟨gap, hvalue, hne, hgap, -⟩)
    · refine ⟨first.isWord_toKeyword, second.isWord_toKeyword, [' '], ?_, List.cons_ne_nil _ _, ?_⟩
      · rw [hvalue, toList_keywordPair]
      · exact List.forall_mem_singleton.mpr isBlank_space
    · exact ⟨first.isWord_toKeyword, second.isWord_toKeyword, gap, hvalue, hne, hgap⟩

/-- Spread keywords are not the two with one space between them. -/
theorem IsSpread.ne_keywordPair {value : String} {first second : OriginAlign}
    (h : IsSpread value first second) : value ≠ keywordPair first second := by
  obtain ⟨gap, hvalue, -, -, hone⟩ := h
  rintro rfl
  rw [toList_keywordPair, List.append_cancel_right_eq, List.append_cancel_left_eq] at hvalue
  exact hone hvalue.symm

theorem isTight_of_originKeywords? {value : String} {pair : OriginAlign × OriginAlign}
    (h : originKeywords? (trimmed value) = some pair) : IsTight (trimmed value).toList := by
  rw [toList_trimmed]
  apply isTight_trim
  intro hnone
  rw [originKeywords?_eq_some_iff, toList_trimmed, hnone] at h
  cases h

/-! ### The value of a text -/

theorem textValue_of_originKeywords? {value : String} {first second : OriginAlign}
    (h : originKeywords? value = some (first, second)) :
    textValue .transformOrigin value = keywordPair first second := by
  have hauto : mentionsAuto value = false := by
    rw [mentionsAuto, originKeywords?_eq_some_iff.mp h, ← words_keywordPair, ← mentionsAuto,
      mentionsAuto_keywordPair]
  simp [textValue, hauto, h]

theorem value_text (p : Property) (value : String) :
    (text p value).rule.value = textValue p (trimmed value) := by
  rw [value_rule, valueText]

/-- Spread keywords come out with one space between them. -/
theorem IsSpread.value_text {value : String} {first second : OriginAlign}
    (h : IsSpread (trimmed value) first second) :
    (text .transformOrigin value).rule.value = keywordPair first second := by
  have htight : IsTight (trimmed value).toList := by
    obtain ⟨gap, hvalue, -⟩ := h
    rw [hvalue]
    exact first.isWord_toKeyword.isTight.append second.isWord_toKeyword.isTight gap
  rw [Declaration.value_text]
  exact textValue_of_originKeywords? ((originKeywords?_iff_of_isTight htight).mpr (.inr h))

/-- Any other text is the value of its rule, without the white space around it. -/
theorem value_text_eq_trimmed {p : Property} {value : String}
    (h : ∀ first second, p = .transformOrigin → ¬ IsSpread (trimmed value) first second) :
    (text p value).rule.value = trimmed value := by
  rw [value_text]
  by_cases hp : p = .transformOrigin
  · subst hp
    cases horigin : originKeywords? (trimmed value) with
    | none => exact textValue_eq_self fun _ => horigin
    | some pair =>
        obtain ⟨first, second⟩ := pair
        have htight := isTight_of_originKeywords? horigin
        rw [textValue_of_originKeywords? horigin]
        rcases (originKeywords?_iff_of_isTight htight).mp horigin with hvalue | hspread
        · exact hvalue.symm
        · exact absurd hspread (h first second rfl)
  · exact textValue_eq_self fun hsame => absurd hsame hp

end Declaration

/-! ### Lines of a sheet that was loaded -/

/-- The line of a property with a value. -/
def Property.line (p : Property) (indent : Nat) (value : String) : String :=
  .ofList (List.replicate indent ' ') ++ (p.name ++ ": " ++ value ++ ";")

/-- The lines of a block show the texts of pairs as they were written, without the white space
around them: of each pair with the name of a registered property for its key, which no later key
stands for, and with a string that is not two spread keywords for the origin of a transform. -/
def Block.ShowsTexts (indent : Nat) (pairs : List (String × Json)) (b : Block) : Prop :=
  ∀ (front behind : List (String × Json)) (key value : String) (p : Property),
    pairs = front ++ (key, .string value) :: behind → p ∈ Property.registered →
    trimmed key = p.name → (∀ later ∈ Json.keys behind, trimmed later ≠ p.name) →
    (∀ first second, p = .transformOrigin →
      ¬ Declaration.IsSpread (trimmed value) first second) →
    p.line indent (trimmed value) ∈ b.lines indent

theorem Block.mem_lines {b : Block} {r : Rule} (hr : r ∈ b.rules) (indent : Nat) :
    r.indented indent ∈ b.lines indent := by
  have hne : b.rules.isEmpty = false := by
    rw [List.isEmpty_eq_false_iff]
    exact List.ne_nil_of_mem hr
  rw [lines, hne]
  refine List.mem_cons_of_mem _ (List.mem_append_left _ ?_)
  exact List.mem_map.mpr ⟨r, hr, rfl⟩

/-- A pair with the name of a registered property and a string declares the string, trimmed. -/
theorem MakesRule.eq_rule_text {key value : String} {r : Rule} {p : Property}
    (h : MakesRule (key, .string value) r) (hp : p ∈ Property.registered)
    (hkey : trimmed key = p.name) : r = (Declaration.text p (trimmed value)).rule := by
  obtain ⟨d, hd, rfl⟩ := h
  have hcustom : Property.isCustomName (trimmed key) = false := by
    rw [hkey, Property.isCustomName_eq_false hp]
  rw [hd.unique (.registered (.string value) hcustom hp hkey.symm)]

/-- The rule of a pair is the last of its name, because only keys that stand for the same property
make rules of this name; so it is in the block, and its line is there. -/
theorem DescribesRules.showsTexts {pairs : List (String × Json)} {b : Block}
    (h : DescribesRules pairs b.rules) (indent : Nat) : b.ShowsTexts indent pairs := by
  rintro front behind key value p rfl hp hkey hlater hspread
  obtain ⟨made, hmade, hrules⟩ := h
  obtain ⟨before, r, rest, rfl, hr, hrest⟩ := exists_append_of_forall₂ hmade
  have hname : r.name = p.name := by
    rw [hr.name_eq, declaredName_eq_name_iff hp, hkey]
  have hvalue : r.value = trimmed value := by
    -- the string has been trimmed before it is declared, and then is once more
    rw [← trimmed_trimmed value] at hspread
    rw [hr.eq_rule_text hp hkey, Declaration.value_text_eq_trimmed hspread, trimmed_trimmed]
  have hlast : r.name ∉ ruleNames rest := by
    rw [hname, ruleNames_of_makesRule hrest, List.mem_map]
    rintro ⟨later, hmem, hsame⟩
    exact hlater later hmem ((declaredName_eq_name_iff hp).mp hsame)
  have hmem : r ∈ b.rules := by
    rw [hrules]
    exact mem_lastOfEach hlast before
  have hline : r.indented indent = p.line indent (trimmed value) := by
    rw [Rule.indented, Rule.text, hname, hvalue, Property.line]
  rw [← hline]
  exact b.mem_lines hmem indent

theorem DescribesState.showsTexts {text : String} {state : String × Json} {b : Block}
    (h : DescribesState text state b) (indent : Nat) : b.ShowsTexts indent state.2.pairs := by
  obtain ⟨pairs, hvalue, hrules⟩ := h.rules
  rw [hvalue]
  exact hrules.showsTexts indent

/-- **Values as they were written.**  The value of a rule that is declared with a text is this text
without the white space around it, exactly if the text is not two keywords for the origin of a
transform that are spread; these come out with one space between them.  It makes no difference
whether the rule is valid.

In a sheet that was loaded from a manifest there is a selector for each entry, whose own block shows
the texts of the rules of the entry and whose other blocks, one for each pseudo-class, those of the
pseudo-class; and the lines of each block are lines of the sheet, behind each other. -/
theorem Declaration.value_text_eq_trimmed_iff (p : Property) (value : String) :
    ((text p value).rule.value = trimmed value ↔
      ∀ first second, p = .transformOrigin → ¬ IsSpread (trimmed value) first second) ∧
    (∀ first second, p = .transformOrigin → IsSpread (trimmed value) first second →
      (text p value).rule.value = keywordPair first second) ∧
    ∀ (m : Manifest) (layout : Layout) (next next' : Nat) (s : Sheet), m.DistinctKeys →
      (m.load layout next).result = .ok (s, next') →
      List.Forall₂ (fun e t => t.toBlock.ShowsTexts layout.indent e.rules ∧
          List.Forall₂ (fun state b => b.ShowsTexts layout.indent state.2.pairs) e.states t.states)
        m.entries s.selectors ∧
      ∀ t ∈ s.selectors, ∀ b ∈ t.blocks, b.lines layout.indent <:+: s.lines := by
  refine ⟨⟨?_, value_text_eq_trimmed⟩, ?_, ?_⟩
  · rintro hvalue first second rfl hspread
    rw [hspread.value_text] at hvalue
    exact hspread.ne_keywordPair hvalue.symm
  · rintro first second rfl hspread
    exact hspread.value_text
  · intro m layout next next' s hm h
    obtain ⟨-, hlayout, hdescribes⟩ := Manifest.describes_of_load hm h
    refine ⟨hdescribes.imp ?_, ?_⟩
    · intro e t ht
      exact ⟨ht.rules.showsTexts _, ht.states.imp fun state b hb => hb.showsTexts _⟩
    · intro t ht b hb
      rw [← hlayout]
      exact s.lines_infix ht hb

/-- A manifest with white space around its texts and between their words, and with two keys that
stand for one property. -/
def Manifest.airy : Manifest :=
  ⟨"Card", [⟨".card", [(" transform-origin", .string " left  10px ")],
    [("hover", .object [("padding", .string "1px"), (" padding", .string "4px  auto ")])]⟩]⟩

/-- What it loads as. -/
def Sheet.airy : Sheet :=
  ⟨"Card", [{
    id := 1, text := ".card", pseudoClass := none,
    rules := [⟨"transform-origin", .transformOrigin, "left  10px", true⟩],
    states := [⟨2, ".card", some .hover, [⟨"padding", .padding, "4px  auto", false⟩]⟩] }], none, {}⟩

theorem Declaration.value_text_eq_trimmed_iff_airy :
    IsSpread (trimmed " left\ttop ") .left .top ∧
      (text .transformOrigin " left\ttop ").rule.value = "left top" ∧
      Manifest.airy.DistinctKeys ∧ (Manifest.airy.load {} 1).result = .ok (Sheet.airy, 3) ∧
      "    padding: 4px  auto;" ∈ Sheet.airy.lines := by
  obtain ⟨-, hrewritten, hmanifest⟩ := value_text_eq_trimmed_iff .transformOrigin " left\ttop "
  have hspread : IsSpread (trimmed " left\ttop ") .left .top :=
    ⟨['\t'], by decide +kernel, List.cons_ne_nil _ _, List.forall_mem_singleton.mpr rfl, by decide⟩
  have hkeys : Manifest.airy.DistinctKeys := by
    intro e he
    rw [List.mem_singleton.mp he]
    exact ⟨by decide, by decide⟩
  have hload : (Manifest.airy.load {} 1).result = .ok (Sheet.airy, 3) := by rfl
  obtain ⟨hshown, hlines⟩ := hmanifest _ _ _ _ _ hkeys hload
  refine ⟨hspread, hrewritten _ _ rfl hspread, hkeys, hload, ?_⟩
  cases hshown with
  | cons hentry _ =>
      cases hentry.2 with
      | cons hstate _ =>
          have hline := hstate [("padding", .string "1px")] [] " padding" "4px  auto " .padding rfl
            (by decide) (by decide +kernel) nofun nofun
          exact (hlines _ (List.mem_singleton_self _) _ (by simp [Selector.blocks])).subset hline

/-- The white space between two keywords is not kept. -/
theorem Declaration.text_joins_keywords :
    (text .transformOrigin "left  top").rule.value = "left top" ∧
      trimmed "left  top" ≠ "left top" := by
  exact ⟨by decide +kernel, by decide +kernel⟩

end UiStyle
