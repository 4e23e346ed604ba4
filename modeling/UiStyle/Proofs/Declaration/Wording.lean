import UiStyle.Proofs.Declaration.Color

/-!
# The words of a text decide its verdict

The checks of a text read it in three ways: one looks for a word, one compares all words with pairs
of keywords, and one looks at the first character and at the digits of a code.  Nevertheless all
that counts is what the words of the text are (`isSome_violation?_iff_offends`), wherever white
space stands and of whatever kind it is:

```text
auto    a word that is `auto` in any letter case
axis    two words that are origin keywords on one axis, as they are written
code    a first word with a number sign in front, unless it is the only one and has the digits of
        a code behind its signs
```

The first and the last do not change with letter case, because no character but a letter has a lower
case of its own.  The second does.  So texts with the same words up to letter case are judged alike
for every property but `transform-origin`, and there exactly if both or neither of them are keywords
on one axis in lower case (`judged_iff_of_sameWords`): `LEFT right` goes unnoticed
(`text_misses_capitals`).
-/

namespace UiStyle

open Text

namespace Declaration

variable {p : Property} {ws vs : List (List Char)}

/-- Texts with the same words up to letter case. -/
def SameWords (a b : String) : Prop :=
  (words a.toList).map lower = (words b.toList).map lower

/-- Two origin keywords on one axis, letter for letter as they are written. -/
def OneAxis (ws : List (List Char)) : Prop :=
  ∃ first second : OriginAlign,
    ws = [first.toKeyword.toList, second.toKeyword.toList] ∧ first.conflicts second = true

/-- Words the first of which starts as a code, but that are no code with signs in front. -/
def MalformedCode (ws : List (List Char)) : Prop :=
  ∃ w more, ws = w :: more ∧ w.head? = some '#' ∧
    ¬ (more = [] ∧ Color.AreDigits (w.dropWhile (· == '#')))

/-- Words that a property does not allow. -/
inductive Offends (p : Property) (ws : List (List Char)) : Prop
  | auto (hp : p.acceptsAuto = false) (hauto : "auto".toList ∈ ws.map lower)
  | axis (hp : p = .transformOrigin) (haxis : OneAxis ws)
  | code (hp : p.form = .color) (hcode : MalformedCode ws)

/-! ### The checks on words -/

theorem mentionsAuto_iff {value : String} :
    mentionsAuto value = true ↔ "auto".toList ∈ (words value.toList).map lower := by
  have hlower : lower "auto".toList = "auto".toList := by decide
  rw [mentionsAuto, List.any_eq_true, List.mem_map]
  refine exists_congr fun w => and_congr_right fun _ => ?_
  rw [sameIgnoringCase, hlower, beq_iff_eq, eq_comm]

theorem OneAxis.auto_notMem (h : OneAxis ws) : "auto".toList ∉ ws.map lower := by
  obtain ⟨first, second, rfl, -⟩ := h
  rw [← words_keywordPair, ← mentionsAuto_iff, mentionsAuto_keywordPair]
  exact Bool.false_ne_true

theorem oneAxis_iff_of_originKeywords? {value : String} {first second : OriginAlign}
    (h : originKeywords? value = some (first, second)) :
    OneAxis (words value.toList) ↔ first.conflicts second = true := by
  constructor
  · rintro ⟨a, b, hwords, hconflicts⟩
    rw [originKeywords?_eq_some_iff.mpr hwords] at h
    cases h
    exact hconflicts
  · exact fun hconflicts => ⟨first, second, originKeywords?_eq_some_iff.mp h, hconflicts⟩

theorem not_oneAxis_of_originKeywords? {value : String} (h : originKeywords? value = none) :
    ¬ OneAxis (words value.toList) := by
  rintro ⟨a, b, hwords, -⟩
  rw [originKeywords?_eq_some_iff.mpr hwords] at h
  cases h

theorem malformedCode_cons {w : List Char} :
    MalformedCode (w :: ws) ↔
      w.head? = some '#' ∧ ¬ (ws = [] ∧ Color.AreDigits (w.dropWhile (· == '#'))) := by
  constructor
  · rintro ⟨v, more, hcons, hcode⟩
    cases hcons
    exact hcode
  · exact fun hcode => ⟨w, ws, rfl, hcode⟩

/-- A blank character between words is no digit, so it keeps them from being a code. -/
theorem not_areDigits_of_mem {cs : List Char} {c : Char} (hc : c ∈ cs) (hblank : isBlank c = true) :
    ¬ Color.AreDigits (cs.dropWhile (· == '#')) := by
  intro h
  have hsign : c ≠ '#' := by
    rintro rfl
    exact absurd hblank (by decide)
  have hleft : c ∈ cs.dropWhile (· == '#') := by
    rw [← List.takeWhile_append_dropWhile (p := (· == '#')) (l := cs), List.mem_append] at hc
    exact hc.resolve_left fun hfront => hsign (by simpa using List.mem_takeWhile_imp hfront)
  have hdigits : hexDigits.all (fun d => !isBlank d) = true := by decide
  have hsolid := List.all_eq_true.mp hdigits c (h.hex c hleft)
  rw [hblank] at hsolid
  cases hsolid

/-- A tight text is malformed as a code if its words are. -/
theorem malformedCode_words_iff {value : String} (htrim : trim value.toList = value.toList) :
    MalformedCode (words value.toList) ↔
      value.toList.head? = some '#' ∧ (Color.ofHex value).isWellFormed = false := by
  rw [← Bool.not_eq_true, Color.isWellFormed_ofHex_iff, htrim]
  cases hwords : words value.toList with
  | nil =>
      have hblank := isBlank_of_words_eq_nil hwords
      constructor
      · rintro ⟨w, more, hcons, -⟩
        cases hcons
      · rintro ⟨hsign, -⟩
        exact absurd (hblank '#' (List.mem_of_mem_head? hsign)) (by decide)
  | cons w more =>
      obtain ⟨gap, rest, htext, hgap, hw, hhead, hrest⟩ := exists_of_words_cons hwords
      have htight : IsTight value.toList := by
        rw [← htrim]
        apply isTight_trim
        rw [htrim, htext]
        simp [hw.nonempty]
      have hgap' : gap = [] := by
        rw [htext, List.append_assoc] at htight
        exact htight.eq_nil_of_front hgap
      rw [hgap', List.nil_append] at htext
      have hfirst : value.toList.head? = w.head? := by
        rw [htext, List.head?_append_of_ne_nil _ hw.nonempty]
      have hdigits : Color.AreDigits (value.toList.dropWhile (· == '#')) ↔
          more = [] ∧ Color.AreDigits (w.dropWhile (· == '#')) := by
        rw [← hrest]
        cases rest with
        | nil => simp [htext, words, splitWords]
        | cons c rest =>
            have hc : isBlank c = true := hhead c rfl
            have hmem : c ∈ value.toList := by simp [htext]
            have hmore : words (c :: rest) ≠ [] := by
              intro hnone
              rw [htext] at htight
              exact absurd (htight.eq_nil_of_behind (isBlank_of_words_eq_nil hnone))
                (List.cons_ne_nil c rest)
            exact iff_of_false (not_areDigits_of_mem hmem hc) fun h => hmore h.1
      rw [malformedCode_cons, hfirst, hdigits]

/-! ### The verdict -/

theorem offends_iff_of_color (hp : p.form = .color) : Offends p ws ↔ MalformedCode ws := by
  have horigin : p ≠ .transformOrigin := Property.ne_transformOrigin_of_form (by simp [hp])
  have hauto : p.acceptsAuto = true :=
    Property.acceptsAuto_of_form (by simp [hp]) (by simp [hp]) horigin
  constructor
  · rintro (⟨hp, -⟩ | ⟨rfl, -⟩ | ⟨-, hcode⟩)
    · rw [hauto] at hp
      cases hp
    · exact absurd rfl horigin
    · exact hcode
  · exact .code hp

theorem offends_iff_of_origin :
    Offends .transformOrigin ws ↔ "auto".toList ∈ ws.map lower ∨ OneAxis ws := by
  constructor
  · rintro (⟨-, hauto⟩ | ⟨-, haxis⟩ | ⟨hp, -⟩)
    · exact .inl hauto
    · exact .inr haxis
    · cases hp
  · rintro (hauto | haxis)
    · exact .auto rfl hauto
    · exact .axis rfl haxis

/-- For the other properties there is one check only. -/
theorem offends_iff_of_ne (hcolor : p.form ≠ .color) (horigin : p ≠ .transformOrigin) :
    Offends p ws ↔ p.acceptsAuto = false ∧ "auto".toList ∈ ws.map lower := by
  constructor
  · rintro (⟨hp, hauto⟩ | ⟨hp, -⟩ | ⟨hp, -⟩)
    · exact ⟨hp, hauto⟩
    · exact absurd hp horigin
    · exact absurd hp hcolor
  · exact fun ⟨hp, hauto⟩ => .auto hp hauto

theorem isSome_textViolation_origin (value : String) :
    (textViolation .transformOrigin value).isSome = true ↔
      Offends .transformOrigin (words value.toList) := by
  have haccepts : Property.transformOrigin.acceptsAuto = false := rfl
  rw [offends_iff_of_origin, ← mentionsAuto_iff]
  cases hauto : mentionsAuto value with
  | true => simp [textViolation, haccepts, hauto]
  | false =>
      cases hpair : originKeywords? value with
      | none =>
          have hcolor : Property.transformOrigin.isColor = false := rfl
          simp [textViolation_eq_autoForbidden (fun _ => hpair) hcolor, hauto,
            not_oneAxis_of_originKeywords? hpair]
      | some pair =>
          rw [oneAxis_iff_of_originKeywords? hpair]
          simp [textViolation, haccepts, hauto, hpair, axisViolation]

/-- **Words decide.**  Something is wrong with a text exactly if its property does not allow its
words. -/
theorem isSome_violation?_iff_offends (p : Property) (value : String) :
    (text p value).violation?.isSome = true ↔ Offends p (words value.toList) := by
  have htrim : trim (trimmed value).toList = (trimmed value).toList := by
    rw [toList_trimmed, trim_trim]
  have hwords : words value.toList = words (trimmed value).toList := by
    rw [toList_trimmed, words_trim]
  rw [hwords]
  by_cases hcolor : p.form = .color
  · rw [offends_iff_of_color hcolor, malformedCode_words_iff htrim]
    exact isSome_textViolation hcolor (trimmed value)
  by_cases horigin : p = .transformOrigin
  · subst horigin
    exact isSome_textViolation_origin (trimmed value)
  · rw [offends_iff_of_ne hcolor horigin, ← mentionsAuto_iff, violation?,
      textViolation_eq_autoForbidden (fun h => absurd h horigin) (Property.isColor_eq_false hcolor)]
    simp [and_comm]

/-! ### Letter case -/

theorem malformedCode_map_lower : MalformedCode (ws.map lower) ↔ MalformedCode ws := by
  cases ws with
  | nil => rfl
  | cons w ws =>
      have hsign : (lower w).head? = some '#' ↔ w.head? = some '#' := by
        rw [lower, List.head?_map]
        simp [toLower_eq_numberSign]
      rw [List.map_cons, malformedCode_cons, malformedCode_cons, hsign, List.map_eq_nil_iff,
        Color.dropWhile_lower, Color.areDigits_lower_iff]

/-- Words are allowed in any letter case or in none, unless their origin keywords are found in one
and not in another. -/
theorem offends_congr_iff (h : ws.map lower = vs.map lower) :
    (Offends p ws ↔ Offends p vs) ↔ (p = .transformOrigin → (OneAxis ws ↔ OneAxis vs)) := by
  by_cases hcolor : p.form = .color
  · have hsame : MalformedCode ws ↔ MalformedCode vs := by
      rw [← malformedCode_map_lower, h, malformedCode_map_lower]
    rw [offends_iff_of_color hcolor, offends_iff_of_color hcolor]
    refine iff_of_true hsame ?_
    rintro rfl
    cases hcolor
  by_cases horigin : p = .transformOrigin
  · subst horigin
    rw [offends_iff_of_origin, offends_iff_of_origin, ← h]
    by_cases hauto : "auto".toList ∈ ws.map lower
    · -- neither text has a keyword then
      have hws : ¬ OneAxis ws := fun haxis => haxis.auto_notMem hauto
      have hvs : ¬ OneAxis vs := fun haxis => haxis.auto_notMem (h ▸ hauto)
      exact iff_of_true (iff_of_true (.inl hauto) (.inl hauto)) fun _ => iff_of_false hws hvs
    · rw [or_iff_right hauto, or_iff_right hauto]
      exact ⟨fun hsame _ => hsame, fun hsame => hsame rfl⟩
  · rw [offends_iff_of_ne hcolor horigin, offends_iff_of_ne hcolor horigin, h]
    exact iff_of_true Iff.rfl fun h => absurd h horigin

theorem valid_text_iff_not_offends (p : Property) (value : String) :
    (text p value).rule.valid = true ↔ ¬ Offends p (words value.toList) := by
  rw [valid_rule, Option.isNone_iff_eq_none, ← isSome_violation?_iff_offends,
    Option.not_isSome_iff_eq_none]

/-- **Texts with the same words.**  The rule of a text is valid unless its property does not allow
the words of the text.  Two texts whose words are the same up to letter case make rules with the
same verdict and the same number of reports, for every property, unless the property is
`transform-origin` and one text is two keywords on one axis and the other one is not.  Texts whose
words are exactly the same are judged alike for this property too. -/
theorem judged_iff_of_sameWords {a b : String} (h : SameWords a b) :
    ((text p a).rule.valid = true ↔ ¬ Offends p (words a.toList)) ∧
      (((text p a).rule.valid = (text p b).rule.valid ∧
          ((text p a).violation?.toList.map Violation.message).length =
            ((text p b).violation?.toList.map Violation.message).length) ↔
        (p = .transformOrigin → (OneAxis (words a.toList) ↔ OneAxis (words b.toList)))) := by
  refine ⟨valid_text_iff_not_offends p a, ?_⟩
  have hreports : ∀ v w : Option Violation,
      (v.toList.map Violation.message).length = (w.toList.map Violation.message).length ↔
        v.isSome = w.isSome := by
    intro v w
    cases v <;> cases w <;> simp
  rw [hreports]
  calc (text p a).JudgedAlike (text p b)
      ↔ ((text p a).violation?.isSome = true ↔ (text p b).violation?.isSome = true) := by
        rw [judgedAlike_iff, Bool.eq_iff_iff]
    _ ↔ (Offends p (words a.toList) ↔ Offends p (words b.toList)) := by
        rw [isSome_violation?_iff_offends, isSome_violation?_iff_offends]
    _ ↔ _ := offends_congr_iff h

/-- Neither a capital nor an odd space hides an `auto`. -/
theorem judged_iff_of_sameWords_auto :
    SameWords "4px auto" "\u20034PX\t\u00a0AuTo " ∧
      (text .padding "4px auto").rule = ⟨"padding", .padding, "4px auto", false⟩ ∧
      Offends .padding (words "4px auto".toList) ∧
      (text .padding "\u20034PX\t\u00a0AuTo ").rule.valid = false ∧
      (text .padding "\u20034PX\t\u00a0AuTo ").violation?.toList.length = 1 := by
  have hwords : SameWords "4px auto" "\u20034PX\t\u00a0AuTo " := by
    unfold SameWords
    decide +kernel
  have hrule : (text .padding "4px auto").rule = ⟨"padding", .padding, "4px auto", false⟩ := by
    decide +kernel
  have hreport : (text .padding "4px auto").violation? = some (.autoForbidden .padding) := by
    decide +kernel
  obtain ⟨hallowed, hjudged⟩ := judged_iff_of_sameWords (p := .padding) hwords
  obtain ⟨hvalid, hcount⟩ := hjudged.mpr nofun
  rw [hrule] at hvalid hallowed
  rw [hreport, List.length_map, List.length_map] at hcount
  exact ⟨hwords, hrule, not_not.mp fun h => absurd (hallowed.mpr h) Bool.false_ne_true,
    hvalid.symm, hcount.symm⟩

/-- Two keywords on one axis pass in capitals. -/
theorem text_misses_capitals :
    SameWords "left right" "LEFT right" ∧
      (text .transformOrigin "left right").rule =
        ⟨"transform-origin", .transformOrigin, "left right", false⟩ ∧
      (text .transformOrigin "left right").violation? = some (.sameAxis .left .right) ∧
      (text .transformOrigin "LEFT right").rule =
        ⟨"transform-origin", .transformOrigin, "LEFT right", true⟩ ∧
      (text .transformOrigin "LEFT right").violation? = none := by
  refine ⟨?_, by decide +kernel, by decide +kernel, by decide +kernel, by decide +kernel⟩
  unfold SameWords
  decide +kernel

end Declaration

end UiStyle
