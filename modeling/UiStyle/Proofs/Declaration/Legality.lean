import UiStyle.Proofs.Declaration.Color
import UiStyle.Proofs.Value.Color
import UiStyle.Proofs.Value.Opacity

/-!
# Declaring what stands for no color

A text stands for a color if it is a code, channels with or without an opacity, or an identifier
(`Color.IsLegal`).  Codes start with a number sign and channels end in a bracket, so no text is two
of these at once, and every color is looked at by its own form:

```text
codes      judged as their texts are (`isLegal_ofHex_iff`)
channels   never wrong, whatever they are made of (`isLegal_rgb`, `isLegal_withAlpha`)
keywords   judged by their letters, digits and hyphens, wherever these stand
```

Only the last differs from what the text is.  A name that starts as a number or is a lone hyphen is
no identifier (`IsName.isIdentifier_iff`), and passes; and the text of a code or of channels does
not pass as a keyword.  There is no other difference (`isWellFormed_named_iff`).

The rule and the report of a declaration follow the judgement.  So what is flagged are the colors
whose texts stand for no color, up to the keywords that are misjudged (`wellFormed_iff_isLegal`):
`123` is written as a color and goes unnoticed (`color_accepts_number`).
-/

namespace UiStyle.Color

open Text

/-! ### Legal texts -/

/-- Letters, digits and hyphens, at least one of them. -/
structure IsName (cs : List Char) : Prop where
  nonempty : cs ≠ []
  mem : ∀ c ∈ cs, c.isAlphanum = true ∨ c = '-'

/-- A name that starts with a letter, with two hyphens or with a hyphen and a letter. -/
structure IsIdentifier (cs : List Char) : Prop extends IsName cs where
  start : ∃ c rest, cs = c :: rest ∧ (c.isAlpha = true ∨
    c = '-' ∧ ∃ d, rest.head? = some d ∧ (d = '-' ∨ d.isAlpha = true))

/-- A digit in front, on its own or behind a hyphen, or nothing but a hyphen. -/
def StartsNoIdentifier (cs : List Char) : Prop :=
  cs = ['-'] ∨ ∃ d rest, d.isDigit = true ∧ (cs = d :: rest ∨ cs = '-' :: d :: rest)

/-- Three whole numbers from 0 to 255 with commas between them. -/
def AreChannels (s : String) : Prop :=
  ∃ r g b : Nat, r ≤ 255 ∧ g ≤ 255 ∧ b ≤ 255 ∧
    s = toString r ++ ", " ++ toString g ++ ", " ++ toString b

/-- A color by its channels, and by an opacity from 0 to 1 or without one. -/
inductive IsCall : String → Prop
  | rgb {channels : String} (h : AreChannels channels) : IsCall ("rgb(" ++ channels ++ ")")
  | rgba {channels : String} (h : AreChannels channels) {p : PlainDecimal} (hp : p.IsInUnit) :
    IsCall ("rgba(" ++ channels ++ ", " ++ p.text ++ ")")

/-- The texts that stand for colors. -/
def IsLegal (s : String) : Prop :=
  IsCode s.toList ∨ IsCall s ∨ IsIdentifier s.toList

/-- A keyword whose text is judged otherwise: a name that is no identifier passes, and a text that
stands for a color as a code or by channels does not. -/
inductive IsMisjudged : Color → Prop
  | accepted {keyword : String} (hname : IsName keyword.toList)
    (hstart : StartsNoIdentifier keyword.toList) : IsMisjudged (named keyword)
  | refused {keyword : String} (hform : IsCode keyword.toList ∨ IsCall keyword) :
    IsMisjudged (named keyword)

theorem isKeyword_iff {keyword : String} : isKeyword keyword = true ↔ IsName keyword.toList := by
  have hparts : isKeyword keyword = true ↔ keyword.toList ≠ [] ∧
      ∀ c ∈ keyword.toList, c.isAlphanum = true ∨ c = '-' := by
    simp [isKeyword]
  rw [hparts]
  constructor
  · rintro ⟨hne, hall⟩
    exact ⟨hne, hall⟩
  · exact fun h => ⟨h.nonempty, h.mem⟩

theorem not_isAlpha_of_isDigit {c : Char} (h : c.isDigit = true) : c.isAlpha = false := by
  have hdigit : 48 ≤ c.toNat ∧ c.toNat ≤ 57 := by
    have hand : (decide (c.val ≥ '0'.val) && decide (c.val ≤ '9'.val)) = true := h
    simpa [UInt32.le_iff_toNat_le] using hand
  rw [← Bool.not_eq_true]
  intro halpha
  have hletter := toNat_of_isAlpha halpha
  omega

/-- A name is an identifier unless it starts as none. -/
theorem IsName.isIdentifier_iff {cs : List Char} (h : IsName cs) :
    IsIdentifier cs ↔ ¬ StartsNoIdentifier cs := by
  have hkinds : ∀ c ∈ cs, c.isAlpha = true ∨ c.isDigit = true ∨ c = '-' := by
    intro c hc
    rw [← or_assoc, ← Bool.or_eq_true]
    exact h.mem c hc
  have hyphen : ('-' : Char).isAlpha = false ∧ ('-' : Char).isDigit = false := by decide
  constructor
  · rintro ⟨-, c, rest, rfl, hstart⟩ (hlone | ⟨d, tail, hdigit, hfirst | hsecond⟩)
    · obtain ⟨rfl, rfl⟩ := List.cons.inj hlone
      simp [hyphen] at hstart
    · obtain ⟨rfl, rfl⟩ := List.cons.inj hfirst
      rw [not_isAlpha_of_isDigit hdigit] at hstart
      rcases hstart with hletter | ⟨rfl, -⟩
      · cases hletter
      · exact absurd hdigit (by decide)
    · obtain ⟨rfl, rfl⟩ := List.cons.inj hsecond
      rcases hstart with hletter | ⟨-, d', hd', hbehind⟩
      · exact absurd hletter (by decide)
      · obtain rfl := Option.some.inj hd'
        rw [not_isAlpha_of_isDigit hdigit] at hbehind
        rcases hbehind with rfl | hletter
        · exact absurd hdigit (by decide)
        · cases hletter
  · intro hstart
    refine ⟨h, ?_⟩
    cases cs with
    | nil => exact absurd rfl h.nonempty
    | cons c rest =>
        refine ⟨c, rest, rfl, ?_⟩
        rcases hkinds c (List.mem_cons_self ..) with hletter | hdigit | rfl
        · exact .inl hletter
        · exact absurd (.inr ⟨c, rest, hdigit, .inl rfl⟩) hstart
        cases rest with
        | nil => exact absurd (.inl rfl) hstart
        | cons d tail =>
            refine .inr ⟨rfl, d, rfl, ?_⟩
            rcases hkinds d (List.mem_cons_of_mem _ (List.mem_cons_self ..)) with
              hletter | hdigit | rfl
            · exact .inr hletter
            · exact absurd (.inr ⟨d, tail, hdigit, .inr rfl⟩) hstart
            · exact .inl rfl

/-! ### What tells the forms apart -/

theorem IsCall.mem_bracket {s : String} (h : IsCall s) : '(' ∈ s.toList := by
  cases h <;> simp [String.toList_append]

theorem IsCall.head? {s : String} (h : IsCall s) : s.toList.head? = some 'r' := by
  cases h <;> simp [String.toList_append]

theorem IsCode.head? {cs : List Char} (h : IsCode cs) : cs.head? = some '#' := by
  obtain ⟨digits, rfl, -⟩ := h
  rfl

/-- Names hold neither number signs nor brackets. -/
theorem IsName.not_isCode {cs : List Char} (h : IsName cs) : ¬ IsCode cs := fun hcode =>
  absurd (h.mem '#' (List.mem_of_mem_head? hcode.head?)) (by decide)

theorem IsName.not_isCall {s : String} (h : IsName s.toList) : ¬ IsCall s := fun hcall =>
  absurd (h.mem '(' hcall.mem_bracket) (by decide)

theorem isCode_cons_iff {digits : List Char} : IsCode ('#' :: digits) ↔ AreDigits digits :=
  ⟨fun ⟨_, hcode, hdigits⟩ => (List.cons.inj hcode).2 ▸ hdigits, fun h => ⟨digits, rfl, h⟩⟩

/-! ### Each form -/

theorem isLegal_ofHex_iff (code : String) :
    IsLegal (StyleValue.text (ofHex code)) ↔ (ofHex code).isWellFormed = true := by
  have htext := toList_text_ofHex code
  have hcall : ¬ IsCall (StyleValue.text (ofHex code)) := by
    intro h
    have hhead := h.head?
    rw [htext, List.head?_cons] at hhead
    exact absurd (Option.some.inj hhead) (by decide)
  have hname : ¬ IsIdentifier (StyleValue.text (ofHex code)).toList := by
    intro h
    rw [htext] at h
    exact absurd (h.mem '#' (List.mem_cons_self ..)) (by decide)
  rw [IsLegal, or_iff_left (not_or.mpr ⟨hcall, hname⟩), htext, isCode_cons_iff, codeDigits,
    areDigits_lower_iff, isWellFormed_ofHex_iff]

theorem areChannels_channelsText (r g b : UInt8) : AreChannels (channelsText r g b) :=
  ⟨r.toNat, g.toNat, b.toNat, Nat.le_of_lt_succ r.toNat_lt, Nat.le_of_lt_succ g.toNat_lt,
    Nat.le_of_lt_succ b.toNat_lt, rfl⟩

theorem isLegal_rgb (r g b : UInt8) : IsLegal (StyleValue.text (rgb r g b)) :=
  .inr (.inl (.rgb (areChannels_channelsText r g b)))

theorem isLegal_withAlpha (r g b : UInt8) (alpha : Binary32) :
    IsLegal (StyleValue.text (withAlpha r g b alpha)) := by
  obtain ⟨p, htext, -, hunit, -⟩ := exists_plainDecimal_opacityOf alpha
  have hcolor : StyleValue.text (withAlpha r g b alpha) = "rgba(" ++ channelsText r g b ++ ", " ++
      NumberStyle.stylesheet.text (opacityOf alpha) ++ ")" := rfl
  rw [hcolor, htext]
  exact .inr (.inl (.rgba (areChannels_channelsText r g b) hunit))

/-- A keyword is judged as its text is, unless it is misjudged. -/
theorem isWellFormed_named_iff (keyword : String) :
    ((named keyword).isWellFormed = true ↔ IsLegal keyword) ↔ ¬ IsMisjudged (named keyword) := by
  have hwell : (named keyword).isWellFormed = true ↔ IsName keyword.toList := isKeyword_iff
  rw [hwell]
  by_cases hname : IsName keyword.toList
  · have hlegal : IsLegal keyword ↔ IsIdentifier keyword.toList := by
      rw [IsLegal, or_iff_right hname.not_isCode, or_iff_right hname.not_isCall]
    rw [iff_true_left hname, hlegal]
    rw [hname.isIdentifier_iff]
    constructor
    · rintro hidentifier (⟨-, hstart⟩ | ⟨hform⟩)
      · exact hidentifier hstart
      · exact hform.elim hname.not_isCode hname.not_isCall
    · exact fun hjudged hstart => hjudged (.accepted hname hstart)
  · have hlegal : IsLegal keyword ↔ IsCode keyword.toList ∨ IsCall keyword := by
      have hidentifier : ¬ IsIdentifier keyword.toList := fun h => hname h.toIsName
      rw [IsLegal, ← or_assoc, or_iff_left hidentifier]
    rw [iff_false_left hname, hlegal]
    constructor
    · rintro hforms (⟨hname', -⟩ | ⟨hform⟩)
      · exact hname hname'
      · exact hforms hform
    · exact fun hjudged hform => hjudged (.refused hform)

end UiStyle.Color

namespace UiStyle.Declaration

variable {p : Property} (hp : p.form = .color)

/-- The rule and the report follow the judgement on a color, for every property of colors. -/
theorem flagged_color (c : Color) :
    (color p hp c).rule.valid = c.isWellFormed ∧
      (color p hp c).violation? =
        if c.isWellFormed then none else some (.malformedColor p (StyleValue.text c)) := by
  have hviolation : (color p hp c).violation? =
      if c.isWellFormed then none else some (.malformedColor p (StyleValue.text c)) := rfl
  refine ⟨?_, hviolation⟩
  rw [valid_rule, hviolation]
  cases c.isWellFormed <;> rfl

/-- **Colors and texts that stand for colors.**  A color that a constructor has made is well formed
if and only if its text stands for a color, unless it is a keyword that is misjudged.  Declaring it
makes an invalid rule and a report with its text if it is not well formed, and a valid rule and no
report if it is. -/
theorem wellFormed_iff_isLegal {c : Color} (hc : c.Made) :
    ((c.isWellFormed = true ↔ Color.IsLegal (StyleValue.text c)) ↔ ¬ c.IsMisjudged) ∧
      (color p hp c).rule.valid = c.isWellFormed ∧
      (color p hp c).violation? =
        if c.isWellFormed then none else some (.malformedColor p (StyleValue.text c)) := by
  refine ⟨?_, flagged_color hp c⟩
  cases hc with
  | hex code => exact iff_of_true (Color.isLegal_ofHex_iff code).symm nofun
  | rgb | ofUnits => exact iff_of_true (iff_of_true rfl (Color.isLegal_rgb _ _ _)) nofun
  | rgba | ofUnitsWithAlpha =>
      exact iff_of_true (iff_of_true rfl (Color.isLegal_withAlpha _ _ _ _)) nofun
  | named keyword => exact Color.isWellFormed_named_iff keyword

/-- Two hyphens in front make an identifier, and a color that is not flagged. -/
theorem wellFormed_iff_isLegal_hyphens :
    Property.form .borderColor = .color ∧ (Color.named "--1").Made ∧
      Color.IsLegal "--1" ∧ (color .borderColor rfl (.named "--1")).rule.valid = true ∧
      (color .borderColor rfl (.named "--1")).violation? = none := by
  have hname : Color.IsName "--1".toList := Color.isKeyword_iff.mp (by decide)
  have hjudged : ¬ (Color.named "--1").IsMisjudged := by
    rintro (⟨-, hlone | ⟨d, rest, hdigit, hfirst | hsecond⟩⟩ | ⟨hform⟩)
    · exact absurd hlone (by decide)
    · obtain ⟨rfl, -⟩ := List.cons.inj hfirst
      exact absurd hdigit (by decide)
    · obtain ⟨rfl, -⟩ := List.cons.inj (List.cons.inj hsecond).2
      exact absurd hdigit (by decide)
    · exact hform.elim hname.not_isCode hname.not_isCall
  obtain ⟨hlegal, hvalid, hviolation⟩ :=
    wellFormed_iff_isLegal (p := .borderColor) rfl (.named "--1")
  exact ⟨rfl, .named _, (hlegal.mpr hjudged).mp (by decide), hvalid, hviolation⟩

/-- Digits are no identifier, but nothing is found wrong with them as a keyword. -/
theorem color_accepts_number :
    (Color.named "123").Made ∧ (Color.named "123").isWellFormed = true ∧
      ¬ Color.IsLegal (StyleValue.text (Color.named "123")) ∧
      (color .borderColor rfl (.named "123")).rule =
        ⟨"border-color", .borderColor, "123", true⟩ ∧
      (color .borderColor rfl (.named "123")).violation? = none := by
  have hname : Color.IsName "123".toList := Color.isKeyword_iff.mp (by decide)
  refine ⟨.named _, by decide, ?_, by decide, by decide⟩
  rintro (hcode | hcall | hidentifier)
  · exact hname.not_isCode hcode
  · exact hname.not_isCall hcall
  · exact hname.isIdentifier_iff.mp hidentifier (.inr ⟨'1', ['2', '3'], by decide, .inl rfl⟩)

end UiStyle.Declaration
