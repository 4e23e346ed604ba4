import UiStyle.Proofs.Rule.Settled
import UiStyle.Proofs.Rule.Text

/-!
# Names and properties

The name of a rule and its property are two views of one thing: the name alone tells the property.
Names are of two kinds that cannot meet, because no registered name starts with the mark of custom
properties (`Property.isCustomName_eq_false`):

* a name with the mark in front is one of a custom property, whatever follows
  (`Property.ofName?_eq_custom_iff`);
* any other name is that of one registered property, or of none
  (`Property.ofName?_eq_registered_iff`, `Property.ofName?_eq_none_iff`).

`Rule.Origin` lists the ways in which a rule is made.  All of them come down to two
(`Rule.Origin.built`): a property gives its name, which it is found by, or a custom property brings
a name of its own, which is given the mark.  In front of the mark nothing is left then, and behind
it no second one (`Rule.not_mark_prefix_stripMarks`): marks come off in pairs of hyphens, so of an
odd number of hyphens one stays.
-/

namespace UiStyle

namespace Property

/-! ### Finding a property by its name -/

theorem isCustomName_iff {s : String} :
    isCustomName s = true ↔ customMark.toList <+: s.toList := by
  rw [isCustomName, List.isPrefixOf_iff_prefix]

theorem ofName?_eq_custom_iff {s : String} :
    ofName? s = some .custom ↔ customMark.toList <+: s.toList := by
  rw [← isCustomName_iff]
  constructor
  · intro h
    by_contra hs
    obtain ⟨hmem, -⟩ := (ofName?_eq_some_iff (eq_false_of_ne_true hs)).mp h
    exact absurd hmem (by decide)
  · exact ofName?_of_isCustomName

/-- A registered property is found by its name and by no other. -/
theorem ofName?_eq_registered_iff {s : String} {p : Property} (hp : p ∈ registered) :
    ofName? s = some p ↔ s = p.name := by
  have hcustom : p ≠ .custom := by
    rintro rfl
    exact absurd hp (by decide)
  cases hs : isCustomName s with
  | true =>
      rw [ofName?_of_isCustomName hs]
      constructor
      · intro h
        exact absurd (Option.some.inj h).symm hcustom
      · rintro rfl
        rw [isCustomName_eq_false hp] at hs
        cases hs
  | false =>
      rw [ofName?_eq_some_iff hs]
      exact ⟨fun h => h.2.symm, fun h => ⟨hp, h.symm⟩⟩

theorem ofName?_eq_none_iff {s : String} :
    ofName? s = none ↔ (∀ p ∈ registered, s ≠ p.name) ∧ ¬ customMark.toList <+: s.toList := by
  constructor
  · intro h
    refine ⟨fun p hp hs => ?_, fun hs => ?_⟩
    · rw [(ofName?_eq_registered_iff hp).mpr hs] at h
      cases h
    · rw [ofName?_eq_custom_iff.mpr hs] at h
      cases h
  · rintro ⟨hnames, hmark⟩
    cases h : ofName? s with
    | none => rfl
    | some p =>
        by_cases hp : p = .custom
        · subst hp
          exact absurd (ofName?_eq_custom_iff.mp h) hmark
        · have hmem := mem_registered hp
          exact absurd ((ofName?_eq_registered_iff hmem).mp h) (hnames p hmem)

/-- Every property is found by its name, custom properties by their mark. -/
theorem ofName?_name (p : Property) : ofName? p.name = some p := by
  by_cases hp : p = .custom
  · subst hp
    exact ofName?_eq_custom_iff.mpr List.prefix_rfl
  · exact (ofName?_eq_registered_iff (mem_registered hp)).mpr rfl

end Property

namespace Rule

/-! ### Names of custom properties -/

theorem not_mark_prefix_stripMarks (cs : List Char) :
    ¬ Property.customMark.toList <+: stripMarks cs := by
  fun_induction stripMarks cs with
  | case1 rest ih => exact ih
  | case2 cs hmark =>
      rintro ⟨rest, rfl⟩
      exact hmark rest rfl

/-- Nothing is left of a name if it is made of marks only. -/
theorem stripMarks_eq_nil_iff {cs : List Char} :
    stripMarks cs = [] ↔ ∃ k, cs = (List.replicate k Property.customMark.toList).flatten := by
  constructor
  · fun_induction stripMarks cs with
    | case1 rest ih =>
        intro h
        obtain ⟨k, rfl⟩ := ih h
        exact ⟨k + 1, rfl⟩
    | case2 cs hmark =>
        rintro rfl
        exact ⟨0, rfl⟩
  · rintro ⟨k, rfl⟩
    induction k with
    | zero => rfl
    | succ k ih => exact ih

/-- The name of a custom property has its mark once. -/
theorem marks_name_custom (name value : String) :
    Property.customMark.toList <+: (custom name value).name.toList ∧
      ¬ (Property.customMark ++ Property.customMark).toList <+:
        (custom name value).name.toList := by
  rw [toList_name_custom]
  refine ⟨⟨_, rfl⟩, ?_⟩
  rintro ⟨rest, hrest⟩
  obtain ⟨-, hrest⟩ := List.cons.inj hrest
  obtain ⟨-, hrest⟩ := List.cons.inj hrest
  exact not_mark_prefix_stripMarks (Text.trim name.toList) ⟨rest, hrest⟩

theorem valid_custom_eq_false_iff {name value : String} :
    (custom name value).valid = false ↔
      ∃ k, Text.trim name.toList = (List.replicate k Property.customMark.toList).flatten := by
  rw [← stripMarks_eq_nil_iff]
  simp [custom]

/-! ### The ways of making a rule -/

/-- Where a rule comes from: it is made for a property, with a verdict or without one, of a value of
any type, for a custom property, or by a declaration. -/
inductive Origin : Type 1
  | new (p : Property) (value : String)
  | withValidity (p : Property) (value : String) (valid : Bool)
  | ofValue {α : Type} [StyleValue α] (p : Property) (value : α)
  | custom (name value : String)
  | declared (d : Declaration)

namespace Origin

/-- The rule that is made. -/
def rule : Origin → Rule
  | new p value => .new p value
  | withValidity p value valid => .withValidity p value valid
  | ofValue p value => .ofValue p value
  | custom name value => .custom name value
  | declared d => d.rule

theorem built (o : Origin) : o.rule.Built := by
  cases o with
  | new | withValidity | ofValue => exact .withValidity _ _ _
  | custom name value => exact .custom name value
  | declared d => exact d.built_rule

end Origin

/-- The property of a rule is found by the name of the rule. -/
theorem Built.ofName?_name {r : Rule} (h : r.Built) :
    Property.ofName? r.name = some r.property := by
  cases h with
  | withValidity p value valid => exact p.ofName?_name
  | custom name value => exact Property.ofName?_eq_custom_iff.mpr (marks_name_custom name value).1

/-- **Names and properties.**  A registered property is found by its name only, a custom property by
every name with its mark in front, and nothing by any other name.  The property of a rule is found
by its name, however the rule was made, so rules of different properties have different names.  A
rule for a custom property has a name with one mark in front, which makes the same name and the same
verdict when it is given again; and the rule is invalid exactly if the name it was given is, without
the white space around it, made of marks only. -/
theorem property_of_name :
    (∀ n : String,
      (∀ p ∈ Property.registered, Property.ofName? n = some p ↔ n = p.name) ∧
      (Property.ofName? n = some .custom ↔ Property.customMark.toList <+: n.toList) ∧
      (Property.ofName? n = none ↔ (∀ p ∈ Property.registered, n ≠ p.name) ∧
        ¬ Property.customMark.toList <+: n.toList)) ∧
    (∀ o : Origin, Property.ofName? o.rule.name = some o.rule.property) ∧
    (∀ o o' : Origin, o.rule.name = o'.rule.name → o.rule.property = o'.rule.property) ∧
    ∀ name value : String,
      Property.customMark.toList <+: (custom name value).name.toList ∧
      ¬ (Property.customMark ++ Property.customMark).toList <+: (custom name value).name.toList ∧
      (∀ value' : String,
        custom (custom name value).name value' = { custom name value with value := value' }) ∧
      ((custom name value).valid = false ↔
        ∃ k, Text.trim name.toList = (List.replicate k Property.customMark.toList).flatten) := by
  have hfound : ∀ o : Origin, Property.ofName? o.rule.name = some o.rule.property :=
    fun o => o.built.ofName?_name
  refine ⟨fun n => ⟨fun p hp => Property.ofName?_eq_registered_iff hp,
    Property.ofName?_eq_custom_iff, Property.ofName?_eq_none_iff⟩, hfound, ?_, ?_⟩
  · intro o o' hname
    have hsame := hfound o
    rw [hname, hfound o'] at hsame
    exact (Option.some.inj hsame).symm
  · intro name value
    obtain ⟨hmark, honce⟩ := marks_name_custom name value
    refine ⟨hmark, honce, fun value' => ?_, valid_custom_eq_false_iff⟩
    exact custom_custom name value'

/-- Two hyphens make a name custom and one does not; of three hyphens behind white space, all
stay. -/
theorem property_of_name_hyphens :
    Property.font ∈ Property.registered ∧ Property.ofName? "-unity-font" = some .font ∧
      Property.ofName? "--unity-font" = some .custom ∧ Property.ofName? "-" = none ∧
      (Origin.custom " --- a " "1px").rule = ⟨"--- a", .custom, "1px", true⟩ ∧
      (Origin.declared (.custom "- a" "2px")).rule.name = "--- a" ∧
      (Origin.declared (.custom "- a" "2px")).rule.property = .custom ∧
      (custom "----" "1px").valid = false := by
  obtain ⟨hnames, -, hsame, hcustom⟩ := property_of_name
  obtain ⟨hfont, -, -⟩ := hnames "-unity-font"
  obtain ⟨-, hmark, -⟩ := hnames "--unity-font"
  obtain ⟨-, -, hnone⟩ := hnames "-"
  obtain ⟨-, -, -, hvalid⟩ := hcustom "----" "1px"
  have hmem : Property.font ∈ Property.registered := by decide
  have hodd : (Origin.custom " --- a " "1px").rule = ⟨"--- a", .custom, "1px", true⟩ := by
    decide +kernel
  have hname : (Origin.declared (.custom "- a" "2px")).rule.name = "--- a" := by decide +kernel
  have hproperty := hsame (.declared (.custom "- a" "2px")) (.custom " --- a " "1px")
    (by rw [hname, hodd])
  rw [hodd] at hproperty
  exact ⟨hmem, (hfont _ hmem).mpr rfl, hmark.mpr (by decide), hnone.mpr (by decide +kernel), hodd,
    hname, hproperty, hvalid.mpr ⟨2, by decide +kernel⟩⟩

end Rule

end UiStyle
