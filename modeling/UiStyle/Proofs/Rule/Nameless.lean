import UiStyle.Proofs.Manifest.Reports
import UiStyle.Proofs.Rule.Origin

/-!
# Rules without a name

The mark of custom properties alone names nothing.  A rule comes to have it for its name in two
ways:

```text
a custom property whose name is made of marks only     the rule is invalid, and that is reported
a rule for the property `custom`, as for any other     the property has the mark for its name
```

So no valid rule is nameless as long as rules for custom properties are asked for by their names.
Nothing keeps one from asking for them by the property (`Rule.Origin.TakesMark`): a rule that is
made for it with a value, a typed value or a text is valid and has the mark for its name
(`Rule.nameless_accepted`).  Manifests always go by the name (`Declares.unnamed`), so every nameless
rule of a sheet that was loaded is invalid and has been reported.
-/

namespace UiStyle

namespace Property

theorem name_eq_mark_iff {p : Property} : p.name = customMark ↔ p = .custom := by
  constructor
  · intro h
    have hfound := p.ofName?_name
    rw [h, ofName?_eq_custom_iff.mpr List.prefix_rfl] at hfound
    exact (Option.some.inj hfound).symm
  · rintro rfl
    rfl

end Property

namespace Rule

/-- A custom property is left without a name exactly if it is not valid. -/
theorem name_custom_eq_mark_iff {name value : String} :
    (custom name value).name = Property.customMark ↔ (custom name value).valid = false := by
  rw [← String.toList_inj, toList_name_custom]
  simp [custom, Property.customMark]

end Rule

namespace Declaration

/-- Custom properties are declared by their name or by a text. -/
theorem cases_of_property_eq_custom {d : Declaration} (h : d.property = .custom) :
    (∃ name value, d = .custom name value) ∨ ∃ value, d = .text .custom value := by
  have hform : ∀ {p : Property} {form : ValueForm}, p.form = form → form ≠ .own → p ≠ .custom := by
    rintro p form rfl hown rfl
    exact hown rfl
  cases d with
  | custom name value => exact .inl ⟨name, value, rfl⟩
  | text p value =>
      obtain rfl : p = .custom := h
      exact .inr ⟨value, rfl⟩
  | color p form | asset p form | edges p form | length p form | number p form | pixels p form
  | alignment p form => exact absurd h (hform form (by decide))
  | _ => cases h

/-- Unless a text is declared for the property itself, a nameless rule is invalid, and it is wrong
in having no name. -/
theorem unnamed_of_name_eq_mark {d : Declaration} (hd : ∀ value, d ≠ .text .custom value)
    (hname : d.rule.name = Property.customMark) :
    d.rule.valid = false ∧ d.violation? = some .unnamed := by
  by_cases hcustom : ∃ name value, d = .custom name value
  · obtain ⟨name, value, rfl⟩ := hcustom
    have hrule : (custom name value).rule = .custom name value := rfl
    rw [hrule, Rule.name_custom_eq_mark_iff] at hname
    rw [hrule, violation?, hname]
    exact ⟨rfl, rfl⟩
  · have hother : ∀ name value, d ≠ .custom name value :=
      fun name value h => hcustom ⟨name, value, h⟩
    rw [name_rule hother] at hname
    rcases cases_of_property_eq_custom (Property.name_eq_mark_iff.mp hname) with h | ⟨value, h⟩
    · exact absurd h hcustom
    · exact absurd h (hd value)

/-- No text is wrong for custom properties. -/
theorem violation?_text_custom (value : String) : (text .custom value).violation? = none := by
  have horigin : Property.custom ≠ .transformOrigin := by decide
  rw [violation?, textViolation_eq_autoForbidden (fun h => absurd h horigin) rfl]
  simp [Property.acceptsAuto]

end Declaration

namespace Rule.Origin

/-- What is sent when a rule is made: only declarations report. -/
def sent : Origin → List String
  | declared d => d.violation?.toList.map Violation.message
  | _ => []

/-- A rule is made for custom properties as for a registered one, with their mark for its name, and
not with the verdict that it is invalid. -/
inductive TakesMark : Origin → Prop
  | new (value : String) : TakesMark (.new .custom value)
  | withValidity (value : String) : TakesMark (.withValidity .custom value true)
  | ofValue {α : Type} [StyleValue α] (value : α) : TakesMark (.ofValue .custom value)
  | text (value : String) : TakesMark (.declared (.text .custom value))

theorem TakesMark.accepted {o : Origin} (h : o.TakesMark) :
    o.rule.name = Property.customMark ∧ o.rule.valid = true ∧ o.sent = [] := by
  cases h with
  | new | withValidity | ofValue => exact ⟨rfl, rfl, rfl⟩
  | text value =>
      have hnone := Declaration.violation?_text_custom value
      refine ⟨rfl, ?_, ?_⟩
      · rw [rule, Declaration.valid_rule, hnone]
        rfl
      · rw [sent, hnone]
        rfl

/-- Made in any other way, a nameless rule is invalid, and a declaration of it is reported. -/
theorem refused_of_not_takesMark {o : Origin} (ho : ¬ o.TakesMark)
    (hname : o.rule.name = Property.customMark) :
    o.rule.valid = false ∧ ∀ d, o = .declared d → o.sent = [Violation.unnamed.message] := by
  cases o with
  | new p value =>
      obtain rfl := Property.name_eq_mark_iff.mp hname
      exact absurd (.new value) ho
  | ofValue p value =>
      obtain rfl := Property.name_eq_mark_iff.mp hname
      exact absurd (.ofValue value) ho
  | withValidity p value valid =>
      obtain rfl := Property.name_eq_mark_iff.mp hname
      cases valid with
      | false =>
          refine ⟨rfl, ?_⟩
          intro d hd
          cases hd
      | true => exact absurd (.withValidity value) ho
  | custom name value =>
      have hrule : (custom name value).rule = .custom name value := rfl
      rw [hrule] at hname ⊢
      refine ⟨name_custom_eq_mark_iff.mp hname, ?_⟩
      intro d hd
      cases hd
  | declared d =>
      have hd : ∀ value, d ≠ .text .custom value := by
        rintro value rfl
        exact ho (.text value)
      obtain ⟨hvalid, hviolation⟩ := Declaration.unnamed_of_name_eq_mark hd hname
      refine ⟨hvalid, fun _ _ => ?_⟩
      rw [sent, hviolation]
      rfl

end Rule.Origin

/-! ### Manifests -/

/-- A pair that makes a nameless rule declares a custom property, whose name is missing. -/
theorem Declares.unnamed {pair : String × Json} {d : Declaration} (h : Declares pair d)
    (hname : d.rule.name = Property.customMark) :
    d.rule.valid = false ∧ d.violation? = some .unnamed := by
  refine Declaration.unnamed_of_name_eq_mark ?_ hname
  rintro value rfl
  cases h with
  | registered _ _ hp => exact absurd hp (by decide)

theorem Declares.loadRule_eq {pair : String × Json} {d : Declaration} (h : Declares pair d) :
    loadRule pair = .declare d := by
  rw [loadRule, declaration_eq_ok_iff.mpr h]

/-- A nameless rule in a sheet that was loaded is invalid and has been reported. -/
theorem Manifest.unnamed_of_load {m : Manifest} {layout : Layout} {next next' : Nat} {s : Sheet}
    (hm : m.DistinctKeys) (h : (m.load layout next).result = .ok (s, next')) {r : Rule}
    (hr : r ∈ s.allRules) (hname : r.name = Property.customMark) :
    r.valid = false ∧ .unnamed ∈ (m.load layout next).reports := by
  obtain ⟨built, hbuilt, hreports⟩ := built_of_load h
  obtain ⟨hsome, -⟩ := allRules_of_load hm h hbuilt
  obtain ⟨d, hd, rfl⟩ := List.mem_map.mp (hsome.subset hr)
  obtain ⟨pair, -, hdeclares⟩ := exists_of_forall₂ hbuilt d hd
  obtain ⟨hvalid, hviolation⟩ := hdeclares.unnamed hname
  refine ⟨hvalid, ?_⟩
  rw [hreports]
  exact List.mem_filterMap.mpr ⟨d, hd, hviolation⟩

/-- **Rules without a name.**  A rule whose name is the mark of custom properties is invalid, and a
declaration that makes one is reported, unless the rule is made for the property of custom
properties as for a registered one and without the verdict that it is invalid.  In that case it is
valid, and nothing is reported.  A pair of a manifest never makes such a rule: when a manifest is
loaded, every nameless rule is invalid and reported, and so are those that are left in the sheet. -/
theorem Rule.invalid_of_nameless (o : Origin) :
    (¬ o.TakesMark → o.rule.name = Property.customMark → o.rule.valid = false ∧
      ∀ d, o = .declared d → o.sent = [Violation.unnamed.message]) ∧
    (o.TakesMark → o.rule.name = Property.customMark ∧ o.rule.valid = true ∧ o.sent = []) ∧
    (∀ (pair : String × Json) (r : Rule), (loadRule pair).result = .ok r →
      r.name = Property.customMark → r.valid = false ∧ (loadRule pair).reports = [.unnamed]) ∧
    ∀ (m : Manifest) (layout : Layout) (next next' : Nat) (s : Sheet), m.DistinctKeys →
      (m.load layout next).result = .ok (s, next') →
      ∀ r ∈ s.allRules, r.name = Property.customMark →
        r.valid = false ∧ .unnamed ∈ (m.load layout next).reports := by
  refine ⟨Origin.refused_of_not_takesMark, Origin.TakesMark.accepted, ?_, ?_⟩
  · intro pair r hr hname
    obtain ⟨d, hdeclares, rfl⟩ := result_loadRule_eq_ok.mp hr
    obtain ⟨hvalid, hviolation⟩ := hdeclares.unnamed hname
    refine ⟨hvalid, ?_⟩
    rw [hdeclares.loadRule_eq, Reporting.declare_eq, hviolation]
    rfl
  · intro m layout next next' s hm h r hr hname
    exact Manifest.unnamed_of_load hm h hr hname

/-- A manifest with a custom property whose name is missing. -/
def Manifest.nameless : Manifest :=
  ⟨"Card", [⟨".card", [("----", .string "1px"), ("--gap", .string "2px")], []⟩]⟩

/-- What it loads as. -/
def Sheet.nameless : Sheet :=
  ⟨"Card", [{
    id := 1, text := ".card", pseudoClass := none,
    rules := [⟨"--", .custom, "1px", false⟩, ⟨"--gap", .custom, "2px", true⟩],
    states := [] }], none, {}⟩

theorem Rule.invalid_of_nameless_hyphens :
    (¬ (Origin.declared (.custom " -- " "1px")).TakesMark ∧
      (Origin.declared (.custom " -- " "1px")).rule.name = Property.customMark ∧
      (Origin.declared (.custom " -- " "1px")).rule.valid = false ∧
      (Origin.declared (.custom " -- " "1px")).sent =
        ["custom property declared without a name"]) ∧
    Manifest.nameless.DistinctKeys ∧
      (Manifest.nameless.load {} 1).result = .ok (Sheet.nameless, 2) ∧
      ⟨"--", .custom, "1px", false⟩ ∈ Sheet.nameless.allRules ∧
      .unnamed ∈ (Manifest.nameless.load {} 1).reports := by
  obtain ⟨horigin, -, -, hmanifest⟩ := invalid_of_nameless (.declared (.custom " -- " "1px"))
  have hother : ¬ (Origin.declared (.custom " -- " "1px")).TakesMark := nofun
  have hname : (Origin.declared (.custom " -- " "1px")).rule.name = Property.customMark := by
    decide +kernel
  obtain ⟨hvalid, hsent⟩ := horigin hother hname
  have hkeys : Manifest.nameless.DistinctKeys := by
    intro e he
    rw [List.mem_singleton.mp he]
    exact ⟨by decide, by decide⟩
  have hload : (Manifest.nameless.load {} 1).result = .ok (Sheet.nameless, 2) := by rfl
  have hmem : ⟨"--", .custom, "1px", false⟩ ∈ Sheet.nameless.allRules := by decide +kernel
  exact ⟨⟨hother, hname, hvalid, hsent _ rfl⟩, hkeys, hload, hmem,
    (hmanifest _ _ _ _ _ hkeys hload _ hmem rfl).2⟩

/-- Asked for by the property, a rule without a name is valid and nothing is reported. -/
theorem Rule.nameless_accepted :
    (Origin.new .custom "1px").rule = ⟨"--", .custom, "1px", true⟩ ∧
      (Origin.declared (.text .custom "1px")).rule = ⟨"--", .custom, "1px", true⟩ ∧
      (Origin.declared (.text .custom "1px")).sent = [] :=
  ⟨rfl, by decide +kernel, by decide +kernel⟩

end UiStyle
