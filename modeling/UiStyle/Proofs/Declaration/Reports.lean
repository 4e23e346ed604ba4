import Mathlib.Data.List.Basic
import UiStyle.Builder

/-!
# What making a rule reports

Making a rule never fails.  What is wrong with a declaration shows in two places instead: the rule
is not valid, and one message goes to the sink.  These are two steps of the builder, and
`reports_of_build` says that they always come together, whatever is declared and whatever has been
reported before.

A report that has a text comes as it is to the end of its sink, and nothing else changes.  What is
reported about declarations always has a text, so a sink gains one message for each violation
(`Journal.reportAll_memory`, `Journal.reportAll_log`).

A violation is found in one of four ways, and three of them look at a value for a property:

```text
lengths           `auto` where the property forbids it
colors            a code or a keyword that is none
origin keywords   two of them on one axis
```

The message about such a violation starts with the name of the property, which is the name of the
rule (`names_of_violation?`).  The fourth is a custom property without a name, whose message could
not start with it.  A text goes through the checks of the first three.
-/

namespace UiStyle

/-! ### What reporting adds to a journal -/

theorem Violation.message_ne_empty (v : Violation) : v.message ≠ "" := by
  intro h
  have hlength := congrArg String.length h
  cases v with
  | autoForbidden | malformedColor | sameAxis =>
      simp [Violation.message, String.length_append] at hlength
  | unnamed => exact absurd h (by decide)

namespace Journal

theorem reportText_of_ne_empty {message : String} (h : message ≠ "") :
    reportText (some message) = message := by
  have hnonempty : ¬ message.isEmpty = true := by
    rw [String.isEmpty_iff]
    exact h
  exact if_neg hnonempty

theorem reportAll_cons (sink : Sink) (j : Journal) (v : Violation) (violations : List Violation) :
    j.reportAll sink ((v :: violations).map Violation.message) =
      (j.emit sink v.message).reportAll sink (violations.map Violation.message) := by
  rw [List.map_cons, reportAll, List.foldl_cons, report, reportText_of_ne_empty v.message_ne_empty]
  rfl

theorem reportAll_memory (j : Journal) (violations : List Violation) :
    j.reportAll .memory (violations.map Violation.message) =
      { j with reports := j.reports ++ violations.map Violation.message } := by
  induction violations generalizing j with
  | nil => simp [reportAll]
  | cons v violations ih =>
      rw [reportAll_cons, ih]
      simp [emit]

theorem reportAll_log (j : Journal) (violations : List Violation) :
    j.reportAll .log (violations.map Violation.message) =
      { j with events := j.events ++ violations.map fun v => .warning v.message } := by
  induction violations generalizing j with
  | nil => simp [reportAll]
  | cons v violations ih =>
      rw [reportAll_cons, ih]
      simp [emit]

/-! ### Warnings -/

/-- The warnings in a journal, oldest first. -/
def warnings (j : Journal) : List Event := j.events.filter Event.isWarning

theorem warnings_announce (j : Journal) (events : List Event) :
    (j.announce events).warnings = j.warnings ++ events.filter Event.isWarning :=
  List.filter_append ..

theorem warnings_report {message : String} (h : message ≠ "") (j : Journal) :
    (j.report .log (some message)).warnings = j.warnings ++ [.warning message] := by
  rw [report, reportText_of_ne_empty h]
  exact j.warnings_announce [.warning message]

theorem warnings_reportAll (j : Journal) (violations : List Violation) :
    (j.reportAll .log (violations.map Violation.message)).warnings =
      j.warnings ++ violations.map fun v => .warning v.message := by
  rw [reportAll_log]
  refine (j.warnings_announce _).trans (congrArg (j.warnings ++ ·) ?_)
  exact List.filter_eq_self.mpr (List.forall_mem_map.mpr fun _ _ => rfl)

end Journal

/-! ### Messages -/

namespace Violation

/-- The message of a violation starts with the name of a property. -/
def Names (p : Property) (v : Violation) : Prop := p.name.toList <+: v.message.toList

theorem names_autoForbidden (p : Property) : (autoForbidden p).Names p := by
  rw [Names, message, String.toList_append]
  exact List.prefix_append _ _

theorem names_malformedColor (p : Property) (value : String) :
    (malformedColor p value).Names p := by
  simp only [Names, message, String.toList_append, List.append_assoc]
  exact List.prefix_append _ _

theorem names_sameAxis (first second : OriginAlign) :
    (sameAxis first second).Names .transformOrigin := by
  simp only [Names, message, String.toList_append, List.append_assoc]
  exact List.prefix_append _ _

/-- The last character tells a message from the one that stands in for a missing text. -/
theorem message_ne_missingMessage (v : Violation) : v.message ≠ missingMessage := by
  intro h
  have hlast := congrArg (fun s : String => s.toList.getLast?) h
  have hmissing : missingMessage.toList.getLast? = some 'e' := by decide
  have hend : ∀ s t : String, t ≠ "" → (s ++ t).toList.getLast? = t.toList.getLast? := by
    intro s t ht
    have hne : t.toList ≠ [] := by simpa using ht
    rw [String.toList_append, List.getLast?_append_of_ne_nil _ hne]
  cases v with
  | autoForbidden | malformedColor | sameAxis =>
      simp only [message] at hlast
      rw [hend _ _ (by decide), hmissing] at hlast
      exact absurd hlast (by decide)
  | unnamed => exact absurd h (by decide)

end Violation

namespace Declaration

/-! ### What the checks find -/

theorem names_of_autoViolation {α : Type} [StyleValue α] {p : Property} {value : α} {v : Violation}
    (h : autoViolation p value = some v) : v.Names p := by
  unfold autoViolation at h
  split at h
  · rw [← Option.some.inj h]
    exact Violation.names_autoForbidden p
  · cases h

theorem names_of_axisViolation {first second : OriginAlign} {v : Violation}
    (h : axisViolation first second = some v) : v.Names .transformOrigin := by
  unfold axisViolation at h
  split at h
  · rw [← Option.some.inj h]
    exact Violation.names_sameAxis first second
  · cases h

theorem names_of_colorViolation {p : Property} {color : Color} {text : String} {v : Violation}
    (h : colorViolation p color text = some v) : v.Names p := by
  unfold colorViolation at h
  split at h
  · cases h
  · rw [← Option.some.inj h]
    exact Violation.names_malformedColor p text

/-- A text is checked for `auto`, for origin keywords and for colors, in this order. -/
theorem names_of_textViolation {p : Property} {value : String} {v : Violation}
    (h : textViolation p value = some v) : v.Names p := by
  unfold textViolation at h
  split at h
  · rw [← Option.some.inj h]
    exact Violation.names_autoForbidden p
  · split at h
    · exact names_of_axisViolation h
    · split at h
      · exact names_of_colorViolation h
      · cases h

/-- What is wrong with a declaration names its property, unless the property is a custom one. -/
theorem names_of_violation? {d : Declaration} {v : Violation}
    (hd : ∀ name value, d ≠ .custom name value) (h : d.violation? = some v) :
    v.Names d.property := by
  cases d with
  | custom name value => exact absurd rfl (hd name value)
  | color p form value => exact names_of_colorViolation h
  | edges p form value => exact names_of_autoViolation h
  | length p form value => exact names_of_autoViolation h
  | translate x y => exact names_of_autoViolation h
  | transformOrigin x y => exact names_of_autoViolation h
  | originKeywords first second => exact names_of_axisViolation h
  | text p value => exact names_of_textViolation h
  | _ => cases h

/-! ### Rules and reports -/

/-- The rule of a declaration is valid unless something is wrong with the declaration. -/
theorem valid_rule (d : Declaration) : d.rule.valid = d.violation?.isNone := by
  cases d with
  | custom name value =>
      simp only [rule, violation?]
      cases hvalid : (Rule.custom name value).valid <;> simp
  | _ => rfl

theorem value_rule (d : Declaration) : d.rule.value = d.valueText := by
  cases d <;> rfl

theorem name_rule {d : Declaration} (hd : ∀ name value, d ≠ .custom name value) :
    d.rule.name = d.property.name := by
  cases d with
  | custom name value => exact absurd rfl (hd name value)
  | _ => rfl

/-- What a builder leaves in a journal is what is reported about the declaration. -/
theorem run_build (sink : Sink) (d : Declaration) (j : Journal) :
    ((Builder.journal sink).build d).run j =
      (d.rule, j.reportAll sink (d.violation?.toList.map Violation.message)) := by
  rw [Builder.build_eq]
  cases d.violation? <;> rfl

/-- The texts of what a declaration is made of, if it is not made of a text itself.  A method
without arguments stands for the keyword `none`. -/
def argumentTexts? : Declaration → Option (List String)
  | .color _ _ v => some [StyleValue.text v]
  | .asset _ _ v => some [StyleValue.text v]
  | .edges _ _ v => some (v.toList.map StyleValue.text)
  | .length _ _ v => some [StyleValue.text v]
  | .number _ _ v => some [StyleValue.text (Number.of v)]
  | .pixels _ _ v => some [toString v.toInt]
  | .alignment _ _ v => some [v.toKeyword]
  | .backgroundScaleMode v => some [v.toKeyword]
  | .fontStyle v => some [v.toKeyword]
  | .textAlign v => some [v.toKeyword]
  | .whiteSpace v => some [v.toKeyword]
  | .position v => some [v.toKeyword]
  | .display v => some [v.toKeyword]
  | .flexDirection v => some [v.toKeyword]
  | .flexWrap v => some [v.toKeyword]
  | .justifyContent v => some [v.toKeyword]
  | .cursor icon => some [icon.toKeyword]
  | .cursorImage image x y => some [StyleValue.text image, toString x.toInt, toString y.toInt]
  | .overflow v => some [v.toKeyword]
  | .visibility v => some [v.toKeyword]
  | .rotate angle => some [StyleValue.text angle]
  | .scale x y => some [StyleValue.text (Number.of x), StyleValue.text (Number.of y)]
  | .translate x y => some [StyleValue.text x, StyleValue.text y]
  | .transformOrigin x y => some [StyleValue.text x, StyleValue.text y]
  | .originKeywords first second => some [first.toKeyword, second.toKeyword]
  | .noBackgroundImage => some ["none"]
  | .noScale => some ["none"]
  | .custom _ value => some [value]
  | .text _ _ => none

/-- The value of a rule is the texts of its arguments with a space between them. -/
theorem value_of_argumentTexts? {d : Declaration} {texts : List String}
    (h : d.argumentTexts? = some texts) : d.rule.value = " ".intercalate texts := by
  cases d with
  | text p value => cases h
  | _ =>
    obtain rfl := Option.some.inj h
    rfl

/-- **Rules and reports.**  Whatever is declared, and whatever has been reported before, building a
rule

* leaves what the sink holds as it is and adds one message if the rule is not valid, and none if it
  is;
* reports a text of its own, which starts with the name of the rule unless a custom property was
  declared;
* writes what was declared for the value of the rule, valid or not, argument by argument. -/
theorem reports_of_build (d : Declaration) (sink : Sink) (j : Journal) :
    let ended := ((Builder.journal sink).build d).run j
    (∃ sent : List String,
        ended.2 = (match sink with
          | .memory => { j with reports := j.reports ++ sent }
          | .log => { j with events := j.events ++ sent.map .warning }) ∧
        sent.length = (if ended.1.valid then 0 else 1) ∧
        ∀ message ∈ sent, message ≠ "" ∧ message ≠ missingMessage ∧
          ((∀ name value, d ≠ .custom name value) →
            ended.1.name.toList <+: message.toList)) ∧
      ∀ texts, d.argumentTexts? = some texts → ended.1.value = " ".intercalate texts := by
  intro ended
  have hended : ended = (d.rule, j.reportAll sink (d.violation?.toList.map Violation.message)) :=
    run_build sink d j
  rw [hended]
  refine ⟨⟨d.violation?.toList.map Violation.message, ?_, ?_, ?_⟩, fun texts h =>
    value_of_argumentTexts? h⟩
  · cases sink with
    | memory => exact j.reportAll_memory _
    | log =>
        rw [List.map_map]
        exact j.reportAll_log _
  · rw [valid_rule]
    cases d.violation? <;> rfl
  · intro message hmessage
    obtain ⟨v, hv, rfl⟩ := List.mem_map.mp hmessage
    refine ⟨v.message_ne_empty, v.message_ne_missingMessage, fun hd => ?_⟩
    rw [name_rule hd]
    exact names_of_violation? hd (Option.mem_toList.mp hv)

/-! A padding of `auto` is made all the same, and reported once. -/

example :
    ((Builder.journal .memory).build (.length .paddingTop rfl .auto)).run {} =
      (.withValidity .paddingTop "auto" false,
        ⟨["padding-top does not accept `auto`"], []⟩) := by
  rfl

end Declaration

end UiStyle
