import UiStyle.Declaration
import UiStyle.Journal

/-!
# Making rules

Rules are made by a builder, which knows where to report.  Making one never fails.  What is wrong
with a declaration has two effects instead, and these are two steps: a report is sent, and the rule
is made as one that is not valid.  Declarations take one of these ways:

```text
a value that its property takes as it is     the rule and no report (`plain`)
lengths, colors, origin keywords             a check, then both steps or none (`checked`)
a custom property                            the rule, then a report if it is not valid (`custom`)
a text                                       one of the checks, or none (`text`)
```

Whatever the way, it comes to the same: what is wrong with the declaration is reported, if anything
is, and the rule is the one that `Declaration.rule` says (`build_eq`).
-/

namespace UiStyle

/-- How rules are made: what is done to report a violation. -/
structure Builder (m : Type → Type) where
  report : Violation → m Unit

namespace Builder

variable {m : Type → Type} [Monad m] (b : Builder m)

/-- A rule for a value that needs no check. -/
def plain {α : Type} [StyleValue α] (p : Property) (value : α) : m Rule :=
  return .ofValue p value

/-- A rule for a value that has been checked.  A violation is reported, and the rule is not valid
then. -/
def checked (p : Property) (value : String) (violated : Bool) (violation : Violation) :
    m Rule := do
  if violated then b.report violation
  return .withValidity p value !violated

/-- A rule for a length, or for several. -/
def lengths {α : Type} [StyleValue α] (p : Property) (value : α) : m Rule :=
  b.checked p (StyleValue.text value) (StyleValue.isAuto value && !p.acceptsAuto)
    (.autoForbidden p)

/-- A rule for a color. -/
def color (p : Property) (value : Color) : m Rule :=
  b.checked p (StyleValue.text value) (!value.isWellFormed)
    (.malformedColor p (StyleValue.text value))

/-- A rule for two origin keywords. -/
def originKeywords (first second : OriginAlign) : m Rule :=
  b.checked .transformOrigin (Declaration.keywordPair first second) (first.conflicts second)
    (.sameAxis first second)

/-- A rule for a custom property. -/
def custom (name value : String) : m Rule := do
  let made := Rule.custom name value
  if !made.valid then b.report .unnamed
  return made

/-- A rule for a value that is already written, less the white space around it. -/
def text (p : Property) (value : String) : m Rule :=
  let value := Text.trimmed value
  if !p.acceptsAuto && Declaration.mentionsAuto value then
    b.checked p value true (.autoForbidden p)
  else
    match p, Declaration.originKeywords? value with
    | .transformOrigin, some (first, second) => b.originKeywords first second
    | _, _ =>
      if p.isColor && value.toList.head? == some '#' then
        b.checked p value (!(Color.ofHex value).isWellFormed) (.malformedColor p value)
      else return .new p value

/-- The rule of a declaration. -/
def build : Declaration → m Rule
  | .color p _ v => b.color p v
  | .asset p _ v => plain p v
  | .edges p _ v => b.lengths p v
  | .length p _ v => b.lengths p v
  | .number p _ v => plain p (Number.of v)
  | .pixels p _ v => return .new p (toString v.toInt)
  | .alignment p _ v => plain p v
  | .noBackgroundImage => return .new .backgroundImage "none"
  | .backgroundScaleMode v => plain .backgroundScaleMode v
  | .fontStyle v => plain .fontStyle v
  | .textAlign v => plain .textAlign v
  | .whiteSpace v => plain .whiteSpace v
  | .position v => plain .position v
  | .display v => plain .display v
  | .flexDirection v => plain .flexDirection v
  | .flexWrap v => plain .flexWrap v
  | .justifyContent v => plain .justifyContent v
  | .cursor icon => plain .cursor icon
  | .cursorImage image x y =>
    return .new .cursor (StyleValue.text image ++ " " ++ toString x.toInt ++ " " ++
      toString y.toInt)
  | .overflow v => plain .overflow v
  | .visibility v => plain .visibility v
  | .rotate angle => plain .rotate angle
  | .scale x y =>
    return .new .scale (StyleValue.text (Number.of x) ++ " " ++ StyleValue.text (Number.of y))
  | .noScale => return .new .scale "none"
  | .translate x y => b.lengths .translate (Edges.axes x y)
  | .transformOrigin x y => b.lengths .transformOrigin (Edges.axes x y)
  | .originKeywords first second => b.originKeywords first second
  | .custom name value => b.custom name value
  | .text p value => b.text p value

/-- Builds rules and reports to a sink of a journal. -/
def journal (sink : Sink) : Builder (StateM Journal) where
  report v := modify (Journal.report sink (some v.message))

/-! ### What building comes to -/

/-- A report of what was found, if anything was, and then a rule. -/
def conclude (found : Option Violation) (made : Rule) : m Rule := do
  found.forM b.report
  return made

variable [LawfulMonad m]

theorem conclude_none (made : Rule) : b.conclude none made = pure made :=
  pure_bind _ _

theorem checked_eq (p : Property) (value : String) (violated : Bool) (v : Violation) :
    b.checked p value violated v =
      b.conclude (if violated then some v else none)
        (.withValidity p value (if violated then some v else none).isNone) := by
  cases violated <;> simp [checked, conclude, Option.forM]

theorem lengths_eq {α : Type} [StyleValue α] (p : Property) (value : α) :
    b.lengths p value =
      b.conclude (Declaration.autoViolation p value)
        (.withValidity p (StyleValue.text value) (Declaration.autoViolation p value).isNone) :=
  b.checked_eq ..

theorem originKeywords_eq (first second : OriginAlign) :
    b.originKeywords first second =
      b.conclude (Declaration.axisViolation first second)
        (.withValidity .transformOrigin (Declaration.keywordPair first second)
          (Declaration.axisViolation first second).isNone) :=
  b.checked_eq ..

/-- A color is wrong for a property if it is not well formed. -/
theorem colorViolation_eq (p : Property) (color : Color) (text : String) :
    Declaration.colorViolation p color text =
      if !color.isWellFormed then some (.malformedColor p text) else none := by
  unfold Declaration.colorViolation
  cases color.isWellFormed <;> rfl

theorem checked_color_eq (p : Property) (color : Color) (text : String) :
    b.checked p text (!color.isWellFormed) (.malformedColor p text) =
      b.conclude (Declaration.colorViolation p color text)
        (.withValidity p text (Declaration.colorViolation p color text).isNone) := by
  rw [colorViolation_eq]
  exact b.checked_eq ..

theorem custom_eq (name value : String) :
    b.custom name value =
      b.conclude (if (Rule.custom name value).valid then none else some .unnamed)
        (.custom name value) := by
  cases hvalid : (Rule.custom name value).valid <;> simp [custom, conclude, Option.forM, hvalid]

/-- The checks of a text come in the same order as what can be wrong with it. -/
theorem text_eq (p : Property) (value : String) :
    b.text p value =
      b.conclude (Declaration.textViolation p (Text.trimmed value))
        (.withValidity p (Declaration.textValue p (Text.trimmed value))
          (Declaration.textViolation p (Text.trimmed value)).isNone) := by
  unfold text
  generalize Text.trimmed value = written
  by_cases hauto : (!p.acceptsAuto && Declaration.mentionsAuto written) = true
  · simp only [Declaration.textViolation, Declaration.textValue, hauto, if_true]
    exact b.checked_eq p written true (.autoForbidden p)
  · simp only [hauto, Bool.false_eq_true, if_false]
    split
    · rename_i first second horigin
      simp only [Declaration.textViolation, Declaration.textValue, hauto, horigin,
        Bool.false_eq_true, if_false]
      exact b.originKeywords_eq first second
    · rename_i hother
      -- no pair of keywords for the origin: these equations are those of any other text
      rw [Declaration.textViolation.eq_2 written _ hother,
        Declaration.textValue.eq_2 written _ hother, if_neg hauto, if_neg hauto]
      split
      · exact b.checked_color_eq _ (.ofHex written) written
      · exact (b.conclude_none _).symm

/-- Building reports what is wrong with a declaration, if anything is, and gives its rule. -/
theorem build_eq (d : Declaration) : b.build d = b.conclude d.violation? d.rule := by
  cases d with
  | color p form value => exact b.checked_color_eq ..
  | edges p form value => exact b.lengths_eq ..
  | length p form value => exact b.lengths_eq ..
  | translate x y => exact b.lengths_eq ..
  | transformOrigin x y => exact b.lengths_eq ..
  | originKeywords first second => exact b.originKeywords_eq first second
  | custom name value => exact b.custom_eq name value
  | text p value => exact b.text_eq p value
  | _ => exact (b.conclude_none _).symm

end Builder

end UiStyle
