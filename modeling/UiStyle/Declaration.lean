import UiStyle.Rule
import UiStyle.Value.Basic
import UiStyle.Value.Color
import UiStyle.Value.Measure

/-!
# Declarations

A declaration pairs a property with a value that it takes.  Every declaration makes a rule: a value
that its property does not allow makes an invalid rule, and the violation is what there is to report
about it.  `Declaration.text` declares a value that was written elsewhere, and the same checks apply
to it: the keyword `auto` is looked for among its words in any letter case, two origin keywords must
not address one axis, and text that starts as a hexadecimal code must be one.
-/

namespace UiStyle

/-- What can be wrong with a declaration. -/
inductive Violation
  | autoForbidden (property : Property)
  | malformedColor (property : Property) (value : String)
  | sameAxis (first second : OriginAlign)
  | unnamed
  deriving DecidableEq

namespace Violation

/-- The text of a report. -/
def message : Violation → String
  | .autoForbidden p => p.name ++ " does not accept `auto`"
  | .malformedColor p value => p.name ++ " has a malformed color `" ++ value ++ "`"
  | .sameAxis first second =>
    Property.transformOrigin.name ++ " keywords `" ++ first.toKeyword ++ "` and `" ++
      second.toKeyword ++ "` address the same axis"
  | .unnamed => "custom property declared without a name"

end Violation

/-- A property with a value that it takes. -/
inductive Declaration
  | color (property : Property) (form : property.form = .color) (value : Color)
  | asset (property : Property) (form : property.form = .asset) (value : Asset)
  | edges (property : Property) (form : property.form = .edges) (value : Edges)
  | length (property : Property) (form : property.form = .length) (value : Length)
  | number (property : Property) (form : property.form = .number) (value : Binary32)
  | pixels (property : Property) (form : property.form = .pixels) (value : Int32)
  | alignment (property : Property) (form : property.form = .alignment) (value : FlexAlign)
  | noBackgroundImage
  | backgroundScaleMode (value : ScaleMode)
  | fontStyle (value : FontStyle)
  | textAlign (value : TextAnchor)
  | whiteSpace (value : WhiteSpace)
  | position (value : Position)
  | display (value : DisplayStyle)
  | flexDirection (value : FlexDirection)
  | flexWrap (value : FlexWrap)
  | justifyContent (value : Justify)
  | cursor (icon : CursorIcon)
  /-- A cursor of one's own, with its hotspot. -/
  | cursorImage (image : Asset) (x y : Int32)
  | overflow (value : Overflow)
  | visibility (value : Visibility)
  | rotate (angle : Angle)
  | scale (x y : Binary32)
  | noScale
  | translate (x y : Length)
  | transformOrigin (x y : Length)
  | originKeywords (first second : OriginAlign)
  /-- A custom property, its value already written. -/
  | custom (name value : String)
  /-- Any property, its value already written. -/
  | text (property : Property) (value : String)

namespace Declaration

/-- A scale along the horizontal axis. -/
def scaleX (x : Binary32) : Declaration := .scale x (.ofNat false 1)

/-- A scale along the vertical axis. -/
def scaleY (y : Binary32) : Declaration := .scale (.ofNat false 1) y

/-- A shift along the horizontal axis. -/
def translateX (x : Length) : Declaration := .translate x .zero

/-- A shift along the vertical axis. -/
def translateY (y : Length) : Declaration := .translate .zero y

/-- The property that is declared. -/
def property : Declaration → Property
  | .color p .. | .asset p .. | .edges p .. | .length p .. | .number p .. | .pixels p ..
  | .alignment p .. | .text p _ => p
  | .noBackgroundImage => .backgroundImage
  | .backgroundScaleMode _ => .backgroundScaleMode
  | .fontStyle _ => .fontStyle
  | .textAlign _ => .textAlign
  | .whiteSpace _ => .whiteSpace
  | .position _ => .position
  | .display _ => .display
  | .flexDirection _ => .flexDirection
  | .flexWrap _ => .flexWrap
  | .justifyContent _ => .justifyContent
  | .cursor _ | .cursorImage .. => .cursor
  | .overflow _ => .overflow
  | .visibility _ => .visibility
  | .rotate _ => .rotate
  | .scale .. | .noScale => .scale
  | .translate .. => .translate
  | .transformOrigin .. | .originKeywords .. => .transformOrigin
  | .custom .. => .custom

/-- The two origin keywords that a text consists of, if it does. -/
def originKeywords? (value : String) : Option (OriginAlign × OriginAlign) :=
  match Text.words value.toList with
  | [first, second] => do
    return (← KeywordSet.ofKeyword? (.ofList first), ← KeywordSet.ofKeyword? (.ofList second))
  | _ => none

/-- Two keywords behind each other. -/
def keywordPair (first second : OriginAlign) : String :=
  first.toKeyword ++ " " ++ second.toKeyword

/-- Whether one of the words of a text is the keyword `auto`, in any letter case. -/
def mentionsAuto (value : String) : Bool :=
  (Text.words value.toList).any (Text.sameIgnoringCase "auto".toList)

/-- What is wrong with a length, or with several, for a property. -/
def autoViolation {α : Type} [StyleValue α] (p : Property) (value : α) : Option Violation :=
  if StyleValue.isAuto value && !p.acceptsAuto then some (.autoForbidden p) else none

/-- What is wrong with two origin keywords. -/
def axisViolation (first second : OriginAlign) : Option Violation :=
  if first.conflicts second then some (.sameAxis first second) else none

/-- What is wrong with a color, whose text is given, for a property. -/
def colorViolation (p : Property) (color : Color) (text : String) : Option Violation :=
  if color.isWellFormed then none else some (.malformedColor p text)

/-- What is wrong with a trimmed text for a property. -/
def textViolation (p : Property) (value : String) : Option Violation :=
  if !p.acceptsAuto && mentionsAuto value then some (.autoForbidden p)
  else
    match p, originKeywords? value with
    | .transformOrigin, some (first, second) => axisViolation first second
    | _, _ =>
      if p.isColor && value.toList.head? == some '#' then
        colorViolation p (.ofHex value) value
      else none

/-- What a trimmed text is written as: two origin keywords with one space between them, and any
other text as it is. -/
def textValue (p : Property) (value : String) : String :=
  if !p.acceptsAuto && mentionsAuto value then value
  else
    match p, originKeywords? value with
    | .transformOrigin, some (first, second) => keywordPair first second
    | _, _ => value

/-- What is written for the value. -/
def valueText : Declaration → String
  | .color _ _ v => StyleValue.text v
  | .asset _ _ v => StyleValue.text v
  | .edges _ _ v => StyleValue.text v
  | .length _ _ v => StyleValue.text v
  | .number _ _ v => StyleValue.text (Number.of v)
  | .pixels _ _ v => toString v.toInt
  | .alignment _ _ v => StyleValue.text v
  | .noBackgroundImage => "none"
  | .backgroundScaleMode v => StyleValue.text v
  | .fontStyle v => StyleValue.text v
  | .textAlign v => StyleValue.text v
  | .whiteSpace v => StyleValue.text v
  | .position v => StyleValue.text v
  | .display v => StyleValue.text v
  | .flexDirection v => StyleValue.text v
  | .flexWrap v => StyleValue.text v
  | .justifyContent v => StyleValue.text v
  | .cursor icon => StyleValue.text icon
  | .cursorImage image x y =>
    StyleValue.text image ++ " " ++ toString x.toInt ++ " " ++ toString y.toInt
  | .overflow v => StyleValue.text v
  | .visibility v => StyleValue.text v
  | .rotate angle => StyleValue.text angle
  | .scale x y => StyleValue.text (Number.of x) ++ " " ++ StyleValue.text (Number.of y)
  | .noScale => "none"
  | .translate x y => StyleValue.text (Edges.axes x y)
  | .transformOrigin x y => StyleValue.text (Edges.axes x y)
  | .originKeywords first second => keywordPair first second
  | .custom _ value => value
  | .text p value => textValue p (Text.trimmed value)

/-- What is wrong with a declaration, if anything is. -/
def violation? : Declaration → Option Violation
  | .color p _ v => colorViolation p v (StyleValue.text v)
  | .edges p _ v => autoViolation p v
  | .length p _ v => autoViolation p v
  | .translate x y => autoViolation .translate (Edges.axes x y)
  | .transformOrigin x y => autoViolation .transformOrigin (Edges.axes x y)
  | .originKeywords first second => axisViolation first second
  | .custom name value => if (Rule.custom name value).valid then none else some .unnamed
  | .text p value => textViolation p (Text.trimmed value)
  | _ => none

/-- The rule that a declaration makes. -/
def rule (d : Declaration) : Rule :=
  match d with
  | .custom name value => .custom name value
  | d => .withValidity d.property d.valueText d.violation?.isNone

end Declaration

end UiStyle
