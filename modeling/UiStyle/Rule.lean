import UiStyle.Text.Basic
import UiStyle.Value.Basic

/-!
# Properties and rules

The registry of supported properties comes in the order in which they are declared, with custom
properties last.  `Property.name` is the only source of property names: `ofName?` finds a registered
property by exactly its name, and takes every name behind two hyphens for a custom property.

A rule is a name, a value that is already text, and a verdict.  The verdict never shows in the text
of a rule.  The name of a registered property comes from the registry; a custom property brings its
own, which is trimmed, freed of every mark it starts with and marked once.
-/

namespace UiStyle

/-! ### Properties -/

/-- A supported property. -/
inductive Property
  | backgroundColor
  | backgroundImage
  | backgroundScaleMode
  | backgroundImageTint
  | borderColor
  | borderWidth
  | borderRadius
  | color
  | fontSize
  | font
  | fontStyle
  | textAlign
  | whiteSpace
  | margin
  | marginTop
  | marginRight
  | marginBottom
  | marginLeft
  | padding
  | paddingTop
  | paddingRight
  | paddingBottom
  | paddingLeft
  | width
  | height
  | minWidth
  | minHeight
  | maxWidth
  | maxHeight
  | position
  | top
  | right
  | bottom
  | left
  | display
  | flexDirection
  | flexWrap
  | flexGrow
  | flexShrink
  | flexBasis
  | alignItems
  | alignSelf
  | alignContent
  | justifyContent
  | cursor
  | opacity
  | overflow
  | visibility
  | rotate
  | scale
  | translate
  | transformOrigin
  | sliceTop
  | sliceLeft
  | sliceRight
  | sliceBottom
  | sliceScale
  /-- A property that its rule names. -/
  | custom
  deriving DecidableEq

/-- What a property takes, where several take the same. -/
inductive ValueForm
  | color
  | asset
  | edges
  | length
  | number
  | pixels
  | alignment
  /-- A form that no other property has. -/
  | own
  deriving DecidableEq

namespace Property

/-- What the name of every custom property starts with. -/
def customMark : String := "--"

/-- The registered properties in the order of their declaration. -/
def registered : List Property :=
  [.backgroundColor, .backgroundImage, .backgroundScaleMode, .backgroundImageTint, .borderColor,
   .borderWidth, .borderRadius, .color, .fontSize, .font, .fontStyle, .textAlign, .whiteSpace,
   .margin, .marginTop, .marginRight, .marginBottom, .marginLeft, .padding, .paddingTop,
   .paddingRight, .paddingBottom, .paddingLeft, .width, .height, .minWidth, .minHeight,
   .maxWidth, .maxHeight, .position, .top, .right, .bottom, .left, .display, .flexDirection,
   .flexWrap, .flexGrow, .flexShrink, .flexBasis, .alignItems, .alignSelf, .alignContent,
   .justifyContent, .cursor, .opacity, .overflow, .visibility, .rotate, .scale, .translate,
   .transformOrigin, .sliceTop, .sliceLeft, .sliceRight, .sliceBottom, .sliceScale]

/-- The name of a property; a custom property has only the mark of its kind. -/
def name : Property → String
  | .backgroundColor => "background-color"
  | .backgroundImage => "background-image"
  | .backgroundScaleMode => "-unity-background-scale-mode"
  | .backgroundImageTint => "-unity-background-image-tint-color"
  | .borderColor => "border-color"
  | .borderWidth => "border-width"
  | .borderRadius => "border-radius"
  | .color => "color"
  | .fontSize => "font-size"
  | .font => "-unity-font"
  | .fontStyle => "-unity-font-style"
  | .textAlign => "-unity-text-align"
  | .whiteSpace => "white-space"
  | .margin => "margin"
  | .marginTop => "margin-top"
  | .marginRight => "margin-right"
  | .marginBottom => "margin-bottom"
  | .marginLeft => "margin-left"
  | .padding => "padding"
  | .paddingTop => "padding-top"
  | .paddingRight => "padding-right"
  | .paddingBottom => "padding-bottom"
  | .paddingLeft => "padding-left"
  | .width => "width"
  | .height => "height"
  | .minWidth => "min-width"
  | .minHeight => "min-height"
  | .maxWidth => "max-width"
  | .maxHeight => "max-height"
  | .position => "position"
  | .top => "top"
  | .right => "right"
  | .bottom => "bottom"
  | .left => "left"
  | .display => "display"
  | .flexDirection => "flex-direction"
  | .flexWrap => "flex-wrap"
  | .flexGrow => "flex-grow"
  | .flexShrink => "flex-shrink"
  | .flexBasis => "flex-basis"
  | .alignItems => "align-items"
  | .alignSelf => "align-self"
  | .alignContent => "align-content"
  | .justifyContent => "justify-content"
  | .cursor => "cursor"
  | .opacity => "opacity"
  | .overflow => "overflow"
  | .visibility => "visibility"
  | .rotate => "rotate"
  | .scale => "scale"
  | .translate => "translate"
  | .transformOrigin => "transform-origin"
  | .sliceTop => "-unity-slice-top"
  | .sliceLeft => "-unity-slice-left"
  | .sliceRight => "-unity-slice-right"
  | .sliceBottom => "-unity-slice-bottom"
  | .sliceScale => "-unity-slice-scale"
  | .custom => customMark

/-- Whether a name is one of a custom property. -/
def isCustomName (s : String) : Bool :=
  customMark.toList.isPrefixOf s.toList

/-- The property of a name. -/
def ofName? (s : String) : Option Property :=
  (registered.find? fun p => p.name == s) <|> if isCustomName s then some .custom else none

/-- The place of a property in the registry; custom properties come last. -/
def rank (p : Property) : Nat := registered.idxOf p

/-- Properties are ordered as they are declared. -/
instance : Ord Property where
  compare p q := compare p.rank q.rank

/-- What a property takes. -/
def form : Property → ValueForm
  | .backgroundColor | .backgroundImageTint | .borderColor | .color => .color
  | .backgroundImage | .font => .asset
  | .borderWidth | .borderRadius | .margin | .padding => .edges
  | .fontSize | .marginTop | .marginRight | .marginBottom | .marginLeft | .paddingTop |
    .paddingRight | .paddingBottom | .paddingLeft | .width | .height | .minWidth | .minHeight |
    .maxWidth | .maxHeight | .top | .right | .bottom | .left | .flexBasis | .sliceScale =>
    .length
  | .flexGrow | .flexShrink | .opacity => .number
  | .sliceTop | .sliceLeft | .sliceRight | .sliceBottom => .pixels
  | .alignItems | .alignSelf | .alignContent => .alignment
  | _ => .own

/-- Whether a property may be the keyword `auto` or hold it. -/
def acceptsAuto : Property → Bool
  | .padding | .paddingTop | .paddingRight | .paddingBottom | .paddingLeft | .sliceScale
  | .transformOrigin => false
  | _ => true

/-- Whether a property takes a color. -/
def isColor (p : Property) : Bool := p.form == .color

theorem mem_registered {p : Property} (h : p ≠ .custom) : p ∈ registered := by
  cases p <;> first | decide | exact absurd rfl h

end Property

/-! ### Rules -/

/-- One declaration `name: value;` together with the verdict on it. -/
structure Rule where
  name : String
  property : Property
  value : String
  valid : Bool
  deriving DecidableEq

namespace Rule

/-- A rule for a property, with a verdict. -/
def withValidity (property : Property) (value : String) (valid : Bool) : Rule :=
  ⟨property.name, property, value, valid⟩

/-- A valid rule for a property. -/
def new (property : Property) (value : String) : Rule :=
  withValidity property value true

/-- A valid rule for a property and a value of any type. -/
def ofValue {α : Type} [StyleValue α] (property : Property) (value : α) : Rule :=
  new property (StyleValue.text value)

/-- A name without the marks of custom properties that it starts with. -/
def stripMarks : List Char → List Char
  | '-' :: '-' :: rest => stripMarks rest
  | cs => cs

/-- A rule for a custom property.  It is invalid if nothing is left of its name. -/
def custom (name : String) (value : String) : Rule :=
  let bare := stripMarks (Text.trim name.toList)
  ⟨Property.customMark ++ .ofList bare, .custom, value, !bare.isEmpty⟩

/-- The text of a rule. -/
def text (r : Rule) : String :=
  r.name ++ ": " ++ r.value ++ ";"

/-- The text of a rule behind `indent` spaces. -/
def indented (r : Rule) (indent : Nat) : String :=
  .ofList (List.replicate indent ' ') ++ r.text

instance : ToString Rule := ⟨text⟩

end Rule

end UiStyle
