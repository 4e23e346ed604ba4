import UiStyle.Value.Basic

/-!
# The keyword sets of a stylesheet

Each set lists its members in the order of their declaration and names its fallback.  The origin
keywords also know the axis they address: two keywords conflict when both address the same single
axis, and `center` fits either.
-/

namespace UiStyle

/-- How a background image is scaled. -/
inductive ScaleMode
  | stretchToFill
  | scaleAndCrop
  | scaleToFit
  deriving DecidableEq

namespace ScaleMode

/-- The keyword of a member. -/
def toKeyword : ScaleMode → String
  | .stretchToFill => "stretch-to-fill"
  | .scaleAndCrop => "scale-and-crop"
  | .scaleToFit => "scale-to-fit"

instance : KeywordSet ScaleMode where
  all := [.stretchToFill, .scaleAndCrop, .scaleToFit]
  keyword := toKeyword
  fallback := .stretchToFill
  complete a := by cases a <;> decide
  distinct a b := by cases a <;> cases b <;> simp [toKeyword]
  oneWord a := by cases a <;> decide

end ScaleMode

/-- The built-in cursor icons. -/
inductive CursorIcon
  | arrow
  | text
  | resizeVertical
  | resizeHorizontal
  | link
  | slideArrow
  | resizeUpRight
  | resizeUpLeft
  | moveArrow
  | rotateArrow
  | scaleArrow
  | arrowPlus
  | arrowMinus
  | pan
  | orbit
  | zoom
  | fps
  | splitResizeUpDown
  | splitResizeLeftRight
  deriving DecidableEq

namespace CursorIcon

/-- The keyword of a member. -/
def toKeyword : CursorIcon → String
  | .arrow => "arrow"
  | .text => "text"
  | .resizeVertical => "resize-vertical"
  | .resizeHorizontal => "resize-horizontal"
  | .link => "link"
  | .slideArrow => "slide-arrow"
  | .resizeUpRight => "resize-up-right"
  | .resizeUpLeft => "resize-up-left"
  | .moveArrow => "move-arrow"
  | .rotateArrow => "rotate-arrow"
  | .scaleArrow => "scale-arrow"
  | .arrowPlus => "arrow-plus"
  | .arrowMinus => "arrow-minus"
  | .pan => "pan"
  | .orbit => "orbit"
  | .zoom => "zoom"
  | .fps => "fps"
  | .splitResizeUpDown => "split-resize-up-down"
  | .splitResizeLeftRight => "split-resize-left-right"

instance : KeywordSet CursorIcon where
  all := [.arrow, .text, .resizeVertical, .resizeHorizontal, .link, .slideArrow, .resizeUpRight,
    .resizeUpLeft, .moveArrow, .rotateArrow, .scaleArrow, .arrowPlus, .arrowMinus, .pan, .orbit,
    .zoom, .fps, .splitResizeUpDown, .splitResizeLeftRight]
  keyword := toKeyword
  fallback := .arrow
  complete a := by cases a <;> decide
  distinct a b := by cases a <;> cases b <;> simp [toKeyword]
  oneWord a := by cases a <;> decide

end CursorIcon

/-- Positioning schemes. -/
inductive Position
  | relative
  | absolute
  deriving DecidableEq

namespace Position

/-- The keyword of a member. -/
def toKeyword : Position → String
  | .relative => "relative"
  | .absolute => "absolute"

instance : KeywordSet Position where
  all := [.relative, .absolute]
  keyword := toKeyword
  fallback := .relative
  complete a := by cases a <;> decide
  distinct a b := by cases a <;> cases b <;> simp [toKeyword]
  oneWord a := by cases a <;> decide

end Position

/-- Alignment across the main axis of a flex container. -/
inductive FlexAlign
  | auto
  | flexStart
  | flexEnd
  | center
  | stretch
  deriving DecidableEq

namespace FlexAlign

/-- The keyword of a member. -/
def toKeyword : FlexAlign → String
  | .auto => "auto"
  | .flexStart => "flex-start"
  | .flexEnd => "flex-end"
  | .center => "center"
  | .stretch => "stretch"

instance : KeywordSet FlexAlign where
  all := [.auto, .flexStart, .flexEnd, .center, .stretch]
  keyword := toKeyword
  fallback := .auto
  complete a := by cases a <;> decide
  distinct a b := by cases a <;> cases b <;> simp [toKeyword]
  oneWord a := by cases a <;> decide

end FlexAlign

/-- Distribution along the main axis of a flex container. -/
inductive Justify
  | flexStart
  | flexEnd
  | center
  | spaceBetween
  | spaceAround
  deriving DecidableEq

namespace Justify

/-- The keyword of a member. -/
def toKeyword : Justify → String
  | .flexStart => "flex-start"
  | .flexEnd => "flex-end"
  | .center => "center"
  | .spaceBetween => "space-between"
  | .spaceAround => "space-around"

instance : KeywordSet Justify where
  all := [.flexStart, .flexEnd, .center, .spaceBetween, .spaceAround]
  keyword := toKeyword
  fallback := .flexStart
  complete a := by cases a <;> decide
  distinct a b := by cases a <;> cases b <;> simp [toKeyword]
  oneWord a := by cases a <;> decide

end Justify

/-- The main axis of a flex container. -/
inductive FlexDirection
  | column
  | columnReverse
  | row
  | rowReverse
  deriving DecidableEq

namespace FlexDirection

/-- The keyword of a member. -/
def toKeyword : FlexDirection → String
  | .column => "column"
  | .columnReverse => "column-reverse"
  | .row => "row"
  | .rowReverse => "row-reverse"

instance : KeywordSet FlexDirection where
  all := [.column, .columnReverse, .row, .rowReverse]
  keyword := toKeyword
  fallback := .column
  complete a := by cases a <;> decide
  distinct a b := by cases a <;> cases b <;> simp [toKeyword]
  oneWord a := by cases a <;> decide

end FlexDirection

/-- Whether a flex container breaks lines. -/
inductive FlexWrap
  | noWrap
  | wrap
  | wrapReverse
  deriving DecidableEq

namespace FlexWrap

/-- The keyword of a member. -/
def toKeyword : FlexWrap → String
  | .noWrap => "nowrap"
  | .wrap => "wrap"
  | .wrapReverse => "wrap-reverse"

instance : KeywordSet FlexWrap where
  all := [.noWrap, .wrap, .wrapReverse]
  keyword := toKeyword
  fallback := .noWrap
  complete a := by cases a <;> decide
  distinct a b := by cases a <;> cases b <;> simp [toKeyword]
  oneWord a := by cases a <;> decide

end FlexWrap

/-- Whether an element is laid out at all. -/
inductive DisplayStyle
  | flex
  | none
  deriving DecidableEq

namespace DisplayStyle

/-- The keyword of a member. -/
def toKeyword : DisplayStyle → String
  | .flex => "flex"
  | .none => "none"

instance : KeywordSet DisplayStyle where
  all := [.flex, .none]
  keyword := toKeyword
  fallback := .flex
  complete a := by cases a <;> decide
  distinct a b := by cases a <;> cases b <;> simp [toKeyword]
  oneWord a := by cases a <;> decide

end DisplayStyle

/-- Whether an element is shown. -/
inductive Visibility
  | visible
  | hidden
  deriving DecidableEq

namespace Visibility

/-- The keyword of a member. -/
def toKeyword : Visibility → String
  | .visible => "visible"
  | .hidden => "hidden"

instance : KeywordSet Visibility where
  all := [.visible, .hidden]
  keyword := toKeyword
  fallback := .visible
  complete a := by cases a <;> decide
  distinct a b := by cases a <;> cases b <;> simp [toKeyword]
  oneWord a := by cases a <;> decide

end Visibility

/-- Whether content outside of its box is shown. -/
inductive Overflow
  | visible
  | hidden
  deriving DecidableEq

namespace Overflow

/-- The keyword of a member. -/
def toKeyword : Overflow → String
  | .visible => "visible"
  | .hidden => "hidden"

instance : KeywordSet Overflow where
  all := [.visible, .hidden]
  keyword := toKeyword
  fallback := .visible
  complete a := by cases a <;> decide
  distinct a b := by cases a <;> cases b <;> simp [toKeyword]
  oneWord a := by cases a <;> decide

end Overflow

/-- Whether text breaks lines at white space. -/
inductive WhiteSpace
  | normal
  | noWrap
  deriving DecidableEq

namespace WhiteSpace

/-- The keyword of a member. -/
def toKeyword : WhiteSpace → String
  | .normal => "normal"
  | .noWrap => "nowrap"

instance : KeywordSet WhiteSpace where
  all := [.normal, .noWrap]
  keyword := toKeyword
  fallback := .normal
  complete a := by cases a <;> decide
  distinct a b := by cases a <;> cases b <;> simp [toKeyword]
  oneWord a := by cases a <;> decide

end WhiteSpace

/-- Weight and slant of a font. -/
inductive FontStyle
  | normal
  | italic
  | bold
  | boldAndItalic
  deriving DecidableEq

namespace FontStyle

/-- The keyword of a member. -/
def toKeyword : FontStyle → String
  | .normal => "normal"
  | .italic => "italic"
  | .bold => "bold"
  | .boldAndItalic => "bold-and-italic"

instance : KeywordSet FontStyle where
  all := [.normal, .italic, .bold, .boldAndItalic]
  keyword := toKeyword
  fallback := .normal
  complete a := by cases a <;> decide
  distinct a b := by cases a <;> cases b <;> simp [toKeyword]
  oneWord a := by cases a <;> decide

end FontStyle

/-- Where text is anchored in its box. -/
inductive TextAnchor
  | upperLeft
  | upperCenter
  | upperRight
  | middleLeft
  | middleCenter
  | middleRight
  | lowerLeft
  | lowerCenter
  | lowerRight
  deriving DecidableEq

namespace TextAnchor

/-- The keyword of a member. -/
def toKeyword : TextAnchor → String
  | .upperLeft => "upper-left"
  | .upperCenter => "upper-center"
  | .upperRight => "upper-right"
  | .middleLeft => "middle-left"
  | .middleCenter => "middle-center"
  | .middleRight => "middle-right"
  | .lowerLeft => "lower-left"
  | .lowerCenter => "lower-center"
  | .lowerRight => "lower-right"

instance : KeywordSet TextAnchor where
  all := [.upperLeft, .upperCenter, .upperRight, .middleLeft, .middleCenter, .middleRight,
    .lowerLeft, .lowerCenter, .lowerRight]
  keyword := toKeyword
  fallback := .upperLeft
  complete a := by cases a <;> decide
  distinct a b := by cases a <;> cases b <;> simp [toKeyword]
  oneWord a := by cases a <;> decide

end TextAnchor

/-- Keywords for the origin of a transform. -/
inductive OriginAlign
  | left
  | right
  | top
  | bottom
  | center
  deriving DecidableEq

namespace OriginAlign

/-- The keyword of a member. -/
def toKeyword : OriginAlign → String
  | .left => "left"
  | .right => "right"
  | .top => "top"
  | .bottom => "bottom"
  | .center => "center"

instance : KeywordSet OriginAlign where
  all := [.left, .right, .top, .bottom, .center]
  keyword := toKeyword
  fallback := .center
  complete a := by cases a <;> decide
  distinct a b := by cases a <;> cases b <;> simp [toKeyword]
  oneWord a := by cases a <;> decide

end OriginAlign

/-- Units of angles. -/
inductive AngleUnit
  | deg
  | grad
  | rad
  | turn
  deriving DecidableEq

namespace AngleUnit

/-- The keyword of a member. -/
def toKeyword : AngleUnit → String
  | .deg => "deg"
  | .grad => "grad"
  | .rad => "rad"
  | .turn => "turn"

instance : KeywordSet AngleUnit where
  all := [.deg, .grad, .rad, .turn]
  keyword := toKeyword
  fallback := .deg
  complete a := by cases a <;> decide
  distinct a b := by cases a <;> cases b <;> simp [toKeyword]
  oneWord a := by cases a <;> decide

end AngleUnit

/-- Interaction states that a selector can be narrowed to. -/
inductive PseudoClass
  | hover
  | active
  | inactive
  | focus
  | disabled
  | enabled
  | checked
  | root
  deriving DecidableEq

namespace PseudoClass

/-- The keyword of a member. -/
def toKeyword : PseudoClass → String
  | .hover => "hover"
  | .active => "active"
  | .inactive => "inactive"
  | .focus => "focus"
  | .disabled => "disabled"
  | .enabled => "enabled"
  | .checked => "checked"
  | .root => "root"

instance : KeywordSet PseudoClass where
  all := [.hover, .active, .inactive, .focus, .disabled, .enabled, .checked, .root]
  keyword := toKeyword
  fallback := .hover
  complete a := by cases a <;> decide
  distinct a b := by cases a <;> cases b <;> simp [toKeyword]
  oneWord a := by cases a <;> decide

end PseudoClass

/-- The axis that an origin keyword addresses. -/
inductive Axis
  | horizontal
  | vertical
  | both
  deriving DecidableEq

namespace OriginAlign

/-- The axis of a keyword. -/
def axis : OriginAlign → Axis
  | .left | .right => .horizontal
  | .top | .bottom => .vertical
  | .center => .both

/-- Whether two keywords address the same single axis. -/
def conflicts (a b : OriginAlign) : Bool :=
  a.axis == b.axis && a.axis != .both

end OriginAlign

end UiStyle
