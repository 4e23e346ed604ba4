import UiStyle.Decimal
import UiStyle.Value.Basic
import UiStyle.Value.Keywords

/-!
# Lengths, numbers and angles

A length is a number of pixels, a percentage or `auto`, and one to four lengths describe the edges
of a box.  A number is written without a unit; an angle has one, or is unset and written `none`.

The constructors take every binary number, and one that is not finite, or that is a negative zero,
becomes zero.  Equality is that of numbers, whereas the hashed content of a length holds the bit
pattern of its magnitude.
-/

namespace UiStyle

/-- A length with its unit, or the keyword `auto`. -/
inductive Length
  | auto
  | pixels (magnitude : Binary32)
  | percentage (magnitude : Binary32)
  deriving DecidableEq

namespace Length

/-- A length in pixels. -/
def px (magnitude : Binary32) : Length := .pixels magnitude.finiteOrZero

/-- A length relative to the parent. -/
def percent (magnitude : Binary32) : Length := .percentage magnitude.finiteOrZero

/-- No pixels. -/
def zero : Length := .pixels Binary.zero

instance : Inhabited Length := ⟨.auto⟩

/-- What is written for a length. -/
def text : Length → String
  | .auto => "auto"
  | .pixels m => NumberStyle.stylesheet.text m ++ "px"
  | .percentage m => NumberStyle.stylesheet.text m ++ "%"

instance : StyleValue Length where
  text := text
  isAuto l := l == .auto

/-- Equality of lengths, which is equality of unit and number. -/
def numEq : Length → Length → Bool
  | .auto, .auto => true
  | .pixels a, .pixels b => a.numEq b
  | .percentage a, .percentage b => a.numEq b
  | _, _ => false

/-- What a hash of a length is made of: its kind, and the bits of its magnitude if it has one. -/
def hashContent : Length → List Nat
  | .auto => [0]
  | .pixels m => [1, m.toBits]
  | .percentage m => [2, m.toBits]

end Length

/-- One to four lengths around a box, in the order of the shorthand: all edges; vertical and
horizontal; top, horizontal and bottom; top, right, bottom and left. -/
inductive Edges
  | all (length : Length)
  | axes (vertical horizontal : Length)
  | topAxisBottom (top horizontal bottom : Length)
  | each (top right bottom left : Length)
  deriving DecidableEq

namespace Edges

/-- The lengths that are written, in order. -/
def toList : Edges → List Length
  | .all a => [a]
  | .axes v h => [v, h]
  | .topAxisBottom t h b => [t, h, b]
  | .each t r b l => [t, r, b, l]

/-- Whether any of the lengths is `auto`. -/
def anyAuto (e : Edges) : Bool :=
  e.toList.any StyleValue.isAuto

instance : StyleValue Edges where
  text e := " ".intercalate (e.toList.map Length.text)
  isAuto := anyAuto

/-- Equality of edges, length by length. -/
def numEq (a b : Edges) : Bool :=
  a.toList.length == b.toList.length && (a.toList.zipWith Length.numEq b.toList).all id

/-- What a hash of edges is made of: how many lengths there are, and what theirs are made of. -/
def hashContent (e : Edges) : List Nat :=
  e.toList.length :: e.toList.flatMap Length.hashContent

end Edges

/-! ### Numbers and angles -/

/-- A number without a unit. -/
structure Number where
  value : Binary32
  deriving DecidableEq

namespace Number

/-- A number from any binary number. -/
def of (value : Binary32) : Number := ⟨value.finiteOrZero⟩

instance : StyleValue Number where
  text n := NumberStyle.stylesheet.text n.value

/-- Equality of numbers. -/
def numEq (a b : Number) : Bool := a.value.numEq b.value

end Number

/-- An angle, or none. -/
inductive Angle
  | none
  | measured (value : Binary32) (unit : AngleUnit)
  deriving DecidableEq

namespace Angle

/-- An angle in a unit. -/
def of (value : Binary32) (unit : AngleUnit) : Angle := .measured value.finiteOrZero unit

instance : Inhabited Angle := ⟨.none⟩

/-- Whether the angle is unset. -/
def isNone : Angle → Bool
  | .none => true
  | .measured _ _ => false

instance : StyleValue Angle where
  text
    | .none => "none"
    | .measured value unit => NumberStyle.stylesheet.text value ++ unit.toKeyword

/-- Equality of angles, which is equality of number and unit. -/
def numEq : Angle → Angle → Bool
  | .none, .none => true
  | .measured a u, .measured b v => a.numEq b && u == v
  | _, _ => false

end Angle

end UiStyle
