import UiStyle.Decimal
import UiStyle.Text.Basic
import UiStyle.Value.Basic

/-!
# Colors

A color is a hexadecimal code, three channels, three channels with an opacity, or a keyword.  Every
color has a text; whether that text is a color is what `isWellFormed` answers, by looking at the
code or the keyword.  A channel given between 0 and 1 is multiplied by 255, rounded as a number of
32 bits, and then cut off to a whole number.
-/

namespace UiStyle

/-- The channel for an intensity between 0 and 1; intensities outside of it give the nearer end,
and what is not a number gives 0. -/
def channelOfUnit (c : Binary32) : UInt8 :=
  let scaled := (c.mul (.ofNat false 255)).clamp .zero (.ofNat false 255)
  if scaled.isNaN || scaled.negative then 0
  else .ofNat (BinaryFormat.single.floor scaled.magnitude)

/-- A color. -/
inductive Color
  /-- A code in hexadecimal digits, with the `#` in front of it. -/
  | hex (code : String)
  | rgb (red green blue : UInt8)
  | rgba (red green blue : UInt8) (alpha : Binary32)
  | named (keyword : String)
  deriving DecidableEq

namespace Color

/-- The color of a hexadecimal code, which may lack the `#` or have several, in any letter case
and with white space around it. -/
def ofHex (code : String) : Color :=
  .hex (.ofList ('#' :: Text.lower ((Text.trim code.toList).dropWhile (· == '#'))))

/-- Channels with an opacity, which is moved into the interval from 0 to 1; what is not a number
gives 0. -/
def withAlpha (red green blue : UInt8) (alpha : Binary32) : Color :=
  .rgba red green blue
    (if alpha.isNaN then .zero else alpha.clamp .zero (.ofNat false 1))

/-- Channels given between 0 and 1. -/
def ofUnits (red green blue : Binary32) : Color :=
  .rgb (channelOfUnit red) (channelOfUnit green) (channelOfUnit blue)

/-- Channels given between 0 and 1, with an opacity. -/
def ofUnitsWithAlpha (red green blue alpha : Binary32) : Color :=
  withAlpha (channelOfUnit red) (channelOfUnit green) (channelOfUnit blue) alpha

/-- Whether a code is made of 3, 4, 6 or 8 hexadecimal digits behind its `#`. -/
def isHexCode (code : String) : Bool :=
  let digits := code.toList.dropWhile (· == '#')
  (Text.byteLength digits ∈ [3, 4, 6, 8]) && digits.all Text.isHexDigit

/-- Whether a keyword is made of letters, digits and hyphens, at least one of them. -/
def isKeyword (keyword : String) : Bool :=
  !keyword.toList.isEmpty && keyword.toList.all fun c => c.isAlphanum || c == '-'

/-- Whether the text of a color is one that stands for a color. -/
def isWellFormed : Color → Bool
  | .hex code => isHexCode code
  | .rgb .. | .rgba .. => true
  | .named keyword => isKeyword keyword

/-- The text of three channels. -/
def channelsText (red green blue : UInt8) : String :=
  toString red.toNat ++ ", " ++ toString green.toNat ++ ", " ++ toString blue.toNat

instance : StyleValue Color where
  text
    | .hex code => code
    | .rgb r g b => "rgb(" ++ channelsText r g b ++ ")"
    | .rgba r g b a =>
      "rgba(" ++ channelsText r g b ++ ", " ++ NumberStyle.stylesheet.text a ++ ")"
    | .named keyword => keyword

/-- Equality of colors of one form; opacities are compared as numbers. -/
def numEq : Color → Color → Bool
  | .rgba r g b a, .rgba r' g' b' a' => r == r' && g == g' && b == b' && a.numEq a'
  | x, y => x == y

end Color

end UiStyle
