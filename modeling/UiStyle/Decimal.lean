import UiStyle.Binary

/-!
# Decimals and how they are written

A decimal is a coefficient and a power of ten.  The decimals that read back as a magnitude are those
between the midpoints to its two neighbours, ends included if the magnitude is even.  `shortest`
takes the grids of 1, 2, … digits in turn and, on the first grid that meets this interval, the point
nearer to the magnitude; what happens half way is up to the caller.  Were no grid to meet it, the
exact value would serve, so the answer always reads back.

A number is written with the fewest digits that read back as it.  What else there is to decide, a
`NumberStyle` decides: where positional notation ends, whether a whole number shows a fraction and
where ties go.  There are two: the text of a stylesheet, and the text of a manifest.
-/

namespace UiStyle

/-! ### Shortest decimals -/

/-- The number `coefficient * 10 ^ exponent`. -/
structure Decimal where
  coefficient : Nat
  exponent : Int
  deriving DecidableEq

/-- Where a value half way between two points of a grid goes. -/
inductive Tie
  | up
  | even
  deriving DecidableEq

namespace Decimal

/-- The decimal digits of a natural number, none for zero. -/
def digits (n : Nat) : List Char :=
  if n = 0 then [] else Nat.toDigits 10 n

/-- The same number with a coefficient that does not end in zero. -/
def stripZeros (d : Decimal) : Decimal :=
  if h : d.coefficient ≠ 0 ∧ d.coefficient % 10 = 0 then
    stripZeros ⟨d.coefficient / 10, d.exponent + 1⟩
  else d
  termination_by d.coefficient
  decreasing_by exact Nat.div_lt_self (Nat.pos_of_ne_zero h.1) (by decide)

/-- A power of ten as a fraction. -/
def powerOfTen (exponent : Int) : Nat × Nat :=
  if 0 ≤ exponent then (Nat.pow 10 exponent.toNat, 1) else (1, Nat.pow 10 (-exponent).toNat)

variable (f : BinaryFormat)

/-- Whether the decimal reads back as the finite magnitude `k`, that is whether it lies between the
midpoints to the neighbours of `k`; a midpoint itself reads back as the even one. -/
def readsAs (k : Nat) (d : Decimal) : Bool :=
  let (num, den) := powerOfTen d.exponent
  let value := 2 * f.unitsPerOne * d.coefficient * num
  let low := (f.units (k - 1) + f.units k) * den
  let high := (f.units k + f.units (k + 1)) * den
  if k % 2 = 0 then low ≤ value && value ≤ high else low < value && value < high

/-- The power of ten of the leading digit of a positive magnitude. -/
def leadingExponent (k : Nat) : Int :=
  if f.unitsPerOne ≤ f.units k then (digits (f.floor k)).length - 1
  else -(digits ((f.unitsPerOne - 1) / f.units k)).length

/-- The point of the grid `10 ^ exponent` that reads back as `k` and, if two neighbours of `k` on
the grid do, is the nearer. -/
def onGrid? (tie : Tie) (k : Nat) (exponent : Int) : Option Decimal :=
  let (num, den) := powerOfTen exponent
  let n := f.units k * den
  let d := f.unitsPerOne * num
  let below : Decimal := ⟨n / d, exponent⟩
  let above : Decimal := ⟨n / d + 1, exponent⟩
  let preferAbove := d < 2 * (n % d) ∨
    (2 * (n % d) = d ∧ (tie = .up ∨ below.coefficient % 2 = 1))
  match readsAs f k below, readsAs f k above with
  | true, true => some (if preferAbove then above else below)
  | true, false => some below
  | false, true => some above
  | false, false => none

/-- The exact value of a finite magnitude. -/
def exact (k : Nat) : Decimal :=
  ⟨f.units k * Nat.pow 5 (Nat.log2 f.unitsPerOne), -(Nat.log2 f.unitsPerOne : Int)⟩

/-- The decimal of fewest digits that reads back as the positive finite magnitude `k`, the nearest
such to `k` on its grid. -/
def shortest (tie : Tie) (k : Nat) : Decimal :=
  let lead := leadingExponent f k
  let found := (List.range 17).findSome? fun i => onGrid? f tie k (lead - (i : Nat))
  (found.getD (exact f k)).stripZeros

end Decimal

/-! ### Written numbers -/

/-- How a number is written. -/
structure NumberStyle where
  tie : Tie
  /-- Whether a number whose leading digit stands for this power of ten is written without an
  exponent. -/
  positional : Int → Bool
  /-- Whether a whole number in positional notation ends in `.0`. -/
  wholeFraction : Bool

namespace NumberStyle

/-- Stylesheets know no exponents, and whole numbers are bare. -/
def stylesheet : NumberStyle := ⟨.up, fun _ => true, false⟩

/-- In a manifest an exponent is written below `10 ^ -5` and from `10 ^ 16` on, and a fraction has
at least one digit. -/
def manifest : NumberStyle := ⟨.even, fun e => -5 ≤ e && e ≤ 15, true⟩

/-- Digits with a point behind the first `point` of them, and zeros where digits are missing. -/
def positionalText (style : NumberStyle) (digits : List Char) (point : Int) : List Char :=
  if point ≤ 0 then '0' :: '.' :: (List.replicate (-point).toNat '0' ++ digits)
  else if point < digits.length then
    digits.take point.toNat ++ '.' :: digits.drop point.toNat
  else
    digits ++ List.replicate (point.toNat - digits.length) '0' ++
      (if style.wholeFraction then ['.', '0'] else [])

/-- Digits with a point behind the first, if more follow, and the signed exponent of the first. -/
def exponentText (digits : List Char) (exponent : Int) : List Char :=
  digits.take 1 ++ (if digits.length ≤ 1 then [] else '.' :: digits.drop 1) ++
    'e' :: (if exponent < 0 then '-' else '+') :: Nat.toDigits 10 exponent.natAbs

/-- The text of a decimal that is not zero. -/
def decimalText (style : NumberStyle) (d : Decimal) : List Char :=
  let digits := Decimal.digits d.coefficient
  let point := digits.length + d.exponent
  if style.positional (point - 1) then style.positionalText digits point
  else exponentText digits (point - 1)

/-- The text of a number without its sign. -/
def magnitudeText (style : NumberStyle) {f : BinaryFormat} (x : Binary f) : List Char :=
  if x.isInfinite then "inf".toList
  else if x.isZero then if style.wholeFraction then "0.0".toList else "0".toList
  else style.decimalText (Decimal.shortest f style.tie x.magnitude)

/-- The text of a number. -/
def text (style : NumberStyle) {f : BinaryFormat} (x : Binary f) : String :=
  if x.isNaN then "NaN"
  else .ofList ((if x.negative then ['-'] else []) ++ style.magnitudeText x)

end NumberStyle

end UiStyle
