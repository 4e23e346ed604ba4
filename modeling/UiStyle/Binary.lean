/-!
# Binary floating-point numbers

A format has a number of significant binary digits and a width of the exponent field.  A magnitude,
that is a number without its sign, is a natural number: the exponent field followed by the stored
digits of the significand.  The finite magnitudes come first and in order of their size, then
infinity, then those that are not numbers.

Every finite magnitude is a whole number of *units*, a unit being the least positive number of the
format.  So rounding is a matter of natural numbers: `nearest` takes a fraction of units to the
magnitude nearest to it, a tie going to the even one, and an exact product or quotient is rounded
only once.

A number of a format is a sign and a magnitude.  Comparison is that of numbers: the two zeros are
equal although they differ, and what is not a number neither equals nor precedes anything.  A format
of `w` bits has exactly the `2 ^ w` numbers that `ofBits` reads off their bit patterns.
-/

namespace UiStyle

/-! ### Formats -/

/-- A binary interchange format: how many binary digits a significand has, and how many its
exponent field. -/
structure BinaryFormat where
  precision : Nat
  exponentWidth : Nat
  deriving DecidableEq

namespace BinaryFormat

/-- The format of 32 bits. -/
def single : BinaryFormat := ⟨24, 8⟩

/-- The format of 64 bits. -/
def double : BinaryFormat := ⟨53, 11⟩

variable (f : BinaryFormat)

/-- The least magnitude whose significand has all its digits: from here on each step of the
exponent field spans this many magnitudes. -/
def normal : Nat := Nat.pow 2 (f.precision - 1)

/-- The magnitude of infinity. -/
def infinity : Nat := (Nat.pow 2 f.exponentWidth - 1) * f.normal

/-- The number of magnitudes, which is also the weight of the sign bit. -/
def signBit : Nat := Nat.pow 2 f.exponentWidth * f.normal

/-- How many units make one. -/
def unitsPerOne : Nat := Nat.pow 2 (Nat.pow 2 (f.exponentWidth - 1) + f.precision - 3)

/-- The size of a magnitude in units. -/
def units (k : Nat) : Nat :=
  if k < f.normal then k else (f.normal + k % f.normal) * Nat.pow 2 (k / f.normal - 1)

/-- The quotient `n / d` rounded to the nearest natural number, a tie to the even one. -/
def roundHalfEven (n d : Nat) : Nat :=
  if 2 * (n % d) < d ∨ (2 * (n % d) = d ∧ n / d % 2 = 0) then n / d else n / d + 1

/-- The magnitude nearest to `n / d` units, a tie going to the even one; infinity from half a step
beyond the largest finite magnitude on. -/
def nearest (n d : Nat) : Nat :=
  let shift := Nat.log2 (n / d) - (f.precision - 1)
  min (shift * f.normal + roundHalfEven n (d * Nat.pow 2 shift)) f.infinity

/-- The magnitude nearest to a natural number. -/
def ofNat (n : Nat) : Nat :=
  f.nearest (n * f.unitsPerOne) 1

/-- The magnitude nearest to the product of two finite ones. -/
def product (a b : Nat) : Nat :=
  f.nearest (f.units a * f.units b) f.unitsPerOne

/-- The magnitude nearest to the quotient of two finite ones. -/
def quotient (a b : Nat) : Nat :=
  f.nearest (f.units a * f.unitsPerOne) (f.units b)

/-- The integer part of a finite magnitude. -/
def floor (k : Nat) : Nat :=
  f.units k / f.unitsPerOne

theorem normal_pos : 0 < f.normal := Nat.two_pow_pos _

theorem infinity_lt_signBit : f.infinity < f.signBit :=
  Nat.mul_lt_mul_of_pos_right (Nat.sub_lt (Nat.two_pow_pos f.exponentWidth) Nat.zero_lt_one)
    f.normal_pos

theorem signBit_pos : 0 < f.signBit :=
  Nat.lt_of_le_of_lt (Nat.zero_le _) f.infinity_lt_signBit

theorem nearest_le_infinity (n d : Nat) : f.nearest n d ≤ f.infinity :=
  Nat.min_le_right _ _

end BinaryFormat

/-! ### Numbers -/

/-- A number of the format `f`, or what stands for none. -/
structure Binary (f : BinaryFormat) where
  negative : Bool
  magnitude : Nat
  inRange : magnitude < f.signBit
  deriving DecidableEq

/-- The numbers that values of a stylesheet are made of. -/
abbrev Binary32 := Binary .single

/-- The numbers that a manifest is read in. -/
abbrev Binary64 := Binary .double

namespace Binary

variable {f g : BinaryFormat}

/-- The number with a given bit pattern; bits beyond the format's width do not count. -/
def ofBits (n : Nat) : Binary f where
  negative := n / f.signBit % 2 == 1
  magnitude := n % f.signBit
  inRange := Nat.mod_lt _ f.signBit_pos

/-- The bit pattern of a number. -/
def toBits (x : Binary f) : Nat :=
  (if x.negative then f.signBit else 0) + x.magnitude

/-- The number nearest to `n / d` units, with a sign. -/
def rounded (negative : Bool) (n d : Nat) : Binary f where
  negative := negative
  magnitude := f.nearest n d
  inRange := Nat.lt_of_le_of_lt (f.nearest_le_infinity n d) f.infinity_lt_signBit

/-- The number nearest to a natural number, with a sign. -/
def ofNat (negative : Bool) (n : Nat) : Binary f :=
  rounded negative (n * f.unitsPerOne) 1

/-- Infinity with a sign. -/
def infinite (negative : Bool) : Binary f :=
  ⟨negative, f.infinity, f.infinity_lt_signBit⟩

/-- The positive zero. -/
def zero : Binary f := ⟨false, 0, f.signBit_pos⟩

instance : Inhabited (Binary f) := ⟨zero⟩

/-- What stands for no number, with the quiet bit set. -/
def nan : Binary f := ofBits (f.infinity + f.normal / 2)

def isNaN (x : Binary f) : Bool := f.infinity < x.magnitude

def isInfinite (x : Binary f) : Bool := x.magnitude == f.infinity

def isFinite (x : Binary f) : Bool := x.magnitude < f.infinity

def isZero (x : Binary f) : Bool := x.magnitude == 0

/-- Where a number stands in the order of its format; both zeros stand at zero. -/
def rank (x : Binary f) : Int :=
  if x.negative then -x.magnitude else x.magnitude

/-- Equality of numbers: the zeros are equal, and what is not a number equals nothing. -/
def numEq (x y : Binary f) : Bool :=
  !x.isNaN && !y.isNaN && x.rank == y.rank

/-- The order of numbers, in which what is not a number precedes and follows nothing. -/
def numLt (x y : Binary f) : Bool :=
  !x.isNaN && !y.isNaN && decide (x.rank < y.rank)

/-- A number moved to the nearer end of an interval it lies outside of; everything else, the
negative zero and what is not a number included, stays as it is. -/
def clamp (x low high : Binary f) : Binary f :=
  if x.numLt low then low else if high.numLt x then high else x

/-- The number itself if it is finite and not zero, and the positive zero otherwise. -/
def finiteOrZero (x : Binary f) : Binary f :=
  if x.isFinite && !x.isZero then x else zero

/-- The product of two numbers, rounded to nearest. -/
def mul (x y : Binary f) : Binary f :=
  let negative := x.negative != y.negative
  if x.isNaN || y.isNaN || (x.isInfinite && y.isZero) || (x.isZero && y.isInfinite) then nan
  else if x.isInfinite || y.isInfinite then infinite negative
  else rounded negative (f.units x.magnitude * f.units y.magnitude) f.unitsPerOne

/-- The number of another format nearest to a given one. -/
def convert (x : Binary f) : Binary g :=
  if x.isNaN then nan
  else if x.isInfinite then infinite x.negative
  else rounded x.negative (f.units x.magnitude * g.unitsPerOne) f.unitsPerOne

example : (ofBits 0x3f800000 : Binary32) = ofNat false 1 := by decide +kernel

example : ((ofBits 0x80000000 : Binary32).numEq zero) = true := by decide

end Binary

end UiStyle
