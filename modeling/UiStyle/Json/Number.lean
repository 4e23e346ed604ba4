import UiStyle.Json.Reading
import UiStyle.Json.Value

/-!
# Reading numbers

Whole numbers that fit 64 bits are read exactly.  Any other number is computed rather than rounded:
its digits make a significand of 64 bits, a digit that no longer fits is dropped together with those
behind it, and the significand is then multiplied by, or divided by, a power of ten.  Each of these
steps rounds to nearest, and a number that ends up infinite is out of range.
-/

namespace UiStyle.Json

/-- The value of a decimal digit. -/
def digit? (b : UInt8) : Option Nat :=
  if byte '0' ≤ b && b ≤ byte '9' then some (b.toNat - 48) else none

/-- Whether some bytes start with a decimal digit. -/
def startsWithDigit : Bytes → Bool
  | [] => false
  | b :: _ => (digit? b).isSome

/-- Adds digits to a number as long as it stays below `bound`: the number, how many digits were
added, and the bytes behind them. -/
def takeDigits (bound number : Nat) : Bytes → Nat × Nat × Bytes
  | [] => (number, 0, [])
  | b :: rest =>
    match digit? b with
    | none => (number, 0, b :: rest)
    | some d =>
      if number * 10 + d < bound then
        let (n, count, later) := takeDigits bound (number * 10 + d) rest
        (n, count + 1, later)
      else (number, 0, b :: rest)

/-- Drops digits: how many there were, and the bytes behind them. -/
def dropDigits : Bytes → Nat × Bytes
  | [] => (0, [])
  | b :: rest =>
    if (digit? b).isSome then
      let (count, later) := dropDigits rest
      (count + 1, later)
    else (0, b :: rest)

theorem length_takeDigits_le (bound number : Nat) (s : Bytes) :
    (takeDigits bound number s).2.2.length ≤ s.length := by
  induction s generalizing number with
  | nil => exact Nat.le_refl _
  | cons b rest ih =>
    rw [takeDigits]
    split
    · exact Nat.le_refl _
    · split
      · exact Nat.le_succ_of_le (ih _)
      · exact Nat.le_refl _

theorem length_dropDigits_le (s : Bytes) : (dropDigits s).2.length ≤ s.length := by
  induction s with
  | nil => exact Nat.le_refl _
  | cons b rest ih =>
    rw [dropDigits]
    split
    · exact Nat.le_succ_of_le ih
    · exact Nat.le_refl _

/-- The magnitude of a significand times a power of ten, or none if it is out of range.  Powers
beyond `10 ^ 308` are divided out one after the other. -/
def scaled (magnitude : Nat) (exponent : Int) : Option Nat :=
  let f := BinaryFormat.double
  if h : exponent.natAbs ≤ 308 then
    let power := f.ofNat (Nat.pow 10 exponent.natAbs)
    if 0 ≤ exponent then
      let m := f.product magnitude power
      if m = f.infinity then none else some m
    else some (f.quotient magnitude power)
  else if magnitude = 0 then some 0
  else if 0 ≤ exponent then none
  else scaled (f.quotient magnitude (f.ofNat (Nat.pow 10 308))) (exponent + 308)
  termination_by exponent.natAbs
  decreasing_by omega

/-- The number with a significand and a power of ten, with `s` left behind it. -/
def ofParts {n : Nat} (negative : Bool) (significand : Nat) (exponent : Int) (s : Bytes)
    (h : s.length < n) : Except Fault (Left JsonNumber n) :=
  match scaled (BinaryFormat.double.ofNat significand) exponent with
  | some m =>
    .ok ⟨.float (.ofBits ((if negative then BinaryFormat.double.signBit else 0) + m)), s, h⟩
  | none => .error (.here .numberOutOfRange s)

/-- Reads what follows the mark of an exponent. -/
def exponentPart {n : Nat} (negative : Bool) (significand : Nat) (exponent : Int) (s : Bytes)
    (h : s.length < n) : Except Fault (Left JsonNumber n) :=
  let signed (minus : Bool) (s : Bytes) (h : s.length < n) : Except Fault (Left JsonNumber n) :=
    match s, h with
    | [], _ => .error (.here .endInValue [])
    | b :: rest, h =>
      match digit? b with
      | none => .error (.here .invalidNumber rest)
      | some d =>
        let taken := takeDigits (Nat.pow 2 31) d rest
        have taken_le : taken.2.2.length ≤ rest.length := length_takeDigits_le _ _ _
        if startsWithDigit taken.2.2 then
          if significand ≠ 0 ∧ !minus then .error (.here .numberOutOfRange (taken.2.2.drop 1))
          else
            have := length_dropDigits_le taken.2.2
            ofParts negative 0 0 (dropDigits taken.2.2).2
              (by simp only [List.length_cons] at h; omega)
        else
          ofParts negative significand (if minus then exponent - taken.1 else exponent + taken.1)
            taken.2.2 (by simp only [List.length_cons] at h; omega)
  match s, h with
  | [], h => signed false [] h
  | b :: rest, h =>
    if b = byte '-' then signed true rest (tail_lt h)
    else if b = byte '+' then signed false rest (tail_lt h)
    else signed false (b :: rest) h

/-- Reads the rest of a number that is no whole number of 64 bits: an exponent or nothing. -/
def floatEnd {n : Nat} (negative : Bool) (significand : Nat) (exponent : Int) (s : Bytes)
    (h : s.length < n) : Except Fault (Left JsonNumber n) :=
  match s, h with
  | [], h => ofParts negative significand exponent [] h
  | b :: rest, h =>
    if b = byte 'e' ∨ b = byte 'E' then
      exponentPart negative significand exponent rest (tail_lt h)
    else ofParts negative significand exponent (b :: rest) h

/-- Reads what follows the point of a number. -/
def fractionPart {n : Nat} (negative : Bool) (significand : Nat) (exponent : Int) (s : Bytes)
    (h : s.length < n) : Except Fault (Left JsonNumber n) :=
  let taken := takeDigits (Nat.pow 2 64) significand s
  have taken_le : taken.2.2.length ≤ s.length := length_takeDigits_le _ _ _
  if startsWithDigit taken.2.2 then
    have := length_dropDigits_le taken.2.2
    floatEnd negative taken.1 (exponent - taken.2.1) (dropDigits taken.2.2).2 (by omega)
  else if taken.2.1 = 0 then
    .error (.past (if taken.2.2.isEmpty then .endInValue else .invalidNumber) taken.2.2)
  else floatEnd negative taken.1 (exponent - taken.2.1) taken.2.2 (by omega)

/-- A whole number, unless it does not fit 64 bits. -/
def wholeNumber (negative : Bool) (significand : Nat) : JsonNumber :=
  if !negative then .natural significand
  else if significand = 0 ∨ Nat.pow 2 63 < significand then .float (.ofNat true significand)
  else .negative significand

/-- Reads what follows the whole digits of a number; `dropped` of them did not fit. -/
def numberEnd {n : Nat} (negative : Bool) (significand : Nat) (dropped : Nat) (s : Bytes)
    (h : s.length < n) : Except Fault (Left JsonNumber n) :=
  match s, h with
  | [], h =>
    if dropped = 0 then .ok ⟨wholeNumber negative significand, [], h⟩
    else ofParts negative significand dropped [] h
  | b :: rest, h =>
    if b = byte '.' then fractionPart negative significand dropped rest (tail_lt h)
    else if b = byte 'e' ∨ b = byte 'E' then
      exponentPart negative significand dropped rest (tail_lt h)
    else if dropped = 0 then .ok ⟨wholeNumber negative significand, b :: rest, h⟩
    else ofParts negative significand dropped (b :: rest) h

/-- Reads a number behind its sign. -/
def unsignedNumber {n : Nat} (negative : Bool) (s : Bytes) (h : s.length ≤ n) :
    Except Fault (Left JsonNumber n) :=
  match s, h with
  | [], _ => .error (.here .endInValue [])
  | b :: rest, h =>
    match digit? b with
    | none => .error (.here .invalidNumber rest)
    | some 0 =>
      if startsWithDigit rest then .error (.past .invalidNumber rest)
      else numberEnd negative 0 0 rest h
    | some d =>
      let taken := takeDigits (Nat.pow 2 64) d rest
      have taken_le : taken.2.2.length ≤ rest.length := length_takeDigits_le _ _ _
      have := length_dropDigits_le taken.2.2
      numberEnd negative taken.1 (dropDigits taken.2.2).1 (dropDigits taken.2.2).2
        (by simp only [List.length_cons] at h; omega)

end UiStyle.Json
