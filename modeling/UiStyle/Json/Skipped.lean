import UiStyle.Json.Reader

/-!
# Skipping values

The value of a field that nobody asked for is passed over.  It has to be well formed, but no more:
brackets may nest without limit, numbers may be out of range and surrogates stand alone.  Instead of
recursion there is a stack of the brackets that are open, and every turn takes at least one byte.
-/

namespace UiStyle.Json

/-- An open bracket. -/
inductive Bracket
  | list
  | object
  deriving DecidableEq

namespace Bracket

/-- The bracket that a byte opens. -/
def ofOpening? (b : UInt8) : Option Bracket :=
  if b = byte '[' then some .list else if b = byte '\x7b' then some .object else none

def closing : Bracket → UInt8
  | .list => byte ']'
  | .object => byte '\x7d'

/-- What is wrong where the input ends inside this bracket. -/
def atEnd : Bracket → Reason
  | .list => .endInList
  | .object => .endInObject

/-- What is wrong where neither a comma nor the closing bracket follows. -/
def expectedComma : Bracket → Reason
  | .list => .expectedListComma
  | .object => .expectedObjectComma

end Bracket

/-- Passes over a string behind its opening quote. -/
def skipString {n : Nat} : (s : Bytes) → s.length < n → Except Fault (Left Unit n)
  | [], _ => .error (.here .endInString [])
  | b :: rest, h =>
    if b = byte '"' then .ok ⟨(), rest, tail_lt h⟩
    else if b = byte '\\' then
      match rest, h with
      | [], _ => .error (.here .endInString [])
      | c :: later, h =>
        if (simpleEscape? c).isSome then
          skipString later (Nat.lt_of_succ_lt (tail_lt h))
        else if c = byte 'u' then
          match hexEscape later (Nat.lt_succ_self _) with
          | .error e => .error e
          | .ok code => skipString code.rest (Nat.lt_of_lt_of_le code.lt (Nat.le_of_lt (tail_lt h)))
        else .error (.here .invalidEscape later)
    else if b < 0x20 then .error (.here .controlCharacter (b :: rest))
    else skipString rest (tail_lt h)
  termination_by s => s.length
  decreasing_by
  · exact Nat.lt_succ_of_lt (Nat.lt_succ_self _)
  · exact Nat.lt_trans code.lt (Nat.lt_succ_self _)
  · exact Nat.lt_succ_self _

/-- Passes over the digits of a number, of which at least one has to be there; a missing one is a
fault behind the byte in its place. -/
def skipSomeDigits {n : Nat} (s : Bytes) (h : s.length < n) : Except Fault (Left Unit n) :=
  if startsWithDigit s then
    .ok ⟨(), (dropDigits s).2, Nat.lt_of_le_of_lt (length_dropDigits_le s) h⟩
  else .error (.past .invalidNumber s)

/-- Passes over what follows the mark of an exponent. -/
def skipExponent {n : Nat} (s : Bytes) (h : s.length < n) : Except Fault (Left Unit n) :=
  match s, h with
  | [], h => skipSomeDigits [] h
  | b :: rest, h =>
    if b = byte '-' ∨ b = byte '+' then skipSomeDigits rest (tail_lt h)
    else skipSomeDigits (b :: rest) h

/-- Passes over an exponent, if there is one. -/
def skipFloatEnd {n : Nat} (s : Bytes) (h : s.length < n) : Except Fault (Left Unit n) :=
  match s, h with
  | [], h => .ok ⟨(), [], h⟩
  | b :: rest, h =>
    if b = byte 'e' ∨ b = byte 'E' then skipExponent rest (tail_lt h)
    else .ok ⟨(), b :: rest, h⟩

/-- Passes over what follows the whole digits of a number. -/
def skipNumberEnd {n : Nat} (s : Bytes) (h : s.length < n) : Except Fault (Left Unit n) :=
  match s, h with
  | [], h => .ok ⟨(), [], h⟩
  | b :: rest, h =>
    if b = byte '.' then do
      let fraction ← skipSomeDigits rest (tail_lt h)
      skipFloatEnd fraction.rest fraction.lt
    else skipFloatEnd (b :: rest) h

/-- Passes over a number behind its sign. -/
def skipNumber {n : Nat} (s : Bytes) (h : s.length ≤ n) : Except Fault (Left Unit n) :=
  match s, h with
  | [], _ => .error (.here .invalidNumber [])
  | b :: rest, h =>
    match digit? b with
    | none => .error (.here .invalidNumber rest)
    | some 0 =>
      if startsWithDigit rest then .error (.past .invalidNumber rest)
      else skipNumberEnd rest h
    | some _ =>
      skipNumberEnd (dropDigits rest).2 (Nat.lt_of_le_of_lt (length_dropDigits_le rest) h)

/-- Passes over a value that is no list and no object and starts with the byte `b`. -/
def skipScalar {n : Nat} (b : UInt8) (r : Bytes) (h : r.length < n) :
    Except Fault (Left Unit n) :=
  if b = byte 'n' then word (['u', 'l', 'l'].map byte) r h
  else if b = byte 't' then word (['r', 'u', 'e'].map byte) r h
  else if b = byte 'f' then word (['a', 'l', 's', 'e'].map byte) r h
  else if b = byte '-' then skipNumber r (le_of_left h)
  else if (digit? b).isSome then skipNumber (b :: r) h
  else if b = byte '"' then skipString r h
  else .error (.past .expectedValue (b :: r))

/-- Passes over what stands between an opening bracket or a comma and the next value: in an object a
key and a colon. -/
def skipKey {n : Nat} (bracket : Bracket) (s : Bytes) (h : s.length < n) :
    Except Fault (Left Unit n) :=
  match bracket with
  | .list => .ok ⟨(), s, h⟩
  | .object =>
    match next? s with
    | none => .error (.past .endInObject [])
    | some ⟨b, r, hr⟩ =>
      if b = byte '"' then do
        let key ← skipString r hr
        let c ← colon key.rest
        return ⟨(), c.rest, Nat.lt_trans (Nat.lt_trans c.lt key.lt) h⟩
      else .error (.past .keyNotString (b :: r))

/-- Goes on behind a value: closes brackets, innermost first, until a comma promises another value.
The answer is the brackets that are then still open, none if the outermost value is complete. -/
def skipClosings {n : Nat} : (stack : List Bracket) → (s : Bytes) → s.length < n →
    Except Fault (Left (List Bracket) n)
  | [], s, h => .ok ⟨[], s, h⟩
  | bracket :: stack, s, h =>
    match next? s with
    | none => .error (.past bracket.atEnd [])
    | some ⟨b, r, hr⟩ =>
      if b = byte ',' then
        (skipKey bracket r (Nat.lt_trans hr h)).map fun l => ⟨bracket :: stack, l.rest, l.lt⟩
      else if b = bracket.closing then skipClosings stack r (Nat.lt_trans hr h)
      else .error (.past bracket.expectedComma (b :: r))

/-- Goes on behind an opening bracket, which the closing one may follow at once. -/
def skipOpening {n : Nat} (bracket : Bracket) (stack : List Bracket) (s : Bytes)
    (h : s.length < n) : Except Fault (Left (List Bracket) n) :=
  match next? s with
  | none => .error (.past bracket.atEnd [])
  | some ⟨b, r, hr⟩ =>
    if b = bracket.closing then skipClosings stack r (Nat.lt_trans hr h)
    else (skipKey bracket s h).map fun l => ⟨bracket :: stack, l.rest, l.lt⟩

/-- Passes over a value inside of open brackets, and over what follows up to the end of the
outermost of them. -/
def skipWithin {n : Nat} (stack : List Bracket) (s : Bytes) (h : s.length ≤ n) :
    Except Fault (Left Unit n) :=
  match next? s with
  | none => .error (.past .endInValue [])
  | some ⟨b, r, hr⟩ =>
    let turn : Except Fault (Left (List Bracket) s.length) :=
      match Bracket.ofOpening? b with
      | some bracket => skipOpening bracket stack r hr
      | none =>
        match skipScalar b r hr with
        | .error e => .error e
        | .ok l => skipClosings stack l.rest l.lt
    match turn with
    | .error e => .error e
    | .ok ⟨[], rest, lt⟩ => .ok ⟨(), rest, Nat.lt_of_lt_of_le lt h⟩
    | .ok ⟨stack, rest, lt⟩ => skipWithin stack rest (Nat.le_of_lt (Nat.lt_of_lt_of_le lt h))
  termination_by s.length
  decreasing_by exact lt

/-- Passes over a value. -/
def skip : Reader Unit := fun s => skipWithin [] s (Nat.le_refl _)

end UiStyle.Json
