import UiStyle.Text.Utf8

/-!
# Reading bytes

A reader takes a value off the front of some bytes.  It answers with the value and the bytes left,
fewer than it was given, so that a loop over a reader ends; or with a fault.  A fault carries the
number of bytes that had not been read when it arose: together with the whole input that is a line
and a column.  A fault found by looking at the next byte counts that byte as read (`Fault.past`),
one found after taking a byte does not (`Fault.here`).
-/

namespace UiStyle.Json

abbrev Bytes := List UInt8

/-- The byte of an ASCII character. -/
def byte (c : Char) : UInt8 := .ofNat c.toNat

/-- Why a document cannot be read. -/
inductive Reason
  | endInValue
  | endInList
  | endInObject
  | endInString
  | expectedColon
  | expectedListComma
  | expectedObjectComma
  | expectedIdent
  | expectedValue
  | trailingComma
  | trailingCharacters
  | keyNotString
  | controlCharacter
  | invalidEscape
  | loneSurrogate
  | unexpectedEscapeEnd
  | invalidNumber
  | numberOutOfRange
  | nestingLimit
  | invalidType (found expected : String)
  | invalidLength (length : Nat) (title : String) (fields : Nat)
  | duplicateField (name : String)
  | missingField (name : String)
  deriving DecidableEq

/-- The text of a reason. -/
def Reason.message : Reason → String
  | .endInValue => "EOF while parsing a value"
  | .endInList => "EOF while parsing a list"
  | .endInObject => "EOF while parsing an object"
  | .endInString => "EOF while parsing a string"
  | .expectedColon => "expected `:`"
  | .expectedListComma => "expected `,` or `]`"
  | .expectedObjectComma => "expected `,` or `\x7d`"
  | .expectedIdent => "expected ident"
  | .expectedValue => "expected value"
  | .trailingComma => "trailing comma"
  | .trailingCharacters => "trailing characters"
  | .keyNotString => "key must be a string"
  | .controlCharacter => "control character (\\u0000-\\u001F) found while parsing a string"
  | .invalidEscape => "invalid escape"
  | .loneSurrogate => "lone leading surrogate in hex escape"
  | .unexpectedEscapeEnd => "unexpected end of hex escape"
  | .invalidNumber => "invalid number"
  | .numberOutOfRange => "number out of range"
  | .nestingLimit => "recursion limit exceeded"
  | .invalidType found expected => "invalid type: " ++ found ++ ", expected " ++ expected
  | .invalidLength length title fields =>
    "invalid length " ++ toString length ++ ", expected " ++ title ++ " with " ++
      toString fields ++ " elements"
  | .duplicateField name => "duplicate field `" ++ name ++ "`"
  | .missingField name => "missing field `" ++ name ++ "`"

/-- Why reading stopped, and how many bytes were not read. -/
structure Fault where
  reason : Reason
  unread : Nat

namespace Fault

/-- A fault in front of the bytes `s`. -/
def here (reason : Reason) (s : Bytes) : Fault := ⟨reason, s.length⟩

/-- A fault behind the first of the bytes `s`, if there is one. -/
def past (reason : Reason) (s : Bytes) : Fault := ⟨reason, s.length - 1⟩

/-- The line of a fault, counted from 1, and the number of bytes that are read on it. -/
def position (input : Bytes) (f : Fault) : Nat × Nat :=
  let seen := input.take (input.length - f.unread)
  (1 + seen.count (byte '\n'), (seen.reverse.takeWhile (· != byte '\n')).length)

/-- The text of a fault. -/
def message (input : Bytes) (f : Fault) : String :=
  f.reason.message ++ " at line " ++ toString (f.position input).1 ++ " column " ++
    toString (f.position input).2

end Fault

/-- A value that was read, with fewer than `n` bytes left behind it. -/
structure Left (α : Type) (n : Nat) where
  value : α
  rest : Bytes
  lt : rest.length < n

/-- What takes a value off the front of some bytes. -/
abbrev Reader (α : Type) := (s : Bytes) → Except Fault (Left α s.length)

/-- What is left behind one more byte is fewer bytes than before. -/
theorem tail_lt {b : UInt8} {rest : Bytes} {n : Nat} (h : (b :: rest).length < n) :
    rest.length < n :=
  Nat.lt_of_succ_lt h

theorem le_of_left {s : Bytes} {n : Nat} (h : s.length < n) : s.length ≤ n :=
  Nat.le_of_lt h

/-! ### White space -/

/-- Whether a byte is white space of a document. -/
def isSpace (b : UInt8) : Bool :=
  b == byte ' ' || b == byte '\n' || b == byte '\t' || b == byte '\r'

/-- The bytes behind the white space they start with. -/
def skipBlanks (s : Bytes) : Bytes := s.dropWhile isSpace

theorem length_dropWhile_le {α : Type} (p : α → Bool) (l : List α) :
    (l.dropWhile p).length ≤ l.length := by
  induction l with
  | nil => exact Nat.le_refl _
  | cons a l ih =>
    rw [List.dropWhile_cons]
    split
    · exact Nat.le_succ_of_le ih
    · exact Nat.le_refl _

theorem length_lt_of_skipBlanks {s r : Bytes} {b : UInt8} (h : skipBlanks s = b :: r) :
    r.length < s.length := by
  have := length_dropWhile_le isSpace s
  rw [show s.dropWhile isSpace = b :: r from h] at this
  exact this

/-- The next byte that is not white space, and the bytes behind it. -/
def next? (s : Bytes) : Option (Left UInt8 s.length) :=
  match h : skipBlanks s with
  | [] => none
  | b :: r => some ⟨b, r, length_lt_of_skipBlanks h⟩

end UiStyle.Json
