import UiStyle.Decimal

/-!
# JSON values

A JSON number is a whole number of 64 bits or a binary number.  The members of an object keep the
order in which their names first occurred; a name that occurs again replaces the value.  The text of
a value has no white space and escapes as little as it may.
-/

namespace UiStyle

/-- A number of a JSON document. -/
inductive JsonNumber
  | natural (n : Nat)
  /-- The number `-n`. -/
  | negative (n : Nat)
  | float (x : Binary64)

namespace JsonNumber

/-- The text of a number. -/
def text : JsonNumber → String
  | .natural n => toString n
  | .negative n => "-" ++ toString n
  | .float x => NumberStyle.manifest.text x

/-- The number in 64 bits. -/
def toBinary : JsonNumber → Binary64
  | .natural n => .ofNat false n
  | .negative n => .ofNat true n
  | .float x => x

end JsonNumber

/-- A JSON value. -/
inductive Json
  | null
  | bool (value : Bool)
  | number (value : JsonNumber)
  | string (value : String)
  | array (items : List Json)
  | object (members : List (String × Json))

namespace Json

instance : Inhabited Json := ⟨.null⟩

/-- Members with the value of a name set: where the name stands, or at the end if it is new. -/
def setMember (name : String) (value : Json) : List (String × Json) → List (String × Json)
  | [] => [(name, value)]
  | (n, v) :: rest =>
    if n = name then (name, value) :: rest else (n, v) :: setMember name value rest

/-- What is written for a character of a string. -/
def escapeChar (c : Char) : List Char :=
  if c = '"' ∨ c = '\\' then ['\\', c]
  else if c = '\n' then ['\\', 'n']
  else if c = '\r' then ['\\', 'r']
  else if c = '\t' then ['\\', 't']
  else if c = '\x08' then ['\\', 'b']
  else if c = '\x0c' then ['\\', 'f']
  else if c.toNat < 0x20 then
    '\\' :: 'u' :: '0' :: '0' :: [(c.toNat / 16).digitChar, (c.toNat % 16).digitChar]
  else [c]

/-- A string in quotes. -/
def quoted (s : String) : List Char :=
  '"' :: (s.toList.flatMap escapeChar ++ ['"'])

mutual

/-- The characters of the text of a value. -/
def chars : Json → List Char
  | .null => "null".toList
  | .bool true => "true".toList
  | .bool false => "false".toList
  | .number n => n.text.toList
  | .string s => quoted s
  | .array items => '[' :: (itemsChars items ++ [']'])
  | .object members => '\x7b' :: (membersChars members ++ ['\x7d'])

/-- The texts of items with commas between them. -/
def itemsChars : List Json → List Char
  | [] => []
  | [item] => item.chars
  | item :: items => item.chars ++ ',' :: itemsChars items

/-- The texts of members with commas between them. -/
def membersChars : List (String × Json) → List Char
  | [] => []
  | [(name, value)] => quoted name ++ ':' :: value.chars
  | (name, value) :: members => quoted name ++ ':' :: (value.chars ++ ',' :: membersChars members)

end

/-- The text of a value. -/
def text (j : Json) : String := .ofList j.chars

end Json

end UiStyle
