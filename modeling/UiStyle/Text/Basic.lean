/-!
# Characters, words and quoted strings

Letter case is that of ASCII: only the letters `A` to `Z` have a lower case, and every other
character is its own.

A character is blank when it has the Unicode property `White_Space`.  Trimming takes blank
characters off both ends of a text and touches nothing between; the words of a text are its maximal
runs of characters that are not blank, and `IsWord` says of a text that it is one.  All of it is
stated on lists of characters, and `trimmed` carries it over to strings.

A quoted string of a stylesheet stands between double quotes.  Inside, a quote and a backslash are
written behind a backslash, and a control character as a backslash, its code in lowercase
hexadecimal digits and one space that ends the code.  The null character has no written form and
becomes the replacement character; every other character stands for itself.
-/

namespace UiStyle.Text

/-! ### Letters and digits -/

/-- A text in the lower case of ASCII. -/
def lower (cs : List Char) : List Char :=
  cs.map Char.toLower

/-- Whether two texts are the same up to the case of ASCII letters. -/
def sameIgnoringCase (a b : List Char) : Bool :=
  lower a == lower b

/-- Whether a character is one of `0` to `9`, `a` to `f` and `A` to `F`. -/
def isHexDigit (c : Char) : Bool :=
  c.isDigit || ('a' ≤ c && c ≤ 'f') || ('A' ≤ c && c ≤ 'F')

/-- The number of bytes of a text in UTF-8. -/
def byteLength (cs : List Char) : Nat :=
  cs.foldr (fun c n => c.utf8Size + n) 0

/-! ### White space -/

/-- Whether a character has the Unicode property `White_Space`. -/
def isBlank (c : Char) : Bool :=
  let n := c.toNat
  (0x09 ≤ n && n ≤ 0x0d) || n == 0x20 || n == 0x85 || n == 0xa0 || n == 0x1680 ||
    (0x2000 ≤ n && n ≤ 0x200a) || n == 0x2028 || n == 0x2029 || n == 0x202f || n == 0x205f ||
    n == 0x3000

/-- A text without the blank characters it starts with. -/
def trimStart (cs : List Char) : List Char :=
  cs.dropWhile isBlank

/-- A text without the blank characters it ends with. -/
def trimEnd (cs : List Char) : List Char :=
  (cs.reverse.dropWhile isBlank).reverse

/-- A text without blank characters at either end. -/
def trim (cs : List Char) : List Char :=
  trimEnd (trimStart cs)

/-- A string without blank characters at either end. -/
def trimmed (s : String) : String :=
  .ofList (trim s.toList)

/-- Whether nothing is left of a string once it is trimmed. -/
def isBlankText (s : String) : Bool :=
  s.toList.all isBlank

/-- The word that a text starts with, which is empty if its first character is blank, and the words
after it. -/
def splitWords : List Char → List Char × List (List Char)
  | [] => ([], [])
  | c :: r =>
    let (word, later) := splitWords r
    if isBlank c then ([], if word.isEmpty then later else word :: later)
    else (c :: word, later)

/-- The maximal runs of characters that are not blank, in order. -/
def words (cs : List Char) : List (List Char) :=
  let (word, later) := splitWords cs
  if word.isEmpty then later else word :: later

/-- A text of characters that are not blank, at least one. -/
structure IsWord (cs : List Char) : Prop where
  nonempty : cs ≠ []
  solid : ∀ c ∈ cs, isBlank c = false

instance (cs : List Char) : Decidable (IsWord cs) :=
  decidable_of_iff (cs ≠ [] ∧ (cs.all fun c => !isBlank c) = true)
    ⟨fun ⟨hne, hall⟩ => ⟨hne, by simpa using hall⟩, fun h => ⟨h.nonempty, by simpa using h.solid⟩⟩

@[simp] theorem toList_trimmed (s : String) : (trimmed s).toList = trim s.toList := by
  simp [trimmed]

example : words " left\u00a0\ttop ".toList = ["left".toList, "top".toList] := by decide

end UiStyle.Text

/-! ### Quoted strings -/

namespace UiStyle.Text.Quoted

/-- Whether a character is written by its code: the control characters, less the null character. -/
def isControl (c : Char) : Bool :=
  (0x01 ≤ c.toNat && c.toNat ≤ 0x1f) || c.toNat == 0x7f

/-- What is written for one character between the quotes. -/
def escape (c : Char) : List Char :=
  if c = '"' ∨ c = '\\' then ['\\', c]
  else if c = '\x00' then ['\ufffd']
  else if isControl c then '\\' :: (Nat.toDigits 16 c.toNat ++ [' '])
  else [c]

/-- What is written between the quotes. -/
def escapeAll (cs : List Char) : List Char :=
  cs.flatMap escape

/-- A string with its quotes. -/
def encode (s : String) : String :=
  .ofList ('"' :: (escapeAll s.toList ++ ['"']))

example : encode "a\"b\n\x7f" = "\"a\\\"b\\a \\7f \"" := by decide +kernel

end UiStyle.Text.Quoted
