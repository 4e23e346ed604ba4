import UiStyle.Json.Number

/-!
# Reading values

Strings, lists, objects and whole values.  `nextElement` and `nextKey` go to the next element of a
list and to the next key of an object; they stop in front of the closing bracket, which is left to
whoever opened it.  A document may have 127 brackets open at once: readers of values take the
number that may still be opened.
-/

namespace UiStyle.Json

/-! ### Words and strings -/

/-- Reads the bytes of a word, each taken before it is compared. -/
def word {n : Nat} : Bytes → (s : Bytes) → s.length < n → Except Fault (Left Unit n)
  | [], s, h => .ok ⟨(), s, h⟩
  | _ :: _, [], _ => .error (.here .endInValue [])
  | e :: es, b :: rest, h =>
    if b = e then word es rest (tail_lt h) else .error (.here .expectedIdent rest)

/-- The value of a hexadecimal digit. -/
def hexDigit? (b : UInt8) : Option Nat :=
  if byte '0' ≤ b && b ≤ byte '9' then some (b.toNat - 48)
  else if byte 'a' ≤ b && b ≤ byte 'f' then some (b.toNat - 87)
  else if byte 'A' ≤ b && b ≤ byte 'F' then some (b.toNat - 55)
  else none

/-- Reads the four digits of an escape. -/
def hexEscape {n : Nat} (s : Bytes) (h : s.length < n) : Except Fault (Left Nat n) :=
  match s, h with
  | a :: b :: c :: d :: rest, h =>
    match [a, b, c, d].mapM hexDigit? with
    | some digits =>
      .ok ⟨digits.foldl (16 * · + ·) 0, rest, by simp only [List.length_cons] at h; omega⟩
    | none => .error (.here .invalidEscape rest)
  | _, _ => .error (.here .endInString [])

/-- Whether a code point is the second half of a surrogate pair. -/
def isLowSurrogate (code : Nat) : Bool := 0xdc00 ≤ code && code ≤ 0xdfff

/-- Whether a code point is the first half of a surrogate pair. -/
def isHighSurrogate (code : Nat) : Bool := 0xd800 ≤ code && code ≤ 0xdbff

/-- Reads one byte that an escaped pair of surrogates needs between its halves. -/
def pairMark {n : Nat} (mark : UInt8) (s : Bytes) (h : s.length < n) :
    Except Fault (Left Unit n) :=
  match s, h with
  | [], _ => .error (.here .endInString [])
  | b :: rest, h =>
    if b = mark then .ok ⟨(), rest, tail_lt h⟩
    else .error (.here .unexpectedEscapeEnd rest)

/-- Reads the code point of an escape behind its `u`. -/
def unicodeEscape {n : Nat} (s : Bytes) (h : s.length < n) : Except Fault (Left Char n) := do
  let first ← hexEscape s h
  if isLowSurrogate first.value then throw (.here .loneSurrogate first.rest)
  if isHighSurrogate first.value then
    let backslash ← pairMark (byte '\\') first.rest first.lt
    let u ← pairMark (byte 'u') backslash.rest backslash.lt
    let second ← hexEscape u.rest u.lt
    if !isLowSurrogate second.value then throw (.here .loneSurrogate second.rest)
    let code := 0x10000 + (first.value - 0xd800) * 0x400 + (second.value - 0xdc00)
    return ⟨.ofNat code, second.rest, second.lt⟩
  return ⟨.ofNat first.value, first.rest, first.lt⟩

/-- The character of an escape of one letter. -/
def simpleEscape? (b : UInt8) : Option Char :=
  if b = byte '"' then some '"'
  else if b = byte '\\' then some '\\'
  else if b = byte '/' then some '/'
  else if b = byte 'b' then some '\x08'
  else if b = byte 'f' then some '\x0c'
  else if b = byte 'n' then some '\n'
  else if b = byte 'r' then some '\r'
  else if b = byte 't' then some '\t'
  else none

/-- Reads an escape behind its backslash. -/
def escape {n : Nat} (s : Bytes) (h : s.length < n) : Except Fault (Left Char n) :=
  match s, h with
  | [], _ => .error (.here .endInString [])
  | b :: rest, h =>
    match simpleEscape? b with
    | some c => .ok ⟨c, rest, tail_lt h⟩
    | none =>
      if b = byte 'u' then unicodeEscape rest (tail_lt h)
      else .error (.here .invalidEscape rest)

/-- Reads the bytes of a string behind its opening quote, those in `taken` being the last ones
before them, backwards. -/
def stringBytes {n : Nat} (taken : Bytes) (s : Bytes) (h : s.length < n) :
    Except Fault (Left Bytes n) :=
  match s, h with
  | [], _ => .error (.here .endInString [])
  | b :: rest, h =>
    if b = byte '"' then .ok ⟨taken.reverse, rest, tail_lt h⟩
    else if b = byte '\\' then
      match escape rest (Nat.lt_succ_self _) with
      | .ok c =>
        stringBytes ((String.utf8EncodeChar c.value).reverse ++ taken) c.rest
          (by have := c.lt; simp only [List.length_cons] at h; omega)
      | .error e => .error e
    else if b < 0x20 then .error (.here .controlCharacter rest)
    else stringBytes (b :: taken) rest (tail_lt h)
  termination_by s.length
  decreasing_by
  · exact c.lt
  · exact Nat.lt_succ_self _

/-- Reads a string behind its opening quote. -/
def stringEnd {n : Nat} (s : Bytes) (h : s.length < n) : Except Fault (Left String n) := do
  let bytes ← stringBytes [] s h
  return ⟨Text.Utf8.decodeLossy bytes.value, bytes.rest, bytes.lt⟩

/-! ### Lists and objects -/

/-- Goes to the next element of a list: in front of it, or nowhere if the list ends. -/
def nextElement (first : Bool) (s : Bytes) :
    Except Fault (Option { r : Bytes // r.length ≤ s.length }) :=
  match next? s with
  | none => .error (.past .endInList [])
  | some ⟨b, r, h⟩ =>
    if b = byte ']' then .ok none
    else if first then .ok (some ⟨b :: r, h⟩)
    else if b = byte ',' then
      match next? r with
      | none => .error (.past .endInValue [])
      | some ⟨c, r', h'⟩ =>
        if c = byte ']' then .error (.past .trailingComma (c :: r'))
        else .ok (some ⟨c :: r', Nat.le_trans h' (Nat.le_of_lt h)⟩)
    else .error (.past .expectedListComma (b :: r))

/-- Reads a key that starts with the byte `b`. -/
def keyAt {n : Nat} (b : UInt8) (r : Bytes) (h : r.length < n) : Except Fault (Left String n) :=
  if b = byte '"' then stringEnd r h else .error (.past .keyNotString (b :: r))

/-- Reads the next key of an object, or nothing if the object ends. -/
def nextKey (first : Bool) (s : Bytes) : Except Fault (Option (Left String s.length)) :=
  match next? s with
  | none => .error (.past .endInObject [])
  | some ⟨b, r, h⟩ =>
    if b = byte '\x7d' then .ok none
    else if first then some <$> keyAt b r h
    else if b = byte ',' then
      match next? r with
      | none => .error (.past .endInValue [])
      | some ⟨c, r', h'⟩ =>
        if c = byte '\x7d' then .error (.past .trailingComma (c :: r'))
        else some <$> keyAt c r' (Nat.lt_trans h' h)
    else .error (.past .expectedObjectComma (b :: r))

/-- Reads the colon behind a key. -/
def colon (s : Bytes) : Except Fault (Left Unit s.length) :=
  match next? s with
  | none => .error (.past .endInObject [])
  | some ⟨b, r, h⟩ =>
    if b = byte ':' then .ok ⟨(), r, h⟩ else .error (.past .expectedColon (b :: r))

/-- Closes a list: the bytes behind it, and what is wrong if it does not end here. -/
def closeList (s : Bytes) : Bytes × Option Fault :=
  match skipBlanks s with
  | [] => ([], some (.past .endInList []))
  | b :: r =>
    if b = byte ']' then (r, none)
    else if b = byte ',' then
      let later := skipBlanks r
      let reason := if later.head? == some (byte ']') then .trailingComma else .trailingCharacters
      (later, some (.past reason later))
    else (b :: r, some (.past .trailingCharacters (b :: r)))

/-- Closes an object: the bytes behind it, and what is wrong if it does not end here. -/
def closeObject (s : Bytes) : Bytes × Option Fault :=
  match skipBlanks s with
  | [] => ([], some (.past .endInObject []))
  | b :: r =>
    if b = byte '\x7d' then (r, none)
    else
      let reason := if b = byte ',' then .trailingComma else .trailingCharacters
      (b :: r, some (.past reason (b :: r)))

theorem length_skipBlanks_le (s : Bytes) : (skipBlanks s).length ≤ s.length :=
  length_dropWhile_le _ _

theorem length_closeList_le (s : Bytes) : (closeList s).1.length ≤ s.length := by
  have hs := length_skipBlanks_le s
  unfold closeList
  split
  · exact Nat.zero_le _
  · rename_i b r hbr
    rw [hbr] at hs
    split
    · exact Nat.le_of_succ_le hs
    · split
      · exact Nat.le_trans (length_skipBlanks_le r) (Nat.le_of_succ_le hs)
      · exact hs

theorem length_closeObject_le (s : Bytes) : (closeObject s).1.length ≤ s.length := by
  have hs := length_skipBlanks_le s
  unfold closeObject
  split
  · exact Nat.zero_le _
  · rename_i b r hbr
    rw [hbr] at hs
    split
    · exact Nat.le_of_succ_le hs
    · exact hs

/-- Reads the elements of a list behind its opening bracket, up to its closing bracket; those in
`taken` come before them, backwards. -/
def elements {α : Type} {n : Nat} (item : Reader α) (first : Bool) (taken : List α) (s : Bytes)
    (h : s.length < n) : Except Fault (Left (List α) n) :=
  match nextElement first s with
  | .error e => .error e
  | .ok none => .ok ⟨taken.reverse, s, h⟩
  | .ok (some ⟨r, hr⟩) =>
    match item r with
    | .error e => .error e
    | .ok v =>
      elements item false (v.value :: taken) v.rest
        (Nat.lt_trans (Nat.lt_of_lt_of_le v.lt hr) h)
  termination_by s.length
  decreasing_by exact Nat.lt_of_lt_of_le v.lt hr

/-- Reads the members of an object behind its opening bracket, up to its closing bracket; those in
`taken` come before them. -/
def members {n : Nat} (value : Reader Json) (first : Bool) (taken : List (String × Json))
    (s : Bytes) (h : s.length < n) : Except Fault (Left (List (String × Json)) n) :=
  match nextKey first s with
  | .error e => .error e
  | .ok none => .ok ⟨taken, s, h⟩
  | .ok (some key) =>
    match colon key.rest with
    | .error e => .error e
    | .ok c =>
      match value c.rest with
      | .error e => .error e
      | .ok v =>
        members value false (setMember key.value v.value taken) v.rest
          (Nat.lt_trans (Nat.lt_trans (Nat.lt_trans v.lt c.lt) key.lt) h)
  termination_by s.length
  decreasing_by exact Nat.lt_trans (Nat.lt_trans v.lt c.lt) key.lt

/-- Closes what was read of a list or an object. -/
def closed {α β : Type} {n : Nat} (close : Bytes → Bytes × Option Fault)
    (close_le : ∀ s, (close s).1.length ≤ s.length) (make : α → β) (l : Left α n) :
    Except Fault (Left β n) :=
  match (close l.rest).2 with
  | some e => .error e
  | none => .ok ⟨make l.value, (close l.rest).1, Nat.lt_of_le_of_lt (close_le _) l.lt⟩

/-- Reads a list behind its opening bracket. -/
def listEnd {α : Type} {n : Nat} (item : Reader α) (s : Bytes) (h : s.length < n) :
    Except Fault (Left (List α) n) := do
  closed closeList length_closeList_le id (← elements item true [] s h)

/-- Reads an object behind its opening bracket. -/
def objectEnd {n : Nat} (value : Reader Json) (s : Bytes) (h : s.length < n) :
    Except Fault (Left (List (String × Json)) n) := do
  closed closeObject length_closeObject_le id (← members value true [] s h)

/-! ### Values -/

/-- Reads a value that is no list and no object and starts with the byte `b`; none if no value
starts with it. -/
def scalar? {n : Nat} (b : UInt8) (r : Bytes) (h : r.length < n) :
    Option (Except Fault (Left Json n)) :=
  let constant (rest : List Char) (value : Json) : Except Fault (Left Json n) :=
    (word (rest.map byte) r h).map fun l => ⟨value, l.rest, l.lt⟩
  let numeral (l : Left JsonNumber n) : Left Json n := ⟨.number l.value, l.rest, l.lt⟩
  if b = byte 'n' then some (constant ['u', 'l', 'l'] .null)
  else if b = byte 't' then some (constant ['r', 'u', 'e'] (.bool true))
  else if b = byte 'f' then some (constant ['a', 'l', 's', 'e'] (.bool false))
  else if b = byte '-' then some ((unsignedNumber true r (le_of_left h)).map numeral)
  else if (digit? b).isSome then some ((unsignedNumber false (b :: r) h).map numeral)
  else if b = byte '"' then
    some ((stringEnd r h).map fun l => ⟨.string l.value, l.rest, l.lt⟩)
  else none

/-- Reads a value, in which `depth` more brackets may be opened. -/
def value (depth : Nat) : Reader Json := fun s =>
  match next? s with
  | none => .error (.past .endInValue [])
  | some ⟨b, r, h⟩ =>
    match scalar? b r h with
    | some result => result
    | none =>
      if b = byte '[' then
        match depth with
        | 0 => .error (.past .nestingLimit (b :: r))
        | depth + 1 =>
          (listEnd (value depth) r h).map fun l => ⟨.array l.value, l.rest, l.lt⟩
      else if b = byte '\x7b' then
        match depth with
        | 0 => .error (.past .nestingLimit (b :: r))
        | depth + 1 =>
          (objectEnd (value depth) r h).map fun l => ⟨.object l.value, l.rest, l.lt⟩
      else .error (.past .expectedValue (b :: r))

/-- How many brackets may be open at once. -/
def nestingLimit : Nat := 127

/-- Reads a whole document with a reader; only white space may follow. -/
def document {α : Type} (reader : Reader α) (input : Bytes) : Except Fault α := do
  let v ← reader input
  match next? v.rest with
  | none => return v.value
  | some ⟨b, r, _⟩ => throw (.past .trailingCharacters (b :: r))

/-- Reads a document that may be any value. -/
def parse (input : Bytes) : Except Fault Json :=
  document (value nestingLimit) input

end UiStyle.Json
