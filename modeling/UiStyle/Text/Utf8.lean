/-!
# UTF-8

Bytes are text in UTF-8 if they split into the encodings of characters.  Where they do not, the
longest run of bytes that could have begun a character is taken as one malformed piece, and reading
goes on behind it; shown as text, such a piece is the replacement character.
-/

namespace UiStyle.Text.Utf8

/-- The encoding of a string. -/
def encode (s : String) : List UInt8 :=
  s.toList.flatMap String.utf8EncodeChar

/-- For the first byte of a character, the bits it contributes and the ranges of the bytes that
must follow; none if no character starts with this byte. -/
def lead? (b : UInt8) : Option (Nat × List (UInt8 × UInt8)) :=
  let tail : UInt8 × UInt8 := (0x80, 0xbf)
  if b < 0x80 then some (b.toNat, [])
  else if b < 0xc2 then none
  else if b < 0xe0 then some (b.toNat % 0x20, [tail])
  else if b == 0xe0 then some (0x0, [(0xa0, 0xbf), tail])
  else if b == 0xed then some (0xd, [(0x80, 0x9f), tail])
  else if b < 0xf0 then some (b.toNat % 0x10, [tail, tail])
  else if b == 0xf0 then some (0x0, [(0x90, 0xbf), tail, tail])
  else if b < 0xf4 then some (b.toNat % 0x8, [tail, tail, tail])
  else if b == 0xf4 then some (0x4, [(0x80, 0x8f), tail, tail])
  else none

/-- Takes the bytes that must follow off the front, as far as they do, and gathers their bits; the
code point is there if none is missing. -/
def takeTails (code : Nat) : List (UInt8 × UInt8) → List UInt8 → Option Nat × List UInt8
  | [], bytes => (some code, bytes)
  | _ :: _, [] => (none, [])
  | (low, high) :: ranges, b :: rest =>
    if low ≤ b && b ≤ high then takeTails (code * 0x40 + b.toNat % 0x40) ranges rest
    else (none, b :: rest)

theorem length_takeTails_le (code : Nat) (ranges : List (UInt8 × UInt8)) (bytes : List UInt8) :
    (takeTails code ranges bytes).2.length ≤ bytes.length := by
  induction ranges generalizing code bytes with
  | nil => simp [takeTails]
  | cons range ranges ih =>
    cases bytes with
    | nil => simp [takeTails]
    | cons b rest =>
      rw [takeTails]
      split
      · exact Nat.le_succ_of_le (ih _ _)
      · exact Nat.le_refl _

/-- The first piece of nonempty bytes, which is none if it is malformed, and the bytes behind it. -/
def firstPiece (b : UInt8) (rest : List UInt8) : Option Char × List UInt8 :=
  match lead? b with
  | none => (none, rest)
  | some (code, ranges) =>
    let (code?, later) := takeTails code ranges rest
    (code?.map Char.ofNat, later)

theorem length_firstPiece_le (b : UInt8) (rest : List UInt8) :
    (firstPiece b rest).2.length ≤ rest.length := by
  unfold firstPiece
  split
  · exact Nat.le_refl _
  · exact length_takeTails_le _ _ _

/-- The characters and malformed pieces of some bytes. -/
def pieces : List UInt8 → List (Option Char)
  | [] => []
  | b :: rest => (firstPiece b rest).1 :: pieces (firstPiece b rest).2
  termination_by bytes => bytes.length
  decreasing_by exact Nat.lt_succ_of_le (length_firstPiece_le b rest)

/-- The text of some bytes, if they are text. -/
def decode? (bytes : List UInt8) : Option String :=
  (pieces bytes).mapM id |>.map .ofList

/-- The text of some bytes, with the replacement character for each malformed piece. -/
def decodeLossy (bytes : List UInt8) : String :=
  .ofList ((pieces bytes).map (·.getD '\ufffd'))

end UiStyle.Text.Utf8
