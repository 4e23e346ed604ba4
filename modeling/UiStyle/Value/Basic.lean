import UiStyle.Text.Basic

/-!
# Values

A value of a stylesheet has a text, and some values are or hold the keyword `auto`.

A keyword set is a finite type whose members are written as distinct keywords, each of them one
word.  Reading a keyword is strict; reading a name is not: it takes off the white space around it,
and any unknown name stands for the fallback of the set.

An image, a font or another asset is referred to by its path in the project or by its place among
the resources.  The path is written as a quoted string, so no path can end its rule early.
-/

namespace UiStyle

/-- Values that can stand on the right-hand side of a rule. -/
class StyleValue (α : Type) where
  /-- What is written for a value. -/
  text : α → String
  /-- Whether a value is or holds the keyword `auto`. -/
  isAuto : α → Bool := fun _ => false

/-- A finite set of values, each written as a keyword of its own. -/
class KeywordSet (α : Type) where
  /-- The members in the order of their declaration. -/
  all : List α
  keyword : α → String
  /-- What an unknown name stands for. -/
  fallback : α
  complete : ∀ a, a ∈ all
  distinct : ∀ a b, keyword a = keyword b → a = b
  oneWord : ∀ a, Text.IsWord (keyword a).toList

namespace KeywordSet

variable {α : Type} [KeywordSet α]

/-- The member with exactly this keyword. -/
def ofKeyword? (s : String) : Option α :=
  all.find? fun a => keyword a == s

/-- The member that a name stands for. -/
def ofName (s : String) : α :=
  (ofKeyword? (Text.trimmed s)).getD fallback

instance : StyleValue α where
  text := keyword

theorem ofKeyword?_keyword (a : α) : ofKeyword? (keyword a) = some a := by
  cases h : (ofKeyword? (keyword a) : Option α) with
  | none => exact absurd (by simp) (List.find?_eq_none.mp h a (complete a))
  | some b => rw [distinct b a (by simpa using List.find?_some h)]

theorem ofKeyword?_eq_some {s : String} {a : α} : ofKeyword? s = some a ↔ keyword a = s := by
  constructor
  · intro h
    simpa using List.find?_some h
  · rintro rfl
    exact ofKeyword?_keyword a

end KeywordSet

/-! ### Assets -/

/-- A reference to an asset. -/
inductive Asset
  /-- A path in the project. -/
  | url (path : String)
  /-- A place in the resources folder. -/
  | resource (path : String)
  deriving DecidableEq

instance : StyleValue Asset where
  text
    | .url path => "url(" ++ Text.Quoted.encode path ++ ")"
    | .resource path => "resource(" ++ Text.Quoted.encode path ++ ")"

end UiStyle
