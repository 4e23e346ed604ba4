import UiStyle.Selector

/-!
# Sheets

A sheet is a name and selectors in the order in which they were added, no two of one identity and
none of them a pseudo-class block on its own.  Its lines are those of its selectors, one after the
other; a selector without lines leaves no trace, and between two others stands an empty line if the
layout asks for it.  The layout also says how far rules are indented, and which extension the file
of a sheet has.
-/

namespace UiStyle

/-- The settings of a sheet. -/
structure Layout where
  /-- The number of spaces in front of each rule. -/
  indent : Nat := 4
  /-- The extension of the file, without a dot. -/
  extension : String := "uss"
  /-- Whether an empty line stands between selectors. -/
  blankLines : Bool := true
  deriving DecidableEq

/-- An extension without the dots it starts with. -/
def stripDots (extension : String) : String :=
  .ofList (extension.toList.dropWhile (· == '.'))

namespace Layout

def withIndent (indent : Nat) (l : Layout) : Layout :=
  { l with indent }

/-- The extension may be given with dots in front of it. -/
def withExtension (extension : String) (l : Layout) : Layout :=
  { l with extension := stripDots extension }

def withBlankLines (blankLines : Bool) (l : Layout) : Layout :=
  { l with blankLines }

/-- What stands between the lines of two selectors. -/
def separator (l : Layout) : List String :=
  if l.blankLines then [""] else []

/-- Lines and, behind them, those of one selector more. -/
def extend (l : Layout) (lines part : List String) : List String :=
  if part.isEmpty then lines
  else if lines.isEmpty then part
  else lines ++ l.separator ++ part

end Layout

/-! ### Sheets -/

/-- A named list of selectors. -/
structure Sheet where
  name : String
  selectors : List Selector
  /-- The file that an imported sheet stands for. -/
  filePath : Option String
  layout : Layout

namespace Sheet

/-- A sheet without selectors. -/
def new (name : String) : Sheet := ⟨name, [], none, {}⟩

/-- A sheet without selectors that stands for a file. -/
def imported (name filePath : String) : Sheet := ⟨name, [], some filePath, {}⟩

def withLayout (layout : Layout) (s : Sheet) : Sheet :=
  { s with layout }

/-- Whether a sheet stands for a file that has a path. -/
def isImported (s : Sheet) : Bool :=
  s.filePath.any fun path => !path.isEmpty

/-! ### The selectors of a sheet -/

/-- The selector of an identity. -/
def find? (s : Sheet) (id : Nat) : Option Selector :=
  s.selectors.find? fun t => t.id == id

/-- Whether a sheet has a selector of this identity. -/
def contains (s : Sheet) (id : Nat) : Bool :=
  s.selectors.any fun t => t.id == id

/-- Whether a selector can be added: it is no pseudo-class block, and none of its identity is
there. -/
def accepts (s : Sheet) (t : Selector) : Bool :=
  !t.isPseudoClass && !s.contains t.id

/-- The sheet with a selector at its end, if it accepts the selector. -/
def add (s : Sheet) (t : Selector) : Sheet :=
  if s.accepts t then { s with selectors := s.selectors ++ [t] } else s

/-- The sheet without the selector of an identity. -/
def remove (s : Sheet) (id : Nat) : Sheet :=
  { s with selectors := s.selectors.eraseP fun t => t.id == id }

/-- The sheet with a selector in the place of the one of the same identity. -/
def replace (s : Sheet) (t : Selector) : Sheet :=
  { s with selectors := s.selectors.map fun u => if u.id == t.id then t else u }

/-- The rules that are not valid, selector after selector. -/
def invalidRules (s : Sheet) : List Rule :=
  s.selectors.flatMap Selector.invalidRules

/-! ### The text of a sheet -/

/-- The lines of a sheet, which are written selector by selector. -/
def lines (s : Sheet) : List String :=
  s.selectors.foldl (fun lines t => s.layout.extend lines (t.lines s.layout.indent)) []

theorem lines_eq_foldl (s : Sheet) :
    s.lines = (s.selectors.map fun t => t.lines s.layout.indent).foldl s.layout.extend [] :=
  List.foldl_map.symm

/-- The lines of a sheet depend on those of its selectors and on the layout only. -/
theorem lines_congr {s t : Sheet} (hlayout : t.layout = s.layout)
    (hselectors : t.selectors.map (fun u => u.lines s.layout.indent) =
      s.selectors.map fun u => u.lines s.layout.indent) : t.lines = s.lines := by
  rw [lines_eq_foldl, lines_eq_foldl, hlayout, hselectors]

/-- The lines of a sheet with line ends between them. -/
def text (s : Sheet) : String :=
  "\n".intercalate s.lines

/-- The lines of a sheet with a line end behind each. -/
def display (s : Sheet) : String :=
  String.join (s.lines.map (· ++ "\n"))

end Sheet

end UiStyle
