import UiStyle.Rule
import UiStyle.Value.Keywords

/-!
# Selectors

A block is a selector text, for a pseudo-class block together with its pseudo-class, and the rules
under it.  Its rules are a map from names to rules that keeps the order in which the names came in:
`insertRule` replaces the rule of the same name where it stands, or adds the rule at the end, and
`eraseRule` takes one out and leaves the others in order.  A block without rules has no lines.

A selector is a block together with its pseudo-class blocks, in the order in which they were first
asked for.  A pseudo-class block on its own is a selector too, one that never has blocks of its
own: whatever pseudo-class is asked for on it, it answers with itself.  `follow` asks for
pseudo-classes one after the other, `opened` makes a block that is missing, and all reading and
editing of blocks goes through these two.
-/

namespace UiStyle

/-! ### Blocks -/

/-- The rule of a name. -/
def findRule? (name : String) (rules : List Rule) : Option Rule :=
  rules.find? fun r => r.name == name

/-- The rules with `r` in the place of the rule of the same name, or at the end if there is none. -/
def insertRule (r : Rule) : List Rule → List Rule
  | [] => [r]
  | s :: rest => if s.name = r.name then r :: rest else s :: insertRule r rest

/-- The rules without the one of this name. -/
def eraseRule (name : String) (rules : List Rule) : List Rule :=
  rules.eraseP fun r => r.name == name

/-- The rules that are not valid, in order. -/
def invalidAmong (rules : List Rule) : List Rule :=
  rules.filter fun r => !r.valid

/-- A selector text and the rules under it. -/
structure Block where
  /-- What tells blocks apart; copies have it in common. -/
  id : Nat
  /-- The selector text, without a pseudo-class. -/
  text : String
  pseudoClass : Option PseudoClass
  rules : List Rule
  deriving DecidableEq

/-- A change to the rules of a block. -/
inductive Edit
  | insert (rule : Rule)
  | erase (name : String)

namespace Block

/-- Whether a block belongs to a pseudo-class. -/
def isPseudoClass (b : Block) : Bool := b.pseudoClass.isSome

/-- The selector text, with the pseudo-class if there is one. -/
def fullText (b : Block) : String :=
  match b.pseudoClass with
  | some p => b.text ++ ":" ++ p.toKeyword
  | none => b.text

/-- The lines of a block: its text and an opening brace, a line for each rule, a closing brace; no
lines at all without rules. -/
def lines (b : Block) (indent : Nat) : List String :=
  if b.rules.isEmpty then []
  else (b.fullText ++ " \x7b") :: (b.rules.map (·.indented indent) ++ ["\x7d"])

/-- A block after a change, and the rule that the change replaced or took out. -/
def edit (b : Block) : Edit → Option Rule × Block
  | .insert r => (findRule? r.name b.rules, { b with rules := insertRule r b.rules })
  | .erase name => (findRule? name b.rules, { b with rules := eraseRule name b.rules })

end Block

/-! ### Selectors -/

/-- A block and its pseudo-class blocks. -/
structure Selector extends Block where
  states : List Block
  deriving DecidableEq

/-- A block within a selector. -/
inductive Place
  | own
  | state (pseudoClass : PseudoClass)
  deriving DecidableEq

namespace Selector

/-- A selector without rules, its text trimmed. -/
def new (id : Nat) (text : String) : Selector :=
  { id, text := Text.trimmed text, pseudoClass := none, rules := [], states := [] }

/-- A block taken out of its selector. -/
def ofBlock (b : Block) : Selector :=
  { b with states := [] }

/-- A selector's own block, and its pseudo-class blocks behind it. -/
def blocks (s : Selector) : List Block :=
  s.toBlock :: s.states

/-- Whether no block has rules. -/
def isEmpty (s : Selector) : Bool :=
  s.rules.isEmpty && s.states.all fun b => b.rules.isEmpty

/-- The rules that are not valid, block after block. -/
def invalidRules (s : Selector) : List Rule :=
  s.blocks.flatMap fun b => invalidAmong b.rules

/-- The lines of all blocks. -/
def lines (s : Selector) (indent : Nat) : List String :=
  s.blocks.flatMap fun b => b.lines indent

/-! ### Blocks by pseudo-class -/

/-- The block of a pseudo-class. -/
def state? (s : Selector) (p : PseudoClass) : Option Block :=
  s.states.find? fun b => b.pseudoClass == some p

/-- An empty block of a pseudo-class of this selector. -/
def newState (s : Selector) (id : Nat) (p : PseudoClass) : Block :=
  { id, text := s.text, pseudoClass := some p, rules := [] }

/-- The selector with a block at a place, where one that is missing takes the identity `next`, and
the next identity after that. -/
def opened (s : Selector) (next : Nat) : Place → Selector × Nat
  | .own => (s, next)
  | .state p =>
    if (s.state? p).isSome then (s, next)
    else ({ s with states := s.states ++ [s.newState next p] }, next + 1)

/-- The block at a place; where there is none, the selector's own. -/
def blockAt (s : Selector) : Place → Block
  | .own => s.toBlock
  | .state p => (s.state? p).getD s.toBlock

end Selector

/-- A place in a selector, and the identity that the next block takes. -/
structure Cursor where
  selector : Selector
  next : Nat
  place : Place

/-- The cursor after asking for a pseudo-class.  A pseudo-class block answers with itself, any other
block with the block of the pseudo-class, which is made if it is missing. -/
def Cursor.ask (c : Cursor) (p : PseudoClass) : Cursor :=
  if (c.selector.blockAt c.place).isPseudoClass then c
  else
    let (selector, next) := c.selector.opened c.next (.state p)
    ⟨selector, next, .state p⟩

namespace Selector

/-- Where asking for some pseudo-classes, one after the other, leads to. -/
def follow (s : Selector) (next : Nat) (path : List PseudoClass) : Cursor :=
  path.foldl Cursor.ask ⟨s, next, .own⟩

/-! ### Edits -/

/-- The selector with the block at a place changed. -/
def modifyAt (s : Selector) (f : Block → Block) : Place → Selector
  | .own => { s with toBlock := f s.toBlock }
  | .state p =>
    { s with states := s.states.map fun b => if b.pseudoClass == some p then f b else b }

/-- A selector after an edit of the block at a place, and the rule that the edit replaced or took
out. -/
def editAt (s : Selector) (place : Place) (e : Edit) : Option Rule × Selector :=
  (((s.blockAt place).edit e).1, s.modifyAt (fun b => (b.edit e).2) place)

end Selector

end UiStyle
