import UiStyle.Manifest.Load

/-!
# Workspaces

A workspace holds selectors and sheets by name and hands out identities.  A selector can be at hand
under its name and, as a copy of the same identity, in sheets; `Target` says which copy and which
block of it an action is about.  Every way of changing selectors and sheets is an `Action`, so what
holds of every action holds of every history.
-/

namespace UiStyle

/-- Named values; a name that is set again loses its old value. -/
abbrev Named (α : Type) := List (String × α)

namespace Named

variable {α : Type}

def get? (name : String) (values : Named α) : Option α := values.lookup name

def set (name : String) (value : α) (values : Named α) : Named α :=
  (name, value) :: values.filter fun entry => entry.1 != name

end Named

/-- Selectors and sheets by name, and the identity that the next block takes. -/
structure Workspace where
  selectors : Named Selector := []
  sheets : Named Sheet := []
  nextId : Nat := 1

/-- A block of a selector at hand or, if a sheet is named, of its copy there. -/
structure Target where
  selector : String
  sheet : Option String
  states : List PseudoClass

/-- A change to a workspace. -/
inductive Action
  /-- A new selector of a text. -/
  | create (name text : String)
  /-- A copy of a block of the same identity. -/
  | copy (name : String) (source : Target)
  /-- A copy of the selector at a position of a sheet, of the same identity; with it at hand, the
  selector in the sheet can be a target, however it came there. -/
  | pick (name sheet : String) (position : Nat)
  /-- Makes a block if it is missing. -/
  | touch (target : Target)
  | edit (target : Target) (change : Edit)
  /-- A sheet without selectors, which may stand for a file. -/
  | newSheet (name title : String) (file : Option String) (layout : Layout)
  /-- A copy of a sheet, with another layout if one is given. -/
  | copySheet (name source : String) (layout : Option Layout)
  /-- Adds a copy of a selector at hand to a sheet. -/
  | add (sheet selector : String)
  /-- Removes the selector of the same identity from a sheet. -/
  | remove (sheet selector : String)
  | load (sheet : String) (manifest : Manifest) (layout : Layout)

/-- What an action answers. -/
inductive Answer
  | done
  /-- What the action is about is not there. -/
  | missing
  /-- A block after an action, and the rule that was replaced or taken out. -/
  | block (block : Block) (rule : Option Rule)
  | added (success : Bool)
  | removed (selector : Option Selector)
  /-- What loading reported, and why it failed if it did. -/
  | loaded (reports : List Violation) (failure : Option Failure)

namespace Workspace

/-- The copy of a selector that a target is about. -/
def find? (w : Workspace) (t : Target) : Option Selector := do
  let s ← w.selectors.get? t.selector
  match t.sheet with
  | none => return s
  | some sheet => (← w.sheets.get? sheet).find? s.id

/-- Puts a selector back where a target found it. -/
def put (w : Workspace) (t : Target) (s : Selector) : Workspace :=
  match t.sheet with
  | none => { w with selectors := w.selectors.set t.selector s }
  | some name =>
    match w.sheets.get? name with
    | none => w
    | some sheet => { w with sheets := w.sheets.set name (sheet.replace s) }

/-- The workspace with the block of a target made if it was missing, the selector it belongs to and
its place there. -/
def reach? (w : Workspace) (t : Target) : Option (Workspace × Selector × Place) := do
  let s ← w.find? t
  let c := s.follow w.nextId t.states
  return ({ w with nextId := c.next }.put t c.selector, c.selector, c.place)

/-- The workspace after an action, and the answer. -/
def perform (w : Workspace) : Action → Workspace × Answer
  | .create name text =>
    ({ w with selectors := w.selectors.set name (.new w.nextId text), nextId := w.nextId + 1 },
      .done)
  | .copy name source =>
    match w.reach? source with
    | none => (w, .missing)
    | some (w, s, place) =>
      let copied := match place with
        | .own => s
        | .state _ => .ofBlock (s.blockAt place)
      ({ w with selectors := w.selectors.set name copied }, .block copied.toBlock none)
  | .pick name sheet position =>
    match (w.sheets.get? sheet).bind fun t => t.selectors[position]? with
    | none => (w, .missing)
    | some s => ({ w with selectors := w.selectors.set name s }, .block s.toBlock none)
  | .touch target =>
    match w.reach? target with
    | none => (w, .missing)
    | some (w, s, place) => (w, .block (s.blockAt place) none)
  | .edit target change =>
    match w.reach? target with
    | none => (w, .missing)
    | some (w, s, place) =>
      let (rule, s) := s.editAt place change
      (w.put target s, .block (s.blockAt place) rule)
  | .newSheet name title file layout =>
    ({ w with sheets := w.sheets.set name ⟨title, [], file, layout⟩ }, .done)
  | .copySheet name source layout =>
    match w.sheets.get? source with
    | none => (w, .missing)
    | some sheet =>
      let copied := match layout with
        | some l => sheet.withLayout l
        | none => sheet
      ({ w with sheets := w.sheets.set name copied }, .done)
  | .add sheet selector =>
    match w.sheets.get? sheet, w.selectors.get? selector with
    | some t, some s =>
      ({ w with sheets := w.sheets.set sheet (t.add s) }, .added (t.accepts s))
    | _, _ => (w, .missing)
  | .remove sheet selector =>
    match w.sheets.get? sheet, w.selectors.get? selector with
    | some t, some s =>
      ({ w with sheets := w.sheets.set sheet (t.remove s.id) }, .removed (t.find? s.id))
    | _, _ => (w, .missing)
  | .load sheet manifest layout =>
    let loaded := manifest.load layout w.nextId
    match loaded.result with
    | .error e =>
      ({ w with nextId := manifest.nextAfter w.nextId }, .loaded loaded.reports (some e))
    | .ok (s, next) =>
      ({ w with sheets := w.sheets.set sheet s, nextId := next }, .loaded loaded.reports none)

/-- The workspace after some actions, in order. -/
def run (w : Workspace) (actions : List Action) : Workspace :=
  actions.foldl (fun w a => (w.perform a).1) w

end Workspace

end UiStyle
