import UiStyle.Disk
import UiStyle.Journal
import UiStyle.Json.Record
import UiStyle.Text.Basic

/-!
# Manifests

A manifest describes a sheet in JSON: its name, and for each selector its text, its rules and, for
pseudo-classes, further rules.  Reading one checks the types of these parts and that the name is not
blank; what the rules say is looked at when the manifest is loaded.
-/

namespace UiStyle

/-- One selector of a manifest. -/
structure Entry where
  selector : String
  rules : List (String × Json)
  states : List (String × Json)

/-- A sheet as described by a document. -/
structure Manifest where
  name : String
  entries : List Entry

/-- What can be wrong with a manifest, apart from the names of its properties. -/
inductive Problem
  /-- The document cannot be read; the text says why and where. -/
  | unreadable (text : String)
  | emptyName
  | emptySelector
  | unknownPseudoClass (name : String)
  | stateNotObject (name : String)
  | valueNotScalar (property : String) (value : Json)

/-- The text of a problem. -/
def Problem.message : Problem → String
  | .unreadable text => text
  | .emptyName => "stylesheet name is empty"
  | .emptySelector => "selector text is empty"
  | .unknownPseudoClass name => "unknown pseudo-class `" ++ name ++ "`"
  | .stateNotObject name => "state `" ++ name ++ "` must map properties to values"
  | .valueNotScalar property value =>
    "value for `" ++ property ++ "` must be a string or number, got " ++ value.text

/-- The failure that a problem is. -/
def Problem.failure (p : Problem) : Failure := .manifest p.message

open Json (Field Shape Left)

/-- A field whose value, once read, changes a record. -/
def Json.Field.of {σ α : Type} (name : String) (required : Bool) (read : Nat → Json.Reader α)
    (set : α → σ → σ) : Json.Field σ where
  name := name
  required := required
  read depth s := (read depth s).map fun l => ⟨set l.value, l.rest, l.lt⟩

/-- How an entry is written. -/
def Entry.shape : Shape Entry where
  title := "struct SelectorEntry"
  fields := [
    .of "selector" true (fun _ => Json.readString) fun selector e => { e with selector },
    .of "rules" false Json.readMap fun rules e => { e with rules },
    .of "states" false Json.readMap fun states e => { e with states }]
  empty := ⟨"", [], []⟩

namespace Manifest

/-- How a manifest is written. -/
def shape : Shape Manifest where
  title := "struct Manifest"
  fields := [
    .of "name" true (fun _ => Json.readString) fun name m => { m with name },
    .of "selectors" false (Json.readList (Json.readRecord Entry.shape))
      fun entries m => { m with entries }]
  empty := ⟨"", []⟩

/-- Reads a manifest from a document. -/
def parse (input : Json.Bytes) : Except Failure Manifest :=
  match Json.document (Json.readRecord shape Json.nestingLimit) input with
  | .error fault => .error (Problem.unreadable (fault.message input)).failure
  | .ok m => if Text.isBlankText m.name then .error Problem.emptyName.failure else .ok m

/-- Reads a manifest from the bytes of a file, which have to be text. -/
def ofBytes (input : Json.Bytes) : Except Failure Manifest :=
  if (Text.Utf8.decode? input).isNone then .error (.io "stream did not contain valid UTF-8")
  else parse input

/-- Reads a manifest from a file. -/
def ofFile {m : Type → Type} [Monad m] (files : Files m) (path : String) :
    m (Except Failure Manifest) := do
  match ← files.read path with
  | .error detail => return .error (.io detail)
  | .ok bytes => return ofBytes bytes

end Manifest

end UiStyle
