import UiStyle.Export
import UiStyle.Manifest.Load

/-!
# The command line

The command line takes one manifest, two options with a value and two flags.  Arguments are taken
one after the other, and the first that settles the matter does: a usage error, or a request for the
version or for help.  A value follows its option as the next argument or is attached to it; an
argument that starts with a hyphen is only a value if it is nothing but the hyphen.  Behind `--` all
arguments are manifests.  No option, flag or manifest may be given twice, and no path be empty.

A run loads a manifest and then prints the sheet or exports it.  Everything reported on the way goes
to the log; rules that are not valid add one more warning and change nothing else.  A run fails if
the manifest does not load or the export does not succeed.
-/

namespace UiStyle.CommandLine

/-! ### Arguments -/

/-- What to do with a manifest. -/
structure Options where
  manifest : String
  /-- The directory to export to; without one the sheet is printed. -/
  output : Option String
  force : Bool
  indent : Nat
  compact : Bool

/-- What is asked for. -/
inductive Request
  | run (options : Options)
  | version
  | help
  | usageError

/-- The arguments taken so far. -/
structure Given where
  manifest : Option String := none
  output : Option String := none
  force : Bool := false
  indent : Option Nat := none
  compact : Bool := false

/-- The options that have a value. -/
inductive ValueOption
  | output
  | indent

/-- The flags. -/
inductive Flag
  | force
  | compact

/-- A count of spaces: digits, which a plus sign may precede, for a number of 64 bits. -/
def count? (text : List Char) : Option Nat :=
  let digits := match text with
    | '+' :: rest => rest
    | _ => text
  if digits.isEmpty || !digits.all Char.isDigit then none
  else
    let n := digits.foldl (fun n c => 10 * n + (c.toNat - 48)) 0
    if n < Nat.pow 2 64 then some n else none

namespace Given

/-- Takes a manifest. -/
def setManifest (path : String) (g : Given) : Except Request Given :=
  if g.manifest.isSome || path.isEmpty then .error .usageError
  else .ok { g with manifest := some path }

/-- Takes an option with its value. -/
def setValue (option : ValueOption) (value : List Char) (g : Given) : Except Request Given :=
  match option with
  | .output =>
    if g.output.isSome || value.isEmpty then .error .usageError
    else .ok { g with output := some (.ofList value) }
  | .indent =>
    match g.indent, count? value with
    | none, some n => .ok { g with indent := some n }
    | _, _ => .error .usageError

/-- Takes a flag. -/
def setFlag (flag : Flag) (g : Given) : Except Request Given :=
  match flag with
  | .force => if g.force then .error .usageError else .ok { g with force := true }
  | .compact => if g.compact then .error .usageError else .ok { g with compact := true }

/-- What is asked for once all arguments are taken. -/
def request (g : Given) : Request :=
  match g.manifest with
  | none => .usageError
  | some manifest =>
    .run ⟨manifest, g.output, g.force, g.indent.getD 4, g.compact⟩

/-- Takes manifests only. -/
def takeManifests (g : Given) (arguments : List String) : Except Request Given :=
  arguments.foldlM (fun g path => g.setManifest path) g

end Given

/-- What an argument leads to: it is done with, or its option waits for a value. -/
abbrev Taken := Except Request (Given × Option ValueOption)

/-- Takes the letters behind a hyphen: flags up to an option, whose value may be attached with or
without an equals sign. -/
def takeLetters (g : Given) : List Char → Taken
  | [] => .ok (g, none)
  | 'f' :: rest => do takeLetters (← g.setFlag .force) rest
  | 'o' :: [] => .ok (g, some .output)
  | 'o' :: '=' :: value => return (← g.setValue .output value, none)
  | 'o' :: value => return (← g.setValue .output value, none)
  | 'V' :: _ => .error .version
  | 'h' :: _ => .error .help
  | _ => .error .usageError

/-- Takes the word behind two hyphens, with the value that is attached to it, if one is. -/
def takeWord (g : Given) (word : List Char) (value : Option (List Char)) : Taken :=
  let flag (result : Taken) : Taken := if value.isSome then .error .usageError else result
  let withValue (option : ValueOption) : Taken :=
    match value with
    | none => .ok (g, some option)
    | some v => return (← g.setValue option v, none)
  match String.ofList word with
  | "output" => withValue .output
  | "indent" => withValue .indent
  | "force" => flag do return (← g.setFlag .force, none)
  | "compact" => flag do return (← g.setFlag .compact, none)
  | "version" => flag (.error .version)
  | "help" => flag (.error .help)
  | _ => .error .usageError

/-- Takes one argument that is not the value of an option. -/
def takeArgument (g : Given) (argument : String) : Taken :=
  match argument.toList with
  | '-' :: '-' :: rest =>
    let word := rest.takeWhile (· != '=')
    takeWord g word (if word.length < rest.length then some (rest.drop (word.length + 1)) else none)
  | '-' :: letter :: letters => takeLetters g (letter :: letters)
  | _ => return (← g.setManifest argument, none)

/-- Whether an argument can be the value of an option in front of it. -/
def isValue (argument : String) : Bool :=
  argument == "-" || argument.toList.head? != some '-'

/-- Takes arguments one after the other. -/
def takeAll (g : Given) : List String → Except Request Given
  | [] => .ok g
  | argument :: rest =>
    if argument = "--" then g.takeManifests rest
    else
      match takeArgument g argument with
      | .error r => .error r
      | .ok (g, none) => takeAll g rest
      | .ok (g, some option) =>
        match rest with
        | [] => .error .usageError
        | value :: rest =>
          if isValue value then
            match g.setValue option value.toList with
            | .error r => .error r
            | .ok g => takeAll g rest
          else .error .usageError

/-- What some arguments ask for. -/
def parse (arguments : List String) : Request :=
  match takeAll {} arguments with
  | .ok g => g.request
  | .error r => r

/-! ### Runs -/

/-- The name and version of the program. -/
def versionText : String := "ussgen 0.1.0"

/-- How a run ends. -/
structure Outcome where
  /-- What is printed. -/
  output : String
  /-- Why the run failed, if it did. -/
  error : Option String
  journal : Journal

/-- The exit code of a run. -/
def Outcome.code (o : Outcome) : UInt32 := if o.error.isSome then 1 else 0

/-- The layout that is asked for. -/
def Options.layout (o : Options) : Layout :=
  Layout.withBlankLines (!o.compact) (Layout.withIndent o.indent {})

/-- The warning about rules that are not valid, if there are any. -/
def invalidEvents (s : Sheet) : List Event :=
  if s.invalidRules.isEmpty then []
  else [⟨.warn, "stylesheet contains invalid rules",
    [("count", toString s.invalidRules.length)]⟩]

/-- Loads the sheet of a manifest, which may have failed to be read: what was reported, and the
sheet or a failure. -/
def loadSheet (manifest : Except Failure Manifest) (layout : Layout) : Reporting Sheet :=
  match manifest with
  | .error e => .fail e
  | .ok m => Prod.fst <$> m.load layout 1

/-- Prints or exports a sheet. -/
def deliver {m : Type → Type} [Monad m] (files : Files m) (o : Options) (s : Sheet)
    (j : Journal) : m Outcome := do
  match o.output with
  | none => return ⟨s.display, none, j⟩
  | some directory =>
    let (success, j) ← s.exportWith files.writer .log directory o.force j
    let error := "could not export '" ++ s.name ++ "' to " ++ directory
    return ⟨"", if success then none else some error, j⟩

/-- Runs with some options. -/
def run {m : Type → Type} [Monad m] (files : Files m) (o : Options) : m Outcome := do
  let loaded := loadSheet (← Manifest.ofFile files o.manifest) o.layout
  let j := Journal.reportAll .log (loaded.reports.map Violation.message) {}
  match loaded.result with
  | .error e => return ⟨"", some (o.manifest ++ ": " ++ e.message), j⟩
  | .ok s => deliver files o s (j.announce (Manifest.loadedEvent s :: invalidEvents s))

end UiStyle.CommandLine
