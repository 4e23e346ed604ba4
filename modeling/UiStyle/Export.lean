import UiStyle.Disk
import UiStyle.Journal
import UiStyle.Sheet

/-!
# Exporting sheets

A sheet is exported by handing its lines to a writer, which answers with the path it wrote or with a
failure and adds events to the log.  Success is announced and failure reported, and the export
itself says only which of the two it was.  The writer that makes files refuses to touch an existing
one unless it may overwrite, then makes the directory, then writes.
-/

namespace UiStyle

/-- The file that a sheet is exported to; the extension may be given with dots in front of it. -/
def Path.target (directory base extension : String) : String :=
  let bare := stripDots extension
  join directory (if bare.isEmpty then base else base ++ "." ++ bare)

/-- What a writer is asked to write. -/
structure WriteRequest where
  lines : List String
  base : String
  extension : String
  directory : String
  overwrite : Bool

namespace WriteRequest

/-- The path to write to. -/
def path (r : WriteRequest) : String := Path.target r.directory r.base r.extension

/-- The text to write, every line of which ends. -/
def content (r : WriteRequest) : String := "\n".intercalate r.lines ++ "\n"

/-- What is announced when a file has been written. -/
def writtenEvent (r : WriteRequest) : Event :=
  ⟨.debug, "wrote stylesheet", [("path", r.path), ("lines", toString r.lines.length)]⟩

end WriteRequest

/-- What writes: it answers with the path written or with a failure, and with events. -/
abbrev Writer (m : Type → Type) := WriteRequest → m (Except Failure String × List Event)

/-- The writer that makes files. -/
def Files.writer {m : Type → Type} [Monad m] (files : Files m) : Writer m := fun r => do
  if !r.overwrite && (← files.has r.path) then
    return (.error (.alreadyExists r.path), [])
  if let some detail ← files.makeDirectories r.directory then
    return (.error (.io detail), [])
  if let some detail ← files.write r.path (Text.Utf8.encode r.content) then
    return (.error (.io detail), [])
  return (.ok r.path, [r.writtenEvent])

namespace Sheet

/-- What a writer is asked to write for a sheet. -/
def request (s : Sheet) (directory : String) (overwrite : Bool) : WriteRequest :=
  ⟨s.lines, s.name, s.layout.extension, directory, overwrite⟩

/-- What is announced when a sheet has been exported. -/
def exportedEvent (s : Sheet) (path : String) : Event :=
  ⟨.info, "exported stylesheet", [("sheet", s.name), ("path", path)]⟩

/-- What is reported when a sheet could not be exported. -/
def exportReport (s : Sheet) (e : Failure) : String :=
  "failed to export stylesheet '" ++ s.name ++ "': " ++ e.message

/-- Exports a sheet through a writer, reporting to a sink: whether it succeeded, and the journal
afterwards. -/
def exportWith {m : Type → Type} [Monad m] (writer : Writer m) (sink : Sink) (s : Sheet)
    (directory : String) (overwrite : Bool) (j : Journal) : m (Bool × Journal) := do
  let (result, events) ← writer (s.request directory overwrite)
  let j := j.announce events
  match result with
  | .ok path => return (true, j.announce [s.exportedEvent path])
  | .error e => return (false, j.report sink (some (s.exportReport e)))

end Sheet

end UiStyle
