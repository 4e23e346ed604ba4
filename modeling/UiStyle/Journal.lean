/-!
# Reports, events and failures

What goes wrong without stopping anything is reported, and a report goes to one of two places: a
list kept in memory, or the log, where it becomes a warning.  The log also holds the events that an
operation announces.  Both only ever grow at their end.

Making rules never fails.  Reading a manifest and writing a file can, in four ways.
-/

namespace UiStyle

/-- How much an event matters. -/
inductive Level
  | debug
  | info
  | warn
  deriving DecidableEq

/-- An entry of the log. -/
structure Event where
  level : Level
  message : String
  fields : List (String × String)
  deriving DecidableEq

namespace Event

/-- The event that a report in the log becomes. -/
def warning (message : String) : Event := ⟨.warn, message, []⟩

/-- Whether an event is a warning. -/
def isWarning (e : Event) : Bool := e.level == .warn

end Event

/-- Where reports go. -/
inductive Sink
  | memory
  | log
  deriving DecidableEq

/-- What is reported in place of a report without a text. -/
def missingMessage : String := "diagnostic reported without a message"

/-- The text of a report that may lack one. -/
def reportText (message : Option String) : String :=
  match message with
  | some text => if text.isEmpty then missingMessage else text
  | none => missingMessage

/-- A report as it is shown together with the place it comes from. -/
def displayReport (message site : String) : String :=
  message ++ " (" ++ site ++ ")"

/-- The reports kept in memory and the events of the log, oldest first. -/
structure Journal where
  reports : List String := []
  events : List Event := []

namespace Journal

/-- Sends a text to a sink as it is. -/
def emit (sink : Sink) (message : String) (j : Journal) : Journal :=
  match sink with
  | .memory => { j with reports := j.reports ++ [message] }
  | .log => { j with events := j.events ++ [.warning message] }

/-- Sends a report to a sink. -/
def report (sink : Sink) (message : Option String) (j : Journal) : Journal :=
  j.emit sink (reportText message)

/-- Sends several reports to a sink, in order. -/
def reportAll (sink : Sink) (messages : List String) (j : Journal) : Journal :=
  messages.foldl (fun j message => j.report sink (some message)) j

/-- Adds events to the log. -/
def announce (events : List Event) (j : Journal) : Journal :=
  { j with events := j.events ++ events }

/-- Drops the reports kept in memory. -/
def clear (j : Journal) : Journal :=
  { j with reports := [] }

end Journal

/-! ### Failures -/

/-- Why a manifest could not be loaded or a sheet not be written. -/
inductive Failure
  /-- A file operation failed; the detail is the system's. -/
  | io (detail : String)
  | alreadyExists (path : String)
  | unknownProperty (name : String)
  | manifest (problem : String)
  deriving DecidableEq

namespace Failure

/-- The text of a failure. -/
def message : Failure → String
  | .io detail => "I/O error: " ++ detail
  | .alreadyExists path => "refusing to overwrite existing file " ++ path
  | .unknownProperty name => "unknown property: " ++ name
  | .manifest problem => "invalid manifest: " ++ problem

end Failure

end UiStyle
