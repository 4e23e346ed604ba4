import UiStyle.CommandLine.Run

/-!
# The program

Runs the command line on real files: the sheet goes to standard output, warnings and the reason of a
failure to standard error.
-/

namespace UiStyle.CommandLine

/-- The words of an error, or nothing if an action succeeds. -/
def failing (action : IO Unit) : IO (Option String) := do
  try
    action
    return none
  catch e => return some (toString e)

/-- The files of the system. -/
def systemFiles : Files IO where
  read path := do
    try return .ok (← IO.FS.readBinFile path).toList
    catch e => return .error (toString e)
  has path := return (← failing (discard (IO.FS.realPath path))).isNone
  makeDirectories path := if path.isEmpty then return none else failing (IO.FS.createDirAll path)
  write path content := failing (IO.FS.writeBinFile path ⟨content.toArray⟩)

/-- How the program is used. -/
def usageText : String :=
  "Build USS stylesheets from JSON manifests\n\n" ++
  "Usage: ussgen [OPTIONS] <MANIFEST>\n\n" ++
  "Options:\n" ++
  "  -o, --output <DIR>     Directory to export into (prints to stdout when omitted)\n" ++
  "  -f, --force            Replace an existing stylesheet file\n" ++
  "      --indent <INDENT>  Spaces before each rule [default: 4]\n" ++
  "      --compact          Do not separate selector blocks with blank lines\n" ++
  "  -h, --help             Print help\n" ++
  "  -V, --version          Print version"

/-- Does what is asked for and answers with the exit code. -/
def answer : Request → IO UInt32
  | .version => do
    IO.println versionText
    return 0
  | .help => do
    IO.println usageText
    return 0
  | .usageError => do
    IO.eprintln usageText
    return 2
  | .run options => do
    let outcome ← run systemFiles options
    for event in outcome.journal.events do
      if event.isWarning then IO.eprintln ("WARN " ++ event.message)
    IO.print outcome.output
    if let some error := outcome.error then IO.eprintln ("error: " ++ error)
    return outcome.code

end UiStyle.CommandLine

/-- Runs the program. -/
def main (arguments : List String) : IO UInt32 :=
  UiStyle.CommandLine.answer (UiStyle.CommandLine.parse arguments)
