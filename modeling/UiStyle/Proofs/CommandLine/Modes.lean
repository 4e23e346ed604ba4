import UiStyle.CommandLine.Run
import UiStyle.Proofs.Export.Containment

/-!
# Printing and exporting

A run of the command line prints a sheet or exports it to a directory.  This file compares the two
runs with the same options on the same disk: `modes_agree` says that they fail alike if the manifest
does not load, and otherwise give the same text, the one on the output and the other in a file.

Three facts make it up.

* Loading looks at neither the directory nor the flag, and leaves the disk as it is (`runOn_eq`).
  So both runs have the same sheet, or the same reason to fail.
* An export has code 0 exactly if its request could be carried out (`deliver_export` with
  `Disk.isOk_serve_iff`), and then its file is read with what the request holds
  (`Disk.Writes.read`).
* The one run writes a line end behind every line, the other between the lines and one behind all of
  them.  This is the same text, except for a sheet without lines, of which the one prints nothing
  and the other writes a line end (`Sheet.display_eq`, `Sheet.content_request`).
-/

namespace UiStyle

/-! ### The end of the text -/

/-- Line ends between lines and one behind them are line ends behind each of them. -/
theorem intercalate_newline (line : String) (lines : List String) :
    "\n".intercalate (line :: lines) ++ "\n" = String.join ((line :: lines).map (· ++ "\n")) := by
  induction lines generalizing line with
  | nil => simp [String.join_cons]
  | cons next lines ih =>
      calc "\n".intercalate (line :: next :: lines) ++ "\n"
          = line ++ "\n" ++ ("\n".intercalate (next :: lines) ++ "\n") := by
            simp only [String.intercalate_cons_cons, String.append_assoc]
        _ = line ++ "\n" ++ String.join ((next :: lines).map (· ++ "\n")) := by rw [ih]
        _ = String.join ((line :: next :: lines).map (· ++ "\n")) := by
            rw [← String.join_cons]
            rfl

namespace Sheet

theorem display_eq (s : Sheet) : s.display = if s.lines = [] then "" else s.text ++ "\n" := by
  rw [display, text]
  cases hlines : s.lines with
  | nil => rfl
  | cons line lines => rw [if_neg (List.cons_ne_nil _ _), intercalate_newline]

/-- What is written is what is printed, or a line end in place of nothing. -/
theorem content_request (s : Sheet) (directory : String) (overwrite : Bool) :
    (s.request directory overwrite).content = if s.display = "" then "\n" else s.display := by
  have hcontent : (s.request directory overwrite).content = s.text ++ "\n" := rfl
  rw [hcontent, display_eq]
  by_cases hlines : s.lines = []
  · simp [hlines, text]
  · have hnonempty : s.text ++ "\n" ≠ "" := by simp
    rw [if_neg hlines, if_neg hnonempty]

example : (new "Card").display = "" ∧ ((new "Card").request "out" false).content = "\n" := by
  decide

end Sheet

namespace CommandLine

/-- What a run with some options finds on a disk to load. -/
def loadedOn (d : Disk) (o : Options) : Reporting Sheet :=
  loadSheet ((Manifest.ofFile Disk.files o.manifest).run d).1 o.layout

/-- How a run ends on a disk, and the disk afterwards. -/
def runOn (d : Disk) (o : Options) : Outcome × Disk :=
  (run Disk.files o).run d

/-- A run that says why it failed, prints nothing and changes nothing. -/
structure Fails (d : Disk) (error : String) (ended : Outcome × Disk) : Prop where
  code_eq : ended.1.code = 1
  error_eq : ended.1.error = some error
  output_eq : ended.1.output = ""
  disk_eq : ended.2 = d

/-- A run that prints a text and changes nothing. -/
structure Prints (d : Disk) (text : String) (ended : Outcome × Disk) : Prop where
  code_eq : ended.1.code = 0
  output_eq : ended.1.output = text
  disk_eq : ended.2 = d

/-- A run that prints nothing and says with its code whether a request could be carried out.  If it
could, the file holds a text then, or a line end in place of no text. -/
structure Exports (d : Disk) (r : WriteRequest) (text : String) (ended : Outcome × Disk) :
    Prop where
  output_eq : ended.1.output = ""
  code_eq : ended.1.code = 0 ↔ ∃ after, d.Writes r after
  disk_eq : ended.2 = (d.serve r).2
  read_eq : ended.1.code = 0 →
    ended.2.read r.path = .ok (Text.Utf8.encode (if text = "" then "\n" else text))

variable {d : Disk} {o : Options} {s : Sheet}

theorem Outcome.code_eq_zero_iff {outcome : Outcome} :
    outcome.code = 0 ↔ outcome.error = none := by
  unfold Outcome.code
  cases outcome.error <;> simp

/-! ### Loading -/

/-- Reading a manifest leaves a disk as it is. -/
theorem ofFile_run (d : Disk) (path : String) :
    ((Manifest.ofFile Disk.files path).run d).2 = d := by
  simp only [Manifest.ofFile, Disk.files]
  cases h : d.read path <;> simp [h] <;> rfl

/-- The journal of a run when all has been loaded, or as much as could be. -/
def loadedJournal (d : Disk) (o : Options) : Journal :=
  Journal.reportAll .log ((loadedOn d o).reports.map Violation.message) {}

/-- A run loads, and then fails or goes on from the disk that it found. -/
theorem runOn_eq (d : Disk) (o : Options) : runOn d o =
    match (loadedOn d o).result with
    | .error e => (⟨"", some (o.manifest ++ ": " ++ e.message), loadedJournal d o⟩, d)
    | .ok s =>
      (deliver Disk.files o s
        ((loadedJournal d o).announce (Manifest.loadedEvent s :: invalidEvents s))).run d := by
  have hread : (Manifest.ofFile Disk.files o.manifest).run d =
      (((Manifest.ofFile Disk.files o.manifest).run d).1, d) :=
    Prod.ext rfl (ofFile_run d o.manifest)
  rw [runOn, run, StateT.run_bind, hread]
  dsimp only [loadedOn, bind]
  cases (loadSheet ((Manifest.ofFile Disk.files o.manifest).run d).1 o.layout).result <;> rfl

theorem fails_of_error {e : Failure} (h : (loadedOn d o).result = .error e) :
    Fails d (o.manifest ++ ": " ++ e.message) (runOn d o) := by
  rw [runOn_eq, h]
  exact ⟨rfl, rfl, rfl, rfl⟩

/-! ### Delivering -/

theorem prints_of_ok (h : (loadedOn d o).result = .ok s) (hmode : o.output = none) :
    Prints d s.display (runOn d o) := by
  rw [runOn_eq, h]
  simp only [deliver, hmode]
  exact ⟨rfl, rfl, rfl⟩

/-- What an export leaves is what its request leaves. -/
theorem deliver_export {directory : String} (hmode : o.output = some directory) (j : Journal) :
    ((deliver Disk.files o s j).run d).1.output = "" ∧
      (((deliver Disk.files o s j).run d).1.error = none ↔
        (d.serve (s.request directory o.force)).1.1.isOk = true) ∧
      ((deliver Disk.files o s j).run d).2 = (d.serve (s.request directory o.force)).2 := by
  obtain ⟨hsucceeded, hafter⟩ := s.run_exportWith .log directory o.force j d
  simp only [deliver, hmode, StateT.run_bind]
  rcases hexport : (s.exportWith Disk.files.writer .log directory o.force j).run d with
    ⟨⟨succeeded, j'⟩, after⟩
  rw [hexport] at hsucceeded hafter
  rw [← hsucceeded]
  refine ⟨rfl, ?_, hafter⟩
  cases succeeded with
  | true => exact iff_of_true rfl rfl
  | false => exact iff_of_false nofun Bool.false_ne_true

theorem exports_of_ok (h : (loadedOn d o).result = .ok s) {directory : String}
    (hmode : o.output = some directory) :
    Exports d (s.request directory o.force) s.display (runOn d o) := by
  have hrun := runOn_eq d o
  simp only [h] at hrun
  obtain ⟨houtput, herror, hdisk⟩ := deliver_export (d := d) (s := s) hmode
    ((loadedJournal d o).announce (Manifest.loadedEvent s :: invalidEvents s))
  rw [← hrun] at houtput herror hdisk
  have hcode : (runOn d o).1.code = 0 ↔ ∃ after, d.Writes (s.request directory o.force) after := by
    rw [Outcome.code_eq_zero_iff, herror, Disk.isOk_serve_iff]
  refine ⟨houtput, hcode, hdisk, fun hzero => ?_⟩
  obtain ⟨after, hwrites⟩ := hcode.mp hzero
  rw [hdisk, Disk.serve_of_writes hwrites, hwrites.read, s.content_request]

/-- **The two ways to run.**  With the same options on the same disk, a run that prints and a run
that exports to a directory

* both fail if the manifest does not load: with code 1, for the same reason, without output, and
  the disk stays as it is;
* otherwise give the same text.  The one prints it, with code 0, whichever rules are invalid, and
  leaves the disk as it is.  The other prints nothing and has code 0 exactly if the file could be
  written; then the file holds the text, or a line end if the text is empty. -/
theorem modes_agree (d : Disk) (o : Options) (directory : String) :
    match (loadedOn d o).result with
    | .error e =>
      Fails d (o.manifest ++ ": " ++ e.message) (runOn d { o with output := none }) ∧
        Fails d (o.manifest ++ ": " ++ e.message) (runOn d { o with output := some directory })
    | .ok s =>
      Prints d s.display (runOn d { o with output := none }) ∧
        Exports d (s.request directory o.force) s.display
          (runOn d { o with output := some directory }) := by
  -- what is loaded does not depend on where the sheet goes
  have hloaded : ∀ output, (loadedOn d { o with output }).result = (loadedOn d o).result :=
    fun _ => rfl
  cases hresult : (loadedOn d o).result with
  | error e =>
      exact ⟨fails_of_error ((hloaded none).trans hresult),
        fails_of_error ((hloaded (some directory)).trans hresult)⟩
  | ok s =>
      exact ⟨prints_of_ok ((hloaded none).trans hresult) rfl,
        exports_of_ok ((hloaded (some directory)).trans hresult) rfl⟩

/-! A manifest with a value that its property does not allow is printed all the same. -/

example :
    let manifest := "\x7b\"name\": \"Card\", \"selectors\": [\x7b\"selector\": \".card\"," ++
      "\"rules\": \x7b\"width\": \"1px\", \"padding\": \"auto\"\x7d\x7d]\x7d"
    let d : Disk := ⟨[(["card.json"], .file (Text.Utf8.encode manifest))], []⟩
    let ended := runOn d ⟨"card.json", none, false, 4, false⟩
    ended.1.output = ".card \x7b\n    width: 1px;\n    padding: auto;\n\x7d\n" ∧
      ended.1.code = 0 := by
  decide +kernel

end CommandLine

end UiStyle
