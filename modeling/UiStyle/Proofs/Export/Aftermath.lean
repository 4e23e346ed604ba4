import UiStyle.Proofs.CommandLine.Modes
import UiStyle.Proofs.Export.Containment
import UiStyle.Proofs.Export.Overwrite

/-!
# What an export leaves behind

An export that succeeds has written one file and made the directories above it that were missing;
everything else on the disk is as it was (`Disk.Leaves`).  Doing it again on this disk finds the
directory and the file, so without permission to overwrite it is refused, and with permission it
writes what is there already (`Sheet.Repeats`).  An export that fails may have made directories but
changes no file.  `Sheet.export_leaves` puts this together.

Directories come in only while the directory of the request is made, and the file only after that.
So what a path led to when a directory was made there, it leads to at the end
(`Disk.Grows.keepsPaths`, `Disk.KeepsPaths.setNode`), and the places that are new can be named by
paths on the disk that is left.
-/

namespace UiStyle

/-! ### Dots in front of an extension -/

/-- However many dots an extension starts with, the path is the same. -/
theorem Path.target_dots (directory base extension : String) (dots : Nat) :
    target directory base (.ofList (List.replicate dots '.') ++ extension) =
      target directory base extension := by
  have hstrip : stripDots (.ofList (List.replicate dots '.') ++ extension) =
      stripDots extension := by
    rw [stripDots, stripDots, String.toList_append, String.toList_ofList]
    refine congrArg String.ofList (List.dropWhile_append_of_pos fun c hc => ?_)
    rw [List.eq_of_mem_replicate hc]
    rfl
  rw [target, target, hstrip]

namespace Disk

/-! ### The disk that is left -/

/-- On the disk `after`, a path leads to a file with a text, and apart from this file there is what
was on the disk `d`, and new directories, each at the end of a path of `directory` or of one above
it. -/
structure Leaves (d : Disk) (path directory text : String) (after : Disk) : Prop where
  start_eq : after.start = d.start
  read_eq : after.read path = .ok (Text.Utf8.encode text)
  directories : ∀ place, d.node? place = some .directory → after.node? place = some .directory
  files : ∀ place content, d.node? place = some (.file content) →
    after.node? place = some (.file content) ∨
      after.resolve path = .ok place ∧ after.node? place = some (.file (Text.Utf8.encode text))
  fresh : ∀ place n, d.node? place = none → after.node? place = some n →
    (n = .file (Text.Utf8.encode text) ∧ after.resolve path = .ok place) ∨
      (n = .directory ∧
        ∃ above, Path.IsUpward directory above ∧ after.resolve above = .ok place)
  opened : directory ≠ "" → after.isDirectory directory = true

variable {d after : Disk} {r : WriteRequest}

theorem Writes.leaves (h : d.Writes r after) : d.Leaves r.path r.directory r.content after := by
  have hgrows := growsAlong_makeDirectories d r.directory
  obtain ⟨target, hnonempty, hdir, hafter, hresolve⟩ := resolve_of_write h.written
  have hkeeps : (d.makeDirectories r.directory).1.KeepsPaths after := by
    rw [hafter]
    exact .setNode hnonempty hdir _
  have hnode : ∀ place, after.node? place = if place = target
      then some (.file (Text.Utf8.encode r.content))
      else (d.makeDirectories r.directory).1.node? place := by
    rw [hafter]
    exact node?_setNode hnonempty _
  refine ⟨hkeeps.start.trans hgrows.start, h.read, fun place hplace => ?_,
    fun place content hplace => ?_, fun place n hnone hn => ?_, fun hdirectory => ?_⟩
  · exact hkeeps.directory place (hgrows.kept place _ hplace)
  · by_cases htarget : place = target
    · subst htarget
      exact .inr ⟨hresolve, by rw [hnode, if_pos rfl]⟩
    · exact .inl (by rw [hnode, if_neg htarget, hgrows.kept place _ hplace])
  · by_cases htarget : place = target
    · subst htarget
      rw [hnode, if_pos rfl] at hn
      exact .inl ⟨(Option.some.inj hn).symm, hresolve⟩
    · rw [hnode, if_neg htarget] at hn
      rcases hgrows.fresh place hnone with hmid | hmid
      · rw [hmid] at hn
        cases hn
      · obtain ⟨above, habove, hleads⟩ := hgrows.leads place hnone hmid
        rw [hmid] at hn
        exact .inr ⟨(Option.some.inj hn).symm, above, habove, hkeeps.resolve hleads⟩
  · exact hkeeps.isDirectory (isDirectory_of_makeDirectories hdirectory h.made)

/-- No directories are missing any more. -/
theorem Leaves.makeDirectories {path directory text : String}
    (h : d.Leaves path directory text after) : after.makeDirectories directory = (after, none) := by
  by_cases hdirectory : directory = ""
  · subst hdirectory
    rfl
  · exact makeDirectories_of_isDirectory (h.opened hdirectory)

theorem has_of_read {path : String} {content : List UInt8} (h : d.read path = .ok content) :
    d.has path = true := by
  obtain ⟨n, hn, -⟩ := bind_eq_ok.mp h
  rw [has, hn]
  rfl

/-- A request that was carried out can be carried out again, if it may overwrite, and this changes
nothing. -/
theorem Writes.again (h : d.Writes r after) : after.Writes { r with overwrite := true } after := by
  have hmade := h.leaves.makeDirectories
  refine ⟨nofun, ?_, ?_⟩
  · rw [hmade]
  · rw [hmade]
    exact write_of_write h.written

/-- A request that fails changes no file. -/
theorem files_serve_of_error {e : Failure} (h : (d.serve r).1.1 = .error e) {place : List String}
    {content : List UInt8} :
    (d.serve r).2.node? place = some (.file content) ↔ d.node? place = some (.file content) := by
  have hgrows := grows_serve_of_error h
  refine ⟨fun hafter => ?_, hgrows.keepsFiles place content⟩
  cases hold : d.node? place with
  | some n => rw [← hgrows.kept place n hold, hafter]
  | none =>
      rcases hgrows.fresh place hold with hnew | hnew
      · rw [hnew] at hafter
        cases hafter
      · rw [hnew] at hafter
        cases hafter

end Disk

namespace Sheet

/-- On a disk, the export of a sheet to a directory is refused without permission to overwrite,
which is reported, and succeeds with permission; neither changes anything. -/
structure Repeats (s : Sheet) (directory : String) (d : Disk) : Prop where
  answered : (d.serve (s.request directory false)).1.1 =
    .error (.alreadyExists (Path.target directory s.name s.layout.extension))
  refused : ∀ sink j, (s.exportWith Disk.files.writer sink directory false j).run d =
    ((false, j.report sink (some (s.exportReport
      (.alreadyExists (Path.target directory s.name s.layout.extension))))), d)
  rewritten : ∀ sink j, ∃ j', (s.exportWith Disk.files.writer sink directory true j).run d =
    ((true, j'), d)

theorem repeats_of_writes {s : Sheet} {directory : String} {overwrite : Bool} {d after : Disk}
    (h : d.Writes (s.request directory overwrite) after) : s.Repeats directory after := by
  -- the flag is no part of the path or of the text, so both requests are those of the first export
  have hthere : after.has (s.request directory false).path = true := Disk.has_of_read h.read
  have hrefused := Disk.serve_of_has (r := s.request directory false) rfl hthere
  have hwrites : after.Writes (s.request directory true) after := h.again
  refine ⟨?_, fun sink j => ?_, fun sink j => ?_⟩
  · rw [hrefused]
    rfl
  · rw [exportWith_of_serve hrefused]
    simp [Journal.announce, WriteRequest.path, request]
  · rw [exportWith_of_serve (Disk.serve_of_writes hwrites)]
    exact ⟨_, rfl⟩

/-- **What an export leaves behind.**  An export that succeeds

* has written the text of the sheet and a line end to its path, and made directories that were
  missing up to the given one, and has changed nothing else;
* is refused when it is repeated at once, and changes nothing when it is repeated with permission to
  overwrite.

One that fails has changed no file.  What is written is what a sheet with lines is displayed as, and
the path is the same for any number of dots in front of the extension. -/
theorem export_leaves (s : Sheet) (sink : Sink) (directory : String) (overwrite : Bool)
    (j : Journal) (d : Disk) :
    let ended := (s.exportWith Disk.files.writer sink directory overwrite j).run d
    (ended.1.1 = true →
        d.Leaves (Path.target directory s.name s.layout.extension) directory (s.text ++ "\n")
            ended.2 ∧
          s.Repeats directory ended.2) ∧
      (ended.1.1 = false → ∀ place content,
        ended.2.node? place = some (.file content) ↔ d.node? place = some (.file content)) ∧
      (s.lines ≠ [] → s.text ++ "\n" = s.display) ∧
      ∀ dots extension,
        Path.target directory s.name (.ofList (List.replicate dots '.') ++ extension) =
          Path.target directory s.name extension := by
  intro ended
  obtain ⟨hsucceeded, hafter⟩ := s.run_exportWith sink directory overwrite j d
  refine ⟨fun hok => ?_, fun hfailed place content => ?_, fun hlines => ?_,
    fun dots extension => Path.target_dots directory s.name extension dots⟩
  · obtain ⟨after, hwrites⟩ := Disk.isOk_serve_iff.mp (hsucceeded.symm.trans hok)
    have hended : ended.2 = after := by
      rw [hafter, Disk.serve_of_writes hwrites]
    rw [hended]
    exact ⟨hwrites.leaves, repeats_of_writes hwrites⟩
  · rw [hafter]
    cases hanswer : (d.serve (s.request directory overwrite)).1.1 with
    | error e => exact Disk.files_serve_of_error hanswer
    | ok path =>
        rw [hsucceeded, hanswer] at hfailed
        cases hfailed
  · rw [display_eq, if_neg hlines]

/-- A sheet with one rule. -/
def wideCard : Sheet :=
  { new "Card" with
    selectors := [{ Selector.new 1 ".card" with rules := [.withValidity .width "1px" true] }] }

/-- How the export of this sheet ends on a disk that has a file of its name in a directory. -/
def cardExported (directory : String) : (Bool × Journal) × Disk :=
  (wideCard.exportWith Disk.files.writer .memory directory false {}).run .withCard

/-- Into a missing directory the sheet is exported, and where the file is it fails. -/
theorem export_leaves_card :
    (cardExported "styles/new").1.1 = true ∧ wideCard.lines ≠ [] ∧
      Disk.withCard.Leaves "styles/new/Card.uss" "styles/new" wideCard.display
        (cardExported "styles/new").2 ∧
      wideCard.Repeats "styles/new" (cardExported "styles/new").2 ∧
      (cardExported "styles").1.1 = false ∧
      (cardExported "styles").2.node? ["ui", "styles", "Card.uss"] =
        some (.file (Text.Utf8.encode "keep")) := by
  have hsucceeded : (cardExported "styles/new").1.1 = true := by decide +kernel
  have hfailed : (cardExported "styles").1.1 = false := by decide +kernel
  have hlines : wideCard.lines ≠ [] := by decide
  obtain ⟨hleft, -, hdisplay, -⟩ := export_leaves wideCard .memory "styles/new" false {} .withCard
  obtain ⟨-, hkept, -⟩ := export_leaves wideCard .memory "styles" false {} .withCard
  obtain ⟨hleaves, hrepeats⟩ := hleft hsucceeded
  rw [hdisplay hlines] at hleaves
  exact ⟨hsucceeded, hlines, hleaves, hrepeats, hfailed,
    (hkept hfailed _ _).mpr (by decide +kernel)⟩

end Sheet

end UiStyle
