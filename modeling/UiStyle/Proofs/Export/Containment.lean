import UiStyle.Proofs.Disk.Pieces
import UiStyle.Proofs.Export.Outcome

/-!
# Where exports write

The file of a sheet has the name of the sheet and its extension (`Sheet.fileName`), and its path is
that name joined to a directory.  The name is any text.  As long as it holds no slash, an export
changes nothing but a file of this name in the directory, and the directories it has to make
(`Sheet.changes_export`); a slash in it takes the file elsewhere (`Sheet.export_outside`).

Whatever is written is written at the new place of the path, and this is the name in the place that
the directory leads to (`newPlace_join`).  It still leads there afterwards, because a file is never
written where a directory is.
-/

namespace UiStyle

namespace Path

theorem join_eq_append {name : String} (hname : '/' ∉ name.toList) (directory : String) :
    ∃ rest, join directory name = directory ++ rest := by
  have hrelative := isAbsolute_eq_false_of_notMem hname
  unfold join
  rw [hrelative, if_neg Bool.false_ne_true]
  split
  · exact ⟨name, rfl⟩
  · exact ⟨"/" ++ name, String.append_assoc⟩

/-- The name of a file with an extension, which may be given with dots in front of it. -/
def fileName (base extension : String) : String :=
  let bare := stripDots extension
  if bare.isEmpty then base else base ++ "." ++ bare

theorem target_eq_join (directory base extension : String) :
    target directory base extension = join directory (fileName base extension) := rfl

end Path

namespace Disk

variable {d : Disk}

/-- A path of a directory leads to a place; the empty path stands for where paths start. -/
def Opens (d : Disk) (directory : String) (place : List String) : Prop :=
  if directory = "" then place = d.start else d.resolve directory = .ok place

theorem origin_eq_ok {path : String} {start : List String} :
    d.origin path = .ok start ↔ '\x00' ∉ path.toList ∧ path.utf8ByteSize ≤ pathLimit ∧
      path ≠ "" ∧ start = if Path.isAbsolute path then [] else d.start := by
  unfold origin
  split
  · rename_i hnul
    simp [List.contains_iff_mem.mp hnul]
  · rename_i hnul
    split
    · rename_i hlong
      simp [Nat.not_le_of_lt hlong]
    · rename_i hlong
      split
      · rename_i hempty
        simp [String.isEmpty_iff.mp hempty]
      · rename_i hempty
        have hnul' : '\x00' ∉ path.toList := by simpa using hnul
        have hempty' : path ≠ "" := by simpa using hempty
        constructor
        · intro h
          exact ⟨hnul', Nat.le_of_not_lt hlong, hempty', (Except.ok.inj h).symm⟩
        · rintro ⟨-, -, -, rfl⟩
          rfl

/-- The new place of a name in a directory is the name behind the place of the directory. -/
theorem newPlace_join {directory name : String} (hname : '/' ∉ name.toList)
    {start place : List String} (horigin : d.origin (Path.join directory name) = .ok start)
    (h : d.newPlace start (Path.pieces (Path.join directory name)) = .ok (some place)) :
    ∃ parent, d.Opens directory parent ∧ place = parent ++ [name] := by
  obtain ⟨habsolute, front, trailing, hdirectory, htrailing, hpath⟩ :=
    Path.pieces_join hname directory
  rw [hpath] at h
  obtain ⟨front', last, parent, hsplit, hfront, hdir, -, -, rfl⟩ := newPlace_eq_ok.mp h
  obtain ⟨rfl, hlast⟩ := List.append_inj' hsplit rfl
  obtain rfl : name = last := List.singleton_inj.mp hlast
  obtain ⟨hnul, hsize, -, rfl⟩ := origin_eq_ok.mp horigin
  rw [habsolute] at hfront
  have hpieces : (Path.pieces directory).foldlM d.follow
      (if Path.isAbsolute directory then [] else d.start) = .ok parent := by
    rw [hdirectory]
    exact foldlM_append_eq_ok.mpr ⟨parent, hfront, foldlM_of_forall_eq_empty htrailing hdir⟩
  obtain ⟨rest, hrest⟩ := Path.join_eq_append hname directory
  rw [hrest, String.toList_append] at hnul
  rw [hrest, String.utf8ByteSize_append] at hsize
  refine ⟨parent, ?_, rfl⟩
  unfold Opens
  split
  · rename_i hempty
    subst hempty
    obtain ⟨next, hnext, hend⟩ := foldlM_cons_eq_ok.mp hpieces
    obtain rfl : next = parent := Except.ok.inj hend
    obtain ⟨-, -, hstep⟩ := follow_eq_ok.mp hnext
    cases hstep with
    | stay => rfl
    | up hup => exact absurd hup (by decide)
    | down hempty => exact absurd rfl hempty.nonempty
  · rename_i hempty
    refine resolve_eq_ok.mpr ⟨_, origin_eq_ok.mpr ⟨?_, ?_, hempty, rfl⟩, hpieces⟩
    · exact fun hmem => hnul (List.mem_append_left _ hmem)
    · omega

theorem KeepsPaths.opens {d' : Disk} (h : d.KeepsPaths d') {directory : String}
    {place : List String} (hopens : d.Opens directory place) : d'.Opens directory place := by
  unfold Opens at hopens ⊢
  split
  · rename_i hempty
    rw [if_pos hempty] at hopens
    rw [hopens, h.start]
  · rename_i hempty
    rw [if_neg hempty] at hopens
    exact h.resolve hopens

theorem Grows.changes {d' : Disk} (h : d.Grows d') {place : List String}
    (hchanged : d'.node? place ≠ d.node? place) :
    d.node? place = none ∧ d'.node? place = some .directory := by
  cases hnode : d.node? place with
  | some n =>
      rw [hnode, h.kept place n hnode] at hchanged
      exact absurd rfl hchanged
  | none =>
      rcases h.fresh place hnode with hnone | hdir
      · rw [hnode, hnone] at hchanged
        exact absurd rfl hchanged
      · exact ⟨rfl, hdir⟩

/-- A file without a slash in its name is written in the directory of its request. -/
theorem opens_of_write {r : WriteRequest} {after : Disk} {content : List UInt8}
    (hname : '/' ∉ (Path.fileName r.base r.extension).toList)
    (hwrite : d.write r.path content = .ok after) :
    ∃ parent, after.Opens r.directory parent ∧
      ∀ place, after.node? place =
        if place = parent ++ [Path.fileName r.base r.extension] then some (.file content)
        else d.node? place := by
  obtain ⟨start, place, horigin, hplace, hdir, rfl⟩ := write_eq_ok.mp hwrite
  have hnonempty := newPlace_ne_nil hplace
  rw [WriteRequest.path, Path.target_eq_join] at horigin hplace
  obtain ⟨parent, hopens, rfl⟩ := newPlace_join hname horigin hplace
  exact ⟨parent, (KeepsPaths.setNode hnonempty hdir _).opens hopens, node?_setNode hnonempty _⟩

/-- A request for a file without a slash in its name changes only this file of its directory, and
makes directories. -/
theorem changes_serve {r : WriteRequest} (hname : '/' ∉ (Path.fileName r.base r.extension).toList)
    {place : List String} (hchanged : (d.serve r).2.node? place ≠ d.node? place) :
    (d.node? place = none ∧ (d.serve r).2.node? place = some .directory) ∨
      ∃ parent, (d.serve r).2.Opens r.directory parent ∧
        place = parent ++ [Path.fileName r.base r.extension] := by
  cases hanswer : (d.serve r).1.1 with
  | error e => exact .inl ((grows_serve_of_error hanswer).changes hchanged)
  | ok path =>
      obtain ⟨-, -, hwrite⟩ := writes_of_serve_ok hanswer
      obtain ⟨parent, hopens, hafter⟩ := opens_of_write hname hwrite
      by_cases hplace : place = parent ++ [Path.fileName r.base r.extension]
      · exact .inr ⟨parent, hopens, hplace⟩
      · rw [hafter, if_neg hplace] at hchanged ⊢
        exact .inl ((grows_makeDirectories d r.directory).changes hchanged)

/-- A request that is answered with a path has written the file. -/
theorem node?_serve_of_ok {r : WriteRequest}
    (hname : '/' ∉ (Path.fileName r.base r.extension).toList) {path : String}
    (hanswer : (d.serve r).1.1 = .ok path) : ∃ parent, (d.serve r).2.Opens r.directory parent ∧
      (d.serve r).2.node? (parent ++ [Path.fileName r.base r.extension]) =
        some (.file (Text.Utf8.encode r.content)) := by
  obtain ⟨-, -, hwrite⟩ := writes_of_serve_ok hanswer
  obtain ⟨parent, hopens, hafter⟩ := opens_of_write hname hwrite
  refine ⟨parent, hopens, ?_⟩
  rw [hafter, if_pos rfl]

end Disk

namespace Sheet

/-- The name of the file of a sheet. -/
def fileName (s : Sheet) : String := Path.fileName s.name s.layout.extension

/-- An export tells the journal what its request is answered with. -/
theorem exportWith_of_serve {s : Sheet} {directory : String} {overwrite : Bool} {d after : Disk}
    {result : Except Failure String} {events : List Event}
    (h : d.serve (s.request directory overwrite) = ((result, events), after)) (sink : Sink)
    (j : Journal) :
    (s.exportWith Disk.files.writer sink directory overwrite j).run d =
      match result with
      | .ok path => ((true, (j.announce events).announce [s.exportedEvent path]), after)
      | .error e =>
        ((false, (j.announce events).report sink (some (s.exportReport e))), after) := by
  have hwriter : (Disk.files.writer (s.request directory overwrite)).run d =
      ((result, events), after) := h
  simp only [exportWith, StateT.run_bind, hwriter]
  cases result <;> rfl

/-- An export succeeds if its request is answered with a path, and leaves the disk that the request
does. -/
theorem run_exportWith (s : Sheet) (sink : Sink) (directory : String) (overwrite : Bool)
    (j : Journal) (d : Disk) :
    ((s.exportWith Disk.files.writer sink directory overwrite j).run d).1.1 =
        (d.serve (s.request directory overwrite)).1.1.isOk ∧
      ((s.exportWith Disk.files.writer sink directory overwrite j).run d).2 =
        (d.serve (s.request directory overwrite)).2 := by
  rcases hserve : d.serve (s.request directory overwrite) with ⟨⟨e | path, events⟩, after⟩
  · rw [exportWith_of_serve hserve]
    exact ⟨rfl, rfl⟩
  · rw [exportWith_of_serve hserve]
    exact ⟨rfl, rfl⟩

/-- **Where sheets are exported.**  The target of a sheet is its file in the directory exactly if
the name of the file is that of a file.  Unless there is a slash in it, an export

* changes only this file of the directory, and makes directories;
* has written the file if it succeeds. -/
theorem changes_export (s : Sheet) :
    (∀ directory, Path.IsFileIn directory s.fileName
        (Path.target directory s.name s.layout.extension) ↔ Path.IsFileName s.fileName) ∧
      ('/' ∉ s.fileName.toList → ∀ sink directory overwrite j d succeeded j' d',
        (s.exportWith Disk.files.writer sink directory overwrite j).run d =
            ((succeeded, j'), d') →
          (∀ place, d'.node? place ≠ d.node? place →
            (d.node? place = none ∧ d'.node? place = some .directory) ∨
              ∃ parent, d'.Opens directory parent ∧ place = parent ++ [s.fileName]) ∧
          (succeeded = true → ∃ parent, d'.Opens directory parent ∧
            d'.node? (parent ++ [s.fileName]) =
              some (.file (Text.Utf8.encode (s.text ++ "\n"))))) := by
  refine ⟨fun directory => Path.isFileIn_join_iff, ?_⟩
  intro hname sink directory overwrite j d succeeded j' d' hrun
  obtain ⟨hsucceeded, hafter⟩ := s.run_exportWith sink directory overwrite j d
  rw [hrun] at hsucceeded hafter
  subst hsucceeded hafter
  refine ⟨fun place => Disk.changes_serve (r := s.request directory overwrite) hname, fun hok => ?_⟩
  cases hanswer : (d.serve (s.request directory overwrite)).1.1 with
  | error e =>
      rw [hanswer] at hok
      cases hok
  | ok path => exact Disk.node?_serve_of_ok (r := s.request directory overwrite) hname hanswer

/-- Whether the export of an empty sheet to a directory succeeds, and the disk afterwards. -/
def exported (name directory : String) : Bool × Disk :=
  let outcome := ((Sheet.new name).exportWith Disk.files.writer .memory directory false {}).run
    (.startingIn ["ui"])
  (outcome.1.1, outcome.2)

theorem changes_export_dots :
    '/' ∉ (Sheet.new "..").fileName.toList ∧ (exported ".." "../out").1 = true ∧
      ∃ parent, (exported ".." "../out").2.Opens "../out" parent ∧
        (exported ".." "../out").2.node? (parent ++ ["...uss"]) =
          some (.file (Text.Utf8.encode "\n")) := by
  have hname : '/' ∉ (Sheet.new "..").fileName.toList := by decide
  have hsucceeded : (exported ".." "../out").1 = true := by decide +kernel
  obtain ⟨-, hexport⟩ := changes_export (Sheet.new "..")
  obtain ⟨-, hwritten⟩ := hexport hname .memory "../out" false {} (.startingIn ["ui"]) _ _ _ rfl
  exact ⟨hname, hsucceeded, hwritten hsucceeded⟩

/-- A name that starts with a slash takes the place of the directory. -/
theorem export_outside :
    ¬ Path.IsFileIn "out" (Sheet.new "/Card").fileName (Path.target "out" "/Card" "uss") ∧
      (exported "/Card" "out").1 = true ∧
      (exported "/Card" "out").2.node? ["Card.uss"] = some (.file (Text.Utf8.encode "\n")) ∧
      ¬ ∃ parent name, (exported "/Card" "out").2.Opens "out" parent ∧
        ["Card.uss"] = parent ++ [name] := by
  refine ⟨fun h => absurd h.absolute (by decide), by decide +kernel, by decide +kernel, ?_⟩
  rintro ⟨parent, name, hopens, hplace⟩
  have hparent : parent = [] := by
    have hlength := congrArg List.length hplace
    rw [List.length_append] at hlength
    exact List.length_eq_zero_iff.mp (Nat.succ.inj hlength).symm
  have hresolve : (exported "/Card" "out").2.resolve "out" = .ok ["ui", "out"] := rfl
  rw [Disk.Opens, if_neg (by decide), hresolve, hparent] at hopens
  cases hopens

end Sheet

end UiStyle
