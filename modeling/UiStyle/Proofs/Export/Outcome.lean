import UiStyle.Export
import UiStyle.Proofs.Disk.Growth

/-!
# What becomes of a request to write

A request to write a file ends in one of four ways, each with a disk of its own: it is refused
because something is there, the directories cannot be made, the file cannot be written, or the file
is written (`WriteRequest.Outcome`).  What is said about exports is a case analysis over the four.
In none of them does a disk stop being well formed, so requests only ever meet well-formed disks
(`wellFormed_served`).
-/

namespace UiStyle

/-- How a request ends on a disk: the answer, the events and the disk afterwards. -/
inductive WriteRequest.Outcome (r : WriteRequest) (d : Disk) :
    Except Failure String × List Event → Disk → Prop
  | refused (hkeep : r.overwrite = false) (hthere : d.has r.path = true) :
    Outcome r d (.error (.alreadyExists r.path), []) d
  | noDirectory {d' : Disk} {e : DiskError} (hallowed : r.overwrite = false → d.has r.path = false)
    (hmade : d.makeDirectories r.directory = (d', some e)) :
    Outcome r d (.error (.io e.message), []) d'
  | noFile {d' : Disk} {e : DiskError} (hallowed : r.overwrite = false → d.has r.path = false)
    (hmade : d.makeDirectories r.directory = (d', none))
    (hwrite : d'.write r.path (Text.Utf8.encode r.content) = .error e) :
    Outcome r d (.error (.io e.message), []) d'
  | written {d' d'' : Disk} (hallowed : r.overwrite = false → d.has r.path = false)
    (hmade : d.makeDirectories r.directory = (d', none))
    (hwrite : d'.write r.path (Text.Utf8.encode r.content) = .ok d'') :
    Outcome r d (.ok r.path, [r.writtenEvent]) d''

namespace Disk

/-- What the writer answers on a disk, and the disk afterwards. -/
def serve (d : Disk) (r : WriteRequest) : (Except Failure String × List Event) × Disk :=
  (Disk.files.writer r).run d

/-- A request that may not overwrite what is there is refused, and changes nothing. -/
theorem serve_of_has {d : Disk} {r : WriteRequest} (hkeep : r.overwrite = false)
    (hthere : d.has r.path = true) : d.serve r = ((.error (.alreadyExists r.path), []), d) := by
  simp [serve, Files.writer, Disk.files, hkeep, hthere]
  rfl

theorem outcome_serve (d : Disk) (r : WriteRequest) :
    r.Outcome d (d.serve r).1 (d.serve r).2 := by
  by_cases hrefused : r.overwrite = false ∧ d.has r.path = true
  · obtain ⟨hkeep, hthere⟩ := hrefused
    rw [serve_of_has hkeep hthere]
    exact .refused hkeep hthere
  · have hallowed : r.overwrite = false → d.has r.path = false := by
      intro hkeep
      exact Bool.eq_false_iff.mpr fun hthere => hrefused ⟨hkeep, hthere⟩
    rcases hmade : d.makeDirectories r.directory with ⟨d', _ | e⟩
    · cases hwrite : d'.write r.path (Text.Utf8.encode r.content) with
      | error e =>
          have hserve : d.serve r = ((.error (.io e.message), []), d') := by
            simp [serve, Files.writer, Disk.files, hrefused, hmade, hwrite]
            rfl
          rw [hserve]
          exact .noFile hallowed hmade hwrite
      | ok d'' =>
          have hserve : d.serve r = ((.ok r.path, [r.writtenEvent]), d'') := by
            simp [serve, Files.writer, Disk.files, hrefused, hmade, hwrite]
            rfl
          rw [hserve]
          exact .written hallowed hmade hwrite
    · have hserve : d.serve r = ((.error (.io e.message), []), d') := by
        simp [serve, Files.writer, Disk.files, hrefused, hmade]
        rfl
      rw [hserve]
      exact .noDirectory hallowed hmade

/-- A request that fails has at most made directories. -/
theorem grows_serve_of_error {d : Disk} {r : WriteRequest} {e : Failure}
    (h : (d.serve r).1.1 = .error e) : d.Grows (d.serve r).2 := by
  have houtcome := outcome_serve d r
  have hgrows := grows_makeDirectories d r.directory
  rcases hserve : d.serve r with ⟨⟨result, events⟩, after⟩
  rw [hserve] at h houtcome
  cases houtcome with
  | refused => exact .refl _
  | noDirectory _ hmade => rwa [hmade] at hgrows
  | noFile _ hmade _ => rwa [hmade] at hgrows
  | written => cases h

/-- A request can be carried out: nothing is in its way, its directories can be made and its file
be written, which leaves the disk `after`. -/
structure Writes (d : Disk) (r : WriteRequest) (after : Disk) : Prop where
  allowed : r.overwrite = false → d.has r.path = false
  made : (d.makeDirectories r.directory).2 = none
  written : (d.makeDirectories r.directory).1.write r.path (Text.Utf8.encode r.content) = .ok after

/-- A request that is answered with a path has been carried out. -/
theorem writes_of_serve_ok {d : Disk} {r : WriteRequest} {path : String}
    (h : (d.serve r).1.1 = .ok path) : d.Writes r (d.serve r).2 := by
  have houtcome := outcome_serve d r
  rcases hserve : d.serve r with ⟨⟨result, events⟩, after⟩
  rw [hserve] at h houtcome
  cases houtcome with
  | refused | noDirectory | noFile => cases h
  | written hallowed hmade hwrite =>
      refine ⟨hallowed, ?_, ?_⟩
      · rw [hmade]
      · rw [hmade]
        exact hwrite

/-- A request that can be carried out is. -/
theorem serve_of_writes {d after : Disk} {r : WriteRequest} (h : d.Writes r after) :
    d.serve r = ((.ok r.path, [r.writtenEvent]), after) := by
  obtain ⟨hallowed, hmade, hwrite⟩ := h
  have houtcome := outcome_serve d r
  rcases hserve : d.serve r with ⟨answer, after'⟩
  rw [hserve] at houtcome
  cases houtcome with
  | refused hkeep hthere =>
      rw [hallowed hkeep] at hthere
      cases hthere
  | noDirectory _ hfailed =>
      rw [hfailed] at hmade
      cases hmade
  | noFile _ hmade' hfailed =>
      rw [hmade', hfailed] at hwrite
      cases hwrite
  | written _ hmade' hwrite' =>
      rw [hmade', hwrite'] at hwrite
      obtain rfl : after' = after := Except.ok.inj hwrite
      rfl

theorem isOk_serve_iff {d : Disk} {r : WriteRequest} :
    (d.serve r).1.1.isOk = true ↔ ∃ after, d.Writes r after := by
  constructor
  · intro hok
    cases hanswer : (d.serve r).1.1 with
    | error e =>
        rw [hanswer] at hok
        cases hok
    | ok path => exact ⟨_, writes_of_serve_ok hanswer⟩
  · rintro ⟨after, hwrites⟩
    rw [serve_of_writes hwrites]
    rfl

/-- What was written for a request is read at its path. -/
theorem Writes.read {d after : Disk} {r : WriteRequest} (h : d.Writes r after) :
    after.read r.path = .ok (Text.Utf8.encode r.content) :=
  read_of_write h.written

/-- A request that is refused has changed nothing. -/
theorem serve_of_alreadyExists {d : Disk} {r : WriteRequest} {path : String}
    (h : (d.serve r).1.1 = .error (.alreadyExists path)) : (d.serve r).2 = d := by
  have houtcome := outcome_serve d r
  rcases hserve : d.serve r with ⟨⟨result, events⟩, after⟩
  rw [hserve] at h houtcome
  cases houtcome with
  | refused => rfl
  | noDirectory | noFile | written => cases h

/-! ### Requests one after the other -/

theorem WellFormed.serve {d : Disk} (hd : d.WellFormed) (r : WriteRequest) :
    (d.serve r).2.WellFormed := by
  have houtcome := outcome_serve d r
  have hmade := hd.makeDirectories r.directory
  rcases hserve : d.serve r with ⟨answer, after⟩
  rw [hserve] at houtcome
  cases houtcome with
  | refused => exact hd
  | noDirectory _ hmade' | noFile _ hmade' => rwa [hmade'] at hmade
  | written _ hmade' hwrite =>
      rw [hmade'] at hmade
      exact hmade.write hwrite

/-- Every disk that requests lead to from a fresh one is well formed. -/
theorem wellFormed_served (start : List String) (requests : List WriteRequest) :
    (requests.foldl (fun d r => (d.serve r).2) (startingIn start)).WellFormed := by
  have hserved : ∀ d : Disk, d.WellFormed →
      (requests.foldl (fun d r => (d.serve r).2) d).WellFormed := by
    induction requests with
    | nil => exact fun _ hd => hd
    | cons r requests ih => exact fun d hd => ih _ (hd.serve r)
  exact hserved _ (wellFormed_startingIn start)

end Disk

end UiStyle
