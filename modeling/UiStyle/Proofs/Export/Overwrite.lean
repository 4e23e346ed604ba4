import Mathlib.Data.List.Induction
import UiStyle.Proofs.Disk.Pieces
import UiStyle.Proofs.Export.Outcome

/-!
# Writing without permission to overwrite

A request that may not overwrite is refused if its path leads anywhere, and then nothing changes.
Otherwise the directories are made before the file is written, and this is the one way in which a
file can still be lost: a path that led nowhere because a directory in front of a `..` was missing
may lead to a file once that directory is there (`Reveals`).  `keepsFiles_serve` says that files
keep their contents in all other cases, and `not_keepsFiles_serve_cardIn` shows a file that does
not.

A path cannot reveal a file if everything up to its last `..` is there already (`IsSettled`).  What
comes behind the last `..` only goes down, so a file at its end would have all directories above it
(`WellFormed`), and the path would have led to it before.
-/

namespace UiStyle.Disk

variable {d d' : Disk} {r : WriteRequest} {path : String}

/-- Making the directories of a request has opened its path, which now leads to a place. -/
structure Reveals (d : Disk) (r : WriteRequest) (place : List String) : Prop where
  hidden : d.has r.path = false
  made : (d.makeDirectories r.directory).2 = none
  shown : (d.makeDirectories r.directory).1.resolve r.path = .ok place

/-- Everything that a path goes through up to its last `..` is there. -/
def IsSettled (d : Disk) (path : String) : Prop :=
  ∀ start, d.origin path = .ok start → ∃ upTo behind place, Path.pieces path = upTo ++ behind ∧
    ".." ∉ behind ∧ upTo.foldlM d.follow start = .ok place

/-! ### Going down -/

theorem prefix_of_foldlM {pieces place next : List String} (hpieces : ".." ∉ pieces)
    (h : pieces.foldlM d.follow place = .ok next) : place <+: next := by
  induction pieces generalizing place with
  | nil =>
      obtain rfl : place = next := Except.ok.inj h
      exact List.prefix_rfl
  | cons piece pieces ih =>
      rw [List.mem_cons, not_or] at hpieces
      obtain ⟨hpiece, hpieces⟩ := hpieces
      obtain ⟨mid, hmid, hrest⟩ := foldlM_cons_eq_ok.mp h
      have hbehind := ih hpieces hrest
      obtain ⟨-, -, hstep⟩ := follow_eq_ok.mp hmid
      cases hstep with
      | stay => exact hbehind
      | up h => exact absurd h.symm hpiece
      | down => exact (List.prefix_append place [piece]).trans hbehind

theorem WellFormed.isSome_of_prefix (hd : d.WellFormed) {place below : List String}
    (hpre : place <+: below) (hbelow : (d.node? below).isSome = true) :
    (d.node? place).isSome = true := by
  obtain ⟨rest, rfl⟩ := hpre
  induction rest using List.reverseRecOn with
  | nil => simpa using hbelow
  | append_singleton rest name ih =>
      have habove := hd _ hbelow
      rw [← List.append_assoc, List.dropLast_concat] at habove
      exact ih (by rw [habove]; rfl)

/-- Behind the last `..`, a path that leads to something old went there before. -/
theorem WellFormed.foldlM_of_grows (hd : d.WellFormed) (hgrows : d.Grows d')
    {pieces place next : List String} (hpieces : ".." ∉ pieces)
    (h : pieces.foldlM d'.follow place = .ok next) (hthere : (d.node? next).isSome = true) :
    pieces.foldlM d.follow place = .ok next := by
  induction pieces generalizing place with
  | nil => exact h
  | cons piece pieces ih =>
      rw [List.mem_cons, not_or] at hpieces
      obtain ⟨hpiece, hpieces⟩ := hpieces
      obtain ⟨mid, hmid, hrest⟩ := foldlM_cons_eq_ok.mp h
      refine foldlM_cons_eq_ok.mpr ⟨mid, ?_, ih hpieces hrest⟩
      -- what the step leads to is above something old, so it is old
      have hold := hd.isSome_of_prefix (prefix_of_foldlM hpieces hrest) hthere
      obtain ⟨hdir, hsize, hstep⟩ := follow_eq_ok.mp hmid
      refine follow_eq_ok.mpr ?_
      cases hstep with
      | stay hstay =>
          obtain ⟨n, hn⟩ := Option.isSome_iff_exists.mp hold
          have hsame : n = .directory := Option.some.inj ((hgrows.kept place n hn).symm.trans hdir)
          exact ⟨hsame ▸ hn, hsize, .stay hstay⟩
      | up hup => exact absurd hup.symm hpiece
      | down hname =>
          have habove := hd _ hold
          rw [List.dropLast_concat] at habove
          exact ⟨habove, hsize, .down hname hold⟩

/-- A settled path leads to something old only if it did before. -/
theorem IsSettled.resolve_of_grows (hd : d.WellFormed) (hgrows : d.Grows d')
    (hsettled : d.IsSettled path) {place : List String} (h : d'.resolve path = .ok place)
    (hthere : (d.node? place).isSome = true) : d.resolve path = .ok place := by
  obtain ⟨start, horigin, hpieces⟩ := resolve_eq_ok.mp h
  rw [hgrows.keepsPaths.origin] at horigin
  obtain ⟨upTo, behind, mid, hsplit, hbehind, hmid⟩ := hsettled start horigin
  refine resolve_eq_ok.mpr ⟨start, horigin, ?_⟩
  rw [hsplit] at hpieces ⊢
  obtain ⟨mid', hmid', hrest⟩ := foldlM_append_eq_ok.mp hpieces
  obtain rfl : mid = mid' := Except.ok.inj ((hgrows.keepsPaths.foldlM_follow hmid).symm.trans hmid')
  exact foldlM_append_eq_ok.mpr ⟨mid, hmid, hd.foldlM_of_grows hgrows hbehind hrest hthere⟩

/-! ### What can be lost -/

/-- A file that a path leads to can be written through it. -/
theorem WellFormed.write_of_resolve (hd : d.WellFormed) {place : List String}
    {old : List UInt8} (h : d.resolve path = .ok place) (hfile : d.node? place = some (.file old))
    (content : List UInt8) : d.write path content = .ok (d.setNode place (.file content)) := by
  obtain ⟨start, horigin, hpieces⟩ := resolve_eq_ok.mp h
  obtain ⟨front, last, hsplit⟩ : ∃ front last, Path.pieces path = front ++ [last] := by
    have hlast := List.dropLast_concat_getLast (Path.pieces_ne_nil path)
    exact ⟨_, _, hlast.symm⟩
  rw [hsplit] at hpieces
  obtain ⟨parent, hfront, hlast⟩ := foldlM_append_eq_ok.mp hpieces
  obtain ⟨next, hnext, hend⟩ := foldlM_cons_eq_ok.mp hlast
  obtain rfl : next = place := Except.ok.inj hend
  have hname : Path.IsName last := by
    obtain ⟨hdir, -, hstep⟩ := follow_eq_ok.mp hnext
    -- staying or going up ends in a directory
    cases hstep with
    | stay => rw [hdir] at hfile; cases hfile
    | up =>
        rw [hd parent (by rw [hdir]; rfl)] at hfile
        cases hfile
    | down hname => exact hname
  refine write_eq_ok.mpr ⟨start, next, horigin, ?_, ?_, rfl⟩
  · rw [hsplit, newPlace_of_follow hfront hnext, if_pos hname]
  · rw [hfile]
    exact nofun

/-- What a request that may not overwrite takes away was revealed. -/
theorem reveals_of_lost (hkeep : r.overwrite = false) {place : List String} {old : List UInt8}
    (hold : d.node? place = some (.file old))
    (hlost : (d.serve r).2.node? place ≠ some (.file old)) :
    d.Reveals r place ∧ old ≠ Text.Utf8.encode r.content := by
  cases hanswer : (d.serve r).1.1 with
  | error e => exact absurd ((grows_serve_of_error hanswer).kept place _ hold) hlost
  | ok path =>
      obtain ⟨hallowed, hmade, hwrite⟩ := writes_of_serve_ok hanswer
      have hgrows := grows_makeDirectories d r.directory
      obtain ⟨start, target, horigin, htarget, -, hafter⟩ := write_eq_ok.mp hwrite
      rw [hafter, node?_setNode (newPlace_ne_nil htarget)] at hlost
      have hold' := hgrows.kept place _ hold
      by_cases hplace : place = target
      · subst hplace
        rw [if_pos rfl] at hlost
        refine ⟨⟨hallowed hkeep, hmade, ?_⟩, fun hsame => hlost (by rw [hsame])⟩
        exact resolve_eq_ok.mpr ⟨start, horigin, foldlM_of_newPlace htarget (by rw [hold']; rfl)⟩
      · rw [if_neg hplace] at hlost
        exact absurd hold' hlost

/-- A file that is revealed gets the new content. -/
theorem lost_of_reveals (hd : d.WellFormed) {place : List String} {old : List UInt8}
    (hold : d.node? place = some (.file old)) (hreveals : d.Reveals r place) :
    (d.serve r).2.node? place = some (.file (Text.Utf8.encode r.content)) := by
  have hold' := (grows_makeDirectories d r.directory).kept place _ hold
  have hwrite := (hd.makeDirectories r.directory).write_of_resolve hreveals.shown hold'
    (Text.Utf8.encode r.content)
  have hnonempty : place ≠ [] := by
    rintro rfl
    rw [node?_nil] at hold
    cases hold
  rw [serve_of_writes ⟨fun _ => hreveals.hidden, hreveals.made, hwrite⟩,
    node?_setNode hnonempty, if_pos rfl]

/-- A settled path, and any path in a directory that is there, reveals no file. -/
theorem not_reveals (hd : d.WellFormed)
    (hpath : d.isDirectory r.directory = true ∨ d.IsSettled r.path) {place : List String}
    (hthere : (d.node? place).isSome = true) : ¬ d.Reveals r place := by
  intro hreveals
  obtain ⟨n, hn⟩ := Option.isSome_iff_exists.mp hthere
  have hresolve : d.resolve r.path = .ok place := by
    rcases hpath with hdir | hsettled
    · have hshown := hreveals.shown
      rwa [makeDirectories_of_isDirectory hdir] at hshown
    · exact hsettled.resolve_of_grows hd (grows_makeDirectories d _) hreveals.shown hthere
  have hhas := has_of_resolve hresolve hn
  rw [hreveals.hidden] at hhas
  cases hhas

/-- **Files that may not be overwritten.**  A request that may not overwrite

* takes away the content of a file exactly if it reveals the file and its own content is another;
* takes none away if it fails, and changes nothing if it is refused;
* takes none away if its directory is there, or its path is settled. -/
theorem keepsFiles_serve (hd : d.WellFormed) (hkeep : r.overwrite = false) :
    (d.KeepsFiles (d.serve r).2 ↔ ∀ place old, d.node? place = some (.file old) →
        d.Reveals r place → old = Text.Utf8.encode r.content) ∧
      (∀ e, (d.serve r).1.1 = .error e → d.KeepsFiles (d.serve r).2) ∧
      (∀ path, (d.serve r).1.1 = .error (.alreadyExists path) → (d.serve r).2 = d) ∧
      (d.isDirectory r.directory = true ∨ d.IsSettled r.path → d.KeepsFiles (d.serve r).2) := by
  have hiff : d.KeepsFiles (d.serve r).2 ↔ ∀ place old, d.node? place = some (.file old) →
      d.Reveals r place → old = Text.Utf8.encode r.content := by
    constructor
    · intro hkeeps place old hold hreveals
      have hnew := lost_of_reveals hd hold hreveals
      rw [hkeeps place old hold] at hnew
      exact Node.file.inj (Option.some.inj hnew)
    · intro hsame place old hold
      by_contra hlost
      obtain ⟨hreveals, hother⟩ := reveals_of_lost hkeep hold hlost
      exact hother (hsame place old hold hreveals)
  refine ⟨hiff, fun e herror => (grows_serve_of_error herror).keepsFiles,
    fun path hrefused => serve_of_alreadyExists hrefused, fun hpath => hiff.mpr ?_⟩
  intro place old hold hreveals
  exact absurd hreveals (not_reveals hd hpath (by rw [hold]; rfl))

/-- A disk with a file in a directory. -/
def withCard : Disk :=
  { startingIn ["ui"] with
    nodes := [(["ui"], .directory), (["ui", "styles"], .directory),
      (["ui", "styles", "Card.uss"], .file (Text.Utf8.encode "keep"))] }

/-- A request for this file that may not overwrite it, as seen from a directory. -/
def cardIn (directory : String) : WriteRequest := ⟨["new"], "Card", "uss", directory, false⟩

theorem keepsFiles_serve_cardIn :
    withCard.WellFormed ∧ (cardIn "styles/../new").overwrite = false ∧
      withCard.IsSettled (cardIn "styles/../new").path ∧
      (withCard.serve (cardIn "styles/../new")).1.1 = .ok "styles/../new/Card.uss" ∧
      withCard.KeepsFiles (withCard.serve (cardIn "styles/../new")).2 := by
  have hd : withCard.WellFormed := by decide +kernel
  have hsettled : withCard.IsSettled (cardIn "styles/../new").path := by
    intro start hstart
    obtain rfl : ["ui"] = start := Except.ok.inj hstart
    exact ⟨["styles", ".."], ["new", "Card.uss"], ["ui"], by decide +kernel, by decide, rfl⟩
  have hserve := keepsFiles_serve hd (r := cardIn "styles/../new") rfl
  exact ⟨hd, rfl, hsettled, by decide +kernel, hserve.2.2.2 (.inr hsettled)⟩

/-- Where a directory in front of a `..` is missing, the file loses its content. -/
theorem not_keepsFiles_serve_cardIn :
    (cardIn "missing/../styles").overwrite = false ∧
      (withCard.serve (cardIn "missing/../styles")).1.1 = .ok "missing/../styles/Card.uss" ∧
      ¬ withCard.KeepsFiles (withCard.serve (cardIn "missing/../styles")).2 := by
  refine ⟨rfl, by decide +kernel, fun hkeeps => ?_⟩
  have hold := hkeeps ["ui", "styles", "Card.uss"] (Text.Utf8.encode "keep") (by decide +kernel)
  have hnew : (withCard.serve (cardIn "missing/../styles")).2.node? ["ui", "styles", "Card.uss"] =
      some (.file (Text.Utf8.encode "new\n")) := by decide +kernel
  rw [hnew] at hold
  exact absurd hold (by decide +kernel)

end UiStyle.Disk
