import UiStyle.Proofs.Disk.Following

/-!
# What making directories and writing do to a disk

Making directories only adds directories, at places where nothing was (`Grows`).  So a path that
leads somewhere leads there afterwards too, as it does wherever directories stay and nothing goes
away (`KeepsPaths`), and what has become reachable is reachable through new directories.  The new
ones are where the path itself leads or its first components do (`growsAlong_makeDirectories`), and
if nothing fails, the path leads to a directory (`isDirectory_of_makeDirectories`).  Nothing at all
is made if it does already (`makeDirectories_of_isDirectory`).

Writing sets one place (`write_eq_ok`): a name in the directory that the pieces in front of it lead
to.  From then on the path leads there, reading gives what was written (`read_of_write`), and
writing it again changes nothing (`write_of_write`).  A disk on which whatever is somewhere is in a
directory stays such a disk (`WellFormed`).
-/

namespace UiStyle

/-- A path is that of a directory itself or of one above it, which has the first components of the
path. -/
def Path.IsUpward (path above : String) : Prop :=
  above = path ∨ ∃ front, front <+: Path.components path ∧
    above = Disk.ofComponents (Path.isAbsolute path) front

namespace Disk

variable {d d' : Disk} {path : String}

/-- Whatever is somewhere is in a directory. -/
def WellFormed (d : Disk) : Prop :=
  ∀ place, (d.node? place).isSome = true → d.node? place.dropLast = some .directory

/-- Every file is still there, with the content that it had. -/
def KeepsFiles (d d' : Disk) : Prop :=
  ∀ place content, d.node? place = some (.file content) → d'.node? place = some (.file content)

/-! ### Paths that lead somewhere -/

/-- Directories stay directories, and where something is something stays. -/
structure KeepsPaths (d d' : Disk) : Prop where
  start : d'.start = d.start
  directory : ∀ place, d.node? place = some .directory → d'.node? place = some .directory
  there : ∀ place, (d.node? place).isSome = true → (d'.node? place).isSome = true

namespace KeepsPaths

theorem follow (h : d.KeepsPaths d') {place next : List String} {piece : String}
    (hfollow : d.follow place piece = .ok next) : d'.follow place piece = .ok next := by
  obtain ⟨hdir, hsize, hstep⟩ := follow_eq_ok.mp hfollow
  refine follow_eq_ok.mpr ⟨h.directory place hdir, hsize, ?_⟩
  cases hstep with
  | stay hpiece => exact .stay hpiece
  | up hpiece => exact .up hpiece
  | down hname hthere => exact .down hname (h.there _ hthere)

theorem foldlM_follow (h : d.KeepsPaths d') {pieces place next : List String}
    (hfollow : pieces.foldlM d.follow place = .ok next) :
    pieces.foldlM d'.follow place = .ok next := by
  induction pieces generalizing place with
  | nil => exact hfollow
  | cons piece pieces ih =>
      obtain ⟨mid, hpiece, hpieces⟩ := foldlM_cons_eq_ok.mp hfollow
      exact foldlM_cons_eq_ok.mpr ⟨mid, h.follow hpiece, ih hpieces⟩

theorem origin (h : d.KeepsPaths d') (path : String) : d'.origin path = d.origin path := by
  rw [Disk.origin, Disk.origin, h.start]

theorem resolve (h : d.KeepsPaths d') {place : List String}
    (hresolve : d.resolve path = .ok place) : d'.resolve path = .ok place := by
  obtain ⟨start, horigin, hpieces⟩ := resolve_eq_ok.mp hresolve
  rw [← h.origin] at horigin
  exact resolve_eq_ok.mpr ⟨start, horigin, h.foldlM_follow hpieces⟩

theorem isDirectory (h : d.KeepsPaths d') (hdir : d.isDirectory path = true) :
    d'.isDirectory path = true := by
  obtain ⟨place, hresolve, hplace⟩ := isDirectory_iff.mp hdir
  exact isDirectory_iff.mpr ⟨place, h.resolve hresolve, h.directory place hplace⟩

theorem newPlace (h : d.KeepsPaths d') {start pieces place : List String}
    (hnew : d.newPlace start pieces = .ok (some place)) :
    d'.newPlace start pieces = .ok (some place) := by
  obtain ⟨front, last, parent, rfl, hfront, hdir, hsize, hname, rfl⟩ := newPlace_eq_ok.mp hnew
  exact newPlace_eq_ok.mpr ⟨front, last, parent, rfl, h.foldlM_follow hfront,
    h.directory parent hdir, hsize, hname, rfl⟩

/-- Setting a place where no directory is takes no path away. -/
theorem setNode {place : List String} (hplace : place ≠ []) (hdir : d.node? place ≠ some .directory)
    (n : Node) : d.KeepsPaths (d.setNode place n) where
  start := rfl
  directory other hother := by
    have hne : other ≠ place := by
      rintro rfl
      exact hdir hother
    rw [node?_setNode hplace, if_neg hne, hother]
  there other hother := by
    rw [node?_setNode hplace]
    split
    · rfl
    · exact hother

end KeepsPaths

/-- Pieces lead to their new place once something is set there. -/
theorem foldlM_setNode {start pieces place : List String}
    (hplace : d.newPlace start pieces = .ok (some place)) (hdir : d.node? place ≠ some .directory)
    (n : Node) : pieces.foldlM (d.setNode place n).follow start = .ok place := by
  have hnonempty := newPlace_ne_nil hplace
  -- no directory was at the place, so what led to its directory still does
  have hkeeps : d.KeepsPaths (d.setNode place n) := .setNode hnonempty hdir n
  refine foldlM_of_newPlace (hkeeps.newPlace hplace) ?_
  rw [node?_setNode hnonempty, if_pos rfl]
  rfl

/-! ### Growing -/

/-- What is on a disk stays, and what comes in are directories. -/
structure Grows (d d' : Disk) : Prop where
  start : d'.start = d.start
  kept : ∀ place n, d.node? place = some n → d'.node? place = some n
  fresh : ∀ place, d.node? place = none → d'.node? place = none ∨ d'.node? place = some .directory

namespace Grows

theorem refl (d : Disk) : d.Grows d where
  start := rfl
  kept _ _ h := h
  fresh _ h := .inl h

theorem trans {d'' : Disk} (h : d.Grows d') (h' : d'.Grows d'') : d.Grows d'' where
  start := h'.start.trans h.start
  kept place n hnode := h'.kept place n (h.kept place n hnode)
  fresh place hnone := by
    rcases h.fresh place hnone with hmid | hmid
    · exact h'.fresh place hmid
    · exact .inr (h'.kept place _ hmid)

theorem keepsFiles (h : d.Grows d') : d.KeepsFiles d' :=
  fun place content => h.kept place (.file content)

theorem setNode {place : List String} (hplace : place ≠ []) (hnone : d.node? place = none) :
    d.Grows (d.setNode place .directory) where
  start := rfl
  kept other n hnode := by
    have hne : other ≠ place := by
      rintro rfl
      rw [hnone] at hnode
      cases hnode
    rw [node?_setNode hplace, if_neg hne, hnode]
  fresh other hother := by
    rw [node?_setNode hplace]
    split
    · exact .inr rfl
    · exact .inl hother

theorem keepsPaths (h : d.Grows d') : d.KeepsPaths d' where
  start := h.start
  directory place := h.kept place .directory
  there place hthere := by
    obtain ⟨n, hnode⟩ := Option.isSome_iff_exists.mp hthere
    rw [h.kept place n hnode]
    rfl

end Grows

/-- What is on a disk stays, and what comes in are directories that paths of a kind lead to. -/
structure GrowsAlong (d : Disk) (paths : String → Prop) (d' : Disk) : Prop extends d.Grows d' where
  leads : ∀ place, d.node? place = none → d'.node? place = some .directory →
    ∃ path, paths path ∧ d'.resolve path = .ok place

theorem GrowsAlong.refl (d : Disk) {paths : String → Prop} : d.GrowsAlong paths d where
  toGrows := .refl d
  leads place hnone hdir := by
    rw [hnone] at hdir
    cases hdir

/-! ### Making directories -/

/-- The slashes that the path of a directory may end in stand for empty pieces at the end. -/
theorem exists_trailing (pieces : List String) :
    ∃ trailing, (∀ piece ∈ trailing, piece = "") ∧
      pieces = (pieces.reverse.dropWhile (· == "")).reverse ++ trailing := by
  refine ⟨(pieces.reverse.takeWhile (· == "")).reverse, fun piece hpiece => ?_, ?_⟩
  · have hall := List.all_eq_true.mp List.all_takeWhile piece (List.mem_reverse.mp hpiece)
    exact beq_iff_eq.mp hall
  · rw [← List.reverse_append, List.takeWhile_append_dropWhile, List.reverse_reverse]

/-- A directory is made at the new place of its path, where nothing is. -/
theorem makeDirectory_eq_ok :
    d.makeDirectory path = .ok d' ↔
      ∃ start place, d.origin path = .ok start ∧
        d.newPlace start ((Path.pieces path).reverse.dropWhile (· == "")).reverse =
          .ok (some place) ∧
        d.node? place = none ∧ d' = d.setNode place .directory := by
  unfold makeDirectory
  rw [bind_eq_ok]
  refine exists_congr fun start => ?_
  rw [exists_and_left]
  refine and_congr_right fun _ => ?_
  dsimp only
  rw [bind_eq_ok]
  constructor
  · rintro ⟨made, hmade, hset⟩
    cases made with
    | none => cases hset
    | some place =>
        dsimp only at hset
        split at hset
        · cases hset
        · rename_i hnone
          exact ⟨place, hmade, by simpa using hnone, (Except.ok.inj hset).symm⟩
  · rintro ⟨place, hmade, hnone, rfl⟩
    refine ⟨some place, hmade, ?_⟩
    simp [hnone, pure, Except.pure]

/-- The path of a directory that was made leads there, and nothing was there before. -/
theorem resolve_of_makeDirectory (h : d.makeDirectory path = .ok d') :
    ∃ place, place ≠ [] ∧ d.node? place = none ∧ d' = d.setNode place .directory ∧
      d'.resolve path = .ok place := by
  obtain ⟨start, place, horigin, hplace, hnone, rfl⟩ := makeDirectory_eq_ok.mp h
  have hnonempty := newPlace_ne_nil hplace
  have hdir : d.node? place ≠ some .directory := by
    rw [hnone]
    exact nofun
  have hnode : (d.setNode place .directory).node? place = some .directory := by
    rw [node?_setNode hnonempty, if_pos rfl]
  obtain ⟨trailing, hempty, hpieces⟩ := exists_trailing (Path.pieces path)
  refine ⟨place, hnonempty, hnone, rfl, resolve_eq_ok.mpr ⟨start, horigin, ?_⟩⟩
  rw [hpieces]
  exact foldlM_append_eq_ok.mpr
    ⟨place, foldlM_setNode hplace hdir _, foldlM_of_forall_eq_empty hempty hnode⟩

/-- One more directory comes in where its path leads. -/
theorem GrowsAlong.makeDirectory {mid : Disk} {paths : String → Prop} (h : d.GrowsAlong paths mid)
    (hpath : paths path) (hmade : mid.makeDirectory path = .ok d') : d.GrowsAlong paths d' := by
  obtain ⟨new, hnew, hnone, rfl, hresolve⟩ := resolve_of_makeDirectory hmade
  have hgrows : mid.Grows (mid.setNode new .directory) := .setNode hnew hnone
  refine ⟨h.toGrows.trans hgrows, fun place hold hdir => ?_⟩
  by_cases hplace : place = new
  · exact ⟨path, hpath, hplace ▸ hresolve⟩
  · rw [node?_setNode hnew, if_neg hplace] at hdir
    obtain ⟨path', hpath', hleads⟩ := h.leads place hold hdir
    exact ⟨path', hpath', hgrows.keepsPaths.resolve hleads⟩

section Keeping

variable {I : Disk → Prop}

/-- What making one directory keeps, making a directory that may be there keeps. -/
theorem ensureDirectory_keeps
    (hstep : ∀ {d d' : Disk}, I d → d.makeDirectory path = .ok d' → I d') (h : I d) :
    I (d.ensureDirectory path).1 := by
  unfold ensureDirectory
  split
  · rename_i d' hmade
    exact hstep h hmade
  · exact h

/-- What making the directories of some paths keeps, making a directory and those above it keeps,
if all of them have such a path. -/
theorem makeAbove_keeps {paths : String → Prop} {absolute : Bool} {components : List String}
    (hstep : ∀ {d d' : Disk} {path : String}, paths path → I d → d.makeDirectory path = .ok d' →
      I d')
    (h : I d) (hpath : paths path)
    (habove : ∀ front, front <+: components.reverse → paths (ofComponents absolute front)) :
    I (d.makeAbove absolute path components).1 := by
  induction components generalizing path with
  | nil => exact ensureDirectory_keeps (hstep hpath) h
  | cons c above ih =>
      unfold makeAbove
      split
      · have hfront : above.reverse <+: (c :: above).reverse := by
          rw [List.reverse_cons]
          exact List.prefix_append _ _
        have hparent : I (if (ofComponents absolute above.reverse).isEmpty then (d, none)
            else d.makeAbove absolute (ofComponents absolute above.reverse) above).1 := by
          split
          · exact h
          · exact ih (habove _ hfront) fun front hpre => habove front (hpre.trans hfront)
        dsimp only
        split
        · exact hparent
        · exact ensureDirectory_keeps (hstep hpath) hparent
      · exact ensureDirectory_keeps (hstep hpath) h

/-- What making the directory of a path or one above it keeps, making all of them keeps, even where
it fails. -/
theorem makeDirectories_keeps
    (hstep : ∀ {d d' : Disk} {above : String}, Path.IsUpward path above → I d →
      d.makeDirectory above = .ok d' → I d')
    (h : I d) : I (d.makeDirectories path).1 := by
  unfold makeDirectories
  split
  · exact h
  · refine makeAbove_keeps hstep h (.inl rfl) fun front hfront => .inr ⟨front, ?_, rfl⟩
    rwa [List.reverse_reverse] at hfront

end Keeping

/-- Making directories only adds directories, where its path leads or one above it. -/
theorem growsAlong_makeDirectories (d : Disk) (path : String) :
    d.GrowsAlong (Path.IsUpward path) (d.makeDirectories path).1 :=
  makeDirectories_keeps (fun habove h hmade => h.makeDirectory habove hmade) (.refl d)

theorem grows_makeDirectories (d : Disk) (path : String) : d.Grows (d.makeDirectories path).1 :=
  (growsAlong_makeDirectories d path).toGrows

theorem isDirectory_of_ensureDirectory (h : (d.ensureDirectory path).2 = none) :
    (d.ensureDirectory path).1.isDirectory path = true := by
  unfold ensureDirectory at h ⊢
  split
  · rename_i d' hmade
    obtain ⟨place, hplace, -, rfl, hresolve⟩ := resolve_of_makeDirectory hmade
    exact isDirectory_iff.mpr ⟨place, hresolve, by rw [node?_setNode hplace, if_pos rfl]⟩
  · rename_i e hfailed
    rw [hfailed] at h
    dsimp only at h ⊢
    split at h
    · assumption
    · cases h

/-- Where nothing fails, the path leads to a directory afterwards. -/
theorem isDirectory_of_makeDirectories (hpath : path ≠ "")
    (h : (d.makeDirectories path).2 = none) :
    (d.makeDirectories path).1.isDirectory path = true := by
  have hnonempty : ¬ path.isEmpty = true := by simpa using hpath
  unfold makeDirectories at h ⊢
  rw [if_neg hnonempty] at h ⊢
  -- whatever was made above, the directory of the path itself comes last
  cases hcomponents : (Path.components path).reverse with
  | nil =>
      rw [hcomponents] at h
      exact isDirectory_of_ensureDirectory h
  | cons c above =>
      rw [hcomponents] at h
      unfold makeAbove at h ⊢
      split at h
      · dsimp only at h ⊢
        split at h
        · cases h
        · exact isDirectory_of_ensureDirectory h
      · exact isDirectory_of_ensureDirectory h

/-- The directory of a path that leads to one is there already. -/
theorem makeDirectory_of_isDirectory (h : d.isDirectory path = true) :
    d.makeDirectory path = .error .alreadyExists := by
  obtain ⟨place, hresolve, -⟩ := isDirectory_iff.mp h
  obtain ⟨start, horigin, hpieces⟩ := resolve_eq_ok.mp hresolve
  unfold makeDirectory
  rw [horigin]
  simp only [bind, Except.bind]
  obtain ⟨trailing, -, hsplit⟩ := exists_trailing (Path.pieces path)
  rw [hsplit] at hpieces
  obtain ⟨mid, hmid, -⟩ := foldlM_append_eq_ok.mp hpieces
  generalize ((Path.pieces path).reverse.dropWhile (· == "")).reverse = pieces at hmid ⊢
  rcases List.eq_nil_or_concat pieces with rfl | ⟨front, last, rfl⟩
  · rfl
  · rw [List.concat_eq_append] at hmid ⊢
    obtain ⟨parent, hfront, hlast⟩ := foldlM_append_eq_ok.mp hmid
    obtain ⟨next, hnext, -⟩ := foldlM_cons_eq_ok.mp hlast
    rw [newPlace_of_follow hfront hnext]
    by_cases hname : Path.IsName last
    · have hthere : (d.node? next).isSome = true := by
        obtain ⟨-, -, hstep⟩ := follow_eq_ok.mp hnext
        cases hstep with
        | stay h => exact absurd h (by simp [hname.nonempty, hname.not_here])
        | up h => exact absurd h hname.not_above
        | down _ hthere => exact hthere
      simp [hname, hthere, throw, throwThe, MonadExceptOf.throw]
    · simp [hname, throw, throwThe, MonadExceptOf.throw]

/-- Where a path leads to a directory, none is made. -/
theorem makeDirectories_of_isDirectory (h : d.isDirectory path = true) :
    d.makeDirectories path = (d, none) := by
  have hensure : d.ensureDirectory path = (d, none) := by
    simp only [ensureDirectory, makeDirectory_of_isDirectory h, h, if_true]
  unfold makeDirectories
  split
  · rfl
  · cases (Path.components path).reverse with
    | nil => exact hensure
    | cons c above => simp only [makeAbove, makeDirectory_of_isDirectory h, hensure]

/-! ### Writing -/

/-- A file is written at the new place of its path, where no directory is. -/
theorem write_eq_ok {content : List UInt8} :
    d.write path content = .ok d' ↔
      ∃ start place, d.origin path = .ok start ∧
        d.newPlace start (Path.pieces path) = .ok (some place) ∧
        d.node? place ≠ some .directory ∧ d' = d.setNode place (.file content) := by
  unfold write
  rw [bind_eq_ok]
  refine exists_congr fun start => ?_
  rw [exists_and_left]
  refine and_congr_right fun _ => ?_
  rw [bind_eq_ok]
  constructor
  · rintro ⟨made, hmade, hset⟩
    cases made with
    | none => cases hset
    | some place =>
        dsimp only at hset
        split at hset
        · cases hset
        · rename_i hdir
          exact ⟨place, hmade, hdir, (Except.ok.inj hset).symm⟩
  · rintro ⟨place, hmade, hdir, rfl⟩
    refine ⟨some place, hmade, ?_⟩
    dsimp only
    rw [if_neg hdir]
    rfl

/-- The path of a file that was written leads there, and no directory was there before. -/
theorem resolve_of_write {content : List UInt8} (h : d.write path content = .ok d') :
    ∃ place, place ≠ [] ∧ d.node? place ≠ some .directory ∧
      d' = d.setNode place (.file content) ∧ d'.resolve path = .ok place := by
  obtain ⟨start, place, horigin, hplace, hdir, rfl⟩ := write_eq_ok.mp h
  exact ⟨place, newPlace_ne_nil hplace, hdir, rfl,
    resolve_eq_ok.mpr ⟨start, horigin, foldlM_setNode hplace hdir _⟩⟩

/-- A file that was written is read with the content that it got. -/
theorem read_of_write {content : List UInt8} (h : d.write path content = .ok d') :
    d'.read path = .ok content := by
  obtain ⟨place, hnonempty, -, rfl, hresolve⟩ := resolve_of_write h
  have hnode : (d.setNode place (.file content)).node? place = some (.file content) := by
    rw [node?_setNode hnonempty, if_pos rfl]
  exact bind_eq_ok.mpr ⟨_, at?_eq_ok.mpr ⟨place, hresolve, hnode⟩, rfl⟩

/-- Writing a file again with the same content changes nothing. -/
theorem write_of_write {content : List UInt8} (h : d.write path content = .ok d') :
    d'.write path content = .ok d' := by
  obtain ⟨start, place, horigin, hplace, hdir, rfl⟩ := write_eq_ok.mp h
  have hnonempty := newPlace_ne_nil hplace
  have hkeeps : d.KeepsPaths (d.setNode place (.file content)) := .setNode hnonempty hdir _
  refine write_eq_ok.mpr ⟨start, place, ?_, hkeeps.newPlace hplace, ?_, ?_⟩
  · rw [hkeeps.origin, horigin]
  · rw [node?_setNode hnonempty, if_pos rfl]
    exact nofun
  · rw [setNode_setNode]

/-! ### Well-formed disks -/

theorem wellFormed_iff :
    d.WellFormed ↔ ∀ entry ∈ d.nodes, d.node? entry.1.dropLast = some .directory := by
  constructor
  · intro h entry hentry
    apply h
    unfold node?
    split
    · rfl
    · rw [List.lookup_isSome_iff]
      exact ⟨entry, hentry, beq_self_eq_true _⟩
  · intro h place hplace
    unfold node? at hplace
    split at hplace
    · rename_i hroot
      rw [List.isEmpty_iff.mp hroot]
      rfl
    · obtain ⟨entry, hentry, hsame⟩ := List.lookup_isSome_iff.mp hplace
      rw [beq_iff_eq.mp hsame]
      exact h entry hentry

instance (d : Disk) : Decidable d.WellFormed := decidable_of_iff' _ wellFormed_iff

theorem WellFormed.setNode (h : d.WellFormed) {place : List String} (hplace : place ≠ [])
    (hparent : d.node? place.dropLast = some .directory) {n : Node}
    (hn : n = .directory ∨ d.node? place ≠ some .directory) : (d.setNode place n).WellFormed := by
  intro other hother
  rw [node?_setNode hplace] at hother ⊢
  by_cases hsame : other = place
  · have hne : other.dropLast ≠ place := by
      intro heq
      have hlength := congrArg List.length heq
      rw [List.length_dropLast, hsame] at hlength
      have := List.length_pos_iff.mpr hplace
      omega
    rw [if_neg hne, hsame, hparent]
  · rw [if_neg hsame] at hother
    have habove := h other hother
    split
    · rename_i heq
      rcases hn with rfl | hn
      · rfl
      · exact absurd (heq ▸ habove) hn
    · exact habove

theorem WellFormed.makeDirectories (h : d.WellFormed) (path : String) :
    (d.makeDirectories path).1.WellFormed := by
  apply makeDirectories_keeps _ h
  intro d d' above _ h hmade
  obtain ⟨start, place, -, hplace, -, rfl⟩ := makeDirectory_eq_ok.mp hmade
  exact h.setNode (newPlace_ne_nil hplace) (node?_dropLast_of_newPlace hplace) (.inl rfl)

theorem WellFormed.write (h : d.WellFormed) {content : List UInt8}
    (hwrite : d.write path content = .ok d') : d'.WellFormed := by
  obtain ⟨start, place, -, hplace, hdir, rfl⟩ := write_eq_ok.mp hwrite
  exact h.setNode (newPlace_ne_nil hplace) (node?_dropLast_of_newPlace hplace) (.inr hdir)

theorem lookup_map_pair (places : List (List String)) (n : Node) (place : List String) :
    (places.map fun p => (p, n)).lookup place = if place ∈ places then some n else none := by
  induction places with
  | nil => rfl
  | cons p places ih =>
      rw [List.map_cons, List.lookup_cons, ih]
      by_cases h : place = p
      · simp [h]
      · simp [h, beq_false_of_ne h]

/-- On a fresh disk there are only the directories that lead to where paths start. -/
theorem node?_startingIn (start place : List String) :
    (startingIn start).node? place = if place <+: start then some .directory else none := by
  cases place with
  | nil => simp [node?_nil]
  | cons name names =>
      have hnodes : (startingIn start).nodes =
          ((List.range start.length).map fun n => start.take (n + 1)).map fun p =>
            (p, Node.directory) := by
        simp [startingIn]
      have hmem : name :: names ∈ ((List.range start.length).map fun n => start.take (n + 1)) ↔
          name :: names <+: start := by
        simp only [List.mem_map, List.mem_range]
        constructor
        · rintro ⟨n, -, heq⟩
          rw [← heq]
          exact List.take_prefix _ _
        · intro hpre
          refine ⟨names.length, hpre.length_le, ?_⟩
          exact (List.prefix_iff_eq_take.mp hpre).symm
      rw [node?, hnodes, lookup_map_pair]
      simp only [hmem, List.isEmpty_cons, Bool.false_eq_true, if_false]

theorem wellFormed_startingIn (start : List String) : (startingIn start).WellFormed := by
  intro place hplace
  rw [node?_startingIn] at hplace ⊢
  split at hplace
  · rename_i hpre
    rw [if_pos ((List.dropLast_prefix place).trans hpre)]
  · cases hplace

end Disk

end UiStyle
