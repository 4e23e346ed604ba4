import UiStyle.Disk
import UiStyle.Proofs.Lists

/-!
# Following paths

A step along a path starts in a directory and stays, goes up or goes down (`Step`), and only a step
down asks for something that is there.  This file says where steps lead (`follow_eq_ok`), which
place a path has that may still be empty (`newPlace_eq_ok`), and what stands on a disk after a place
was set (`node?_setNode`).  Behind it nothing unfolds these again.
-/

namespace UiStyle

/-- Whether a piece of a path names something in a directory. -/
structure Path.IsName (piece : String) : Prop where
  nonempty : piece ≠ ""
  not_here : piece ≠ "."
  not_above : piece ≠ ".."

theorem Path.isName_iff {piece : String} :
    IsName piece ↔ ¬ (piece = "" ∨ piece = "." ∨ piece = "..") := by
  simp only [not_or]
  exact ⟨fun h => ⟨h.nonempty, h.not_here, h.not_above⟩, fun ⟨h, h', h''⟩ => ⟨h, h', h''⟩⟩

instance (piece : String) : Decidable (Path.IsName piece) :=
  decidable_of_iff' _ Path.isName_iff

namespace Disk

open UiStyle.Path (IsName)

variable {d : Disk} {place : List String}

/-! ### Places -/

theorem node?_nil (d : Disk) : d.node? [] = some .directory := rfl

/-- Only the place that was set has changed. -/
theorem node?_setNode (hplace : place ≠ []) (n : Node) (other : List String) :
    (d.setNode place n).node? other = if other = place then some n else d.node? other := by
  cases other with
  | nil =>
      rw [if_neg (Ne.symm hplace)]
      rfl
  | cons piece rest => exact lookup_set place (piece :: rest) n d.nodes

/-- Setting a place to what it is set to changes nothing. -/
theorem setNode_setNode (d : Disk) (place : List String) (n : Node) :
    (d.setNode place n).setNode place n = d.setNode place n := by
  simp [setNode]

/-! ### Steps -/

/-- Where a piece leads to from a directory. -/
inductive Step (d : Disk) (place : List String) (piece : String) : List String → Prop
  | stay (h : piece = "" ∨ piece = ".") : Step d place piece place
  | up (h : piece = "..") : Step d place piece place.dropLast
  | down (h : IsName piece) (there : (d.node? (place ++ [piece])).isSome = true) :
    Step d place piece (place ++ [piece])

theorem child_eq_ok {name : String} {down : List String} :
    d.child place name = .ok down ↔
      d.node? place = some .directory ∧ name.utf8ByteSize ≤ nameLimit ∧ down = place ++ [name] := by
  unfold child
  split
  · rename_i hnode
    simp [hnode]
  · rename_i hnode
    simp [hnode]
  · rename_i hnode
    split
    · rename_i hlimit
      simp [hnode, Nat.not_le_of_lt hlimit]
    · rename_i hlimit
      simp [hnode, Nat.le_of_not_lt hlimit, eq_comm]

/-- A step is one from a directory, along a piece that is not too long. -/
theorem follow_eq_ok {piece : String} {next : List String} :
    d.follow place piece = .ok next ↔
      d.node? place = some .directory ∧ piece.utf8ByteSize ≤ nameLimit ∧
        d.Step place piece next := by
  unfold follow
  simp only [bind_eq_ok, child_eq_ok]
  constructor
  · rintro ⟨down, ⟨hdir, hsize, rfl⟩, h⟩
    refine ⟨hdir, hsize, ?_⟩
    split at h
    · rename_i hstay
      obtain rfl := Except.ok.inj h
      exact .stay hstay
    · rename_i hstay
      split at h
      · rename_i hup
        obtain rfl := Except.ok.inj h
        exact .up hup
      · rename_i hup
        split at h
        · cases h
        · rename_i hthere
          obtain rfl := Except.ok.inj h
          rw [not_or] at hstay
          exact .down ⟨hstay.1, hstay.2, hup⟩ (by simpa [Option.isSome_iff_ne_none] using hthere)
  · rintro ⟨hdir, hsize, hstep⟩
    refine ⟨_, ⟨hdir, hsize, rfl⟩, ?_⟩
    cases hstep with
    | stay h => rw [if_pos h]; rfl
    | up h =>
        subst h
        rfl
    | down h there =>
        have hnone : ¬ (d.node? (place ++ [piece])).isNone = true := by
          rw [Option.isNone_iff_eq_none]
          exact Option.isSome_iff_ne_none.mp there
        rw [if_neg (by simp [h.nonempty, h.not_here]), if_neg h.not_above, if_neg hnone]
        rfl

/-- Empty pieces stay where they are. -/
theorem foldlM_of_forall_eq_empty {pieces place : List String} (hpieces : ∀ p ∈ pieces, p = "")
    (hdir : d.node? place = some .directory) : pieces.foldlM d.follow place = .ok place := by
  induction pieces with
  | nil => rfl
  | cons piece pieces ih =>
      obtain ⟨rfl, hrest⟩ := List.forall_mem_cons.mp hpieces
      have hstay : d.follow place "" = .ok place :=
        follow_eq_ok.mpr ⟨hdir, Nat.zero_le _, .stay (.inl rfl)⟩
      exact foldlM_cons_eq_ok.mpr ⟨place, hstay, ih hrest⟩

/-- A path leads to what its pieces lead to. -/
theorem resolve_eq_ok {path : String} :
    d.resolve path = .ok place ↔
      ∃ start, d.origin path = .ok start ∧
        (Path.pieces path).foldlM d.follow start = .ok place := by
  rw [resolve, bind_eq_ok]

theorem at?_eq_ok {path : String} {n : Node} :
    d.at? path = .ok n ↔ ∃ place, d.resolve path = .ok place ∧ d.node? place = some n := by
  rw [at?, bind_eq_ok]
  refine exists_congr fun place => and_congr_right fun _ => ?_
  cases d.node? place with
  | none => simp [throw, throwThe, MonadExceptOf.throw]
  | some m => simp [pure, Except.pure]

theorem has_of_resolve {path : String} (h : d.resolve path = .ok place) {n : Node}
    (hnode : d.node? place = some n) : d.has path = true := by
  rw [has, at?_eq_ok.mpr ⟨place, h, hnode⟩]
  rfl

theorem isDirectory_iff {path : String} : d.isDirectory path = true ↔
    ∃ place, d.resolve path = .ok place ∧ d.node? place = some .directory := by
  rw [← at?_eq_ok, isDirectory]
  split
  · rename_i h
    simp [h]
  · rename_i h
    simpa using h

/-! ### Places that may be empty -/

/-- A new place is a name in a directory that the other pieces lead to. -/
theorem newPlace_eq_ok {start pieces : List String} :
    d.newPlace start pieces = .ok (some place) ↔
      ∃ front last parent, pieces = front ++ [last] ∧ front.foldlM d.follow start = .ok parent ∧
        d.node? parent = some .directory ∧ last.utf8ByteSize ≤ nameLimit ∧ IsName last ∧
        place = parent ++ [last] := by
  unfold newPlace
  constructor
  · intro h
    split at h
    · cases h
    · rename_i last hlast
      simp only [bind_eq_ok, child_eq_ok] at h
      obtain ⟨parent, hparent, down, ⟨hdir, hsize, rfl⟩, h⟩ := h
      split at h
      · cases h
      · rename_i hname
        obtain rfl := Option.some.inj (Except.ok.inj h)
        refine ⟨pieces.dropLast, last, parent, ?_, hparent, hdir, hsize,
          Path.isName_iff.mpr hname, rfl⟩
        obtain ⟨front, rfl⟩ := List.getLast?_eq_some_iff.mp hlast
        rw [List.dropLast_concat]
  · rintro ⟨front, last, parent, rfl, hparent, hdir, hsize, hname, rfl⟩
    simp only [List.getLast?_append, List.getLast?_singleton, Option.some_or, bind_eq_ok,
      List.dropLast_concat, child_eq_ok]
    refine ⟨parent, hparent, _, ⟨hdir, hsize, rfl⟩, ?_⟩
    rw [if_neg (Path.isName_iff.mp hname)]
    rfl

theorem newPlace_ne_nil {start pieces : List String}
    (h : d.newPlace start pieces = .ok (some place)) : place ≠ [] := by
  obtain ⟨front, last, parent, -, -, -, -, -, rfl⟩ := newPlace_eq_ok.mp h
  exact List.append_ne_nil_of_right_ne_nil _ (List.cons_ne_nil _ _)

theorem node?_dropLast_of_newPlace {start pieces : List String}
    (h : d.newPlace start pieces = .ok (some place)) :
    d.node? place.dropLast = some .directory := by
  obtain ⟨front, last, parent, -, -, hparent, -, -, rfl⟩ := newPlace_eq_ok.mp h
  rw [List.dropLast_concat, hparent]

/-- Where a path leads somewhere, this is its new place too, if its last piece is a name. -/
theorem newPlace_of_follow {start front parent next : List String} {last : String}
    (hfront : front.foldlM d.follow start = .ok parent) (hlast : d.follow parent last = .ok next) :
    d.newPlace start (front ++ [last]) = .ok (if IsName last then some next else none) := by
  obtain ⟨hdir, hsize, hstep⟩ := follow_eq_ok.mp hlast
  by_cases hname : IsName last
  · rw [if_pos hname, newPlace_eq_ok]
    refine ⟨front, last, parent, rfl, hfront, hdir, hsize, hname, ?_⟩
    cases hstep with
    | stay h => exact absurd h (by simp [hname.nonempty, hname.not_here])
    | up h => exact absurd h hname.not_above
    | down => rfl
  · rw [if_neg hname]
    simp only [newPlace, List.getLast?_append, List.getLast?_singleton, Option.some_or, bind_eq_ok,
      List.dropLast_concat, child_eq_ok]
    refine ⟨parent, hfront, _, ⟨hdir, hsize, rfl⟩, ?_⟩
    rw [if_pos (Decidable.of_not_not (mt Path.isName_iff.mpr hname))]
    rfl

/-- A path leads to its new place if something is there. -/
theorem foldlM_of_newPlace {start pieces : List String}
    (h : d.newPlace start pieces = .ok (some place)) (hthere : (d.node? place).isSome = true) :
    pieces.foldlM d.follow start = .ok place := by
  obtain ⟨front, last, parent, rfl, hparent, hdir, hsize, hname, rfl⟩ := newPlace_eq_ok.mp h
  refine foldlM_append_eq_ok.mpr ⟨parent, hparent, foldlM_cons_eq_ok.mpr ⟨_, ?_, rfl⟩⟩
  exact follow_eq_ok.mpr ⟨hdir, hsize, .down hname hthere⟩

end Disk

end UiStyle
