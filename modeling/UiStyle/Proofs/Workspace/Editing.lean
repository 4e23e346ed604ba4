import UiStyle.Proofs.Lists
import UiStyle.Proofs.Selector.Revisions
import UiStyle.Proofs.Sheet.Spacing
import UiStyle.Proofs.Sheet.WellFormed
import UiStyle.Proofs.Workspace.WellFormed

/-!
# Editing before and after adding

A selector can be revised at hand and then added to a sheet, or added first and then revised in the
sheet.  The two runs start in the same workspace, each perhaps with a counter of its own, and meet
the revisions in workspaces of different shapes:

  `AtHand`    the selector is at hand, and the sheets are still what they were
  `InSheet`   it is the last of a sheet, and what is at hand tells its identity

One revision keeps either shape and answers what revising the selector alone does (`AtHand.revise`,
`InSheet.revise`); `run_revisions` is the induction for both.  Adding leads from the first shape to
the second (`AtHand.add`).  So either run ends in the second, with the revised selector at the end
of the sheet, and where the counter was makes no difference but for the identities of new blocks
(`Selector.Matches.foldl_revise`).

A sheet accepts a selector that is no pseudo-class block and has an identity of its own, puts it
behind the others, and refuses any other.  What the sheet says of the identities it had before stays
what it was, its lines stay in front, and without the new selector it is the old sheet:
`Sheet.gains_push`.  All of this comes from one fact, that no selector in the sheet has the identity
of the new one (`Sheet.id_ne_of_contains_eq_false`); texts and rules may be the same.

Revising does not change the identity of a selector.  That is why the sheet still tells all others
apart from it, why the new one can be replaced by its revision with nothing else changed
(`Sheet.replace_push`), and why without it the sheet is what it was.
-/

namespace UiStyle

/-! ### One selector more -/

namespace Sheet

/-- A sheet with a selector behind those it has. -/
def push (s : Sheet) (t : Selector) : Sheet :=
  { s with selectors := s.selectors ++ [t] }

/-- What a sheet is after it has gained a selector. -/
structure Gains (s : Sheet) (t : Selector) (after : Sheet) : Prop where
  selectors_eq : after.selectors = s.selectors ++ [t]
  length_eq : after.selectors.length = s.selectors.length + 1
  find?_self : after.find? t.id = some t
  contains_self : after.contains t.id = true
  find?_other : ∀ id ≠ t.id, after.find? id = s.find? id
  contains_other : ∀ id ≠ t.id, after.contains id = s.contains id
  /-- The lines of the other selectors stay in front. -/
  lines_eq : after.lines = s.layout.extend s.lines (t.lines s.layout.indent)
  remove_eq : after.remove t.id = s

variable {s : Sheet} {t : Selector}

theorem add_eq_push (h : s.accepts t = true) : s.add t = s.push t :=
  if_pos h

/-- A selector that is not accepted leaves a sheet as it is. -/
theorem add_eq_self (h : s.accepts t = false) : s.add t = s :=
  if_neg (Bool.eq_false_iff.mp h)

theorem accepts_of_new (hplain : t.isPseudoClass = false) (hnew : s.contains t.id = false) :
    s.accepts t = true := by
  rw [accepts, hplain, hnew]
  rfl

/-- A selector of another identity is none of those in a sheet. -/
theorem id_ne_of_contains_eq_false {id : Nat} (h : s.contains id = false) {u : Selector}
    (hu : u ∈ s.selectors) : ¬ (u.id == id) = true := by
  intro hid
  rw [beq_iff_eq] at hid
  exact contains_eq_false_iff.mp h (hid ▸ List.mem_map_of_mem hu)

theorem find?_push (hnew : s.contains t.id = false) : (s.push t).find? t.id = some t := by
  have hnone : s.selectors.find? (fun u => u.id == t.id) = none :=
    List.find?_eq_none.mpr fun u hu => id_ne_of_contains_eq_false hnew hu
  rw [find?, push, List.find?_append, hnone]
  simp

theorem remove_push (hnew : s.contains t.id = false) : (s.push t).remove t.id = s := by
  have hkept : (s.selectors ++ [t]).eraseP (fun u => u.id == t.id) = s.selectors := by
    rw [List.eraseP_append_right _ fun u hu => id_ne_of_contains_eq_false hnew hu]
    simp
  rw [remove, push, hkept]

/-- The last selector is replaced by another of its identity, and no other selector is. -/
theorem replace_push {u : Selector} (hnew : s.contains t.id = false) (hid : u.id = t.id) :
    (s.push t).replace u = s.push u := by
  have hkept : s.selectors.map (fun v => if v.id == u.id then u else v) = s.selectors := by
    refine (List.map_congr_left fun v hv => ?_).trans (List.map_id _)
    rw [hid]
    exact if_neg (id_ne_of_contains_eq_false hnew hv)
  rw [replace, push, List.map_append, hkept, List.map_singleton, if_pos (beq_iff_eq.mpr hid.symm)]
  rfl

theorem gains_push (hnew : s.contains t.id = false) : s.Gains t (s.push t) where
  selectors_eq := rfl
  length_eq := List.length_append
  find?_self := find?_push hnew
  contains_self := by simp [contains, push]
  find?_other id hid := by
    rw [find?, push, List.find?_append, List.find?_singleton, if_neg (by simpa using hid.symm)]
    exact Option.or_none
  contains_other id hid := by simp [contains, push, hid.symm]
  lines_eq := s.lines_concat t
  remove_eq := remove_push hnew

end Sheet

/-! ### Two runs -/

namespace Named

variable {α : Type}

theorem get?_set (name other : String) (value : α) (values : Named α) :
    (values.set name value).get? other = if other = name then some value else values.get? other :=
  lookup_set name other value values

theorem get?_set_self (name : String) (value : α) (values : Named α) :
    (values.set name value).get? name = some value := by
  rw [get?_set, if_pos rfl]

theorem get?_set_of_ne {name other : String} (h : other ≠ name) (value : α) (values : Named α) :
    (values.set name value).get? other = values.get? other := by
  rw [get?_set, if_neg h]

end Named

/-! ### Runs of revisions -/

/-- The answer of a workspace to a revision. -/
def Answer.ofReply (a : Reply) : Answer := .block a.block a.rule

namespace Workspace

/-- What a workspace answers to some actions, in order. -/
def answers (w : Workspace) : List Action → List Answer
  | [] => []
  | a :: actions => (w.perform a).2 :: answers (w.perform a).1 actions

theorem answers_append (w : Workspace) (actions more : List Action) :
    w.answers (actions ++ more) = w.answers actions ++ (w.run actions).answers more := by
  induction actions generalizing w with
  | nil => rfl
  | cons a actions ih => exact congrArg (_ :: ·) (ih _)

theorem run_append (w : Workspace) (actions more : List Action) :
    w.run (actions ++ more) = (w.run actions).run more :=
  List.foldl_append

open Selector (revise reply replies)

/-- A shape of workspaces that every revision keeps, answering as for the selector alone, is kept by
all of them one after the other. -/
theorem run_revisions {Shape : Selector × Nat → Workspace → Prop} {action : Revision → Action}
    (hstep : ∀ {made w}, Shape made w → ∀ r, Shape (revise made r) (w.perform (action r)).1 ∧
      (w.perform (action r)).2 = .ofReply (reply made r))
    {made : Selector × Nat} {w : Workspace} (h : Shape made w) (revisions : List Revision) :
    Shape (revisions.foldl revise made) (w.run (revisions.map action)) ∧
      w.answers (revisions.map action) = (replies made revisions).map .ofReply := by
  -- the shape is what the induction carries, from one workspace to the next
  induction revisions generalizing made w with
  | nil => exact ⟨h, rfl⟩
  | cons r revisions ih =>
      obtain ⟨hshape, hanswer⟩ := hstep h r
      obtain ⟨hend, hanswers⟩ := ih hshape
      exact ⟨hend, List.cons_eq_cons.mpr ⟨hanswer, hanswers⟩⟩

variable {w w₀ : Workspace} {name title : String} {sheet : Sheet} {s : Selector}

/-! ### At hand -/

/-- The revision of a selector at hand. -/
def reviseAtHand (name : String) (r : Revision) : Action :=
  .edit ⟨name, none, r.path⟩ r.change

/-- A workspace with a selector at hand and a counter, and with the sheets of `w₀`. -/
structure AtHand (w₀ : Workspace) (name : String) (made : Selector × Nat) (w : Workspace) :
    Prop where
  selector_eq : w.selectors.get? name = some made.1
  nextId_eq : w.nextId = made.2
  sheets_eq : w.sheets = w₀.sheets

theorem AtHand.revise {made : Selector × Nat} (h : AtHand w₀ name made w) (r : Revision) :
    AtHand w₀ name (revise made r) (w.perform (reviseAtHand name r)).1 ∧
      (w.perform (reviseAtHand name r)).2 = .ofReply (reply made r) := by
  have hfind : w.find? ⟨name, none, r.path⟩ = some made.1 := by
    rw [find?, h.selector_eq]
    rfl
  have hreach := reach?_eq_some_iff.mpr ⟨made.1, hfind, rfl⟩
  rw [h.nextId_eq] at hreach
  simp only [reviseAtHand, perform, hreach]
  exact ⟨⟨Named.get?_set_self .., rfl, h.sheets_eq⟩, rfl⟩

/-! ### In a sheet -/

/-- The revision of the copy of a selector in a sheet. -/
def reviseInSheet (name title : String) (r : Revision) : Action :=
  .edit ⟨name, some title, r.path⟩ r.change

/-- A workspace with a counter and with the sheets of `w₀`, of which one has gained a selector of
the identity of the one at hand. -/
structure InSheet (w₀ : Workspace) (name title : String) (sheet : Sheet) (made : Selector × Nat)
    (w : Workspace) : Prop where
  sheet_eq : w.sheets.get? title = some (sheet.push made.1)
  new : sheet.contains made.1.id = false
  own : ∃ own, w.selectors.get? name = some own ∧ own.id = made.1.id
  nextId_eq : w.nextId = made.2
  others_eq : ∀ other ≠ title, w.sheets.get? other = w₀.sheets.get? other

/-- Putting a selector of the same identity into the sheet replaces the one that it has gained. -/
theorem InSheet.put {made : Selector × Nat} (h : InSheet w₀ name title sheet made w)
    {t : Selector} (hid : t.id = made.1.id) (path : List PseudoClass) :
    InSheet w₀ name title sheet (t, made.2) (w.put ⟨name, some title, path⟩ t) := by
  obtain ⟨own, hown, hownid⟩ := h.own
  have hput : w.put ⟨name, some title, path⟩ t =
      { w with sheets := w.sheets.set title (sheet.push t) } := by
    simp only [Workspace.put, h.sheet_eq, Sheet.replace_push h.new hid]
  rw [hput]
  refine ⟨Named.get?_set_self .., hid ▸ h.new, ⟨own, hown, hownid.trans hid.symm⟩, h.nextId_eq, ?_⟩
  intro other hother
  rw [Named.get?_set_of_ne hother]
  exact h.others_eq other hother

theorem InSheet.revise {made : Selector × Nat} (h : InSheet w₀ name title sheet made w)
    (r : Revision) :
    InSheet w₀ name title sheet (revise made r) (w.perform (reviseInSheet name title r)).1 ∧
      (w.perform (reviseInSheet name title r)).2 = .ofReply (reply made r) := by
  obtain ⟨own, hown, hid⟩ := h.own
  have hfind : w.find? ⟨name, some title, r.path⟩ = some made.1 := by
    simp only [find?, hown, h.sheet_eq, Option.bind_eq_bind, Option.bind_some, hid]
    exact Sheet.find?_push h.new
  have hreach := reach?_eq_some_iff.mpr ⟨made.1, hfind, rfl⟩
  rw [h.nextId_eq] at hreach
  -- the sheet gets the selector back twice: with the block that was asked for, and then edited
  have hasked : InSheet w₀ name title sheet
      ((made.1.follow made.2 r.path).selector, (made.1.follow made.2 r.path).next)
      ({ w with nextId := (made.1.follow made.2 r.path).next }.put ⟨name, some title, r.path⟩
        (made.1.follow made.2 r.path).selector) := by
    have hcounted : InSheet w₀ name title sheet (made.1, (made.1.follow made.2 r.path).next)
        { w with nextId := (made.1.follow made.2 r.path).next } :=
      ⟨h.sheet_eq, h.new, h.own, rfl, h.others_eq⟩
    exact hcounted.put (congrArg Block.id (made.1.follow_toBlock made.2 r.path)) r.path
  simp only [reviseInSheet, perform, hreach]
  exact ⟨hasked.put (Selector.editAt_id ..) r.path, rfl⟩

/-! ### From one shape to the other, and back -/

/-- Adding takes a selector that is at hand, revised or not, into the sheet. -/
theorem AtHand.add {made : Selector × Nat} (h : AtHand w₀ name made w)
    (hsheet : w₀.sheets.get? title = some sheet) (hplain : made.1.isPseudoClass = false)
    (hnew : sheet.contains made.1.id = false) :
    InSheet w₀ name title sheet made (w.perform (.add title name)).1 ∧
      (w.perform (.add title name)).2 = .added true := by
  have haccepts := Sheet.accepts_of_new hplain hnew
  have hget : w.sheets.get? title = some sheet := by rw [h.sheets_eq, hsheet]
  simp only [perform, hget, h.selector_eq, Sheet.add_eq_push haccepts, haccepts]
  refine ⟨⟨Named.get?_set_self .., hnew, ⟨made.1, h.selector_eq, rfl⟩, h.nextId_eq, ?_⟩, trivial⟩
  intro other hother
  rw [Named.get?_set_of_ne hother, h.sheets_eq]

/-- What a workspace is after a sheet of `w` has gained a selector: that sheet is the old one with
the selector at its end, and taking the selector out again gives it back and leaves every sheet as
it was. -/
structure Gained (w : Workspace) (name title : String) (sheet : Sheet) (t : Selector)
    (w' : Workspace) : Prop where
  sheet_eq : w'.sheets.get? title = some (sheet.push t)
  gains : sheet.Gains t (sheet.push t)
  others_eq : ∀ other ≠ title, w'.sheets.get? other = w.sheets.get? other
  removed : (w'.perform (.remove title name)).2 = .removed (some t)
  restored : ∀ other, (w'.perform (.remove title name)).1.sheets.get? other = w.sheets.get? other

theorem InSheet.gained {made : Selector × Nat} (h : InSheet w₀ name title sheet made w)
    (hsheet : w₀.sheets.get? title = some sheet) : Gained w₀ name title sheet made.1 w := by
  obtain ⟨own, hown, hid⟩ := h.own
  have hremove : w.perform (.remove title name) =
      ({ w with sheets := w.sheets.set title sheet }, .removed (some made.1)) := by
    simp only [perform, h.sheet_eq, hown, hid, Sheet.find?_push h.new, Sheet.remove_push h.new]
  refine ⟨h.sheet_eq, Sheet.gains_push h.new, h.others_eq, by rw [hremove], ?_⟩
  intro other
  rw [hremove]
  by_cases hother : other = title
  · rw [hother, hsheet]
    exact Named.get?_set_self ..
  · rw [Named.get?_set_of_ne hother]
    exact h.others_eq other hother

/-- An add that is refused changes no sheet. -/
theorem sheets_of_added_false (h : (w.perform (.add title name)).2 = .added false)
    (other : String) :
    (w.perform (.add title name)).1.sheets.get? other = w.sheets.get? other := by
  simp only [perform] at h ⊢
  split at h
  · rename_i sheet s hsheet _
    have haccepts : sheet.accepts s = false := Answer.added.inj h
    dsimp only
    rw [Sheet.add_eq_self haccepts, Named.get?_set]
    split
    · rename_i hother
      rw [hother, hsheet]
    · rfl
  · rfl

/-- **Editing before and after adding.**  A selector is at hand that is no pseudo-class block, and a
sheet has none of its identity.  It is revised at hand, however often, and then added to the sheet;
or, with the counter anywhere, it is added first and then revised in the sheet.

* In both runs the add succeeds, each revision answers what it answers for the selector alone, and
  in the end the sheet is what it was with the revised selector behind all others.
* The sheet then finds, contains and counts the revised selector and, for every other identity, what
  it did before.  The lines of the other selectors are where they were; no other sheet has changed;
  and removing the selector gives it back, revised, and the sheet as it was.
* What the runs add and answer differs, if at all, in the identities of new blocks.

An add that is refused changes no sheet. -/
theorem edit_add_comm (hsheet : w.sheets.get? title = some sheet)
    (hs : w.selectors.get? name = some s) (hplain : s.isPseudoClass = false)
    (hnew : sheet.contains s.id = false) (next : Nat) (revisions : List Revision) :
    let first := revisions.map (reviseAtHand name) ++ [.add title name]
    let second := .add title name :: revisions.map (reviseInSheet name title)
    Gained w name title sheet (revisions.foldl revise (s, w.nextId)).1 (w.run first) ∧
      Gained w name title sheet (revisions.foldl revise (s, next)).1
        ({ w with nextId := next }.run second) ∧
      w.answers first =
        (replies (s, w.nextId) revisions).map .ofReply ++ [.added true] ∧
      answers { w with nextId := next } second =
        .added true :: (replies (s, next) revisions).map .ofReply ∧
      Selector.Matches s.states.length (revisions.foldl revise (s, w.nextId)).1
        (revisions.foldl revise (s, next)).1 ∧
      (replies (s, next) revisions).map Reply.withoutId =
        (replies (s, w.nextId) revisions).map Reply.withoutId ∧
      ∀ title name, (w.perform (.add title name)).2 = .added false →
        ∀ other, (w.perform (.add title name)).1.sheets.get? other = w.sheets.get? other := by
  intro first second
  obtain ⟨hreplies, hmatches⟩ :=
    (Selector.Matches.refl s).foldl_revise w.nextId next revisions
  -- the selector is revised at hand and then added
  have hhand : AtHand w name (s, w.nextId) w := ⟨hs, rfl, rfl⟩
  obtain ⟨hrevised, hanswers⟩ := run_revisions (fun h => h.revise) hhand revisions
  obtain ⟨hid, hclass⟩ := Selector.foldl_revise (s, w.nextId) revisions
  obtain ⟨hadded, hadd⟩ := hrevised.add hsheet (hclass.trans hplain) (hid ▸ hnew)
  -- it is added and then revised in the sheet
  have hhand' : AtHand w name (s, next) { w with nextId := next } := ⟨hs, rfl, rfl⟩
  obtain ⟨hadded', hadd'⟩ := hhand'.add hsheet hplain hnew
  obtain ⟨hrevised', hanswers'⟩ := run_revisions (fun h => h.revise) hadded' revisions
  refine ⟨?_, hrevised'.gained hsheet, ?_, List.cons_eq_cons.mpr ⟨hadd', hanswers'⟩, hmatches,
    hreplies, fun _ _ => sheets_of_added_false⟩
  · rw [run_append]
    exact hadded.gained hsheet
  · rw [answers_append, hanswers]
    exact congrArg (_ ++ [·]) hadd

/-- A sheet with one selector, and another selector at hand. -/
def shelf : Workspace :=
  run {} [.create "row" ".row", .newSheet "main" "Main" none {}, .add "main" "row",
    .create "card" ".card"]

/-- Revisions that make a block, of which one finds nothing to take out. -/
def shelfRevisions : List Revision :=
  [⟨[], .insert ⟨"opacity", .opacity, "1", true⟩⟩,
    ⟨[.hover], .insert ⟨"width", .width, "2px", true⟩⟩,
    ⟨[.hover, .active], .erase "opacity"⟩]

theorem edit_add_comm_shelf :
    ∃ (sheet : Sheet) (s edited edited' : Selector),
      shelf.sheets.get? "main" = some sheet ∧ shelf.selectors.get? "card" = some s ∧
      s.isPseudoClass = false ∧ sheet.contains s.id = false ∧
      edited.blocks.map Block.id = [2, 3] ∧ edited'.blocks.map Block.id = [2, 7] ∧
      Gained shelf "card" "main" sheet edited
        (shelf.run (shelfRevisions.map (reviseAtHand "card") ++ [.add "main" "card"])) ∧
      Gained shelf "card" "main" sheet edited'
        ({ shelf with nextId := 7 }.run
          (.add "main" "card" :: shelfRevisions.map (reviseInSheet "card" "main"))) ∧
      Selector.Matches 0 edited edited' := by
  have hsheet : shelf.sheets.get? "main" = some ⟨"Main", [.new 1 ".row"], none, {}⟩ := rfl
  have hs : shelf.selectors.get? "card" = some (.new 2 ".card") := rfl
  obtain ⟨hfirst, hsecond, -, -, hmatches, -, -⟩ := edit_add_comm hsheet hs rfl rfl 7 shelfRevisions
  exact ⟨_, _, _, _, hsheet, hs, rfl, rfl, rfl, rfl, hfirst, hsecond, hmatches⟩

end Workspace

end UiStyle
