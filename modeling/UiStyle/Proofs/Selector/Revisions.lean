import UiStyle.Proofs.Manifest.Reload

/-!
# Revisions

A revision of a selector asks for pseudo-classes and edits the block that they lead to.  On the way
it may make this block, with an identity from the counter.  So where the counter stands shows in a
selector that has been revised, and this file says that it shows nowhere else.

The relation that carries this is `Selector.Matches`: two selectors with the same own block, the
same first pseudo-class blocks, and others that are the same but for their identities.  Selectors
that match have blocks of the same rules in the same places (`Matches.state?`, `Matches.blockAt`),
so

* making a block that is missing keeps them matching, whatever the two counters (`Matches.opened`);
* asking leads to the same place in both (`Matches.follow`);
* an edit does the same to both and answers with the same rule (`Matches.editAt`).

`Matches.revise` puts the three steps behind each other, and `Matches.foldl_revise` is the run.
-/

namespace UiStyle

/-! ### Blocks without their identity -/

namespace Block

theorem isPseudoClass_of_withoutId_eq {b c : Block} (h : c.withoutId = b.withoutId) :
    c.isPseudoClass = b.isPseudoClass := by
  have hclass := congrArg isPseudoClass h
  exact hclass

theorem edit_withoutId (b : Block) (e : Edit) :
    b.withoutId.edit e = ((b.edit e).1, (b.edit e).2.withoutId) := by
  cases e <;> rfl

end Block

/-- A change of the block that asking for some pseudo-classes leads to. -/
structure Revision where
  path : List PseudoClass
  change : Edit

/-- What a revision answers: the block as it is then, and the rule that was replaced or taken
out. -/
structure Reply where
  block : Block
  rule : Option Rule

/-- An answer without the identity of the block. -/
def Reply.withoutId (a : Reply) : Reply := { a with block := a.block.withoutId }

namespace Selector

/-- A selector after a revision, and the identity that the next block takes. -/
def revise (made : Selector × Nat) (r : Revision) : Selector × Nat :=
  let c := made.1.follow made.2 r.path
  ((c.selector.editAt c.place r.change).2, c.next)

/-- What a revision of a selector answers. -/
def reply (made : Selector × Nat) (r : Revision) : Reply :=
  let c := made.1.follow made.2 r.path
  ⟨(revise made r).1.blockAt c.place, (c.selector.editAt c.place r.change).1⟩

/-- What several revisions answer, one after the other. -/
def replies (made : Selector × Nat) : List Revision → List Reply
  | [] => []
  | r :: revisions => reply made r :: replies (revise made r) revisions

/-! ### What revisions keep -/

@[simp] theorem editAt_id (s : Selector) (place : Place) (e : Edit) :
    (s.editAt place e).2.id = s.id := by
  cases place with
  | own => exact Block.edit_id _ e
  | state p => rfl

theorem revise_id (made : Selector × Nat) (r : Revision) : (revise made r).1.id = made.1.id := by
  rw [revise, editAt_id, follow_toBlock]

theorem revise_isPseudoClass (made : Selector × Nat) (r : Revision) :
    (revise made r).1.isPseudoClass = made.1.isPseudoClass := by
  rw [revise, editAt_isPseudoClass, follow_toBlock]

/-- However often it is revised, a selector keeps its identity and stays what it is. -/
theorem foldl_revise (made : Selector × Nat) (revisions : List Revision) :
    (revisions.foldl revise made).1.id = made.1.id ∧
      (revisions.foldl revise made).1.isPseudoClass = made.1.isPseudoClass := by
  induction revisions generalizing made with
  | nil => exact ⟨rfl, rfl⟩
  | cons r revisions ih =>
      obtain ⟨hid, hclass⟩ := ih (revise made r)
      exact ⟨hid.trans (revise_id made r), hclass.trans (revise_isPseudoClass made r)⟩

/-! ### Selectors that match -/

/-- Selectors that are the same but for the identities of the pseudo-class blocks behind the first
`n`. -/
structure Matches (n : Nat) (s t : Selector) : Prop where
  toBlock_eq : t.toBlock = s.toBlock
  first_eq : t.states.take n = s.states.take n
  states_eq : t.states.map Block.withoutId = s.states.map Block.withoutId
  le : n ≤ s.states.length

theorem map_withoutId_state? (s : Selector) (p : PseudoClass) :
    (s.state? p).map Block.withoutId =
      (s.states.map Block.withoutId).find? fun b => b.pseudoClass == some p := by
  rw [List.find?_map]
  rfl

/-- A change that does not look at identities can be made before or after they are dropped. -/
theorem map_withoutId_modifyAt {f : Block → Block} (hf : ∀ b, (f b).withoutId = f b.withoutId)
    (s : Selector) (p : PseudoClass) :
    (s.modifyAt f (.state p)).states.map Block.withoutId =
      (s.states.map Block.withoutId).map fun b => if b.pseudoClass == some p then f b else b := by
  rw [modifyAt, List.map_map, List.map_map]
  apply List.map_congr_left
  intro b _
  have hclass : b.withoutId.pseudoClass = b.pseudoClass := rfl
  simp only [Function.comp_apply, hclass]
  split
  · exact hf b
  · rfl

namespace Matches

variable {n : Nat} {s t : Selector}

theorem refl (s : Selector) : Matches s.states.length s s :=
  ⟨rfl, rfl, rfl, Nat.le_refl _⟩

theorem length_eq (h : Matches n s t) : t.states.length = s.states.length := by
  have hlength := congrArg List.length h.states_eq
  rwa [List.length_map, List.length_map] at hlength

/-- Selectors that match have blocks of the same pseudo-classes. -/
theorem state? (h : Matches n s t) (p : PseudoClass) :
    (s.state? p = none ∧ t.state? p = none) ∨
      ∃ b c, s.state? p = some b ∧ t.state? p = some c ∧ c.withoutId = b.withoutId := by
  have hstate : (t.state? p).map Block.withoutId = (s.state? p).map Block.withoutId := by
    rw [map_withoutId_state?, map_withoutId_state?, h.states_eq]
  cases hs : s.state? p with
  | none =>
      rw [hs, Option.map_none, Option.map_eq_none_iff] at hstate
      exact .inl ⟨rfl, hstate⟩
  | some b =>
      rw [hs, Option.map_some] at hstate
      obtain ⟨c, hc, hcb⟩ := Option.map_eq_some_iff.mp hstate
      exact .inr ⟨b, c, rfl, hc, hcb⟩

theorem blockAt (h : Matches n s t) (place : Place) :
    (t.blockAt place).withoutId = (s.blockAt place).withoutId := by
  cases place with
  | own => exact congrArg Block.withoutId h.toBlock_eq
  | state p =>
      rcases h.state? p with ⟨hs, ht⟩ | ⟨b, c, hs, ht, hcb⟩
      · rw [blockAt_of_state?_eq_none hs, blockAt_of_state?_eq_none ht, h.toBlock_eq]
      · rw [blockAt_of_state? hs, blockAt_of_state? ht, hcb]

/-- A block is made in both or in none, behind the first `n`. -/
theorem opened (h : Matches n s t) (next next' : Nat) (p : PseudoClass) :
    Matches n (s.opened next (.state p)).1 (t.opened next' (.state p)).1 := by
  rcases h.state? p with ⟨hs, ht⟩ | ⟨b, c, hs, ht, -⟩
  · rw [opened_of_state?_eq_none hs, opened_of_state?_eq_none ht]
    have hnew : (t.newState next' p).withoutId = (s.newState next p).withoutId := by
      rw [newState, newState, h.toBlock_eq]
      rfl
    refine ⟨h.toBlock_eq, ?_, ?_, ?_⟩
    · have hle : n ≤ t.states.length := h.length_eq ▸ h.le
      rw [List.take_append_of_le_length hle, List.take_append_of_le_length h.le, h.first_eq]
    · rw [List.map_append, List.map_append, h.states_eq, List.map_singleton, List.map_singleton,
        hnew]
    · rw [List.length_append]
      exact Nat.le_add_right_of_le h.le
  · -- both blocks are there already, and nothing is made
    rw [opened_of_state?_eq_some hs, opened_of_state?_eq_some ht]
    exact h

/-- A cursor in each of two selectors that match, at the same place. -/
structure Cursors (n : Nat) (c c' : Cursor) : Prop where
  selectors : Matches n c.selector c'.selector
  place_eq : c'.place = c.place

theorem Cursors.ask {c c' : Cursor} (h : Cursors n c c') (p : PseudoClass) :
    Cursors n (c.ask p) (c'.ask p) := by
  have hclass : (c'.selector.blockAt c'.place).isPseudoClass =
      (c.selector.blockAt c.place).isPseudoClass := by
    rw [h.place_eq]
    exact Block.isPseudoClass_of_withoutId_eq (h.selectors.blockAt c.place)
  by_cases hblock : (c.selector.blockAt c.place).isPseudoClass = true
  · rw [Cursor.ask_of_isPseudoClass hblock, Cursor.ask_of_isPseudoClass (hclass.trans hblock)]
    exact h
  · rw [Cursor.ask_of_not_isPseudoClass hblock,
      Cursor.ask_of_not_isPseudoClass (fun h' => hblock (hclass.symm.trans h'))]
    exact ⟨h.selectors.opened c.next c'.next p, rfl⟩

/-- Asking for the same pseudo-classes leads to the same place. -/
theorem follow (h : Matches n s t) (next next' : Nat) (path : List PseudoClass) :
    Cursors n (s.follow next path) (t.follow next' path) := by
  induction path using List.reverseRecOn with
  | nil => exact ⟨h, rfl⟩
  | append_singleton path p ih =>
      rw [Selector.follow, Selector.follow, List.foldl_append, List.foldl_append]
      exact ih.ask p

/-- An edit in the same place answers with the same rule and does the same to both. -/
theorem editAt (h : Matches n s t) (place : Place) (e : Edit) :
    (t.editAt place e).1 = (s.editAt place e).1 ∧
      Matches n (s.editAt place e).2 (t.editAt place e).2 := by
  -- an edit looks at rules only, so it can be made on blocks without their identity
  have hrule : ∀ b : Block, (b.withoutId.edit e).1 = (b.edit e).1 := by
    intro b
    rw [b.edit_withoutId]
  have hblock : ∀ b : Block, (b.edit e).2.withoutId = (b.withoutId.edit e).2 := by
    intro b
    rw [b.edit_withoutId]
  refine ⟨?_, ?_⟩
  · calc ((t.blockAt place).edit e).1
        = ((t.blockAt place).withoutId.edit e).1 := (hrule _).symm
      _ = ((s.blockAt place).withoutId.edit e).1 := by rw [h.blockAt place]
      _ = ((s.blockAt place).edit e).1 := hrule _
  · cases place with
    | own =>
        have hown : (t.toBlock.edit e).2 = (s.toBlock.edit e).2 := by rw [h.toBlock_eq]
        exact ⟨hown, h.first_eq, h.states_eq, h.le⟩
    | state p =>
        refine ⟨h.toBlock_eq, ?_, ?_, ?_⟩
        · rw [Selector.editAt, Selector.editAt, modifyAt, modifyAt, ← List.map_take,
            ← List.map_take, h.first_eq]
        · rw [Selector.editAt, Selector.editAt, map_withoutId_modifyAt hblock,
            map_withoutId_modifyAt hblock, h.states_eq]
        · rw [Selector.editAt, modifyAt, List.length_map]
          exact h.le

/-! ### Revising both -/

theorem revise (h : Matches n s t) (next next' : Nat) (r : Revision) :
    (reply (t, next') r).withoutId = (reply (s, next) r).withoutId ∧
      Matches n (Selector.revise (s, next) r).1 (Selector.revise (t, next') r).1 := by
  obtain ⟨hselectors, hplace⟩ := h.follow next next' r.path
  obtain ⟨hrule, hmatches⟩ := hselectors.editAt (s.follow next r.path).place r.change
  have hblock := hmatches.blockAt (s.follow next r.path).place
  simp only [Selector.revise, reply, Reply.withoutId, hplace]
  exact ⟨congrArg₂ Reply.mk hblock hrule, hmatches⟩

/-- Revising two selectors that match, each with a counter of its own, leaves selectors that match,
and the answers are the same but for identities. -/
theorem foldl_revise (h : Matches n s t) (next next' : Nat) (revisions : List Revision) :
    (replies (t, next') revisions).map Reply.withoutId =
        (replies (s, next) revisions).map Reply.withoutId ∧
      Matches n (revisions.foldl Selector.revise (s, next)).1
        (revisions.foldl Selector.revise (t, next')).1 := by
  -- with each block that is made the counters go on, so they are generalized with the selectors
  induction revisions generalizing s t next next' with
  | nil => exact ⟨rfl, h⟩
  | cons r revisions ih =>
      obtain ⟨hreply, hmatches⟩ := h.revise next next' r
      obtain ⟨hreplies, hend⟩ := ih hmatches _ _
      exact ⟨List.cons_eq_cons.mpr ⟨hreply, hreplies⟩, hend⟩

end Matches

end Selector

end UiStyle
