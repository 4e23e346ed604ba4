import UiStyle.Proofs.Selector.RuleMap
import UiStyle.Selector

/-!
# Well-formed selectors

A selector is well formed if no block declares a name twice and its pseudo-class blocks are what
they should be: one for each pseudo-class at most, each with the text of the selector, and none at
all if the selector is itself a pseudo-class block.

Everything that is done to a selector goes through `Selector.opened`, which adds at most one empty
block, and `Selector.editAt`, which changes the rules of one block.  Both keep the selector well
formed, and neither changes its identity, its text or its pseudo-class.  Asking for pseudo-classes
(`Cursor.ask`) opens a block only in a selector that is no pseudo-class block, whatever the cursor
is at; this is the one step at which a pseudo-class block could gain blocks of its own, and
`ask_of_isPseudoClass` says that it does not.
-/

namespace UiStyle

/-- A pseudo-class block of a selector with the text `text`. -/
structure Block.IsStateOf (text : String) (b : Block) : Prop where
  distinct_names : (ruleNames b.rules).Nodup
  text_eq : b.text = text
  isPseudoClass : b.isPseudoClass = true

/-- No name is declared twice in a block, and the pseudo-class blocks are of different
pseudo-classes, belong to the selector, and are missing if it is a pseudo-class block. -/
structure Selector.WellFormed (s : Selector) : Prop where
  distinct_names : (ruleNames s.rules).Nodup
  states : ∀ b ∈ s.states, b.IsStateOf s.text
  distinct_states : (s.states.map Block.pseudoClass).Nodup
  states_eq_nil : s.isPseudoClass = true → s.states = []

/-! ### Edits of a block -/

namespace Block

@[simp] theorem edit_id (b : Block) (e : Edit) : (b.edit e).2.id = b.id := by
  cases e <;> rfl

@[simp] theorem edit_text (b : Block) (e : Edit) : (b.edit e).2.text = b.text := by
  cases e <;> rfl

@[simp] theorem edit_pseudoClass (b : Block) (e : Edit) :
    (b.edit e).2.pseudoClass = b.pseudoClass := by
  cases e <;> rfl

@[simp] theorem edit_isPseudoClass (b : Block) (e : Edit) :
    (b.edit e).2.isPseudoClass = b.isPseudoClass := by
  simp [isPseudoClass]

theorem edit_distinct_names {b : Block} (e : Edit) (h : (ruleNames b.rules).Nodup) :
    (ruleNames (b.edit e).2.rules).Nodup := by
  cases e with
  | insert r => exact nodup_ruleNames_insertRule r h
  | erase name => exact nodup_ruleNames_eraseRule name h

theorem IsStateOf.edit {text : String} {b : Block} (h : b.IsStateOf text) (e : Edit) :
    (b.edit e).2.IsStateOf text where
  distinct_names := edit_distinct_names e h.distinct_names
  text_eq := by rw [edit_text, h.text_eq]
  isPseudoClass := by rw [edit_isPseudoClass, h.isPseudoClass]

end Block

namespace Selector

theorem wellFormed_new (id : Nat) (text : String) : (new id text).WellFormed where
  distinct_names := List.nodup_nil
  states := by simp [new]
  distinct_states := List.nodup_nil
  states_eq_nil _ := rfl

theorem wellFormed_ofBlock {b : Block} (h : (ruleNames b.rules).Nodup) :
    (ofBlock b).WellFormed where
  distinct_names := h
  states := by simp [ofBlock]
  distinct_states := List.nodup_nil
  states_eq_nil _ := rfl

/-! ### Opening a block -/

/-- A block that is there is left as it is. -/
theorem opened_of_state?_eq_some {s : Selector} {p : PseudoClass} {b : Block}
    (h : s.state? p = some b) (next : Nat) : s.opened next (.state p) = (s, next) := by
  rw [opened, h]
  rfl

/-- A block that is missing is added, empty, behind the others. -/
theorem opened_of_state?_eq_none {s : Selector} {p : PseudoClass} (h : s.state? p = none)
    (next : Nat) :
    s.opened next (.state p) =
      ({ s with states := s.states ++ [s.newState next p] }, next + 1) := by
  rw [opened, h]
  rfl

@[simp] theorem opened_toBlock (s : Selector) (next : Nat) (place : Place) :
    (s.opened next place).1.toBlock = s.toBlock := by
  cases place with
  | own => rfl
  | state p =>
      cases h : s.state? p with
      | none => rw [opened_of_state?_eq_none h]
      | some b => rw [opened_of_state?_eq_some h]

theorem pseudoClass_of_state? {s : Selector} {p : PseudoClass} {b : Block}
    (h : s.state? p = some b) : b.pseudoClass = some p := by
  simpa using List.find?_some h

theorem mem_states_of_state? {s : Selector} {p : PseudoClass} {b : Block}
    (h : s.state? p = some b) : b ∈ s.states :=
  List.mem_of_find?_eq_some h

theorem blockAt_of_state? {s : Selector} {p : PseudoClass} {b : Block}
    (h : s.state? p = some b) : s.blockAt (.state p) = b := by
  rw [blockAt, h]
  rfl

theorem blockAt_of_state?_eq_none {s : Selector} {p : PseudoClass} (h : s.state? p = none) :
    s.blockAt (.state p) = s.toBlock := by
  rw [blockAt, h]
  rfl

theorem state?_eq_none_iff {s : Selector} {p : PseudoClass} :
    s.state? p = none ↔ some p ∉ s.states.map Block.pseudoClass := by
  simp [state?]

/-- The block of a pseudo-class is there once it was opened. -/
theorem state?_opened (s : Selector) (next : Nat) (p : PseudoClass) :
    ∃ b, (s.opened next (.state p)).1.state? p = some b := by
  cases h : s.state? p with
  | none =>
      rw [opened_of_state?_eq_none h]
      unfold state? at h ⊢
      exact ⟨s.newState next p, by simp [h, newState]⟩
  | some b =>
      rw [opened_of_state?_eq_some h]
      exact ⟨b, h⟩

/-- Blocks are opened in selectors that are no pseudo-class block. -/
theorem WellFormed.opened {s : Selector} (h : s.WellFormed) (hplain : s.isPseudoClass = false)
    (next : Nat) (place : Place) : (s.opened next place).1.WellFormed := by
  cases place with
  | own => exact h
  | state p =>
      cases hstate : s.state? p with
      | some b =>
          rw [opened_of_state?_eq_some hstate]
          exact h
      | none =>
          rw [opened_of_state?_eq_none hstate]
          refine ⟨h.distinct_names, ?_, ?_, fun hpseudo => ?_⟩
          · intro b hb
            rcases List.mem_append.mp hb with hb | hb
            · exact h.states b hb
            · rw [List.mem_singleton.mp hb]
              exact ⟨List.nodup_nil, rfl, rfl⟩
          · rw [List.map_append, List.map_singleton, ← List.concat_eq_append, List.nodup_concat]
            exact ⟨state?_eq_none_iff.mp hstate, h.distinct_states⟩
          · exact absurd hpseudo (by simp [hplain])

/-! ### Editing a block -/

@[simp] theorem editAt_text (s : Selector) (place : Place) (e : Edit) :
    (s.editAt place e).2.text = s.text := by
  cases place with
  | own => exact Block.edit_text _ e
  | state p => rfl

@[simp] theorem editAt_pseudoClass (s : Selector) (place : Place) (e : Edit) :
    (s.editAt place e).2.pseudoClass = s.pseudoClass := by
  cases place with
  | own => exact Block.edit_pseudoClass _ e
  | state p => rfl

@[simp] theorem editAt_isPseudoClass (s : Selector) (place : Place) (e : Edit) :
    (s.editAt place e).2.isPseudoClass = s.isPseudoClass := by
  simp [Block.isPseudoClass]

/-- An edit does not change which pseudo-classes have blocks. -/
theorem editAt_states_pseudoClass (s : Selector) (place : Place) (e : Edit) :
    (s.editAt place e).2.states.map Block.pseudoClass = s.states.map Block.pseudoClass := by
  cases place with
  | own => rfl
  | state p =>
      simp only [editAt, modifyAt, List.map_map]
      apply List.map_congr_left
      intro b _
      simp only [Function.comp_apply]
      split
      · exact Block.edit_pseudoClass b e
      · rfl

theorem WellFormed.editAt {s : Selector} (h : s.WellFormed) (place : Place) (e : Edit) :
    (s.editAt place e).2.WellFormed := by
  refine ⟨?_, ?_, ?_, ?_⟩
  · cases place with
    | own => exact Block.edit_distinct_names e h.distinct_names
    | state p => exact h.distinct_names
  · rw [editAt_text]
    cases place with
    | own => exact h.states
    | state p =>
        intro b hb
        obtain ⟨b', hb', rfl⟩ := List.mem_map.mp hb
        split
        · exact (h.states b' hb').edit e
        · exact h.states b' hb'
  · rw [editAt_states_pseudoClass]
    exact h.distinct_states
  · rw [editAt_isPseudoClass]
    intro hpseudo
    have hkinds := editAt_states_pseudoClass s place e
    rw [h.states_eq_nil hpseudo] at hkinds
    exact List.map_eq_nil_iff.mp hkinds

/-! ### Asking for pseudo-classes -/

/-- A place that is no pseudo-class block is in a selector that is none either. -/
theorem isPseudoClass_of_blockAt {s : Selector} {place : Place}
    (h : (s.blockAt place).isPseudoClass = false) : s.isPseudoClass = false := by
  cases place with
  | own => exact h
  | state p =>
      cases hb : s.state? p with
      | none => rwa [blockAt_of_state?_eq_none hb] at h
      | some b =>
          rw [blockAt_of_state? hb, Block.isPseudoClass, pseudoClass_of_state? hb] at h
          cases h

/-- The block at a place is one of the blocks. -/
theorem blockAt_mem_blocks (s : Selector) (place : Place) : s.blockAt place ∈ s.blocks := by
  cases place with
  | own => exact List.mem_cons_self
  | state p =>
      cases hb : s.state? p with
      | none =>
          rw [blockAt_of_state?_eq_none hb]
          exact List.mem_cons_self
      | some b =>
          rw [blockAt_of_state? hb]
          exact List.mem_cons_of_mem _ (mem_states_of_state? hb)

/-- The block at a place is well formed as a selector of its own. -/
theorem WellFormed.blockAt {s : Selector} (h : s.WellFormed) (place : Place) :
    (ofBlock (s.blockAt place)).WellFormed := by
  apply wellFormed_ofBlock
  rcases List.mem_cons.mp (s.blockAt_mem_blocks place) with hown | hstate
  · rw [hown]
    exact h.distinct_names
  · exact (h.states _ hstate).distinct_names

end Selector

namespace Cursor

/-- A pseudo-class block answers with itself. -/
theorem ask_of_isPseudoClass {c : Cursor}
    (h : (c.selector.blockAt c.place).isPseudoClass = true) (p : PseudoClass) : c.ask p = c := by
  rw [ask, if_pos h]

/-- Any other block answers with the block of the pseudo-class. -/
theorem ask_of_not_isPseudoClass {c : Cursor} {p : PseudoClass}
    (h : ¬ (c.selector.blockAt c.place).isPseudoClass = true) :
    c.ask p = ⟨(c.selector.opened c.next (.state p)).1,
      (c.selector.opened c.next (.state p)).2, .state p⟩ := by
  rw [ask, if_neg h]

/-- What is asked for is a pseudo-class block. -/
theorem isPseudoClass_ask (c : Cursor) (p : PseudoClass) :
    ((c.ask p).selector.blockAt (c.ask p).place).isPseudoClass = true := by
  by_cases h : (c.selector.blockAt c.place).isPseudoClass = true
  · rw [ask_of_isPseudoClass h]
    exact h
  · obtain ⟨b, hb⟩ := Selector.state?_opened c.selector c.next p
    rw [ask_of_not_isPseudoClass h, Selector.blockAt_of_state? hb, Block.isPseudoClass,
      Selector.pseudoClass_of_state? hb]
    rfl

@[simp] theorem ask_toBlock (c : Cursor) (p : PseudoClass) :
    (c.ask p).selector.toBlock = c.selector.toBlock := by
  unfold ask
  split
  · rfl
  · exact Selector.opened_toBlock _ _ _

theorem wellFormed_ask {c : Cursor} (h : c.selector.WellFormed) (p : PseudoClass) :
    (c.ask p).selector.WellFormed := by
  unfold ask
  split
  · exact h
  · rename_i hblock
    have hplain := Selector.isPseudoClass_of_blockAt (Bool.eq_false_iff.mpr hblock)
    exact h.opened hplain c.next (.state p)

/-- However often it is asked, a pseudo-class block answers with itself. -/
theorem foldl_ask_of_isPseudoClass {c : Cursor}
    (h : (c.selector.blockAt c.place).isPseudoClass = true) (path : List PseudoClass) :
    path.foldl ask c = c := by
  induction path with
  | nil => rfl
  | cons p path ih => rw [List.foldl_cons, ask_of_isPseudoClass h, ih]

end Cursor

namespace Selector

@[simp] theorem follow_toBlock (s : Selector) (next : Nat) (path : List PseudoClass) :
    (s.follow next path).selector.toBlock = s.toBlock := by
  induction path using List.reverseRecOn with
  | nil => rfl
  | append_singleton path p ih =>
      rw [follow, List.foldl_append, List.foldl_cons, List.foldl_nil, Cursor.ask_toBlock]
      exact ih

theorem WellFormed.follow {s : Selector} (h : s.WellFormed) (next : Nat)
    (path : List PseudoClass) : (s.follow next path).selector.WellFormed := by
  induction path using List.reverseRecOn with
  | nil => exact h
  | append_singleton path p ih =>
      rw [Selector.follow, List.foldl_append]
      exact Cursor.wellFormed_ask ih p

/-- Once a pseudo-class block is reached, asking for more changes nothing. -/
theorem follow_append_of_isPseudoClass {s : Selector} {next : Nat} {path : List PseudoClass}
    (h : ((s.follow next path).selector.blockAt (s.follow next path).place).isPseudoClass = true)
    (more : List PseudoClass) : s.follow next (path ++ more) = s.follow next path := by
  rw [follow, List.foldl_append]
  exact Cursor.foldl_ask_of_isPseudoClass h more

/-- The first pseudo-class that is asked for decides. -/
theorem follow_cons (s : Selector) (next : Nat) (p : PseudoClass) (path : List PseudoClass) :
    s.follow next (p :: path) = s.follow next [p] := by
  have hblock := Cursor.isPseudoClass_ask ⟨s, next, .own⟩ p
  exact Cursor.foldl_ask_of_isPseudoClass hblock path

end Selector

end UiStyle
