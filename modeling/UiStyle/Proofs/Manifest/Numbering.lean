import UiStyle.Proofs.Manifest.Contents
import UiStyle.Proofs.Selector.WellFormed

/-!
# Numbering

The second half of loading gives identities to what the first half declared, and cannot fail.  This
file says what it makes.

* `fill` puts rules into one block, which then holds the last rule of each name (`fill_own`,
  `fill_state`) and is changed in nothing else.
* `Content.number` makes a well-formed selector that is no pseudo-class block.  It takes the next
  identity, and the counter is behind it afterwards (`number_id`, `lt_number`).
* So a sheet to which selectors are added in this way has identities below the counter only, and
  accepts every further one: `Sheet.Below` is this invariant, and `addContent_eq` says that a step
  appends the new selector.
-/

namespace UiStyle

namespace Content

/-! ### Filling a block -/

theorem fill_own (rules : List Rule) (s : Selector) :
    fill .own rules s =
      { s with rules := rules.foldl (fun made r => insertRule r made) s.rules } := by
  induction rules generalizing s with
  | nil => rfl
  | cons r rules ih => exact ih _

theorem fill_state (p : PseudoClass) (rules : List Rule) (s : Selector) :
    fill (.state p) rules s =
      { s with states := s.states.map fun b =>
          if b.pseudoClass == some p then
            { b with rules := rules.foldl (fun made r => insertRule r made) b.rules }
          else b } := by
  induction rules generalizing s with
  | nil => simp [fill]
  | cons r rules ih =>
      have hstep : fill (.state p) (r :: rules) s =
          fill (.state p) rules (s.editAt (.state p) (.insert r)).2 := rfl
      rw [hstep, ih]
      simp only [Selector.editAt, Selector.modifyAt, List.map_map, Selector.mk.injEq, true_and]
      apply List.map_congr_left
      intro b _
      by_cases hb : b.pseudoClass = some p <;> simp [hb, Block.edit]

@[simp] theorem fill_id (place : Place) (rules : List Rule) (s : Selector) :
    (fill place rules s).id = s.id := by
  cases place with
  | own => rw [fill_own]
  | state p => rw [fill_state]

@[simp] theorem fill_isPseudoClass (place : Place) (rules : List Rule) (s : Selector) :
    (fill place rules s).isPseudoClass = s.isPseudoClass := by
  cases place with
  | own => rw [fill_own]; rfl
  | state p => rw [fill_state]

theorem wellFormed_fill {s : Selector} (h : s.WellFormed) (place : Place) (rules : List Rule) :
    (fill place rules s).WellFormed := by
  induction rules generalizing s with
  | nil => exact h
  | cons r rules ih => exact ih (h.editAt place (.insert r))

/-! ### Numbering a selector -/

@[simp] theorem fillState_id (made : Selector × Nat) (state : PseudoClass × List Rule) :
    (fillState made state).1.id = made.1.id := by
  simp [fillState]

@[simp] theorem fillState_isPseudoClass (made : Selector × Nat)
    (state : PseudoClass × List Rule) :
    (fillState made state).1.isPseudoClass = made.1.isPseudoClass := by
  simp [fillState]

theorem le_fillState (made : Selector × Nat) (state : PseudoClass × List Rule) :
    made.2 ≤ (fillState made state).2 := by
  cases h : made.1.state? state.1 with
  | none => simp [fillState, Selector.opened_of_state?_eq_none h]
  | some b => simp [fillState, Selector.opened_of_state?_eq_some h]

theorem foldl_fillState_id (states : List (PseudoClass × List Rule)) (made : Selector × Nat) :
    (states.foldl fillState made).1.id = made.1.id := by
  induction states generalizing made with
  | nil => rfl
  | cons state states ih => rw [List.foldl_cons, ih, fillState_id]

theorem le_foldl_fillState (states : List (PseudoClass × List Rule)) (made : Selector × Nat) :
    made.2 ≤ (states.foldl fillState made).2 := by
  induction states generalizing made with
  | nil => exact Nat.le_refl _
  | cons state states ih => exact Nat.le_trans (le_fillState made state) (ih _)

/-- Filling pseudo-class blocks one after the other keeps a selector well formed and no pseudo-class
block. -/
theorem wellFormed_foldl_fillState (states : List (PseudoClass × List Rule))
    {made : Selector × Nat} (h : made.1.WellFormed) (hplain : made.1.isPseudoClass = false) :
    (states.foldl fillState made).1.WellFormed ∧
      (states.foldl fillState made).1.isPseudoClass = false := by
  induction states generalizing made with
  | nil => exact ⟨h, hplain⟩
  | cons state states ih =>
      apply ih
      · exact wellFormed_fill (h.opened hplain made.2 (.state state.1)) _ _
      · rw [fillState_isPseudoClass, hplain]

/-- Blocks of pseudo-classes change nothing about the block of the selector. -/
theorem foldl_fillState_toBlock (states : List (PseudoClass × List Rule)) (made : Selector × Nat) :
    (states.foldl fillState made).1.toBlock = made.1.toBlock := by
  induction states generalizing made with
  | nil => rfl
  | cons state states ih =>
      have hfilled : (fillState made state).1.toBlock =
          (made.1.opened made.2 (.state state.1)).1.toBlock := by
        simp only [fillState, fill_state]
      rw [List.foldl_cons, ih, hfilled, Selector.opened_toBlock]

theorem number_id (c : Content) (next : Nat) : (c.number next).1.id = next := by
  rw [number, foldl_fillState_id, fill_id]
  rfl

theorem lt_number (c : Content) (next : Nat) : next < (c.number next).2 :=
  le_foldl_fillState c.states (fill .own c.rules (.new next c.text), next + 1)

theorem wellFormed_number (c : Content) (next : Nat) :
    (c.number next).1.WellFormed ∧ (c.number next).1.isPseudoClass = false := by
  apply wellFormed_foldl_fillState
  · exact wellFormed_fill (Selector.wellFormed_new _ _) _ _
  · rw [fill_isPseudoClass]
    rfl

end Content

/-! ### Adding to a sheet -/

/-- Every selector of a sheet has an identity below `next`. -/
def Sheet.Below (s : Sheet) (next : Nat) : Prop :=
  ∀ t ∈ s.selectors, t.id < next

namespace Sheet

/-- A sheet accepts a selector whose identity has just been given out. -/
theorem accepts_number {s : Sheet} {next : Nat} (h : s.Below next) (c : Content) :
    s.accepts (c.number next).1 = true := by
  have hcontains : s.contains (c.number next).1.id = false := by
    rw [contains, List.any_eq_false, Content.number_id]
    intro t ht
    have := h t ht
    simp only [beq_iff_eq]
    omega
  rw [accepts, (Content.wellFormed_number c next).2, hcontains]
  rfl

/-- The selector of some content comes to the end of a sheet. -/
theorem addContent_eq {s : Sheet} {next : Nat} (h : s.Below next) (c : Content) :
    addContent (s, next) c =
      ({ s with selectors := s.selectors ++ [(c.number next).1] }, (c.number next).2) := by
  simp only [addContent, Sheet.add, accepts_number h, if_true]

theorem below_addContent {s : Sheet} {next : Nat} (h : s.Below next) (c : Content) :
    (addContent (s, next) c).1.Below (addContent (s, next) c).2 := by
  rw [addContent_eq h]
  have hnext := Content.lt_number c next
  intro t ht
  rcases List.mem_append.mp ht with ht | ht
  · exact Nat.lt_trans (h t ht) hnext
  · rw [List.mem_singleton.mp ht, Content.number_id]
    exact hnext

/-- Contents come to the end of a sheet one by one, each as its selector. -/
theorem foldl_addContent (contents : List Content) {s : Sheet} {next : Nat} (h : s.Below next) :
    ∃ selectors, (contents.foldl addContent (s, next)).1 =
        { s with selectors := s.selectors ++ selectors } ∧
      List.Forall₂ (fun c t => ∃ next, (c.number next).1 = t) contents selectors := by
  induction contents generalizing s next with
  | nil => exact ⟨[], by simp, .nil⟩
  | cons c contents ih =>
      have hstep := below_addContent h c
      rw [addContent_eq h] at hstep
      obtain ⟨selectors, hselectors, hnumbered⟩ := ih hstep
      refine ⟨(c.number next).1 :: selectors, ?_, .cons ⟨next, rfl⟩ hnumbered⟩
      rw [List.foldl_cons, addContent_eq h, hselectors]
      simp

/-- Which identities contents take does not depend on the sheet they come to. -/
theorem foldl_addContent_snd (contents : List Content) (made : Sheet × Nat) :
    (contents.foldl addContent made).2 =
      contents.foldl (fun next c => (c.number next).2) made.2 := by
  induction contents generalizing made with
  | nil => rfl
  | cons c contents ih => exact ih _

end Sheet

/-- A manifest that loads has contents, and the sheet is made of them. -/
theorem Manifest.load_eq_ok_iff {m : Manifest} {layout : Layout} {next : Nat}
    {made : Sheet × Nat} :
    (m.load layout next).result = .ok made ↔ ∃ contents, m.contents.result = .ok contents ∧
      contents.foldl Sheet.addContent ((Sheet.new m.name).withLayout layout, next) = made := by
  rw [load, Reporting.result_bind_eq_ok]
  simp only [Reporting.result_pure, Except.ok.injEq]

/-- The identities that are taken are the same whether or not one asks if a manifest loads. -/
theorem Manifest.nextAfter_of_load {m : Manifest} {layout : Layout} {next : Nat}
    {made : Sheet × Nat} (h : (m.load layout next).result = .ok made) :
    m.nextAfter next = made.2 := by
  obtain ⟨contents, hcontents, rfl⟩ := load_eq_ok_iff.mp h
  rw [nextAfter, m.begun_of_contents hcontents, Sheet.foldl_addContent_snd]

/-! A selector and a block of it are begun before the value that does not load. -/

example :
    (Manifest.mk "Card" [⟨".card", [], [("hover", .object [("tint", .null)])]⟩,
      ⟨".deck", [], []⟩]).nextAfter 1 = 3 := by
  decide

/-- The selectors of a sheet that was loaded are those of its contents. -/
theorem Manifest.selectors_of_load {m : Manifest} {layout : Layout} {next : Nat}
    {made : Sheet × Nat} (h : (m.load layout next).result = .ok made) :
    ∃ contents selectors, m.contents.result = .ok contents ∧
      made.1 = ⟨m.name, selectors, none, layout⟩ ∧
      List.Forall₂ (fun c t => ∃ next, (c.number next).1 = t) contents selectors := by
  obtain ⟨contents, hcontents, rfl⟩ := load_eq_ok_iff.mp h
  have hempty : ((Sheet.new m.name).withLayout layout).Below next := nofun
  obtain ⟨selectors, hselectors, hnumbered⟩ := Sheet.foldl_addContent contents hempty
  exact ⟨contents, selectors, hcontents, hselectors, hnumbered⟩

end UiStyle
