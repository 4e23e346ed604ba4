import UiStyle.Proofs.Manifest.Order
import UiStyle.Proofs.Rule.Settled

/-!
# Selectors that loading leaves as they are

A selector is settled if it could be loaded once more without a change: it is well formed, its text
is trimmed and not blank, and each of its rules is settled.  Every selector of a loaded sheet is
(`Manifest.isSettled_of_load`).  Its rules are the invariant here: numbering only puts in rules that
pairs have made, so whatever holds of those holds of all rules in it (`Selector.Holds`).
-/

namespace UiStyle

namespace Selector

/-- A property of all rules in the blocks of a selector. -/
def Holds (P : Rule → Prop) (s : Selector) : Prop :=
  ∀ b ∈ s.blocks, ∀ r ∈ b.rules, P r

variable {P : Rule → Prop} {s : Selector}

theorem holds_new (id : Nat) (text : String) : (new id text).Holds P := by
  intro b hb r hr
  obtain rfl : b = (new id text).toBlock := by simpa [blocks, new] using hb
  cases hr

theorem Holds.edit {b : Block} (h : ∀ r ∈ b.rules, P r) {r : Rule} (hr : P r) :
    ∀ r' ∈ (b.edit (.insert r)).2.rules, P r' := by
  intro r' hr'
  rcases mem_insertRule hr' with rfl | hr'
  · exact hr
  · exact h r' hr'

theorem Holds.editAt (h : s.Holds P) (place : Place) {r : Rule} (hr : P r) :
    (s.editAt place (.insert r)).2.Holds P := by
  obtain ⟨hown, hstates⟩ := List.forall_mem_cons.mp h
  refine List.forall_mem_cons.mpr ?_
  cases place with
  | own => exact ⟨Holds.edit hown hr, hstates⟩
  | state p =>
      refine ⟨hown, fun b hb => ?_⟩
      obtain ⟨b', hb', rfl⟩ := List.mem_map.mp hb
      split
      · exact Holds.edit (hstates b' hb') hr
      · exact hstates b' hb'

theorem Holds.opened (h : s.Holds P) (next : Nat) (place : Place) :
    (s.opened next place).1.Holds P := by
  cases place with
  | own => exact h
  | state p =>
      cases hstate : s.state? p with
      | some b =>
          rw [opened_of_state?_eq_some hstate]
          exact h
      | none =>
          rw [opened_of_state?_eq_none hstate]
          intro b hb
          have hb : b ∈ s.blocks ∨ b = s.newState next p := by
            simpa [blocks, or_assoc] using hb
          rcases hb with hb | rfl
          · exact h b hb
          · exact nofun

end Selector

namespace Content

variable {P : Rule → Prop}

theorem holds_fill {s : Selector} (h : s.Holds P) (place : Place) {rules : List Rule}
    (hrules : ∀ r ∈ rules, P r) : (fill place rules s).Holds P := by
  induction rules generalizing s with
  | nil => exact h
  | cons r rules ih =>
      obtain ⟨hr, hrules⟩ := List.forall_mem_cons.mp hrules
      exact ih (h.editAt place hr) hrules

theorem holds_foldl_fillState {states : List (PseudoClass × List Rule)}
    (hstates : ∀ state ∈ states, ∀ r ∈ state.2, P r) {made : Selector × Nat}
    (h : made.1.Holds P) : (states.foldl fillState made).1.Holds P := by
  induction states generalizing made with
  | nil => exact h
  | cons state states ih =>
      obtain ⟨hstate, hstates⟩ := List.forall_mem_cons.mp hstates
      exact ih hstates (holds_fill (h.opened made.2 (.state state.1)) _ hstate)

/-- What holds of the rules of some content holds of those in its selector. -/
theorem holds_number {c : Content} (hrules : ∀ r ∈ c.rules, P r)
    (hstates : ∀ state ∈ c.states, ∀ r ∈ state.2, P r) (next : Nat) :
    (c.number next).1.Holds P :=
  holds_foldl_fillState hstates (holds_fill (Selector.holds_new _ _) .own hrules)

end Content

/-- A selector that could be loaded as it is. -/
structure Selector.IsSettled (s : Selector) : Prop where
  wellFormed : s.WellFormed
  plain : s.pseudoClass = none
  trimmed : Text.trimmed s.text = s.text
  nonblank : Text.isBlankText s.text = false
  rules : s.Holds Rule.IsSettled

theorem isSettled_of_forall₂ {pairs : List (String × Json)} {rules : List Rule}
    (h : List.Forall₂ MakesRule pairs rules) : ∀ r ∈ rules, r.IsSettled := by
  intro r hr
  obtain ⟨pair, -, hmakes⟩ := exists_of_forall₂ h r hr
  exact hmakes.isSettled

theorem MakesContent.isSettled_number {e : Entry} {c : Content} (h : MakesContent e c)
    (next : Nat) : (c.number next).1.IsSettled := by
  have htoBlock : (c.number next).1.toBlock =
      ⟨next, Text.trimmed c.text, none, lastOfEach c.rules⟩ := by
    rw [Content.number, Content.foldl_fillState_toBlock, Content.fill_own, Selector.new,
      foldl_insertRule]
  have hstates : ∀ state ∈ c.states, ∀ r ∈ state.2, r.IsSettled := by
    intro state hstate
    obtain ⟨-, -, -, pairs, -, hrules⟩ := exists_of_forall₂ h.states state hstate
    exact isSettled_of_forall₂ hrules
  refine ⟨(Content.wellFormed_number c next).1, ?_, ?_, ?_, ?_⟩
  · rw [htoBlock]
  · rw [htoBlock, Text.trimmed_trimmed]
  · rw [htoBlock, Text.isBlankText_trimmed]
    rw [h.text, h.nonblank]
  · exact Content.holds_number (isSettled_of_forall₂ h.rules) hstates next

/-- Every selector of a loaded sheet is settled. -/
theorem Manifest.isSettled_of_load {m : Manifest} {layout : Layout} {next : Nat}
    {made : Sheet × Nat} (h : (m.load layout next).result = .ok made) :
    ∀ t ∈ made.1.selectors, t.IsSettled := by
  obtain ⟨contents, selectors, hcontents, hmade, hnumbered⟩ := selectors_of_load h
  have hmakes := result_contents_eq_ok.mp hcontents
  rw [hmade]
  intro t ht
  obtain ⟨c, hc, next, rfl⟩ := exists_of_forall₂ hnumbered t ht
  obtain ⟨e, -, hec⟩ := exists_of_forall₂ hmakes c hc
  exact hec.isSettled_number next

end UiStyle
