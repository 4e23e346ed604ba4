import UiStyle.Proofs.Selector.History
import UiStyle.Proofs.Workspace.Identity

/-!
# Visits to a selector

A visit asks a selector for pseudo-classes and edits the block that this leads to, as often as it
likes or not at all.  Everything that happens to a selector is a row of visits, and they get in each
other's way nowhere.  Three facts are behind this:

* a block that is made is empty, so nothing that reads the selector sees it (`readsAs_follow`);
* there is one block for each pseudo-class, so an edit touches one block and leaves what is in front
  of it and behind it (`modifyAt_state_of_split`);
* the edits of a block are about that block only, so each block can be told from its own edits.

The last one is the closed form of a history, `afterVisits`: the blocks that were there stand where
they stood, behind them those that were first asked for, in this order and whenever they were
filled, and each block is as its own edits have left it.  One visit more keeps it
(`WellFormed.visit_afterVisits`), and `WellFormed.foldl_visit_eq` is the run.

A pseudo-class block on its own is not asked further, so there all visits are to the block itself.
-/

namespace UiStyle

/-- The pseudo-classes that are asked for, and the edits of the block that they lead to. -/
structure Visit where
  path : List PseudoClass
  edits : List Edit

/-! ### Several edits -/

namespace Block

/-- A block after some edits. -/
def edited (b : Block) (edits : List Edit) : Block :=
  edits.foldl (fun b e => (b.edit e).2) b

theorem edited_append (b : Block) (edits more : List Edit) :
    b.edited (edits ++ more) = (b.edited edits).edited more :=
  List.foldl_append

@[simp] theorem outline_edited (b : Block) (edits : List Edit) :
    (b.edited edits).outline = b.outline := by
  induction edits using List.reverseRecOn with
  | nil => rfl
  | append_singleton edits e ih =>
      rw [edited_append, ← ih]
      exact outline_edit _ e

@[simp] theorem edited_text (b : Block) (edits : List Edit) : (b.edited edits).text = b.text := by
  have htext := congrArg Block.text (b.outline_edited edits)
  exact htext

@[simp] theorem edited_pseudoClass (b : Block) (edits : List Edit) :
    (b.edited edits).pseudoClass = b.pseudoClass := by
  have hclass := congrArg Block.pseudoClass (b.outline_edited edits)
  exact hclass

end Block

namespace Selector

variable {s : Selector} {p : PseudoClass}

/-- A selector after some edits of the block at a place. -/
def editedAt (s : Selector) (place : Place) (edits : List Edit) : Selector :=
  edits.foldl (fun s e => (s.editAt place e).2) s

/-- A selector after a visit, and the identity that the next block takes. -/
def visit (made : Selector × Nat) (v : Visit) : Selector × Nat :=
  let c := made.1.follow made.2 v.path
  (c.selector.editedAt c.place v.edits, c.next)

theorem modifyAt_modifyAt {f g : Block → Block} (hf : ∀ b, (f b).pseudoClass = b.pseudoClass)
    (s : Selector) (place : Place) :
    (s.modifyAt f place).modifyAt g place = s.modifyAt (g ∘ f) place := by
  cases place with
  | own => rfl
  | state p =>
      rw [modifyAt, modifyAt, modifyAt, List.map_map]
      congr 1
      apply List.map_congr_left
      intro b _
      by_cases hb : b.pseudoClass = some p <;> simp [hb, hf]

theorem modifyAt_self (s : Selector) (place : Place) : s.modifyAt (fun b => b) place = s := by
  cases place with
  | own => rfl
  | state p => simp [modifyAt]

theorem editedAt_eq (s : Selector) (place : Place) (edits : List Edit) :
    s.editedAt place edits = s.modifyAt (fun b => b.edited edits) place := by
  induction edits using List.reverseRecOn with
  | nil => exact (s.modifyAt_self place).symm
  | append_singleton edits e ih =>
      have hstep : s.editedAt place (edits ++ [e]) =
          ((s.editedAt place edits).editAt place e).2 := List.foldl_append
      have hedit : ∀ t : Selector,
          (t.editAt place e).2 = t.modifyAt (fun b => (b.edit e).2) place := fun _ => rfl
      rw [hstep, ih, hedit, modifyAt_modifyAt fun b => b.edited_pseudoClass edits]
      congr 1
      funext b
      rw [Block.edited_append]
      rfl

/-! ### One block among others -/

/-- With one block for each pseudo-class, a change touches one block. -/
theorem modifyAt_state_of_split (hdistinct : (s.states.map Block.pseudoClass).Nodup)
    {front behind : List Block} {b : Block} (hstates : s.states = front ++ b :: behind)
    (hb : b.pseudoClass = some p) (f : Block → Block) :
    s.modifyAt f (.state p) = { s with states := front ++ f b :: behind } := by
  rw [hstates, List.map_append, List.map_cons, List.nodup_middle, hb, List.nodup_cons,
    ← List.map_append] at hdistinct
  have hothers : ∀ c ∈ front ++ behind, (if c.pseudoClass == some p then f c else c) = c := by
    intro c hc
    refine if_neg fun hclass => hdistinct.1 ?_
    exact List.mem_map.mpr ⟨c, hc, by simpa using hclass⟩
  have hfront := List.map_congr_left fun c hc => hothers c (List.mem_append_left behind hc)
  have hbehind := List.map_congr_left fun c hc => hothers c (List.mem_append_right front hc)
  rw [modifyAt, hstates, List.map_append, List.map_cons, hfront, hbehind, List.map_id',
    List.map_id', hb, beq_self_eq_true, if_pos rfl]

/-- The block of a pseudo-class is where it was, or behind all others if it was missing. -/
theorem exists_split_opened (s : Selector) (next : Nat) (p : PseudoClass) :
    ∃ front b behind, (s.opened next (.state p)).1.states = front ++ b :: behind ∧
      b.pseudoClass = some p ∧ (s.states = front ++ b :: behind ∨
        s.states = front ∧ behind = [] ∧ b = s.newState next p) := by
  cases hstate : s.state? p with
  | none =>
      rw [opened_of_state?_eq_none hstate]
      exact ⟨s.states, s.newState next p, [], rfl, rfl, .inr ⟨rfl, rfl, rfl⟩⟩
  | some b =>
      obtain ⟨front, behind, hstates⟩ := List.append_of_mem (mem_states_of_state? hstate)
      rw [opened_of_state?_eq_some hstate]
      exact ⟨front, b, behind, hstates, pseudoClass_of_state? hstate, .inl hstates⟩

theorem lines_of_split {front behind : List Block} {b : Block}
    (hstates : s.states = front ++ b :: behind) (indent : Nat) :
    s.lines indent = (s.toBlock :: front).flatMap (·.lines indent) ++ b.lines indent ++
      behind.flatMap (·.lines indent) := by
  simp [lines, blocks, hstates]

/-! ### Asking without editing -/

/-- A selector that cannot be told from another one by its text, its rules and its lines. -/
structure ReadsAs (t s : Selector) : Prop where
  fullText_eq : t.fullText = s.fullText
  rules_eq : t.rules = s.rules
  isEmpty_eq : t.isEmpty = s.isEmpty
  invalidRules_eq : t.invalidRules = s.invalidRules
  lines_eq : ∀ indent, t.lines indent = s.lines indent

theorem ReadsAs.refl (s : Selector) : s.ReadsAs s :=
  ⟨rfl, rfl, rfl, rfl, fun _ => rfl⟩

theorem readsAs_opened (s : Selector) (next : Nat) (place : Place) :
    (s.opened next place).1.ReadsAs s := by
  cases place with
  | own => exact .refl s
  | state p =>
      cases hstate : s.state? p with
      | some b =>
          rw [opened_of_state?_eq_some hstate]
          exact .refl s
      | none =>
          rw [opened_of_state?_eq_none hstate]
          refine ⟨rfl, rfl, ?_, ?_, fun indent => ?_⟩
          · simp [isEmpty, newState]
          · simp [invalidRules, blocks, newState, invalidAmong]
          · simp [lines, blocks, newState, Block.lines]

/-- A pseudo-class block is not asked further. -/
theorem follow_of_isPseudoClass (h : s.isPseudoClass = true) (next : Nat)
    (path : List PseudoClass) : s.follow next path = ⟨s, next, .own⟩ :=
  Cursor.foldl_ask_of_isPseudoClass (c := ⟨s, next, .own⟩) h path

theorem follow_cons_of_plain (h : s.isPseudoClass = false) (next : Nat) (p : PseudoClass)
    (path : List PseudoClass) :
    s.follow next (p :: path) =
      ⟨(s.opened next (.state p)).1, (s.opened next (.state p)).2, .state p⟩ := by
  have hown : ¬ (s.blockAt .own).isPseudoClass = true := Bool.eq_false_iff.mp h
  rw [follow_cons]
  exact Cursor.ask_of_not_isPseudoClass (c := ⟨s, next, .own⟩) hown

theorem readsAs_follow (s : Selector) (next : Nat) (path : List PseudoClass) :
    (s.follow next path).selector.ReadsAs s := by
  cases h : s.isPseudoClass with
  | true =>
      rw [follow_of_isPseudoClass h]
      exact .refl s
  | false =>
      cases path with
      | nil => exact .refl s
      | cons p path =>
          rw [follow_cons_of_plain h]
          exact s.readsAs_opened next (.state p)

/-- The block that was asked for is there when it is asked for again. -/
theorem follow_follow (s : Selector) (next : Nat) (p : PseudoClass) :
    (s.follow next [p]).selector.follow (s.follow next [p]).next [p] = s.follow next [p] := by
  cases h : s.isPseudoClass with
  | true => rw [follow_of_isPseudoClass h, follow_of_isPseudoClass h]
  | false =>
      obtain ⟨b, hb⟩ := s.state?_opened next p
      have hopened : (s.opened next (.state p)).1.isPseudoClass = false := by
        rw [opened_toBlock, h]
      rw [follow_cons_of_plain h, follow_cons_of_plain hopened, opened_of_state?_eq_some hb]

/-! ### What a history of visits leaves -/

/-- The edits of one block, its own if there is no pseudo-class. -/
def editsOf (pseudoClass : Option PseudoClass) (visits : List Visit) : List Edit :=
  (visits.filter fun v => v.path.head? == pseudoClass).flatMap Visit.edits

/-- The pseudo-classes that are asked for and have no block yet, in the order in which they are
first asked for. -/
def firstAsked (s : Selector) (visits : List Visit) : List PseudoClass :=
  ((visits.filterMap fun v => v.path.head?).filter fun p => (s.state? p).isNone).eraseDups

/-- Empty blocks of some pseudo-classes, with identities from `next` on. -/
def newStates (s : Selector) (next : Nat) (asked : List PseudoClass) : List Block :=
  asked.mapIdx fun k p => s.newState (next + k) p

/-- The pseudo-class blocks after some visits: each as its own edits have left it, and those that
were missing behind the others. -/
def statesAfter (s : Selector) (next : Nat) (visits : List Visit) : List Block :=
  (s.states ++ s.newStates next (s.firstAsked visits)).map fun b =>
    b.edited (editsOf b.pseudoClass visits)

/-- A selector after some visits, and the identity that the next block takes, told from the selector
before. -/
def afterVisits (s : Selector) (next : Nat) (visits : List Visit) : Selector × Nat :=
  (⟨s.toBlock.edited (editsOf none visits), s.statesAfter next visits⟩,
    next + (s.firstAsked visits).length)

theorem editsOf_concat (pseudoClass : Option PseudoClass) (visits : List Visit) (v : Visit) :
    editsOf pseudoClass (visits ++ [v]) =
      editsOf pseudoClass visits ++ if v.path.head? = pseudoClass then v.edits else [] := by
  rw [editsOf, List.filter_append, List.flatMap_append, ← editsOf]
  by_cases hpath : v.path.head? = pseudoClass <;> simp [hpath]

theorem mem_firstAsked {visits : List Visit} :
    p ∈ s.firstAsked visits ↔
      (∃ v ∈ visits, v.path.head? = some p) ∧ s.state? p = none := by
  simp [firstAsked, List.mem_eraseDups]

/-- A block that is missing and was not asked for has not been edited. -/
theorem editsOf_eq_nil {visits : List Visit} (h : s.state? p = none ∧ p ∉ s.firstAsked visits) :
    editsOf (some p) visits = [] := by
  have hother : ∀ v ∈ visits, ¬ (v.path.head? == some p) = true := by
    intro v hv hpath
    exact h.2 (mem_firstAsked.mpr ⟨⟨v, hv, by simpa using hpath⟩, h.1⟩)
  rw [editsOf, List.filter_eq_nil_iff.mpr hother, List.flatMap_nil]

theorem firstAsked_concat_own {v : Visit} (hpath : v.path = []) (visits : List Visit) :
    s.firstAsked (visits ++ [v]) = s.firstAsked visits := by
  simp [firstAsked, hpath]

theorem eraseDups_concat {α : Type} [DecidableEq α] (l : List α) (a : α) :
    (l ++ [a]).eraseDups = if a ∈ l.eraseDups then l.eraseDups else l.eraseDups ++ [a] := by
  rw [List.eraseDups_append]
  by_cases ha : a ∈ l
  · rw [if_pos (List.mem_eraseDups.mpr ha)]
    simp [List.removeAll, ha]
  · rw [if_neg (mt List.mem_eraseDups.mp ha)]
    simp [List.removeAll, ha, List.eraseDups_cons]

/-- A pseudo-class is new if it has no block and was not asked for before. -/
theorem firstAsked_concat {v : Visit} (hpath : v.path.head? = some p) (visits : List Visit) :
    s.firstAsked (visits ++ [v]) =
      if s.state? p = none ∧ p ∉ s.firstAsked visits then s.firstAsked visits ++ [p]
      else s.firstAsked visits := by
  rw [firstAsked, List.filterMap_append, List.filter_append]
  cases hstate : s.state? p with
  | some b => simp [firstAsked, hpath, hstate]
  | none =>
      have hlast : ([v].filterMap fun v => v.path.head?).filter (fun p => (s.state? p).isNone) =
          [p] := by
        simp [hpath, hstate]
      rw [hlast, eraseDups_concat, ← firstAsked]
      by_cases hmem : p ∈ s.firstAsked visits <;> simp [hmem]

theorem newStates_concat (s : Selector) (next : Nat) (asked : List PseudoClass) (p : PseudoClass) :
    s.newStates next (asked ++ [p]) =
      s.newStates next asked ++ [s.newState (next + asked.length) p] :=
  List.mapIdx_concat

theorem map_pseudoClass_newStates (s : Selector) (next : Nat) (asked : List PseudoClass) :
    (s.newStates next asked).map Block.pseudoClass = asked.map some := by
  induction asked using List.reverseRecOn with
  | nil => rfl
  | append_singleton asked p ih =>
      rw [newStates_concat, List.map_append, ih, List.map_append]
      rfl

/-- Blocks stand in the order in which they were there or were first asked for. -/
theorem map_pseudoClass_statesAfter (s : Selector) (next : Nat) (visits : List Visit) :
    (s.statesAfter next visits).map Block.pseudoClass =
      s.states.map Block.pseudoClass ++ (s.firstAsked visits).map some := by
  have hkept : Block.pseudoClass ∘ (fun b => b.edited (editsOf b.pseudoClass visits)) =
      Block.pseudoClass := by
    funext b
    exact b.edited_pseudoClass _
  rw [statesAfter, List.map_map, hkept, List.map_append, map_pseudoClass_newStates]

theorem state?_afterVisits_eq_none_iff (next : Nat) (visits : List Visit) :
    (s.afterVisits next visits).1.state? p = none ↔
      s.state? p = none ∧ p ∉ s.firstAsked visits := by
  rw [state?_eq_none_iff, state?_eq_none_iff, afterVisits, map_pseudoClass_statesAfter]
  simp

/-! ### One visit more -/

theorem visit_own {v : Visit} (hpath : v.path = []) (s : Selector) (next : Nat) :
    visit (s, next) v = (⟨s.toBlock.edited v.edits, s.states⟩, next) := by
  simp only [visit, hpath, editedAt_eq]
  rfl

theorem visit_state (h : s.isPseudoClass = false) {v : Visit} (hpath : v.path.head? = some p)
    (next : Nat) :
    visit (s, next) v =
      ((s.opened next (.state p)).1.modifyAt (fun b => b.edited v.edits) (.state p),
        (s.opened next (.state p)).2) := by
  obtain ⟨path, hcons⟩ := List.head?_eq_some_iff.mp hpath
  simp only [visit, hcons, follow_cons_of_plain h, editedAt_eq]

/-- A visit to the own block is none to a pseudo-class block. -/
theorem WellFormed.statesAfter_concat_own (h : s.WellFormed) {v : Visit} (hpath : v.path = [])
    (next : Nat) (visits : List Visit) :
    s.statesAfter next (visits ++ [v]) = s.statesAfter next visits := by
  rw [statesAfter, firstAsked_concat_own hpath]
  apply List.map_congr_left
  intro b hb
  have hclass : b.pseudoClass ≠ none := by
    rcases List.mem_append.mp hb with hb | hb
    · exact Option.isSome_iff_ne_none.mp (h.states b hb).isPseudoClass
    · have hmem := List.mem_map_of_mem (f := Block.pseudoClass) hb
      rw [map_pseudoClass_newStates] at hmem
      obtain ⟨p, -, hp⟩ := List.mem_map.mp hmem
      exact hp ▸ Option.some_ne_none p
  rw [editsOf_concat, hpath, List.head?_nil, if_neg hclass.symm, List.append_nil]

/-- A visit to the block of a pseudo-class edits this block, which is added if it is missing, and no
other. -/
theorem statesAfter_concat {v : Visit} (hpath : v.path.head? = some p) (s : Selector) (next : Nat)
    (visits : List Visit) :
    s.statesAfter next (visits ++ [v]) =
      (if s.state? p = none ∧ p ∉ s.firstAsked visits then
        s.statesAfter next visits ++ [s.newState (next + (s.firstAsked visits).length) p]
      else s.statesAfter next visits).map fun b =>
        if b.pseudoClass == some p then b.edited v.edits else b := by
  have hblock : (fun b : Block => b.edited (editsOf b.pseudoClass (visits ++ [v]))) =
      (fun b => if b.pseudoClass == some p then b.edited v.edits else b) ∘
        fun b => b.edited (editsOf b.pseudoClass visits) := by
    funext b
    rw [Function.comp_apply, editsOf_concat, hpath, Block.edited_pseudoClass]
    by_cases hb : b.pseudoClass = some p
    · simp [hb, Block.edited_append]
    · simp [hb, Ne.symm hb]
  rw [statesAfter, hblock, ← List.map_map, firstAsked_concat hpath]
  congr 1
  split
  · rename_i hnew
    have hempty : ∀ id, (s.newState id p).edited (editsOf (some p) visits) = s.newState id p := by
      intro id
      rw [editsOf_eq_nil hnew]
      rfl
    rw [newStates_concat, ← List.append_assoc, List.map_append, ← statesAfter, List.map_singleton]
    exact congrArg (fun b => s.statesAfter next visits ++ [b]) (hempty _)
  · rfl

/-- One visit more is one more of the history. -/
theorem WellFormed.visit_afterVisits (h : s.WellFormed) (hplain : s.isPseudoClass = false)
    (next : Nat) (visits : List Visit) (v : Visit) :
    visit (s.afterVisits next visits) v = s.afterVisits next (visits ++ [v]) := by
  have hplain' : (s.afterVisits next visits).1.isPseudoClass = false := by
    rw [Block.isPseudoClass, afterVisits, Block.edited_pseudoClass]
    exact hplain
  cases hpath : v.path.head? with
  | none =>
      have hnil : v.path = [] := List.head?_eq_none_iff.mp hpath
      rw [afterVisits, visit_own hnil, afterVisits, editsOf_concat, if_pos hpath,
        Block.edited_append, h.statesAfter_concat_own hnil, firstAsked_concat_own hnil]
  | some p =>
      have hown : editsOf none (visits ++ [v]) = editsOf none visits := by
        rw [editsOf_concat, hpath, if_neg (Option.some_ne_none p), List.append_nil]
      have hlonger : s.afterVisits next (visits ++ [v]) =
          (⟨(s.afterVisits next visits).1.toBlock, s.statesAfter next (visits ++ [v])⟩,
            next + (s.firstAsked (visits ++ [v])).length) := by
        rw [afterVisits, hown]
        rfl
      rw [visit_state hplain' hpath, hlonger, statesAfter_concat hpath, firstAsked_concat hpath]
      cases hstate : (s.afterVisits next visits).1.state? p with
      | some b =>
          have hold : ¬ (s.state? p = none ∧ p ∉ s.firstAsked visits) := by
            rw [← state?_afterVisits_eq_none_iff next visits, hstate]
            exact Option.some_ne_none b
          rw [opened_of_state?_eq_some hstate, if_neg hold, if_neg hold]
          rfl
      | none =>
          have hnew := (state?_afterVisits_eq_none_iff next visits).mp hstate
          have hblock : ∀ id, (s.afterVisits next visits).1.newState id p = s.newState id p := by
            intro id
            rw [newState, newState, afterVisits, Block.edited_text]
          rw [opened_of_state?_eq_none hstate, if_pos hnew, if_pos hnew, hblock, List.length_append]
          rfl

/-- Some visits lead to where their closed form says. -/
theorem WellFormed.foldl_visit_eq (h : s.WellFormed) (hplain : s.isPseudoClass = false) (next : Nat)
    (visits : List Visit) : visits.foldl visit (s, next) = s.afterVisits next visits := by
  induction visits using List.reverseRecOn with
  | nil =>
      have hstates : s.statesAfter next [] = s.states := by
        simp [statesAfter, firstAsked, newStates, editsOf, Block.edited]
      rw [List.foldl_nil, afterVisits, hstates]
      rfl
  | append_singleton visits v ih =>
      rw [List.foldl_append, ih]
      exact h.visit_afterVisits hplain next visits v

/-! ### Blocks apart from each other -/

/-- Edits of the block `b` of a pseudo-class make `t` of `s`.  The own block and the blocks in front
of `b` and behind it are the same and stand where they stood, and so do their lines; if `s` does not
have `b`, it is without rules and behind all others. -/
structure EditsOne (p : PseudoClass) (edits : List Edit) (s t : Selector) (front : List Block)
    (b : Block) (behind : List Block) : Prop where
  pseudoClass_eq : b.pseudoClass = some p
  before : s.states = front ++ b :: behind ∨ s.states = front ∧ behind = [] ∧ b.rules = []
  after : t = ⟨s.toBlock, front ++ b.edited edits :: behind⟩
  lines_before : ∀ indent, s.lines indent =
    (s.toBlock :: front).flatMap (·.lines indent) ++ b.lines indent ++
      behind.flatMap (·.lines indent)
  lines_after : ∀ indent, t.lines indent =
    (s.toBlock :: front).flatMap (·.lines indent) ++ (b.edited edits).lines indent ++
      behind.flatMap (·.lines indent)

/-- What asking a selector for pseudo-classes and editing their blocks does. -/
structure Apart (s : Selector) (next : Nat) : Prop where
  /-- Asking alone changes nothing that can be read. -/
  unseen : ∀ path, (s.follow next path).selector.ReadsAs s
  /-- Asking again gives the same block, of the same identity. -/
  again : ∀ p, (s.follow next [p]).selector.follow (s.follow next [p]).next [p] = s.follow next [p]
  /-- The block of a pseudo-class answers with itself, whatever it is asked for. -/
  nested : ∀ p path, s.follow next (p :: path) = s.follow next [p]
  /-- So does a pseudo-class block on its own, and all visits are to itself. -/
  itself : s.isPseudoClass = true →
    ∀ v, visit (s, next) v = (ofBlock (s.toBlock.edited v.edits), next)
  /-- A visit changes one block, and the lines of this block. -/
  one : s.isPseudoClass = false → ∀ p edits, ∃ front b behind,
    EditsOne p edits s (visit (s, next) ⟨[p], edits⟩).1 front b behind
  /-- Blocks stand in the order in which they were first asked for, whatever was edited. -/
  order : s.isPseudoClass = false → ∀ visits,
    (visits.foldl visit (s, next)).1.states.map Block.pseudoClass =
      s.states.map Block.pseudoClass ++ (s.firstAsked visits).map some
  /-- Each block is as its own edits have left it. -/
  history : s.isPseudoClass = false →
    ∀ visits, visits.foldl visit (s, next) = s.afterVisits next visits

/-- A visit edits the block that was asked for. -/
theorem WellFormed.exists_editsOne (h : s.WellFormed) (hplain : s.isPseudoClass = false)
    (next : Nat) (p : PseudoClass) (edits : List Edit) : ∃ front b behind,
      EditsOne p edits s (visit (s, next) ⟨[p], edits⟩).1 front b behind := by
  obtain ⟨front, b, behind, hstates, hclass, hbefore⟩ := s.exists_split_opened next p
  have hdistinct := (h.opened hplain next (.state p)).distinct_states
  have hafter : (visit (s, next) ⟨[p], edits⟩).1 =
      ⟨s.toBlock, front ++ b.edited edits :: behind⟩ := by
    rw [visit_state hplain (v := ⟨[p], edits⟩) rfl,
      modifyAt_state_of_split hdistinct hstates hclass, opened_toBlock]
  have hreads := s.readsAs_opened next (.state p)
  refine ⟨front, b, behind, hclass, ?_, hafter, fun indent => ?_, fun indent => ?_⟩
  · rcases hbefore with hthere | ⟨hfront, hbehind, rfl⟩
    · exact .inl hthere
    · exact .inr ⟨hfront, hbehind, rfl⟩
  · rw [← hreads.lines_eq, lines_of_split hstates, opened_toBlock]
  · rw [hafter, lines_of_split rfl]

theorem WellFormed.apart (h : s.WellFormed) (next : Nat) : s.Apart next where
  unseen := s.readsAs_follow next
  again := s.follow_follow next
  nested := s.follow_cons next
  itself hpseudo v := by
    rw [visit, follow_of_isPseudoClass hpseudo, editedAt_eq]
    simp only [modifyAt, ofBlock, h.states_eq_nil hpseudo]
  one hplain := h.exists_editsOne hplain next
  order hplain visits := by
    rw [h.foldl_visit_eq hplain]
    exact s.map_pseudoClass_statesAfter next visits
  history hplain := h.foldl_visit_eq hplain next

end Selector

namespace Workspace

theorem WellFormed.of_mem_held {w : Workspace} (h : w.WellFormed) {s : Selector}
    (hs : s ∈ w.held) : s.WellFormed := by
  rcases List.mem_append.mp hs with hs | hs
  · obtain ⟨entry, hentry, rfl⟩ := List.mem_map.mp hs
    exact h.selectors entry hentry
  · obtain ⟨entry, hentry, hs⟩ := List.mem_flatMap.mp hs
    exact (h.sheets entry hentry).selectors _ hs

/-- **Pseudo-class blocks are apart.**  Take any selector that any actions have led to, at hand or
in a sheet.

* Asking it for pseudo-classes changes nothing of its text, its rules, its emptiness, its invalid
  rules and its lines, and asking again gives the same block of the same identity.
* Unless it is a pseudo-class block, editing the block of a pseudo-class leaves its own rules and
  all other blocks as they are and where they are, and the new lines differ from the old ones in
  those of this block only.  After any number of visits the blocks stand in the order in which they
  were first asked for, in whatever order they were filled, and each is as its own edits have left
  it.
* A pseudo-class block answers with itself and edits itself, whatever it is asked for. -/
theorem apart_of_mem_held {actions : List Action} {s : Selector} (hs : s ∈ (run {} actions).held)
    (next : Nat) : s.Apart next := by
  have hw : (run {} actions).WellFormed := by
    clear hs
    induction actions using List.reverseRecOn with
    | nil => exact wellFormed_empty
    | append_singleton actions a ih =>
        rw [run, List.foldl_append]
        exact wellFormed_perform ih a
  exact (hw.of_mem_held hs).apart next

/-- A card asked for `hover` and then for `active`, of which only the second is filled. -/
theorem apart_of_mem_held_card :
    let s : Selector := ⟨⟨1, ".card", none, []⟩,
      [⟨2, ".card", some .hover, []⟩, ⟨3, ".card", some .active, [.new .width "1px"]⟩]⟩
    let visits : List Visit := [⟨[.focus, .root], []⟩, ⟨[.hover], [.insert (.new .height "2px")]⟩]
    s ∈ (run {} [.create "card" " .card", .touch ⟨"card", none, [.hover]⟩,
        .edit ⟨"card", none, [.active, .hover]⟩ (.insert (.new .width "1px"))]).held ∧
      s.isPseudoClass = false ∧
      (s.follow 4 [.focus]).selector.lines 2 = [".card:active \x7b", "  width: 1px;", "\x7d"] ∧
      visits.foldl Selector.visit (s, 4) =
        (⟨⟨1, ".card", none, []⟩, [⟨2, ".card", some .hover, [.new .height "2px"]⟩,
          ⟨3, ".card", some .active, [.new .width "1px"]⟩, ⟨4, ".card", some .focus, []⟩]⟩, 5) := by
  intro s visits
  have hs : s ∈ (run {} [.create "card" " .card", .touch ⟨"card", none, [.hover]⟩,
      .edit ⟨"card", none, [.active, .hover]⟩ (.insert (.new .width "1px"))]).held := by
    decide +kernel
  have hplain : s.isPseudoClass = false := rfl
  have hapart := apart_of_mem_held hs 4
  refine ⟨hs, hplain, ?_, ?_⟩
  · rw [(hapart.unseen [.focus]).lines_eq]
    decide +kernel
  · rw [hapart.history hplain visits]
    decide +kernel

end Workspace

end UiStyle
