import UiStyle.Proofs.Selector.WellFormed
import UiStyle.Proofs.Sheet.WellFormed

/-!
# Ledgers

An identity is given out once, and from then on stands for one block: copies of the block have the
identity in common, and so have the rules that were put into one copy and not into another.  A
ledger writes down what each identity was given out for: a text, a pseudo-class, and for a
pseudo-class block the selector it was made in.

  `l.Covers s`     the blocks of `s` are what `l` says of their identities, and the identities go up
  `l.Extends l'`   `l'` says what `l` says, and has given out more

Two selectors that one ledger covers agree on every identity they have in common
(`Covers.alike`, `Covers.parent_eq`), wherever their copies have been since.  That is why the ledger
stands in for all pairs of selectors: whoever makes a block writes one line into it (`Ledger.push`),
and what was covered stays covered (`Covers.extends`).  Loading gives out identities selector by
selector, so a ledger is carried through it (`covers_foldl_addContent`).

Nothing a ledger says is about rules.  So editing is no matter here: it keeps the outline of a
selector (`outline_editAt`), and covering is about outlines (`covers_outline`).

In a sheet that is well formed and covered, no identity occurs twice (`WellFormed.nodup_ids`).  Two
blocks of one identity are of the same pseudo-class, so they are both the own block of a selector or
both pseudo-class blocks, and each kind is kept apart by something else:

```text
own blocks             the sheet has no two selectors of one identity
pseudo-class blocks    the ledger knows the selector that the identity was given out in
blocks of a selector   their identities go up
```
-/

namespace UiStyle

/-- A block without its rules. -/
def Block.outline (b : Block) : Block :=
  { b with rules := [] }

@[simp] theorem Block.outline_edit (b : Block) (e : Edit) : (b.edit e).2.outline = b.outline := by
  cases e <;> rfl

namespace Selector

/-- The identities of a selector: its own, and behind it those of its pseudo-class blocks. -/
def ids (s : Selector) : List Nat :=
  s.blocks.map Block.id

/-- A selector without its rules. -/
def outline (s : Selector) : Selector :=
  { s with rules := [], states := s.states.map Block.outline }

theorem mem_ids_own (s : Selector) : s.id ∈ s.ids :=
  List.mem_cons_self

theorem mem_ids_state {s : Selector} {b : Block} (h : b ∈ s.states) : b.id ∈ s.ids :=
  List.mem_cons_of_mem _ (List.mem_map_of_mem h)

@[simp] theorem ids_outline (s : Selector) : s.outline.ids = s.ids := by
  simp [ids, blocks, outline, Block.outline, Function.comp_def]

/-- An edit changes rules only. -/
@[simp] theorem outline_editAt (s : Selector) (place : Place) (e : Edit) :
    (s.editAt place e).2.outline = s.outline := by
  cases place with
  | own => cases e <;> rfl
  | state p =>
      simp only [editAt, modifyAt, outline, List.map_map, Selector.mk.injEq, true_and]
      apply List.map_congr_left
      intro b _
      simp only [Function.comp_apply]
      split
      · exact b.outline_edit e
      · rfl

end Selector

/-! ### Ledgers -/

/-- What an identity was given out for. -/
structure Imprint where
  text : String
  pseudoClass : Option PseudoClass
  /-- The identity of the selector that a pseudo-class block was made in. -/
  parent : Option Nat

/-- What the identities below a counter were given out for. -/
structure Ledger where
  next : Nat
  imprint : Nat → Imprint

namespace Ledger

/-- The ledger in which the next identity was given out. -/
def push (l : Ledger) (i : Imprint) : Ledger where
  next := l.next + 1
  imprint id := if id = l.next then i else l.imprint id

/-- A later ledger: it says the same of what was given out before. -/
structure Extends (l l' : Ledger) : Prop where
  le : l.next ≤ l'.next
  imprint_eq : ∀ id < l.next, l'.imprint id = l.imprint id

/-- The blocks of a selector are what the ledger says of their identities, and their identities have
been given out in the order in which the blocks stand. -/
structure Covers (l : Ledger) (s : Selector) : Prop where
  text_eq : (l.imprint s.id).text = s.text
  pseudoClass_eq : (l.imprint s.id).pseudoClass = s.pseudoClass
  states : ∀ b ∈ s.states, l.imprint b.id = ⟨b.text, b.pseudoClass, some s.id⟩
  ascending : s.ids.Pairwise (· < ·)
  below : ∀ id ∈ s.ids, id < l.next

variable {l l' : Ledger} {s t : Selector}

@[simp] theorem push_next (l : Ledger) (i : Imprint) : (l.push i).next = l.next + 1 := rfl

@[simp] theorem push_imprint_next (l : Ledger) (i : Imprint) :
    (l.push i).imprint l.next = i :=
  if_pos rfl

theorem push_imprint_of_lt {id : Nat} (h : id < l.next) (i : Imprint) :
    (l.push i).imprint id = l.imprint id :=
  if_neg (Nat.ne_of_lt h)

namespace Extends

theorem refl (l : Ledger) : l.Extends l :=
  ⟨Nat.le_refl _, fun _ _ => rfl⟩

theorem trans {l'' : Ledger} (h : l.Extends l') (h' : l'.Extends l'') : l.Extends l'' where
  le := Nat.le_trans h.le h'.le
  imprint_eq id hid := by
    rw [h'.imprint_eq id (Nat.lt_of_lt_of_le hid h.le), h.imprint_eq id hid]

theorem push (l : Ledger) (i : Imprint) : l.Extends (l.push i) where
  le := Nat.le_succ _
  imprint_eq _ hid := push_imprint_of_lt hid i

end Extends

/-! ### What a ledger covers -/

/-- A block of a selector that is covered is what the ledger says. -/
theorem Covers.imprint_eq (h : l.Covers s) {b : Block} (hb : b ∈ s.blocks) :
    (l.imprint b.id).text = b.text ∧ (l.imprint b.id).pseudoClass = b.pseudoClass := by
  rcases List.mem_cons.mp hb with rfl | hb
  · exact ⟨h.text_eq, h.pseudoClass_eq⟩
  · rw [h.states b hb]
    exact ⟨rfl, rfl⟩

/-- Blocks of one identity have text and pseudo-class in common. -/
theorem Covers.alike (hs : l.Covers s) (ht : l.Covers t) {b c : Block} (hb : b ∈ s.blocks)
    (hc : c ∈ t.blocks) (hid : b.id = c.id) : b.text = c.text ∧ b.pseudoClass = c.pseudoClass := by
  obtain ⟨hbtext, hbclass⟩ := hs.imprint_eq hb
  obtain ⟨hctext, hcclass⟩ := ht.imprint_eq hc
  rw [← hbtext, ← hbclass, ← hctext, ← hcclass, hid]
  exact ⟨rfl, rfl⟩

/-- Pseudo-class blocks of one identity belong to selectors of one identity. -/
theorem Covers.parent_eq (hs : l.Covers s) (ht : l.Covers t) {b c : Block} (hb : b ∈ s.states)
    (hc : c ∈ t.states) (hid : b.id = c.id) : s.id = t.id := by
  have himprint := hs.states b hb
  rw [hid, ht.states c hc] at himprint
  simpa using (congrArg Imprint.parent himprint).symm

theorem Covers.extends (h : l.Covers s) (hl : l.Extends l') : l'.Covers s := by
  have hown := hl.imprint_eq s.id (h.below _ s.mem_ids_own)
  refine ⟨?_, ?_, fun b hb => ?_, h.ascending, fun id hid => ?_⟩
  · rw [hown, h.text_eq]
  · rw [hown, h.pseudoClass_eq]
  · rw [hl.imprint_eq b.id (h.below _ (Selector.mem_ids_state hb)), h.states b hb]
  · exact Nat.lt_of_lt_of_le (h.below id hid) hl.le

/-- A ledger says nothing of rules. -/
theorem covers_outline : l.Covers s.outline ↔ l.Covers s := by
  constructor
  · rintro ⟨htext, hclass, hstates, hascending, hbelow⟩
    rw [Selector.ids_outline] at hascending hbelow
    exact ⟨htext, hclass, fun b hb => hstates b.outline (List.mem_map_of_mem hb), hascending,
      hbelow⟩
  · rintro ⟨htext, hclass, hstates, hascending, hbelow⟩
    rw [← Selector.ids_outline] at hascending hbelow
    refine ⟨htext, hclass, fun b hb => ?_, hascending, hbelow⟩
    obtain ⟨b', hb', rfl⟩ := List.mem_map.mp hb
    exact hstates b' hb'

theorem Covers.of_outline_eq (h : l.Covers s) (heq : t.outline = s.outline) : l.Covers t := by
  rw [← covers_outline, heq, covers_outline]
  exact h

theorem Covers.editAt (h : l.Covers s) (place : Place) (e : Edit) : l.Covers (s.editAt place e).2 :=
  h.of_outline_eq (Selector.outline_editAt s place e)

/-! ### Giving out identities -/

/-- A new selector takes the next identity. -/
theorem covers_new (l : Ledger) (text : String) :
    (l.push ⟨Text.trimmed text, none, none⟩).Covers (.new l.next text) where
  text_eq := by simp [Selector.new]
  pseudoClass_eq := by simp [Selector.new]
  states := by simp [Selector.new]
  ascending := List.pairwise_singleton _ _
  below := by simp [Selector.ids, Selector.blocks, Selector.new]

/-- A block on its own keeps its identity. -/
theorem Covers.ofBlock (h : l.Covers s) {b : Block} (hb : b ∈ s.blocks) :
    l.Covers (Selector.ofBlock b) where
  text_eq := (h.imprint_eq hb).1
  pseudoClass_eq := (h.imprint_eq hb).2
  states := by simp [Selector.ofBlock]
  ascending := List.pairwise_singleton _ _
  below id hid := by
    rw [List.mem_singleton.mp hid]
    exact h.below _ (List.mem_map_of_mem hb)

/-- A block that is added to a selector takes the next identity, which is behind all of its own. -/
theorem Covers.addState (h : l.Covers s) (p : PseudoClass) :
    (l.push ⟨s.text, some p, some s.id⟩).Covers
      { s with states := s.states ++ [s.newState l.next p] } := by
  have hold := h.extends (Extends.push l ⟨s.text, some p, some s.id⟩)
  have hids : Selector.ids { s with states := s.states ++ [s.newState l.next p] } =
      s.ids ++ [l.next] := by
    simp [Selector.ids, Selector.blocks, Selector.newState]
  refine ⟨hold.text_eq, hold.pseudoClass_eq, fun b hb => ?_, ?_, ?_⟩
  · rcases List.mem_append.mp hb with hb | hb
    · exact hold.states b hb
    · rw [List.mem_singleton.mp hb]
      exact push_imprint_next l _
  · rw [hids, List.pairwise_append]
    exact ⟨h.ascending, List.pairwise_singleton _ _,
      fun id hid next hnext => List.mem_singleton.mp hnext ▸ h.below id hid⟩
  · rw [hids]
    intro id hid
    rcases List.mem_append.mp hid with hid | hid
    · exact hold.below id hid
    · rw [List.mem_singleton.mp hid]
      exact Nat.lt_succ_self _

/-- Some ledger from `l` on covers a selector and has its counter at `next`. -/
def Reaches (l : Ledger) (s : Selector) (next : Nat) : Prop :=
  ∃ l', l.Extends l' ∧ l'.next = next ∧ l'.Covers s

theorem Covers.opened (h : l.Covers s) (place : Place) :
    l.Reaches (s.opened l.next place).1 (s.opened l.next place).2 := by
  cases place with
  | own => exact ⟨l, .refl l, rfl, h⟩
  | state p =>
      cases hstate : s.state? p with
      | some b =>
          rw [Selector.opened_of_state?_eq_some hstate]
          exact ⟨l, .refl l, rfl, h⟩
      | none =>
          rw [Selector.opened_of_state?_eq_none hstate]
          exact ⟨_, .push l _, rfl, h.addState p⟩

theorem Covers.ask {c : Cursor} (h : l.Covers c.selector) (hnext : l.next = c.next)
    (p : PseudoClass) : l.Reaches (c.ask p).selector (c.ask p).next := by
  by_cases hblock : (c.selector.blockAt c.place).isPseudoClass = true
  · rw [Cursor.ask_of_isPseudoClass hblock]
    exact ⟨l, .refl l, hnext, h⟩
  · rw [Cursor.ask_of_not_isPseudoClass hblock, ← hnext]
    exact h.opened (.state p)

/-- Asking for pseudo-classes gives out identities one after the other. -/
theorem Covers.follow (h : l.Covers s) (path : List PseudoClass) :
    l.Reaches (s.follow l.next path).selector (s.follow l.next path).next := by
  induction path using List.reverseRecOn with
  | nil => exact ⟨l, .refl l, rfl, h⟩
  | append_singleton path p ih =>
      obtain ⟨l', hextends, hnext, hcovers⟩ := ih
      obtain ⟨l'', hextends', hnext', hcovers'⟩ := hcovers.ask hnext p
      rw [Selector.follow, List.foldl_append]
      exact ⟨l'', hextends.trans hextends', hnext', hcovers'⟩

end Ledger

/-! ### Identities within a sheet -/

namespace Content

@[simp] theorem outline_fill (place : Place) (rules : List Rule) (s : Selector) :
    (fill place rules s).outline = s.outline := by
  induction rules generalizing s with
  | nil => rfl
  | cons r rules ih =>
      rw [fill, List.foldl_cons, ← fill, ih, Selector.outline_editAt]

end Content

namespace Ledger

variable {l : Ledger}

/-! ### Loading -/

theorem Covers.fill {s : Selector} (h : l.Covers s) (place : Place) (rules : List Rule) :
    l.Covers (Content.fill place rules s) :=
  h.of_outline_eq (Content.outline_fill place rules s)

theorem Covers.fillState {s : Selector} (h : l.Covers s) (state : PseudoClass × List Rule) :
    l.Reaches (Content.fillState (s, l.next) state).1 (Content.fillState (s, l.next) state).2 := by
  obtain ⟨l', hextends, hnext, hcovers⟩ := h.opened (.state state.1)
  exact ⟨l', hextends, hnext, hcovers.fill _ _⟩

theorem Covers.foldl_fillState (states : List (PseudoClass × List Rule)) {s : Selector}
    (h : l.Covers s) :
    l.Reaches (states.foldl Content.fillState (s, l.next)).1
      (states.foldl Content.fillState (s, l.next)).2 := by
  induction states generalizing l s with
  | nil => exact ⟨l, .refl l, rfl, h⟩
  | cons state states ih =>
      obtain ⟨l', hextends, hnext, hcovers⟩ := h.fillState state
      obtain ⟨l'', hextends', hreached⟩ := ih hcovers
      rw [hnext] at hreached
      exact ⟨l'', hextends.trans hextends', hreached⟩

/-- Numbering makes a selector that a later ledger covers. -/
theorem reaches_number (l : Ledger) (c : Content) :
    l.Reaches (c.number l.next).1 (c.number l.next).2 := by
  have hnew := (l.covers_new c.text).fill .own c.rules
  obtain ⟨l', hextends, hreached⟩ := hnew.foldl_fillState c.states
  exact ⟨l', (Extends.push l _).trans hextends, hreached⟩

end Ledger

/-- The own block of a selector that is no pseudo-class block is told from the others by that. -/
theorem Selector.WellFormed.own_or_state {t : Selector} (h : t.WellFormed)
    (hplain : t.isPseudoClass = false) {b : Block} (hb : b ∈ t.blocks) :
    b.isPseudoClass = false ∧ b.id = t.id ∨ b.isPseudoClass = true ∧ b ∈ t.states := by
  rcases List.mem_cons.mp hb with rfl | hb
  · exact .inl ⟨hplain, rfl⟩
  · exact .inr ⟨(h.states b hb).isPseudoClass, hb⟩

namespace Sheet

/-- Contents that are added to a sheet take identities one after the other. -/
theorem covers_foldl_addContent (contents : List Content) {s : Sheet} {l : Ledger}
    (h : ∀ t ∈ s.selectors, l.Covers t) :
    ∃ l', l.Extends l' ∧ l'.next = (contents.foldl addContent (s, l.next)).2 ∧
      ∀ t ∈ (contents.foldl addContent (s, l.next)).1.selectors, l'.Covers t := by
  induction contents generalizing s l with
  | nil => exact ⟨l, .refl l, rfl, h⟩
  | cons c contents ih =>
      obtain ⟨l', hextends, hnext, hcovers⟩ := l.reaches_number c
      have hsheet : ∀ t ∈ (s.add (c.number l.next).1).selectors, l'.Covers t := by
        intro t ht
        rcases mem_add ht with rfl | ht
        · exact hcovers
        · exact (h t ht).extends hextends
      obtain ⟨l'', hextends', hloaded⟩ := ih hsheet
      rw [hnext] at hloaded
      exact ⟨l'', hextends.trans hextends', hloaded⟩

/-! ### Distinct identities -/

/-- Selectors of different identities have none in common, their blocks' included. -/
theorem WellFormed.disjoint_ids {s : Sheet} (h : s.WellFormed) {l : Ledger} {t u : Selector}
    (ht : t ∈ s.selectors) (hu : u ∈ s.selectors) (hcoverst : l.Covers t) (hcoversu : l.Covers u)
    (hne : t.id ≠ u.id) : t.ids.Disjoint u.ids := by
  intro id hidt hidu
  obtain ⟨b, hb, rfl⟩ := List.mem_map.mp hidt
  obtain ⟨c, hc, hid⟩ := List.mem_map.mp hidu
  have hkind : b.isPseudoClass = c.isPseudoClass := by
    rw [Block.isPseudoClass, Block.isPseudoClass, (hcoverst.alike hcoversu hb hc hid.symm).2]
  -- so both blocks are own blocks, or both are pseudo-class blocks
  rcases (h.selectors t ht).own_or_state (h.plain t ht) hb with ⟨hplain, hown⟩ | ⟨hpseudo, hstate⟩
  · rcases (h.selectors u hu).own_or_state (h.plain u hu) hc with ⟨-, hown'⟩ | ⟨hpseudo, -⟩
    · exact hne (by rw [← hown, ← hid, hown'])
    · simp [hkind, hpseudo] at hplain
  · rcases (h.selectors u hu).own_or_state (h.plain u hu) hc with ⟨hplain, -⟩ | ⟨-, hstate'⟩
    · simp [hkind, hplain] at hpseudo
    · exact hne (hcoverst.parent_eq hcoversu hstate hstate' hid.symm)

/-- **In a sheet no identity occurs twice.** -/
theorem WellFormed.nodup_ids {s : Sheet} (h : s.WellFormed) {l : Ledger}
    (hl : ∀ t ∈ s.selectors, l.Covers t) : (s.selectors.flatMap Selector.ids).Nodup := by
  have hne : s.selectors.Pairwise fun t u => t.id ≠ u.id := List.pairwise_map.mp h.distinct_ids
  refine List.nodup_flatMap.mpr ⟨fun t ht => ?_, ?_⟩
  · exact (hl t ht).ascending.imp Nat.ne_of_lt
  · exact hne.imp_of_mem fun ht hu hid => h.disjoint_ids ht hu (hl _ ht) (hl _ hu) hid

end Sheet

end UiStyle
