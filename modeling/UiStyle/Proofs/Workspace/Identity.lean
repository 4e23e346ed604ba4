import UiStyle.Proofs.Sheet.Ledger
import UiStyle.Proofs.Workspace.WellFormed

/-!
# Identities in a workspace

Selectors are copied under other names and into sheets, copied sheets diverge, and each copy makes
the pseudo-class blocks that it is asked for by itself.  What keeps all of this apart is that
identities come from the one counter of the workspace: `identified_run` says what they tell.

The invariant is one ledger for everything a workspace holds (`Workspace.Tracks`).  It is carried by
`tracks_perform`, again with one case for each action.  An action gives out identities in three ways
only, and for each of them the ledger gets its lines: a new selector (`Ledger.covers_new`), asking
for pseudo-classes (`Ledger.Covers.follow`), loading (`Sheet.covers_foldl_addContent`).  All other
actions put copies of what is held somewhere else.
-/

namespace UiStyle.Workspace

/-- Every selector of a workspace: those at hand and those in sheets. -/
def held (w : Workspace) : List Selector :=
  w.selectors.map Prod.snd ++ w.sheets.flatMap fun entry => entry.2.selectors

/-- What an identity tells of the blocks that have it, wherever in the workspace they are. -/
structure Identified (w : Workspace) : Prop where
  /-- They have text and pseudo-class in common. -/
  alike : ∀ s ∈ w.held, ∀ t ∈ w.held, ∀ b ∈ s.blocks, ∀ c ∈ t.blocks, b.id = c.id →
    b.text = c.text ∧ b.pseudoClass = c.pseudoClass
  /-- As pseudo-class blocks they belong to selectors of one identity. -/
  one_parent : ∀ s ∈ w.held, ∀ t ∈ w.held, ∀ b ∈ s.states, ∀ c ∈ t.states, b.id = c.id →
    s.id = t.id
  /-- In a sheet there is one of them at most. -/
  distinct : ∀ entry ∈ w.sheets, (entry.2.selectors.flatMap Selector.ids).Nodup
  /-- A selector has the identities of its blocks in the order in which they were given out. -/
  ascending : ∀ s ∈ w.held, s.ids.Pairwise (· < ·)
  /-- All of them have been given out. -/
  below : ∀ s ∈ w.held, ∀ id ∈ s.ids, id < w.nextId

variable {w : Workspace} {l : Ledger}

/-! ### What is held -/

theorem mem_held_of_selector {name : String} {s : Selector} (h : w.selectors.get? name = some s) :
    s ∈ w.held :=
  List.mem_append_left _ (List.mem_map_of_mem (Named.mem_of_get? h))

theorem mem_held_of_sheet {name : String} {sheet : Sheet} (h : w.sheets.get? name = some sheet)
    {s : Selector} (hs : s ∈ sheet.selectors) : s ∈ w.held :=
  List.mem_append_right _ (List.mem_flatMap.mpr ⟨_, Named.mem_of_get? h, hs⟩)

theorem mem_held_of_find? {t : Target} {s : Selector} (h : w.find? t = some s) : s ∈ w.held := by
  rcases find?_eq_some h with ⟨-, hget⟩ | ⟨name, sheet, -, hget, hmem⟩
  · exact mem_held_of_selector hget
  · exact mem_held_of_sheet hget hmem

theorem held_setSelector {name : String} {s t : Selector}
    (h : t ∈ held { w with selectors := w.selectors.set name s }) : t = s ∨ t ∈ w.held := by
  rcases List.mem_append.mp h with h | h
  · obtain ⟨entry, hentry, rfl⟩ := List.mem_map.mp h
    rcases Named.mem_set hentry with rfl | hentry
    · exact .inl rfl
    · exact .inr (List.mem_append_left _ (List.mem_map_of_mem hentry))
  · exact .inr (List.mem_append_right _ h)

theorem held_setSheet {name : String} {sheet : Sheet} {t : Selector}
    (h : t ∈ held { w with sheets := w.sheets.set name sheet }) :
    t ∈ sheet.selectors ∨ t ∈ w.held := by
  rcases List.mem_append.mp h with h | h
  · exact .inr (List.mem_append_left _ h)
  · obtain ⟨entry, hentry, ht⟩ := List.mem_flatMap.mp h
    rcases Named.mem_set hentry with rfl | hentry
    · exact .inl ht
    · exact .inr (List.mem_append_right _ (List.mem_flatMap.mpr ⟨entry, hentry, ht⟩))

/-! ### Keeping track -/

/-- A ledger that covers what a workspace holds, with the same counter. -/
structure Tracks (l : Ledger) (w : Workspace) : Prop where
  next_eq : l.next = w.nextId
  covers : ∀ s ∈ w.held, l.Covers s

/-- With one ledger for all of it, a workspace is identified. -/
theorem Tracks.identified (h : Tracks l w) (hw : w.WellFormed) : w.Identified where
  alike s hs t ht _ hb _ hc hid := (h.covers s hs).alike (h.covers t ht) hb hc hid
  one_parent s hs t ht _ hb _ hc hid := (h.covers s hs).parent_eq (h.covers t ht) hb hc hid
  distinct entry hentry := (hw.sheets entry hentry).nodup_ids fun t ht =>
    h.covers t (List.mem_append_right _ (List.mem_flatMap.mpr ⟨entry, hentry, ht⟩))
  ascending s hs := (h.covers s hs).ascending
  below s hs id hid := h.next_eq ▸ (h.covers s hs).below id hid

theorem tracks_empty : Tracks ⟨1, fun _ => ⟨"", none, none⟩⟩ {} where
  next_eq := rfl
  covers := nofun

/-- A ledger that was written further tracks the workspace with its counter. -/
theorem Tracks.extends (h : Tracks l w) {l' : Ledger} (hl : l.Extends l') :
    Tracks l' { w with nextId := l'.next } where
  next_eq := rfl
  covers s hs := (h.covers s hs).extends hl

theorem Tracks.setSelector (h : Tracks l w) {s : Selector} (hs : l.Covers s) (name : String) :
    Tracks l { w with selectors := w.selectors.set name s } where
  next_eq := h.next_eq
  covers t ht := by
    rcases held_setSelector ht with rfl | ht
    · exact hs
    · exact h.covers t ht

theorem Tracks.setSheet (h : Tracks l w) {s : Sheet} (hs : ∀ t ∈ s.selectors, l.Covers t)
    (name : String) : Tracks l { w with sheets := w.sheets.set name s } where
  next_eq := h.next_eq
  covers t ht := by
    rcases held_setSheet ht with ht | ht
    · exact hs t ht
    · exact h.covers t ht

theorem Tracks.put (h : Tracks l w) {s : Selector} (hs : l.Covers s) (t : Target) :
    Tracks l (w.put t s) := by
  unfold Workspace.put
  split
  · exact h.setSelector hs t.selector
  · rename_i name _
    split
    · exact h
    · rename_i sheet hget
      refine h.setSheet (fun u hu => ?_) name
      rcases Sheet.mem_replace hu with rfl | hu
      · exact hs
      · exact h.covers u (mem_held_of_sheet hget hu)

/-- Reaching a target gives out the identities of the blocks that were missing. -/
theorem Tracks.reach? (h : Tracks l w) {t : Target} {w' : Workspace} {s : Selector} {place : Place}
    (hreach : w.reach? t = some (w', s, place)) : ∃ l', Tracks l' w' ∧ l'.Covers s := by
  obtain ⟨found, hfind, heq⟩ := reach?_eq_some_iff.mp hreach
  obtain ⟨rfl, rfl, rfl⟩ := Prod.mk.injEq .. ▸ heq
  have hfound := h.covers found (mem_held_of_find? hfind)
  obtain ⟨l', hextends, hnext, hcovers⟩ := hfound.follow t.states
  rw [h.next_eq] at hnext hcovers
  refine ⟨l', ?_, hcovers⟩
  rw [← hnext]
  exact (h.extends hextends).put hcovers t

/-! ### Actions -/

/-- After every action some ledger tracks the workspace. -/
theorem tracks_perform (h : Tracks l w) (a : Action) : ∃ l', Tracks l' (w.perform a).1 := by
  cases a with
  | create name text =>
      have hextends := Ledger.Extends.push l ⟨Text.trimmed text, none, none⟩
      have hset := (h.extends hextends).setSelector (l.covers_new text) name
      rw [Ledger.push_next, h.next_eq] at hset
      exact ⟨_, hset⟩
  | copy name source =>
      cases hreach : w.reach? source with
      | none => exact ⟨l, by simpa [perform, hreach] using h⟩
      | some reached =>
          obtain ⟨w', s, place⟩ := reached
          obtain ⟨l', hl', hs⟩ := h.reach? hreach
          simp only [perform, hreach]
          cases place with
          | own => exact ⟨l', hl'.setSelector hs name⟩
          | state p =>
              exact ⟨l', hl'.setSelector (hs.ofBlock (s.blockAt_mem_blocks (.state p))) name⟩
  | pick name sheet position =>
      simp only [perform]
      split
      · exact ⟨l, h⟩
      · rename_i s hs
        obtain ⟨t, hget, hmem⟩ := Option.bind_eq_some_iff.mp hs
        have hheld := mem_held_of_sheet hget (List.mem_of_getElem? hmem)
        exact ⟨l, h.setSelector (h.covers s hheld) name⟩
  | touch target =>
      cases hreach : w.reach? target with
      | none => exact ⟨l, by simpa [perform, hreach] using h⟩
      | some reached =>
          obtain ⟨l', hl', -⟩ := h.reach? hreach
          simp only [perform, hreach]
          exact ⟨l', hl'⟩
  | edit target change =>
      cases hreach : w.reach? target with
      | none => exact ⟨l, by simpa [perform, hreach] using h⟩
      | some reached =>
          obtain ⟨w', s, place⟩ := reached
          obtain ⟨l', hl', hs⟩ := h.reach? hreach
          simp only [perform, hreach]
          exact ⟨l', hl'.put (hs.editAt place change) target⟩
  | newSheet name title file layout =>
      exact ⟨l, h.setSheet (s := ⟨title, [], file, layout⟩) (List.forall_mem_nil _) name⟩
  | copySheet name source layout =>
      simp only [perform]
      split
      · exact ⟨l, h⟩
      · rename_i sheet hget
        have hsheet : ∀ t ∈ sheet.selectors, l.Covers t := fun t ht =>
          h.covers t (mem_held_of_sheet hget ht)
        cases layout with
        | none => exact ⟨l, h.setSheet hsheet name⟩
        | some layout => exact ⟨l, h.setSheet (s := sheet.withLayout layout) hsheet name⟩
  | add sheet selector =>
      simp only [perform]
      split
      · rename_i t s ht hs
        refine ⟨l, h.setSheet (fun u hu => ?_) sheet⟩
        rcases Sheet.mem_add hu with rfl | hu
        · exact h.covers _ (mem_held_of_selector hs)
        · exact h.covers u (mem_held_of_sheet ht hu)
      · exact ⟨l, h⟩
  | remove sheet selector =>
      simp only [perform]
      split
      · rename_i t s ht _
        refine ⟨l, h.setSheet (fun u hu => ?_) sheet⟩
        exact h.covers u (mem_held_of_sheet ht (List.mem_of_mem_eraseP hu))
      · exact ⟨l, h⟩
  | load sheet manifest layout =>
      -- what is begun takes its identities from the counter on, whether it all loads or not
      have hempty : ∀ t ∈ ((Sheet.new manifest.name).withLayout layout).selectors, l.Covers t :=
        List.forall_mem_nil _
      obtain ⟨l', hextends, hnext, hcovers⟩ :=
        Sheet.covers_foldl_addContent manifest.begun hempty
      have hcounter : l'.next = manifest.nextAfter w.nextId := by
        rw [hnext, Sheet.foldl_addContent_snd, h.next_eq]
        rfl
      have htracks := h.extends hextends
      rw [hcounter] at htracks
      simp only [perform]
      split
      · exact ⟨l', htracks⟩
      · rename_i s next hload
        obtain ⟨contents, hcontents, hmade⟩ := Manifest.load_eq_ok_iff.mp hload
        rw [h.next_eq, manifest.begun_of_contents hcontents, hmade] at hcovers
        have hset := htracks.setSheet hcovers sheet
        rw [Manifest.nextAfter_of_load hload] at hset
        exact ⟨l', hset⟩

/-- **What identities tell after any history.**  After any actions in any order, on any selectors
and sheets and copies of them,

* blocks of one identity have the same text and the same pseudo-class, wherever they are;
* pseudo-class blocks of one identity are in selectors of one identity;
* in a sheet no identity occurs twice, among selectors and all their blocks;
* the identity of a selector and then those of its pseudo-class blocks go up, and stay below the
  counter. -/
theorem identified_run (actions : List Action) : (run {} actions).Identified := by
  -- one run of the induction for both invariants: a ledger alone does not keep a sheet well formed
  have hinvariant : (run {} actions).WellFormed ∧ ∃ l, Tracks l (run {} actions) := by
    induction actions using List.reverseRecOn with
    | nil => exact ⟨wellFormed_empty, _, tracks_empty⟩
    | append_singleton actions a ih =>
        obtain ⟨hw, l, hl⟩ := ih
        rw [run, List.foldl_append]
        exact ⟨wellFormed_perform hw a, tracks_perform hl a⟩
  obtain ⟨hw, l, hl⟩ := hinvariant
  exact hl.identified hw

end UiStyle.Workspace
