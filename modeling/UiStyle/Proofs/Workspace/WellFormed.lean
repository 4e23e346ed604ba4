import UiStyle.Proofs.Sheet.WellFormed
import UiStyle.Workspace

/-!
# Well-formed workspaces

Whatever is done to selectors and sheets, and in whatever order, every selector at hand and every
sheet stays well formed: `wellFormed_run`.

The step lemma `wellFormed_perform` has one case for each action.  Those that go to a target are
settled by two facts.  What a target finds fits where it was found (`fits_of_find?`): it is well
formed, and no pseudo-class block if it is in a sheet.  And putting back what fits keeps a workspace
well formed (`WellFormed.put`).  Between the two stand only `Selector.follow` and `Selector.editAt`,
which do not take a selector out of what fits.

Identities are natural numbers here, so they do not run out; nothing below depends on which
identities have been given out.
-/

namespace UiStyle

namespace Named

variable {α : Type}

theorem mem_of_get? {name : String} {values : Named α} {value : α}
    (h : values.get? name = some value) : (name, value) ∈ values := by
  obtain ⟨before, after, rfl, -⟩ := List.lookup_eq_some_iff.mp h
  simp

theorem mem_set {name : String} {value : α} {values : Named α} {entry : String × α}
    (h : entry ∈ values.set name value) : entry = (name, value) ∨ entry ∈ values := by
  rcases List.mem_cons.mp h with h | h
  · exact .inl h
  · exact .inr (List.mem_of_mem_filter h)

end Named

namespace Workspace

/-- Every selector at hand and every sheet is well formed. -/
structure WellFormed (w : Workspace) : Prop where
  selectors : ∀ entry ∈ w.selectors, entry.2.WellFormed
  sheets : ∀ entry ∈ w.sheets, entry.2.WellFormed

/-- Whether a selector can stand where a target is found: in a sheet there are no pseudo-class
blocks on their own. -/
structure Fits (t : Target) (s : Selector) : Prop where
  wellFormed : s.WellFormed
  plain : t.sheet.isSome = true → s.isPseudoClass = false

variable {w : Workspace}

theorem wellFormed_empty : ({} : Workspace).WellFormed where
  selectors := by simp
  sheets := by simp

theorem WellFormed.setSelector (h : w.WellFormed) {s : Selector} (hs : s.WellFormed)
    (name : String) : { w with selectors := w.selectors.set name s }.WellFormed where
  selectors entry hentry := by
    rcases Named.mem_set hentry with rfl | hentry
    · exact hs
    · exact h.selectors entry hentry
  sheets := h.sheets

theorem WellFormed.setSheet (h : w.WellFormed) {s : Sheet} (hs : s.WellFormed) (name : String) :
    { w with sheets := w.sheets.set name s }.WellFormed where
  selectors := h.selectors
  sheets entry hentry := by
    rcases Named.mem_set hentry with rfl | hentry
    · exact hs
    · exact h.sheets entry hentry

theorem WellFormed.setNextId (h : w.WellFormed) (next : Nat) :
    { w with nextId := next }.WellFormed :=
  ⟨h.selectors, h.sheets⟩

/-! ### Targets -/

/-- A target finds a selector at hand, or the one of the same identity in its sheet. -/
theorem find?_eq_some {t : Target} {s : Selector} (h : w.find? t = some s) :
    (t.sheet = none ∧ w.selectors.get? t.selector = some s) ∨
      ∃ name sheet, t.sheet = some name ∧ w.sheets.get? name = some sheet ∧
        s ∈ sheet.selectors := by
  obtain ⟨own, hown, hs⟩ := Option.bind_eq_some_iff.mp h
  cases hsheet : t.sheet with
  | none =>
      simp only [hsheet, Option.pure_def, Option.some.injEq] at hs
      exact .inl ⟨rfl, hs ▸ hown⟩
  | some name =>
      simp only [hsheet] at hs
      obtain ⟨sheet, hget, hfind⟩ := Option.bind_eq_some_iff.mp hs
      exact .inr ⟨name, sheet, rfl, hget, Sheet.mem_of_find? hfind⟩

theorem fits_of_find? (h : w.WellFormed) {t : Target} {s : Selector} (hs : w.find? t = some s) :
    Fits t s := by
  rcases find?_eq_some hs with ⟨hsheet, hget⟩ | ⟨name, sheet, -, hget, hmem⟩
  · exact ⟨h.selectors _ (Named.mem_of_get? hget), by simp [hsheet]⟩
  · have hwell := h.sheets _ (Named.mem_of_get? hget)
    exact ⟨hwell.selectors s hmem, fun _ => hwell.plain s hmem⟩

theorem WellFormed.put (h : w.WellFormed) {t : Target} {s : Selector} (hs : Fits t s) :
    (w.put t s).WellFormed := by
  unfold Workspace.put
  split
  · exact h.setSelector hs.wellFormed t.selector
  · rename_i name hsheet
    split
    · exact h
    · rename_i sheet hget
      have hplain := hs.plain (by rw [hsheet]; rfl)
      exact h.setSheet ((h.sheets _ (Named.mem_of_get? hget)).replace hs.wellFormed hplain) name

theorem Fits.follow {t : Target} {s : Selector} (h : Fits t s) (next : Nat)
    (path : List PseudoClass) : Fits t (s.follow next path).selector where
  wellFormed := h.wellFormed.follow next path
  plain hsheet := by
    rw [Selector.follow_toBlock]
    exact h.plain hsheet

theorem Fits.editAt {t : Target} {s : Selector} (h : Fits t s) (place : Place) (e : Edit) :
    Fits t (s.editAt place e).2 where
  wellFormed := h.wellFormed.editAt place e
  plain hsheet := by
    rw [Selector.editAt_isPseudoClass]
    exact h.plain hsheet

/-- What there is to say about reaching a target: where it was found, and what asking for its
pseudo-classes led to. -/
theorem reach?_eq_some_iff {t : Target} {reached : Workspace × Selector × Place} :
    w.reach? t = some reached ↔ ∃ s, w.find? t = some s ∧
      reached = ({ w with nextId := (s.follow w.nextId t.states).next }.put t
          (s.follow w.nextId t.states).selector,
        (s.follow w.nextId t.states).selector, (s.follow w.nextId t.states).place) := by
  unfold reach?
  cases w.find? t with
  | none => simp
  | some s => simp [eq_comm]

/-- Reaching a target keeps a workspace well formed, and the selector found there fits. -/
theorem WellFormed.reach? (h : w.WellFormed) {t : Target} {w' : Workspace} {s : Selector}
    {place : Place} (hreach : w.reach? t = some (w', s, place)) : w'.WellFormed ∧ Fits t s := by
  obtain ⟨s, hfind, heq⟩ := reach?_eq_some_iff.mp hreach
  obtain ⟨rfl, rfl, rfl⟩ := Prod.mk.injEq .. ▸ heq
  have hfits := (fits_of_find? h hfind).follow w.nextId t.states
  exact ⟨(h.setNextId _).put hfits, hfits⟩

/-- From a pseudo-class block on, asking for more pseudo-classes changes nothing. -/
theorem reach?_append {t : Target} {w' : Workspace} {s : Selector} {place : Place}
    (hreach : w.reach? t = some (w', s, place)) (hblock : (s.blockAt place).isPseudoClass = true)
    (more : List PseudoClass) :
    w.reach? { t with states := t.states ++ more } = some (w', s, place) := by
  obtain ⟨found, hfind, heq⟩ := reach?_eq_some_iff.mp hreach
  obtain ⟨rfl, rfl, rfl⟩ := Prod.mk.injEq .. ▸ heq
  refine reach?_eq_some_iff.mpr ⟨found, hfind, ?_⟩
  rw [Selector.follow_append_of_isPseudoClass hblock more]
  rfl

/-! ### Actions -/

/-- Every action keeps a workspace well formed. -/
theorem wellFormed_perform (h : w.WellFormed) (a : Action) : (w.perform a).1.WellFormed := by
  cases a with
  | create name text =>
      exact (h.setSelector (Selector.wellFormed_new _ text) name).setNextId _
  | copy name source =>
      cases hreach : w.reach? source with
      | none => simpa [perform, hreach] using h
      | some reached =>
          obtain ⟨w', s, place⟩ := reached
          obtain ⟨hw, hs⟩ := h.reach? hreach
          simp only [perform, hreach]
          cases place with
          | own => exact hw.setSelector hs.wellFormed name
          | state p => exact hw.setSelector (hs.wellFormed.blockAt (.state p)) name
  | pick name sheet position =>
      simp only [perform]
      split
      · exact h
      · rename_i s hs
        obtain ⟨t, hget, hmem⟩ := Option.bind_eq_some_iff.mp hs
        have ht := h.sheets _ (Named.mem_of_get? hget)
        exact h.setSelector (ht.selectors s (List.mem_of_getElem? hmem)) name
  | touch target =>
      cases hreach : w.reach? target with
      | none => simpa [perform, hreach] using h
      | some reached =>
          simp only [perform, hreach]
          exact (h.reach? hreach).1
  | edit target change =>
      cases hreach : w.reach? target with
      | none => simpa [perform, hreach] using h
      | some reached =>
          obtain ⟨w', s, place⟩ := reached
          obtain ⟨hw, hs⟩ := h.reach? hreach
          simp only [perform, hreach]
          exact hw.put (hs.editAt place change)
  | newSheet name title file layout =>
      exact h.setSheet (Sheet.wellFormed_of_selectors_eq_nil rfl) name
  | copySheet name source layout =>
      simp only [perform]
      split
      · exact h
      · rename_i sheet hget
        have hsheet := h.sheets _ (Named.mem_of_get? hget)
        cases layout with
        | none => exact h.setSheet hsheet name
        | some l => exact h.setSheet (hsheet.withLayout l) name
  | add sheet selector =>
      simp only [perform]
      split
      · rename_i t s ht hs
        exact h.setSheet ((h.sheets _ (Named.mem_of_get? ht)).add
          (h.selectors _ (Named.mem_of_get? hs))) sheet
      · exact h
  | remove sheet selector =>
      simp only [perform]
      split
      · rename_i t s ht _
        exact h.setSheet ((h.sheets _ (Named.mem_of_get? ht)).remove s.id) sheet
      · exact h
  | load sheet manifest layout =>
      simp only [perform]
      split
      · exact h.setNextId _
      · rename_i s next hload
        exact (h.setSheet (Manifest.wellFormed_of_load hload) sheet).setNextId next

/-- **What holds of every history.**  After any actions in any order

* every selector at hand and every selector in a sheet declares no name twice, in none of its
  blocks; its pseudo-class blocks are of different pseudo-classes, have its text, and are missing if
  it is a pseudo-class block itself;
* the selectors of a sheet have different identities, and none is a pseudo-class block;
* once a target has led to a pseudo-class block, asking it for more pseudo-classes leads to the same
  block and leaves the whole workspace as it is. -/
theorem wellFormed_run (actions : List Action) :
    (run {} actions).WellFormed ∧
      ∀ t w s place, (run {} actions).reach? t = some (w, s, place) →
        (s.blockAt place).isPseudoClass = true → ∀ more,
          (run {} actions).reach? { t with states := t.states ++ more } = some (w, s, place) := by
  refine ⟨?_, fun t w s place hreach hblock more => reach?_append hreach hblock more⟩
  induction actions using List.reverseRecOn with
  | nil => exact wellFormed_empty
  | append_singleton actions a ih =>
      rw [run, List.foldl_append]
      exact wellFormed_perform ih a

end Workspace

end UiStyle
