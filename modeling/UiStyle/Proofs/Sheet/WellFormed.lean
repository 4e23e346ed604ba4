import UiStyle.Proofs.Manifest.Numbering

/-!
# Well-formed sheets

A sheet is well formed if its selectors are, have different identities, and none of them is a
pseudo-class block.  Sheets begin empty, grow by `Sheet.add`, shrink by `Sheet.remove`, and have a
selector changed by `Sheet.replace`, which puts a selector where one of the same identity was; a
manifest is loaded by adding to an empty sheet.
-/

namespace UiStyle

/-- The selectors have different identities, are no pseudo-class blocks, and are well formed. -/
structure Sheet.WellFormed (s : Sheet) : Prop where
  distinct_ids : (s.selectors.map fun t => t.id).Nodup
  plain : ∀ t ∈ s.selectors, t.isPseudoClass = false
  selectors : ∀ t ∈ s.selectors, t.WellFormed

namespace Sheet

theorem wellFormed_of_selectors_eq_nil {s : Sheet} (h : s.selectors = []) : s.WellFormed := by
  constructor <;> simp [h]

theorem WellFormed.withLayout {s : Sheet} (h : s.WellFormed) (layout : Layout) :
    (s.withLayout layout).WellFormed :=
  ⟨h.distinct_ids, h.plain, h.selectors⟩

theorem contains_eq_false_iff {s : Sheet} {id : Nat} :
    s.contains id = false ↔ id ∉ s.selectors.map fun t => t.id := by
  simp [contains]

theorem mem_of_find? {s : Sheet} {id : Nat} {t : Selector} (h : s.find? id = some t) :
    t ∈ s.selectors :=
  List.mem_of_find?_eq_some h

theorem mem_add {s : Sheet} {t u : Selector} (h : u ∈ (s.add t).selectors) :
    u = t ∨ u ∈ s.selectors := by
  unfold add at h
  split at h
  · rcases List.mem_append.mp h with h | h
    · exact .inr h
    · exact .inl (List.mem_singleton.mp h)
  · exact .inr h

theorem WellFormed.add {s : Sheet} {t : Selector} (h : s.WellFormed) (ht : t.WellFormed) :
    (s.add t).WellFormed := by
  unfold Sheet.add
  split
  · rename_i haccepts
    obtain ⟨hplain, hnew⟩ : t.isPseudoClass = false ∧ s.contains t.id = false := by
      simpa [accepts] using haccepts
    refine ⟨?_, ?_, ?_⟩
    · rw [List.map_append, List.map_singleton, ← List.concat_eq_append, List.nodup_concat]
      exact ⟨contains_eq_false_iff.mp hnew, h.distinct_ids⟩
    · intro u hu
      rcases List.mem_append.mp hu with hu | hu
      · exact h.plain u hu
      · rw [List.mem_singleton.mp hu]
        exact hplain
    · intro u hu
      rcases List.mem_append.mp hu with hu | hu
      · exact h.selectors u hu
      · rw [List.mem_singleton.mp hu]
        exact ht
  · exact h

theorem WellFormed.remove {s : Sheet} (h : s.WellFormed) (id : Nat) : (s.remove id).WellFormed where
  distinct_ids := h.distinct_ids.sublist (List.eraseP_sublist.map _)
  plain t ht := h.plain t (List.mem_of_mem_eraseP ht)
  selectors t ht := h.selectors t (List.mem_of_mem_eraseP ht)

/-- Putting a selector in the place of the one of the same identity changes no identity. -/
theorem ids_replace (s : Sheet) (t : Selector) :
    (s.replace t).selectors.map (fun u => u.id) = s.selectors.map fun u => u.id := by
  rw [replace, List.map_map]
  apply List.map_congr_left
  intro u _
  simp only [Function.comp_apply]
  split
  · rename_i hid
    exact (by simpa using hid : u.id = t.id).symm
  · rfl

theorem mem_replace {s : Sheet} {t u : Selector} (h : u ∈ (s.replace t).selectors) :
    u = t ∨ u ∈ s.selectors := by
  obtain ⟨v, hv, rfl⟩ := List.mem_map.mp h
  split
  · exact .inl rfl
  · exact .inr hv

theorem WellFormed.replace {s : Sheet} {t : Selector} (h : s.WellFormed) (ht : t.WellFormed)
    (hplain : t.isPseudoClass = false) : (s.replace t).WellFormed := by
  refine ⟨?_, ?_, ?_⟩
  · rw [ids_replace]
    exact h.distinct_ids
  · intro u hu
    rcases mem_replace hu with rfl | hu
    · exact hplain
    · exact h.plain u hu
  · intro u hu
    rcases mem_replace hu with rfl | hu
    · exact ht
    · exact h.selectors u hu

/-! ### Loading -/

theorem WellFormed.addContent {made : Sheet × Nat} (h : made.1.WellFormed) (c : Content) :
    (addContent made c).1.WellFormed :=
  h.add (Content.wellFormed_number c made.2).1

theorem wellFormed_foldl_addContent (contents : List Content) {made : Sheet × Nat}
    (h : made.1.WellFormed) : (contents.foldl addContent made).1.WellFormed := by
  induction contents generalizing made with
  | nil => exact h
  | cons c contents ih => exact ih (h.addContent c)

end Sheet

/-- A sheet that was loaded is well formed. -/
theorem Manifest.wellFormed_of_load {m : Manifest} {layout : Layout} {next : Nat}
    {made : Sheet × Nat} (h : (m.load layout next).result = .ok made) : made.1.WellFormed := by
  obtain ⟨contents, -, rfl⟩ := Manifest.load_eq_ok_iff.mp h
  exact Sheet.wellFormed_foldl_addContent contents (Sheet.wellFormed_of_selectors_eq_nil rfl)

end UiStyle
