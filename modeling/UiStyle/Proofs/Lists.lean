/-!
# Walks, look-ups and separators

Facts about lists that the theory of more than one part needs.  A walk along a list that can fail
succeeds exactly if its steps do, one after the other, so no proof unfolds a bind.  Disks and
workspaces keep entries in a list with their keys: setting a key puts an entry in front and drops
those that had the key before, so of all look-ups it changes one.  Sheets are written in parts with
a separator between them.
-/

namespace UiStyle

/-! ### Walks that can fail -/

section Walks

variable {ε α β σ : Type}

theorem bind_eq_ok {x : Except ε α} {f : α → Except ε β} {b : β} :
    x >>= f = .ok b ↔ ∃ a, x = .ok a ∧ f a = .ok b := by
  cases x with
  | error e => simp [bind, Except.bind]
  | ok a => simp [bind, Except.bind]

/-- A walk along a list takes its first step and then the others. -/
theorem foldlM_cons_eq_ok {f : σ → α → Except ε σ} {a : α} {as : List α} {s t : σ} :
    (a :: as).foldlM f s = .ok t ↔ ∃ u, f s a = .ok u ∧ as.foldlM f u = .ok t := by
  rw [List.foldlM_cons, bind_eq_ok]

/-- A walk along two lists behind each other is a walk along the one and then the other. -/
theorem foldlM_append_eq_ok {f : σ → α → Except ε σ} {as bs : List α} {s t : σ} :
    (as ++ bs).foldlM f s = .ok t ↔ ∃ u, as.foldlM f s = .ok u ∧ bs.foldlM f u = .ok t := by
  rw [List.foldlM_append, bind_eq_ok]

end Walks

/-! ### Looking up what was set -/

section LookUp

variable {α β : Type} [BEq α] [LawfulBEq α]

/-- Entries of another key do not matter. -/
theorem lookup_filter_of_ne {key other : α} (h : other ≠ key) (entries : List (α × β)) :
    (entries.filter fun entry => entry.1 != key).lookup other = entries.lookup other := by
  induction entries with
  | nil => rfl
  | cons entry rest ih =>
      obtain ⟨k, b⟩ := entry
      by_cases hk : k = key
      · simp [List.lookup_cons, hk, ih, beq_false_of_ne h]
      · rw [List.filter_cons_of_pos (by simp [hk]), List.lookup_cons, List.lookup_cons, ih]

/-- Only the key that was set has changed. -/
theorem lookup_set [DecidableEq α] (key other : α) (value : β) (entries : List (α × β)) :
    ((key, value) :: entries.filter fun entry => entry.1 != key).lookup other =
      if other = key then some value else entries.lookup other := by
  split
  · rename_i h
    subst h
    exact List.lookup_cons_self
  · rename_i h
    rw [List.lookup_cons, beq_false_of_ne h, lookup_filter_of_ne h]

end LookUp

/-! ### Parts with a separator between them -/

section Separators

variable {α β : Type}

theorem intercalate_nil_left (parts : List (List α)) :
    List.intercalate [] parts = parts.flatten := by
  induction parts with
  | nil => rfl
  | cons part parts ih =>
      cases parts with
      | nil => simp
      | cons next parts =>
          rw [List.intercalate_cons_cons, ih, List.append_nil, ← List.flatten_cons]

theorem mem_or_mem_of_mem_intercalate {x : α} {separator : List α}
    {parts : List (List α)} (h : x ∈ List.intercalate separator parts) :
    x ∈ separator ∨ ∃ part ∈ parts, x ∈ part := by
  induction parts with
  | nil => cases h
  | cons part parts ih =>
      cases parts with
      | nil => exact .inr ⟨part, List.mem_singleton_self part, by simpa using h⟩
      | cons next parts =>
          rw [List.intercalate_cons_cons, List.append_assoc] at h
          rcases List.mem_append.mp h with h | h
          · exact .inr ⟨part, List.mem_cons_self, h⟩
          · rcases List.mem_append.mp h with h | h
            · exact .inl h
            · refine (ih h).imp_right ?_
              rintro ⟨other, hother, hx⟩
              exact ⟨other, List.mem_cons_of_mem part hother, hx⟩

/-- Parts are separated one after the other. -/
theorem intercalate_concat (separator : List α) (parts : List (List α))
    (part : List α) :
    List.intercalate separator (parts ++ [part]) =
      if parts.isEmpty then part else List.intercalate separator parts ++ separator ++ part := by
  induction parts with
  | nil => simp
  | cons first parts ih =>
      cases parts with
      | nil => simp [List.intercalate_cons_cons]
      | cons next parts =>
          rw [List.cons_append, List.cons_append, List.intercalate_cons_cons, ← List.cons_append,
            ih, List.intercalate_cons_cons]
          simp

theorem intercalate_isEmpty (separator : List α) {parts : List (List α)}
    (h : [] ∉ parts) : (List.intercalate separator parts).isEmpty = parts.isEmpty := by
  cases parts with
  | nil => rfl
  | cons first parts =>
      obtain ⟨hfirst, -⟩ := not_or.mp (mt List.mem_cons.mpr h)
      cases parts with
      | nil => simp [Ne.symm hfirst]
      | cons next parts => simp [List.intercalate_cons_cons, Ne.symm hfirst]

/-- Whatever is put between them, each part stands in the whole. -/
theorem infix_intercalate (separator : List α) {parts : List (List α)} {part : List α}
    (h : part ∈ parts) : part <:+: List.intercalate separator parts := by
  induction parts with
  | nil => cases h
  | cons first parts ih =>
      cases parts with
      | nil => simp [List.mem_singleton.mp h]
      | cons next parts =>
          rw [List.intercalate_cons_cons]
          rcases List.mem_cons.mp h with rfl | h
          · rw [List.append_assoc]
            exact (List.prefix_append part _).isInfix
          · exact (ih h).trans (List.suffix_append ..).isInfix

theorem map_intercalate (f : α → β) (separator : List α) (parts : List (List α)) :
    (List.intercalate separator parts).map f =
      List.intercalate (separator.map f) (parts.map (List.map f)) := by
  induction parts with
  | nil => rfl
  | cons part parts ih =>
      cases parts with
      | nil => simp
      | cons next parts =>
          rw [List.intercalate_cons_cons, List.map_append, List.map_append, ih]
          simp only [List.map_cons, List.intercalate_cons_cons]

/-- A separator of which nothing is taken does not count. -/
theorem filterMap_intercalate {f : α → Option β} {separator : List α}
    (h : separator.filterMap f = []) (parts : List (List α)) :
    (List.intercalate separator parts).filterMap f = parts.flatten.filterMap f := by
  induction parts with
  | nil => rfl
  | cons part parts ih =>
      cases parts with
      | nil => simp
      | cons next parts =>
          rw [List.intercalate_cons_cons, List.filterMap_append, List.filterMap_append, h, ih,
            List.append_nil, ← List.filterMap_append, ← List.flatten_cons]

end Separators

end UiStyle
