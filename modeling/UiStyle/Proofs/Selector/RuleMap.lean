import Mathlib.Data.List.Induction
import Mathlib.Data.List.Nodup
import UiStyle.Selector

/-!
# The rules of a block as a map

A list of rules is read as a map from names to rules that keeps an order.  Two views determine it:
its names in order (`ruleNames`) and the rule found under each name (`findRule?`).  As long as no
name occurs twice, the rules are what is found under these names (`filterMap_findRule?_ruleNames`).
So each operation is described by what it does to the two views, and nothing behind this module
unfolds `insertRule` or `eraseRule` again.

Inserting rules one after the other into an empty block has a closed form: `lastOfEach` lists every
name once, where it occurs first, with the rule that comes last under it (`foldl_insertRule`).
-/

namespace UiStyle

/-- The names of some rules, in order. -/
def ruleNames (rules : List Rule) : List String :=
  rules.map Rule.name

@[simp] theorem ruleNames_nil : ruleNames [] = [] := rfl

@[simp] theorem ruleNames_cons (r : Rule) (rules : List Rule) :
    ruleNames (r :: rules) = r.name :: ruleNames rules := rfl

@[simp] theorem ruleNames_append (rules more : List Rule) :
    ruleNames (rules ++ more) = ruleNames rules ++ ruleNames more :=
  List.map_append

/-! ### Inserting and erasing -/

theorem ruleNames_insertRule (r : Rule) (rules : List Rule) :
    ruleNames (insertRule r rules) =
      if r.name ∈ ruleNames rules then ruleNames rules else ruleNames rules ++ [r.name] := by
  induction rules with
  | nil => rfl
  | cons s rest ih =>
      by_cases hname : s.name = r.name
      · simp [insertRule, hname]
      · have hne : r.name ≠ s.name := Ne.symm hname
        simp only [insertRule, hname, if_false, ruleNames_cons, ih, List.mem_cons, hne, false_or]
        split <;> rfl

theorem ruleNames_eraseRule (name : String) (rules : List Rule) :
    ruleNames (eraseRule name rules) = (ruleNames rules).erase name := by
  induction rules with
  | nil => rfl
  | cons s rest ih =>
      unfold eraseRule at ih ⊢
      by_cases hname : s.name = name
      · simp [hname]
      · simp [hname, ih]

theorem nodup_ruleNames_insertRule {rules : List Rule} (r : Rule)
    (h : (ruleNames rules).Nodup) : (ruleNames (insertRule r rules)).Nodup := by
  rw [ruleNames_insertRule]
  split
  · exact h
  · rename_i hnew
    rw [← List.concat_eq_append, List.nodup_concat]
    exact ⟨hnew, h⟩

theorem nodup_ruleNames_eraseRule {rules : List Rule} (name : String)
    (h : (ruleNames rules).Nodup) : (ruleNames (eraseRule name rules)).Nodup := by
  rw [ruleNames_eraseRule]
  exact h.erase name

theorem findRule?_insertRule (name : String) (r : Rule) (rules : List Rule) :
    findRule? name (insertRule r rules) =
      if r.name = name then some r else findRule? name rules := by
  induction rules with
  | nil => by_cases hr : r.name = name <;> simp [insertRule, findRule?, hr]
  | cons s rest ih =>
      unfold findRule? at ih ⊢
      by_cases hs : s.name = r.name
      · by_cases hr : r.name = name <;> simp [insertRule, hs, hr]
      · rw [insertRule, if_neg hs]
        by_cases hname : s.name = name
        · have hr : r.name ≠ name := fun hr => hs (hname.trans hr.symm)
          simp [hname, hr]
        · simp [hname, ih]

theorem findRule?_eq_none_iff {name : String} {rules : List Rule} :
    findRule? name rules = none ↔ name ∉ ruleNames rules := by
  simp [findRule?, ruleNames]

/-- Names that occur once are gone with their rule. -/
theorem findRule?_eraseRule {rules : List Rule} (h : (ruleNames rules).Nodup)
    (name other : String) :
    findRule? name (eraseRule other rules) =
      if other = name then none else findRule? name rules := by
  split
  · rename_i hname
    subst hname
    rw [findRule?_eq_none_iff, ruleNames_eraseRule]
    exact h.not_mem_erase
  · rename_i hname
    induction rules with
    | nil => rfl
    | cons s rest ih =>
        have hrest := ih (List.nodup_cons.mp h).2
        unfold eraseRule findRule? at hrest ⊢
        by_cases hs : s.name = other
        · simp [hs, hname]
        · by_cases hn : s.name = name
          · simp [hn, Ne.symm hname]
          · simp [hs, hn, hrest]

theorem mem_insertRule {r s : Rule} {rules : List Rule} (h : s ∈ insertRule r rules) :
    s = r ∨ s ∈ rules := by
  induction rules with
  | nil => exact .inl (List.mem_singleton.mp h)
  | cons t rest ih =>
      unfold insertRule at h
      split at h
      · exact (List.mem_cons.mp h).imp_right (List.mem_cons_of_mem t)
      · rcases List.mem_cons.mp h with rfl | h
        · exact .inr (List.mem_cons_self ..)
        · exact (ih h).imp_right (List.mem_cons_of_mem t)

theorem insertRule_of_notMem {r : Rule} {rules : List Rule} (h : r.name ∉ ruleNames rules) :
    insertRule r rules = rules ++ [r] := by
  induction rules with
  | nil => rfl
  | cons s rest ih =>
      rw [ruleNames_cons, List.mem_cons, not_or] at h
      rw [insertRule, if_neg (Ne.symm h.1), ih h.2, List.cons_append]

/-- The rule of a name is the first that has it. -/
theorem exists_of_findRule? {name : String} {rules : List Rule} {r : Rule}
    (h : findRule? name rules = some r) : r.name = name ∧ ∃ front behind,
      rules = front ++ r :: behind ∧ name ∉ ruleNames front := by
  obtain ⟨hname, front, behind, hrules, hfront⟩ := List.find?_eq_some_iff_append.mp h
  refine ⟨by simpa using hname, front, behind, hrules, fun hmem => ?_⟩
  obtain ⟨s, hs, hsame⟩ := List.mem_map.mp hmem
  simpa [hsame] using hfront s hs

/-- A rule is replaced where it stands. -/
theorem insertRule_append_cons {r old : Rule} {front : List Rule} (hname : old.name = r.name)
    (hfront : r.name ∉ ruleNames front) (behind : List Rule) :
    insertRule r (front ++ old :: behind) = front ++ r :: behind := by
  induction front with
  | nil => rw [List.nil_append, insertRule, if_pos hname, List.nil_append]
  | cons s front ih =>
      rw [ruleNames_cons, List.mem_cons, not_or] at hfront
      rw [List.cons_append, insertRule, if_neg (Ne.symm hfront.1), ih hfront.2, List.cons_append]

/-- A rule is taken out and leaves the others where they stand. -/
theorem eraseRule_append_cons {old : Rule} {front : List Rule}
    (hfront : old.name ∉ ruleNames front) (behind : List Rule) :
    eraseRule old.name (front ++ old :: behind) = front ++ behind := by
  have hother : ∀ s ∈ front, ¬ (s.name == old.name) = true := by
    intro s hs hsame
    exact hfront (List.mem_map.mpr ⟨s, hs, by simpa using hsame⟩)
  rw [eraseRule, List.eraseP_append_right _ hother, List.eraseP_cons_of_pos (by simp)]

theorem eraseRule_of_notMem {name : String} {rules : List Rule} (h : name ∉ ruleNames rules) :
    eraseRule name rules = rules := by
  refine List.eraseP_of_forall_not fun r hr hsame => h (List.mem_map.mpr ⟨r, hr, ?_⟩)
  simpa using hsame

/-! ### The two views -/

/-- Rules with distinct names are what is found under these names. -/
theorem filterMap_findRule?_ruleNames {rules : List Rule} (h : (ruleNames rules).Nodup) :
    (ruleNames rules).filterMap (findRule? · rules) = rules := by
  induction rules with
  | nil => rfl
  | cons r rest ih =>
      obtain ⟨hr, hrest⟩ := List.nodup_cons.mp h
      have hsame : ∀ name ∈ ruleNames rest,
          findRule? name (r :: rest) = findRule? name rest := by
        intro name hname
        have hne : r.name ≠ name := by
          rintro rfl
          exact hr hname
        simp [findRule?, hne]
      rw [ruleNames_cons, List.filterMap_cons_some (b := r) (by simp [findRule?]),
        List.filterMap_congr hsame, ih hrest]

/-! ### Many insertions -/

/-- Every name once, in the order in which the names occur first, and with it the rule that occurs
last. -/
def lastOfEach (rules : List Rule) : List Rule :=
  (ruleNames rules).eraseDups.filterMap (findRule? · rules.reverse)

/-- The names come in the order of their first occurrence. -/
theorem ruleNames_foldl_insertRule (rules : List Rule) :
    ruleNames (rules.foldl (fun made r => insertRule r made) []) =
      (ruleNames rules).eraseDups := by
  induction rules using List.reverseRecOn with
  | nil => rfl
  | append_singleton rules r ih =>
      rw [List.foldl_append, List.foldl_cons, List.foldl_nil, ruleNames_insertRule, ih,
        ruleNames_append, List.eraseDups_append]
      by_cases hr : r.name ∈ ruleNames rules
      · simp [hr, List.removeAll]
      · simp [hr, List.removeAll, List.eraseDups_cons]

/-- The rule of a name is the last one that was inserted. -/
theorem findRule?_foldl_insertRule (name : String) (rules : List Rule) :
    findRule? name (rules.foldl (fun made r => insertRule r made) []) =
      findRule? name rules.reverse := by
  induction rules using List.reverseRecOn with
  | nil => rfl
  | append_singleton rules r ih =>
      rw [List.foldl_append, List.foldl_cons, List.foldl_nil, findRule?_insertRule, ih,
        List.reverse_append]
      by_cases hr : r.name = name <;> simp [findRule?, hr]

theorem nodup_ruleNames_foldl_insertRule (rules : List Rule) :
    (ruleNames (rules.foldl (fun made r => insertRule r made) [])).Nodup := by
  induction rules using List.reverseRecOn with
  | nil => exact List.nodup_nil
  | append_singleton rules r ih =>
      rw [List.foldl_append]
      exact nodup_ruleNames_insertRule r ih

/-- Inserting rules one after the other into an empty block keeps of each name the first place and
the last rule. -/
theorem foldl_insertRule (rules : List Rule) :
    rules.foldl (fun made r => insertRule r made) [] = lastOfEach rules := by
  have hfind := funext fun name => findRule?_foldl_insertRule name rules
  generalize hmade : rules.foldl (fun made r => insertRule r made) [] = made at hfind ⊢
  calc made = (ruleNames made).filterMap (findRule? · made) := by
        rw [filterMap_findRule?_ruleNames (hmade ▸ nodup_ruleNames_foldl_insertRule rules)]
    _ = (ruleNames rules).eraseDups.filterMap (findRule? · made) := by
        rw [← hmade, ruleNames_foldl_insertRule]
    _ = lastOfEach rules := by rw [lastOfEach, hfind]

/-- Rules with distinct names are all the last of their names. -/
theorem lastOfEach_eq_self {rules : List Rule} (h : (ruleNames rules).Nodup) :
    lastOfEach rules = rules := by
  rw [← foldl_insertRule]
  induction rules using List.reverseRecOn with
  | nil => rfl
  | append_singleton rules r ih =>
      rw [ruleNames_append, ruleNames_cons, ruleNames_nil, ← List.concat_eq_append,
        List.nodup_concat] at h
      rw [List.foldl_append, ih h.2, List.foldl_cons, List.foldl_nil, insertRule_of_notMem h.1]

/-- A rule is the last of its name if no rule behind it has this name. -/
theorem mem_lastOfEach {r : Rule} {behind : List Rule} (h : r.name ∉ ruleNames behind)
    (front : List Rule) : r ∈ lastOfEach (front ++ r :: behind) := by
  have hname : r.name ∈ (ruleNames (front ++ r :: behind)).eraseDups := by
    rw [List.mem_eraseDups, ruleNames_append, ruleNames_cons]
    exact List.mem_append_right _ (List.mem_cons_self ..)
  have hbehind : findRule? r.name behind.reverse = none := by
    rw [findRule?_eq_none_iff, ruleNames, List.map_reverse, List.mem_reverse]
    exact h
  refine List.mem_filterMap.mpr ⟨r.name, hname, ?_⟩
  unfold findRule? at hbehind ⊢
  rw [List.reverse_append, List.reverse_cons, List.append_assoc, List.find?_append, hbehind]
  simp

end UiStyle
