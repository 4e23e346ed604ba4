import Mathlib.Data.List.Chain
import Mathlib.Data.List.Induction
import UiStyle.Proofs.Lists
import UiStyle.Sheet

/-!
# Empty lines

The lines of a sheet are written selector by selector.  What comes between two selectors is decided
by what stands there already: `Layout.extend` is this step, and what it leads to is the lines of the
selectors that have lines, with separators between them (`Sheet.lines_eq_parts`).  A step without
lines is none, and those are the steps of the selectors that are empty, because lines come from
rules only:

```text
a block without rules                     no line      Block.lines_eq_nil_iff
a selector with such blocks only          no line      Selector.lines_eq_nil_iff
such a selector among others              no trace     Sheet.lines_eq_of_filled_eq
```

No line of a block is empty (`Selector.empty_notMem_lines`), so the empty lines of a sheet are those
that a step puts between lines.  `Spaced` says where these can be, and one step keeps it
(`Spaced.extend`).
-/

namespace UiStyle

/-! ### Blocks and selectors -/

theorem Block.lines_eq_nil_iff {b : Block} {indent : Nat} :
    b.lines indent = [] ↔ b.rules.isEmpty = true := by
  unfold Block.lines
  split
  · rename_i hrules
    exact iff_of_true rfl hrules
  · rename_i hrules
    exact iff_of_false (List.cons_ne_nil _ _) hrules

theorem Rule.indented_ne_empty (r : Rule) (indent : Nat) : r.indented indent ≠ "" := by
  intro h
  have hlength := congrArg String.length h
  simp [Rule.indented, Rule.text, String.length_append] at hlength

/-- The first line of a block ends in a brace, and so does every other or in a semicolon. -/
theorem Block.empty_notMem_lines (b : Block) (indent : Nat) : "" ∉ b.lines indent := by
  unfold Block.lines
  split
  · exact List.not_mem_nil
  · intro hmem
    rcases List.mem_cons.mp hmem with hhead | hmem
    · simp at hhead
    · rcases List.mem_append.mp hmem with hrule | hbrace
      · obtain ⟨r, -, hr⟩ := List.mem_map.mp hrule
        exact r.indented_ne_empty indent hr
      · exact absurd hbrace (by decide)

namespace Selector

/-- A selector has no lines exactly if it is empty. -/
theorem lines_eq_nil_iff {t : Selector} {indent : Nat} :
    t.lines indent = [] ↔ t.isEmpty = true := by
  rw [lines, List.flatMap_eq_nil_iff, isEmpty, Bool.and_eq_true, List.all_eq_true]
  constructor
  · intro h
    obtain ⟨hown, hstates⟩ := List.forall_mem_cons.mp h
    exact ⟨Block.lines_eq_nil_iff.mp hown, fun b hb => Block.lines_eq_nil_iff.mp (hstates b hb)⟩
  · rintro ⟨hown, hstates⟩
    refine List.forall_mem_cons.mpr ⟨Block.lines_eq_nil_iff.mpr hown, fun b hb => ?_⟩
    exact Block.lines_eq_nil_iff.mpr (hstates b hb)

theorem empty_notMem_lines (t : Selector) (indent : Nat) : "" ∉ t.lines indent := by
  intro hmem
  obtain ⟨b, -, hb⟩ := List.mem_flatMap.mp hmem
  exact b.empty_notMem_lines indent hb

end Selector

/-! ### One selector more -/

/-- Parts with the separator of a layout between them grow by a part that is not empty. -/
theorem Layout.extend_intercalate (l : Layout) {parts : List (List String)} (h : [] ∉ parts)
    (part : List String) :
    l.extend (List.intercalate l.separator parts) part =
      List.intercalate l.separator (parts ++ [part].filter fun part => !part.isEmpty) := by
  rw [extend, intercalate_isEmpty _ h]
  split
  · rename_i hnone
    rw [List.filter_cons_of_neg (by simpa using hnone), List.filter_nil, List.append_nil]
  · rename_i hsome
    rw [List.filter_cons_of_pos (by simpa using hsome), List.filter_nil, intercalate_concat]

namespace Sheet

/-- A selector at the end of a sheet is one step more. -/
theorem lines_concat (s : Sheet) (t : Selector) :
    { s with selectors := s.selectors ++ [t] }.lines =
      s.layout.extend s.lines (t.lines s.layout.indent) := by
  rw [lines, List.foldl_append]
  rfl

/-- The lines of the selectors that have lines, selector by selector. -/
def parts (s : Sheet) : List (List String) :=
  (s.selectors.map fun t => t.lines s.layout.indent).filter fun part => !part.isEmpty

theorem nil_notMem_parts (s : Sheet) : [] ∉ s.parts := by
  intro hmem
  simpa using List.of_mem_filter hmem

/-- What is written selector by selector is these parts with the separator between them. -/
theorem lines_eq_parts (s : Sheet) : s.lines = List.intercalate s.layout.separator s.parts := by
  obtain ⟨name, selectors, file, layout⟩ := s
  induction selectors using List.reverseRecOn with
  | nil => rfl
  | append_singleton selectors t ih =>
      have hstep := lines_concat ⟨name, selectors, file, layout⟩ t
      rw [ih, layout.extend_intercalate (nil_notMem_parts _)] at hstep
      rw [hstep, parts, parts, List.map_append, List.filter_append]
      rfl

/-- The lines of a block of a selector stand together in those of the sheet. -/
theorem lines_infix {s : Sheet} {t : Selector} (ht : t ∈ s.selectors) {b : Block}
    (hb : b ∈ t.blocks) : b.lines s.layout.indent <:+: s.lines := by
  have hblock : b.lines s.layout.indent <:+: t.lines s.layout.indent := by
    rw [Selector.lines, List.flatMap_def]
    exact List.infix_of_mem_flatten (List.mem_map.mpr ⟨b, hb, rfl⟩)
  by_cases hempty : t.lines s.layout.indent = []
  · rw [hempty, List.infix_nil] at hblock
    rw [hblock]
    exact List.nil_infix
  · have hpart : t.lines s.layout.indent ∈ s.parts :=
      List.mem_filter.mpr ⟨List.mem_map.mpr ⟨t, ht, rfl⟩, by simpa using hempty⟩
    rw [lines_eq_parts]
    exact hblock.trans (infix_intercalate _ hpart)

/-! ### Empty selectors -/

/-- The selectors that are not empty, in order. -/
def filled (s : Sheet) : List Selector :=
  s.selectors.filter fun t => !t.isEmpty

/-- The lines of the selectors that are not empty, with the separator of the layout between them. -/
theorem lines_eq_intercalate (s : Sheet) :
    s.lines =
      List.intercalate s.layout.separator (s.filled.map fun t => t.lines s.layout.indent) := by
  have hparts : s.parts = s.filled.map fun t => t.lines s.layout.indent := by
    rw [parts, List.filter_map, filled]
    congr 1
    apply List.filter_congr
    intro t _
    rw [Function.comp_apply, Bool.not_inj_iff, Bool.eq_iff_iff, List.isEmpty_iff,
      Selector.lines_eq_nil_iff]
  rw [lines_eq_parts, hparts]

/-- Empty selectors leave no trace, wherever they stand. -/
theorem lines_eq_of_filled_eq {s other : Sheet} (hlayout : other.layout = s.layout)
    (hfilled : other.filled = s.filled) : other.lines = s.lines := by
  rw [lines_eq_intercalate, lines_eq_intercalate, hlayout, hfilled]

end Sheet

/-! ### Where empty lines are -/

/-- Lines that neither start nor end with an empty one, nor have two of them in a row. -/
structure Spaced (lines : List String) : Prop where
  head?_ne : lines.head? ≠ some ""
  getLast?_ne : lines.getLast? ≠ some ""
  apart : lines.IsChain fun line next => ¬ (line = "" ∧ next = "")

namespace Spaced

variable {lines part : List String}

theorem of_notMem (h : "" ∉ lines) : Spaced lines where
  head?_ne hhead := h (List.mem_of_head? hhead)
  getLast?_ne hlast := h (List.mem_of_getLast? hlast)
  apart := by
    apply List.Pairwise.isChain
    refine List.pairwise_iff_forall_sublist.mpr ?_
    intro line next hsub hboth
    exact h (hboth.1 ▸ hsub.subset (List.mem_cons_self ..))

theorem append (h : Spaced lines) (hpart : Spaced part) : Spaced (lines ++ part) where
  head?_ne := by
    cases lines with
    | nil => exact hpart.head?_ne
    | cons line rest => exact h.head?_ne
  getLast?_ne := by
    rw [List.getLast?_append]
    cases hlast : part.getLast? with
    | none => exact h.getLast?_ne
    | some line => rw [Option.some_or, ← hlast]; exact hpart.getLast?_ne
  apart := by
    refine List.isChain_append.mpr ⟨h.apart, hpart.apart, ?_⟩
    intro line hline next _ hboth
    exact h.getLast?_ne (hboth.1 ▸ hline)

/-- An empty line may stand between lines. -/
theorem append_empty (h : Spaced lines) (hlines : lines ≠ []) (hpart : Spaced part)
    (hnonempty : part ≠ []) : Spaced (lines ++ [""] ++ part) where
  head?_ne := by
    cases lines with
    | nil => exact absurd rfl hlines
    | cons line rest => exact h.head?_ne
  getLast?_ne := by
    rw [List.getLast?_append_of_ne_nil _ hnonempty]
    exact hpart.getLast?_ne
  apart := by
    rw [List.append_assoc]
    refine List.isChain_append.mpr ⟨h.apart, ?_, ?_⟩
    · -- the empty line and the first one behind it
      refine List.isChain_append.mpr ⟨List.isChain_singleton _, hpart.apart, ?_⟩
      intro _ _ next hnext hboth
      exact hpart.head?_ne (hboth.2 ▸ hnext)
    · intro line hline _ _ hboth
      exact h.getLast?_ne (hboth.1 ▸ hline)

/-- One selector more leaves empty lines between lines only. -/
theorem extend (h : Spaced lines) (l : Layout) (hpart : "" ∉ part) :
    Spaced (l.extend lines part) := by
  have hspaced : Spaced part := of_notMem hpart
  unfold Layout.extend
  split
  · exact h
  · rename_i hnonempty
    split
    · exact hspaced
    · rename_i hlines
      unfold Layout.separator
      split
      · exact h.append_empty (by simpa using hlines) hspaced (by simpa using hnonempty)
      · rw [List.append_nil]
        exact h.append hspaced

end Spaced

/-- Without its empty lines, a step is one of the layout that asks for none. -/
theorem Layout.filter_extend (l : Layout) (lines : List String) {part : List String}
    (hpart : "" ∉ part) :
    (l.extend lines part).filter (· != "") =
      (l.withBlankLines false).extend (lines.filter (· != "")) part := by
  have hkept : part.filter (· != "") = part := by
    apply List.filter_eq_self.mpr
    intro line hline
    rw [bne_iff_ne]
    rintro rfl
    exact hpart hline
  have hseparator : l.separator.filter (· != "") = [] := by
    unfold separator
    split <;> rfl
  have hcompact : (l.withBlankLines false).separator = [] := rfl
  unfold extend
  split
  · rfl
  · split
    · rename_i hlines
      rw [hkept, List.isEmpty_iff.mp hlines]
      rfl
    · rw [List.filter_append, List.filter_append, hseparator, hkept, hcompact, List.append_nil]
      split
      · rename_i hlines
        rw [List.isEmpty_iff.mp hlines, List.nil_append]
      · rfl

namespace Sheet

theorem empty_notMem_parts (s : Sheet) :
    ∀ part ∈ s.selectors.map fun t => t.lines s.layout.indent, "" ∉ part := by
  intro part hpart
  obtain ⟨t, -, rfl⟩ := List.mem_map.mp hpart
  exact t.empty_notMem_lines s.layout.indent

theorem spaced_lines (s : Sheet) : Spaced s.lines := by
  have hparts := s.empty_notMem_parts
  rw [lines_eq_foldl]
  generalize (s.selectors.map fun t => t.lines s.layout.indent) = parts at hparts
  induction parts using List.reverseRecOn with
  | nil => exact .of_notMem List.not_mem_nil
  | append_singleton parts part ih =>
      obtain ⟨hparts, hpart⟩ := List.forall_mem_append.mp hparts
      rw [List.foldl_append]
      exact (ih hparts).extend s.layout (hpart part (List.mem_singleton_self part))

/-- What is left without the empty lines is the same sheet in the layout that asks for none. -/
theorem filter_lines (s : Sheet) :
    s.lines.filter (· != "") = (s.withLayout (s.layout.withBlankLines false)).lines := by
  have hparts := s.empty_notMem_parts
  rw [lines_eq_foldl, lines_eq_foldl, withLayout]
  dsimp only [Layout.withBlankLines]
  generalize (s.selectors.map fun t => t.lines s.layout.indent) = parts at hparts
  induction parts using List.reverseRecOn with
  | nil => rfl
  | append_singleton parts part ih =>
      obtain ⟨hparts, hpart⟩ := List.forall_mem_append.mp hparts
      rw [List.foldl_append, List.foldl_append, ← ih hparts]
      exact s.layout.filter_extend _ (hpart part (List.mem_singleton_self part))

/-- **Empty selectors and empty lines.**  For every sheet, whatever its layout,

* a selector has no lines exactly if it is empty, and none of its lines is empty;
* the lines of the sheet, which are written selector by selector, come to those of the selectors
  that are not empty, in order, with one empty line between two of them if the layout asks for it
  and with nothing between them otherwise;
* neither the first line nor the last is empty, and no two empty lines follow each other;
* without the empty lines they are the lines in the layout that does not ask for any;
* sheets of one layout in which the same selectors are not empty, in the same order, have the same
  lines, however many empty ones stand among these and wherever. -/
theorem separated_lines (s : Sheet) :
    (∀ (t : Selector) (indent : Nat),
        (t.lines indent = [] ↔ t.isEmpty = true) ∧ "" ∉ t.lines indent) ∧
      s.lines = List.intercalate (if s.layout.blankLines then [""] else [])
        (s.filled.map fun t => t.lines s.layout.indent) ∧
      Spaced s.lines ∧
      (s.withLayout (s.layout.withBlankLines true)).lines.filter (· != "") =
        (s.withLayout (s.layout.withBlankLines false)).lines ∧
      ∀ other : Sheet, other.layout = s.layout → other.filled = s.filled →
        other.lines = s.lines := by
  refine ⟨fun t indent => ⟨t.lines_eq_nil_iff, t.empty_notMem_lines indent⟩,
    s.lines_eq_intercalate, s.spaced_lines, ?_, fun _ => lines_eq_of_filled_eq⟩
  exact (s.withLayout (s.layout.withBlankLines true)).filter_lines

end Sheet

end UiStyle
