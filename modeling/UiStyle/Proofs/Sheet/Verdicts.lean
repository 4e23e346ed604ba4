import UiStyle.Export
import UiStyle.Proofs.Manifest.Reload
import UiStyle.Proofs.Sheet.Spacing

/-!
# Verdicts and what is written

Whether a rule is valid is said in one place only, the list of the rules that are not.  It does not
show in anything that is written: the lines of a sheet are those of the sheet without its verdicts
(`Sheet.lines_unjudged`), so sheets that differ in verdicts only have the same lines, and with their
name and layout these are all that a writer is given.

The list of the rules that are not valid and the lines are made by two traversals of a sheet.  To
compare them, each line is taken together with what it shows (`Sheet.shown`): a block that opens, a
rule, the end of a block, or the gap between two selectors.  The rules that are shown are the rules
of all blocks, each once and in the order of the lines (`Sheet.filterMap_shown`); blocks without
rules and selectors without lines are left out, but they have no rules to show.
-/

namespace UiStyle

/-! ### Without verdicts -/

/-- A rule without its verdict, which is taken to be valid. -/
def Rule.unjudged (r : Rule) : Rule := { r with valid := true }

/-- A block without the verdicts on its rules. -/
def Block.unjudged (b : Block) : Block := { b with rules := b.rules.map Rule.unjudged }

/-- A selector without the verdicts on its rules. -/
def Selector.unjudged (s : Selector) : Selector :=
  { s.toBlock.unjudged with states := s.states.map Block.unjudged }

/-- A sheet without the verdicts on its rules. -/
def Sheet.unjudged (s : Sheet) : Sheet :=
  { s with selectors := s.selectors.map Selector.unjudged }

theorem Rule.indented_unjudged (r : Rule) (indent : Nat) :
    r.unjudged.indented indent = r.indented indent := rfl

theorem Block.lines_unjudged (b : Block) (indent : Nat) :
    b.unjudged.lines indent = b.lines indent := by
  have hrules : b.unjudged.rules.map (·.indented indent) = b.rules.map (·.indented indent) := by
    rw [unjudged, List.map_map]
    exact List.map_congr_left fun r _ => r.indented_unjudged indent
  have hempty : b.unjudged.rules.isEmpty = b.rules.isEmpty := List.isEmpty_map
  rw [lines, lines, hrules, hempty]
  rfl

theorem Selector.lines_unjudged (s : Selector) (indent : Nat) :
    s.unjudged.lines indent = s.lines indent := by
  have hblocks : s.unjudged.blocks = s.blocks.map Block.unjudged := rfl
  rw [lines, lines, hblocks, List.flatMap_map]
  exact List.flatMap_congr fun b _ => b.lines_unjudged indent

theorem Sheet.lines_unjudged (s : Sheet) : s.unjudged.lines = s.lines := by
  refine lines_congr rfl ?_
  rw [unjudged, List.map_map]
  exact List.map_congr_left fun t _ => t.lines_unjudged s.layout.indent

/-! ### What lines show -/

/-- A line of a sheet and what it shows. -/
inductive Line
  | opening (block : Block)
  | rule (rule : Rule)
  | closing
  | gap

namespace Line

/-- What is written in a line. -/
def text (indent : Nat) : Line → String
  | opening b => b.fullText ++ " \x7b"
  | rule r => r.indented indent
  | closing => "\x7d"
  | gap => ""

/-- The rule that a line shows. -/
def rule? : Line → Option Rule
  | rule r => some r
  | _ => none

end Line

/-- The lines of a block with what they show. -/
def Block.shown (b : Block) : List Line :=
  if b.rules.isEmpty then [] else .opening b :: (b.rules.map .rule ++ [.closing])

/-- The lines of a selector with what they show: those of its own block, and behind them those of
its pseudo-class blocks. -/
def Selector.shown (s : Selector) : List Line :=
  s.toBlock.shown ++ s.states.flatMap Block.shown

/-- The lines of a sheet with what they show. -/
def Sheet.shown (s : Sheet) : List Line :=
  List.intercalate (if s.layout.blankLines then [.gap] else [])
    ((s.selectors.map Selector.shown).filter fun part => !part.isEmpty)

theorem Block.map_text_shown (b : Block) (indent : Nat) :
    b.shown.map (Line.text indent) = b.lines indent := by
  unfold shown lines
  split
  · rfl
  · rw [List.map_cons, List.map_append, List.map_map]
    rfl

theorem Block.filterMap_shown (b : Block) : b.shown.filterMap Line.rule? = b.rules := by
  unfold shown
  split
  · rename_i hempty
    rw [List.isEmpty_iff.mp hempty]
    rfl
  · have hrules : (b.rules.map Line.rule).filterMap Line.rule? = b.rules := by
      rw [List.filterMap_map]
      exact List.filterMap_some
    have hends : ([.closing] : List Line).filterMap Line.rule? = [] := rfl
    rw [List.filterMap_cons_none rfl, List.filterMap_append, hrules, hends, List.append_nil]

namespace Selector

theorem shown_eq (s : Selector) : s.shown = s.blocks.flatMap Block.shown :=
  List.flatMap_cons.symm

theorem map_text_shown (s : Selector) (indent : Nat) :
    s.shown.map (Line.text indent) = s.lines indent := by
  rw [shown_eq, lines, List.map_flatMap]
  exact List.flatMap_congr fun b _ => b.map_text_shown indent

theorem filterMap_shown (s : Selector) : s.shown.filterMap Line.rule? = s.allRules := by
  rw [shown_eq, allRules_eq, List.filterMap_flatMap]
  exact List.flatMap_congr fun b _ => b.filterMap_shown

end Selector

namespace Sheet

/-- What is written in the lines is what the sheet has for lines. -/
theorem map_text_shown (s : Sheet) : s.shown.map (Line.text s.layout.indent) = s.lines := by
  have hgap : (if s.layout.blankLines then [Line.gap] else []).map (Line.text s.layout.indent) =
      if s.layout.blankLines then [""] else [] := by
    split <;> rfl
  have hempty : ((fun part : List String => !part.isEmpty) ∘
      List.map (Line.text s.layout.indent)) = fun part => !part.isEmpty := by
    funext part
    rw [Function.comp_apply, List.isEmpty_map]
  have hfilter : ∀ parts : List (List Line),
      (parts.filter fun part => !part.isEmpty).map (List.map (Line.text s.layout.indent)) =
        (parts.map (List.map (Line.text s.layout.indent))).filter fun part => !part.isEmpty := by
    intro parts
    rw [List.filter_map, hempty]
  have hlines : (s.selectors.map Selector.shown).map (List.map (Line.text s.layout.indent)) =
      s.selectors.map (·.lines s.layout.indent) := by
    rw [List.map_map]
    exact List.map_congr_left fun t _ => t.map_text_shown s.layout.indent
  rw [shown, map_intercalate, hgap, hfilter, hlines, lines_eq_parts]
  rfl

/-- The lines show every rule of every block once, in order. -/
theorem filterMap_shown (s : Sheet) : s.shown.filterMap Line.rule? = s.allRules := by
  have hgap : (if s.layout.blankLines then [Line.gap] else []).filterMap Line.rule? = [] := by
    split <;> rfl
  rw [shown, filterMap_intercalate hgap, List.flatten_filter_not_isEmpty, ← List.flatMap_def,
    List.filterMap_flatMap, allRules]
  exact List.flatMap_congr fun t _ => t.filterMap_shown

/-- **Verdicts and what is written.**  Sheets that differ in the verdicts on their rules only have
the same lines, the same text and the same display; they ask a writer for the same, and exporting
them comes to the same, whatever the writer is and wherever failures are reported.

The rules of a sheet that are not valid are listed once each in the order of the lines: every line
shows the end or the beginning of a block, a gap, or one rule; the rules shown are those of all
blocks of all selectors; and among these the list has the ones that are not valid. -/
theorem output_of_unjudged (s : Sheet) :
    (∀ t : Sheet, t.unjudged = s.unjudged →
        t.lines = s.lines ∧ t.text = s.text ∧ t.display = s.display ∧
        (∀ directory overwrite, t.request directory overwrite = s.request directory overwrite) ∧
        ∀ {m : Type → Type} [Monad m] (writer : Writer m) sink directory overwrite j,
          t.exportWith writer sink directory overwrite j =
            s.exportWith writer sink directory overwrite j) ∧
      s.shown.map (Line.text s.layout.indent) = s.lines ∧
      s.shown.filterMap Line.rule? = s.allRules ∧
      s.invalidRules = (s.shown.filterMap Line.rule?).filter fun r => !r.valid := by
  refine ⟨fun t h => ?_, s.map_text_shown, s.filterMap_shown, ?_⟩
  · have hname : t.name = s.name := congrArg (fun u => u.name) h
    have hlayout : t.layout = s.layout := congrArg (fun u => u.layout) h
    have hlines : t.lines = s.lines := by
      rw [← t.lines_unjudged, ← s.lines_unjudged, h]
    have hrequest : t.request = s.request := by
      funext directory overwrite
      rw [request, request, hlines, hname, hlayout]
    refine ⟨hlines, by rw [text, text, hlines], by rw [display, display, hlines],
      fun directory overwrite => by rw [hrequest], ?_⟩
    intro m _ writer sink directory overwrite j
    have hevent : t.exportedEvent = s.exportedEvent := by
      funext path
      rw [exportedEvent, exportedEvent, hname]
    have hreport : t.exportReport = s.exportReport := by
      funext e
      unfold exportReport
      rw [hname]
    rw [exportWith, exportWith, hrequest, hevent, hreport]
  · rw [invalidRules_eq, filterMap_shown, invalidAmong]

/-- A sheet with lengths that their properties do not allow, in the block of a selector and in that
of a pseudo-class, and a verdict on them. -/
def padded (valid : Bool) : Sheet :=
  { new "Card" with
    selectors := [{ Selector.new 1 ".card" with
      rules := [.withValidity .padding "auto" valid, .new .width "1px"]
      states := [⟨2, ".card", some .hover, [.withValidity .sliceScale "auto" valid]⟩] }] }

theorem output_of_unjudged_padded :
    (padded false).unjudged = (padded true).unjudged ∧
      (padded false).invalidRules =
        [.withValidity .padding "auto" false, .withValidity .sliceScale "auto" false] ∧
      (padded true).invalidRules = [] ∧ (padded false).text = (padded true).text := by
  have hsame : (padded false).unjudged = (padded true).unjudged := rfl
  obtain ⟨-, -, hrules, hinvalid⟩ := output_of_unjudged (padded false)
  obtain ⟨houtput, -⟩ := output_of_unjudged (padded true)
  obtain ⟨-, htext, -⟩ := houtput (padded false) hsame
  rw [hrules] at hinvalid
  exact ⟨hsame, hinvalid, rfl, htext⟩

end Sheet

end UiStyle
