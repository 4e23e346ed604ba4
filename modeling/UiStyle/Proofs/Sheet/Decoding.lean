import UiStyle.Proofs.Rule.Text
import UiStyle.Proofs.Sheet.Spacing

/-!
# Reading a sheet back

The lines of a sheet say all there is to say about its blocks: `decodeLines` recovers, from the
lines and the number of spaces in front of each rule, the text of every block that has rules and the
texts of these rules, in order.  No assumption is made about what stands in the texts.  A selector
may be named `}`, a value may end in ` {` and rules may start with spaces, because a line is
understood by where it stands:

* outside of a block, an empty line separates and any other line opens a block;
* inside a block, the line `}` closes it and any other line is a rule.

An opening line ends in a brace, so it is not empty, and the line of a rule ends in a semicolon, so
it is not `}`.  `read_lines` is the step for one block with any lines behind it; the blocks of a
selector and the selectors of a sheet follow by induction.

With empty lines between selectors the answer is grouped by selector (`decode_of_blankLines`),
without them it is one group (`decode_of_not_blankLines`).  If no text holds a line end, the text of
a sheet falls apart into its lines again (`decode_linesOf_text`).
-/

namespace UiStyle

/-- What there is to read of a block: its text and the texts of its rules. -/
structure WrittenBlock where
  text : String
  rules : List String
  deriving DecidableEq

/-- What a pseudo-class adds to a selector text. -/
def PseudoClass.suffix (p : PseudoClass) : String := ":" ++ p.toKeyword

/-- A block as it can be read, nothing if it has no rules. -/
def Block.written (b : Block) : List WrittenBlock :=
  if b.rules.isEmpty then []
  else [⟨b.text ++ b.pseudoClass.elim "" PseudoClass.suffix, b.rules.map Rule.text⟩]

/-- The blocks of a selector as they can be read: its own, and behind it those of its
pseudo-classes. -/
def Selector.written (s : Selector) : List WrittenBlock :=
  s.toBlock.written ++ s.states.flatMap Block.written

/-- The blocks of a sheet as they can be read. -/
def Sheet.written (s : Sheet) : List WrittenBlock :=
  s.selectors.flatMap Selector.written

/-- The blocks of a sheet as they can be read, selector by selector. -/
def Sheet.writtenGroups (s : Sheet) : List (List WrittenBlock) :=
  (s.selectors.map Selector.written).filter fun group => !group.isEmpty

theorem Block.fullText_eq (b : Block) :
    b.fullText = b.text ++ b.pseudoClass.elim "" PseudoClass.suffix := by
  unfold fullText PseudoClass.suffix
  cases b.pseudoClass with
  | none => exact String.append_empty.symm
  | some p => exact String.append_assoc

theorem Selector.written_eq (s : Selector) : s.written = s.blocks.flatMap Block.written :=
  List.flatMap_cons.symm

/-! ### The decoder -/

namespace Decoder

/-- The text of a block in its opening line, which has a space and a brace behind it. -/
def headText (line : String) : String :=
  .ofList line.toList.dropLast.dropLast

/-- The text of a rule in its line, in front of which `strip` takes off spaces. -/
def ruleText (strip : List Char → List Char) (line : String) : String :=
  .ofList (strip line.toList)

/-- The groups of blocks in some lines, if `pending` is the block that is open in front of them. -/
def read (strip : List Char → List Char) :
    Option WrittenBlock → List String → List (List WrittenBlock)
  | _, [] => [[]]
  | none, line :: rest =>
    if line = "" then [] :: read strip none rest
    else read strip (some ⟨headText line, []⟩) rest
  | some b, line :: rest =>
    if line = "\x7d" then (read strip none rest).modifyHead (b :: ·)
    else read strip (some ⟨b.text, b.rules ++ [ruleText strip line]⟩) rest

/-- The groups of blocks in the lines of a sheet. -/
def decode (strip : List Char → List Char) (lines : List String) : List (List WrittenBlock) :=
  (read strip none lines).filter fun group => !group.isEmpty

/-- The groups of blocks in lines in which `indent` spaces stand in front of each rule. -/
def decodeLines (indent : Nat) (lines : List String) : List (List WrittenBlock) :=
  decode (List.drop indent) lines

/-- The groups of blocks in lines in which an unknown number of spaces stands in front of each
rule. -/
def decodeUnindented (lines : List String) : List (List WrittenBlock) :=
  decode (List.dropWhile (· == ' ')) lines

/-- The lines of a text. -/
def linesOf (text : String) : List String :=
  (text.toList.splitOn '\n').map String.ofList

/-- `strip` takes off what stands in front of a rule behind `indent` spaces. -/
def Strips (strip : List Char → List Char) (indent : Nat) (r : Rule) : Prop :=
  strip (r.indented indent).toList = r.text.toList

variable {strip : List Char → List Char} {indent : Nat}

theorem strips_drop (indent : Nat) (r : Rule) : Strips (List.drop indent) indent r := by
  rw [Strips, Rule.toList_indented, List.drop_left' (List.length_replicate ..)]

/-- In front of a rule that can be made, the spaces are told from the rule. -/
theorem strips_dropWhile {r : Rule} (h : r.Built) (indent : Nat) :
    Strips (List.dropWhile (· == ' ')) indent r := by
  obtain ⟨c, hc, hspace⟩ := h.head?_text
  obtain ⟨rest, hrest⟩ := List.head?_eq_some_iff.mp hc
  rw [Strips, Rule.toList_indented, hrest, List.dropWhile_append_of_pos (by simp),
    List.dropWhile_cons_of_neg (by simpa using hspace)]

/-! ### One block -/

theorem modifyHead_nil_append (groups : List (List WrittenBlock)) :
    groups.modifyHead ([] ++ ·) = groups := by
  cases groups <;> rfl

theorem headText_append (text : String) : headText (text ++ " \x7b") = text := by
  simp [headText, String.toList_append]

theorem indented_ne_brace (r : Rule) (indent : Nat) : r.indented indent ≠ "\x7d" := by
  intro h
  have hlast := r.getLast?_indented indent
  rw [h] at hlast
  cases hlast

/-- The lines up to a closing brace are the rules of the block that is open. -/
theorem read_rules (b : WrittenBlock) {rules : List String} (h : "\x7d" ∉ rules)
    (rest : List String) :
    read strip (some b) (rules ++ "\x7d" :: rest) =
      (read strip none rest).modifyHead
        (⟨b.text, b.rules ++ rules.map (ruleText strip)⟩ :: ·) := by
  induction rules generalizing b with
  | nil => simp [read]
  | cons line rules ih =>
      obtain ⟨hline, hrules⟩ := not_or.mp (mt List.mem_cons.mpr h)
      rw [List.cons_append, read, if_neg (Ne.symm hline), ih _ hrules]
      simp

/-- A block in front of other lines is read first. -/
theorem read_lines {b : Block} (h : ∀ r ∈ b.rules, Strips strip indent r) (rest : List String) :
    read strip none (b.lines indent ++ rest) =
      (read strip none rest).modifyHead (b.written ++ ·) := by
  unfold Block.lines Block.written
  by_cases hrules : b.rules.isEmpty = true
  · rw [if_pos hrules, if_pos hrules, List.nil_append, modifyHead_nil_append]
  · have hhead : b.fullText ++ " \x7b" ≠ "" := by simp
    have hbrace : "\x7d" ∉ b.rules.map (·.indented indent) := by
      intro hmem
      obtain ⟨r, -, hr⟩ := List.mem_map.mp hmem
      exact indented_ne_brace r indent hr
    have htexts : (b.rules.map (·.indented indent)).map (ruleText strip) =
        b.rules.map Rule.text := by
      rw [List.map_map]
      apply List.map_congr_left
      intro r hr
      rw [Function.comp_apply, ruleText, h r hr, String.ofList_toList]
    rw [if_neg hrules, if_neg hrules, List.cons_append, List.append_assoc, read, if_neg hhead,
      List.singleton_append, read_rules _ hbrace, htexts, headText_append, b.fullText_eq]
    rfl

/-- Blocks in front of other lines are read in order. -/
theorem read_flatMap_lines {blocks : List Block}
    (h : ∀ b ∈ blocks, ∀ r ∈ b.rules, Strips strip indent r) (rest : List String) :
    read strip none (blocks.flatMap (·.lines indent) ++ rest) =
      (read strip none rest).modifyHead (blocks.flatMap Block.written ++ ·) := by
  induction blocks with
  | nil => exact (modifyHead_nil_append _).symm
  | cons b blocks ih =>
      obtain ⟨hb, hblocks⟩ := List.forall_mem_cons.mp h
      rw [List.flatMap_cons, List.append_assoc, read_lines hb, ih hblocks]
      simp [List.modifyHead_modifyHead, Function.comp_def]

/-! ### A sheet -/

/-- A selector has lines if there is something to read of it. -/
theorem lines_isEmpty (s : Selector) (indent : Nat) :
    (s.lines indent).isEmpty = s.written.isEmpty := by
  have hblock : ∀ b : Block, b.lines indent = [] ↔ b.written = [] := by
    intro b
    unfold Block.lines Block.written
    split <;> simp
  rw [Bool.eq_iff_iff, List.isEmpty_iff, List.isEmpty_iff, Selector.lines, s.written_eq,
    List.flatMap_eq_nil_iff, List.flatMap_eq_nil_iff]
  simp only [hblock]

/-- Every rule of some selectors has its spaces taken off by `strip`. -/
def StripsAll (strip : List Char → List Char) (indent : Nat) (selectors : List Selector) : Prop :=
  ∀ s ∈ selectors, ∀ b ∈ s.blocks, ∀ r ∈ b.rules, Strips strip indent r

/-- The blocks of a selector in front of other lines are read first. -/
theorem read_selector {s : Selector} (h : ∀ b ∈ s.blocks, ∀ r ∈ b.rules, Strips strip indent r)
    (rest : List String) :
    read strip none (s.lines indent ++ rest) =
      (read strip none rest).modifyHead (s.written ++ ·) := by
  rw [s.written_eq]
  exact read_flatMap_lines h rest

/-- Without empty lines, the blocks of all selectors are read as one group. -/
theorem read_flatten {selectors : List Selector} (h : StripsAll strip indent selectors) :
    read strip none (selectors.flatMap (·.lines indent)) =
      [selectors.flatMap Selector.written] := by
  induction selectors with
  | nil => rfl
  | cons s selectors ih =>
      obtain ⟨hs, hselectors⟩ := List.forall_mem_cons.mp h
      rw [List.flatMap_cons, read_selector hs, ih hselectors]
      rfl

/-- With an empty line between two selectors that have lines, each of these is read as a group. -/
theorem decode_intercalate {selectors : List Selector} (h : StripsAll strip indent selectors) :
    decode strip (List.intercalate [""]
        ((selectors.map (·.lines indent)).filter fun part => !part.isEmpty)) =
      (selectors.map Selector.written).filter fun group => !group.isEmpty := by
  induction selectors with
  | nil => rfl
  | cons s selectors ih =>
      obtain ⟨hs, hselectors⟩ := List.forall_mem_cons.mp h
      specialize ih hselectors
      by_cases hempty : s.written.isEmpty = true
      · have hlines : (s.lines indent).isEmpty = true := by rw [lines_isEmpty, hempty]
        simpa [hlines, hempty] using ih
      · have hlines : ¬ (s.lines indent).isEmpty = true := by rwa [lines_isEmpty]
        rw [List.map_cons, List.filter_cons_of_pos (by simpa using hlines), List.map_cons,
          List.filter_cons_of_pos (by simpa using hempty), ← ih]
        generalize (selectors.map (·.lines indent)).filter _ = parts
        cases parts with
        | nil =>
            have hread := read_selector hs []
            rw [List.append_nil] at hread
            rw [List.intercalate_singleton, decode, hread]
            simp [decode, read, hempty]
        | cons part parts =>
            rw [List.intercalate_cons_cons, List.append_assoc, decode, read_selector hs,
              List.singleton_append, read, if_pos rfl, List.modifyHead_cons, List.append_nil,
              List.filter_cons_of_pos (by simpa using hempty)]
            rfl

end Decoder

namespace Sheet

open Decoder

variable {strip : List Char → List Char}

theorem decode_of_blankLines {s : Sheet} (hblank : s.layout.blankLines = true)
    (h : StripsAll strip s.layout.indent s.selectors) : decode strip s.lines = s.writtenGroups := by
  rw [lines_eq_parts, Layout.separator, if_pos hblank]
  exact decode_intercalate h

theorem decode_of_not_blankLines {s : Sheet} (hblank : s.layout.blankLines = false)
    (h : StripsAll strip s.layout.indent s.selectors) :
    decode strip s.lines = [s.written].filter fun group => !group.isEmpty := by
  have hlines : s.lines = s.selectors.flatMap (·.lines s.layout.indent) := by
    rw [lines_eq_parts, Layout.separator, hblank, List.flatMap_def,
      ← List.flatten_filter_not_isEmpty]
    exact intercalate_nil_left _
  rw [hlines, decode, read_flatten h]
  rfl

/-- Whatever the layout, the blocks of a sheet are read in order. -/
theorem flatten_decode {s : Sheet} (h : StripsAll strip s.layout.indent s.selectors) :
    (decode strip s.lines).flatten = s.written := by
  cases hblank : s.layout.blankLines with
  | true =>
      rw [decode_of_blankLines hblank h, writtenGroups, List.flatten_filter_not_isEmpty, written,
        List.flatMap_def]
  | false =>
      rw [decode_of_not_blankLines hblank h, List.flatten_filter_not_isEmpty]
      simp

/-- What is read does not depend on how the spaces in front of rules are taken off. -/
theorem decode_eq {s : Sheet} {other : List Char → List Char}
    (h : StripsAll strip s.layout.indent s.selectors)
    (hother : StripsAll other s.layout.indent s.selectors) :
    decode strip s.lines = decode other s.lines := by
  cases hblank : s.layout.blankLines with
  | true => rw [decode_of_blankLines hblank h, decode_of_blankLines hblank hother]
  | false => rw [decode_of_not_blankLines hblank h, decode_of_not_blankLines hblank hother]

/-! ### The text of a sheet -/

/-- No selector text, no name and no value holds a line end. -/
def LineFree (s : Sheet) : Prop :=
  ∀ t ∈ s.selectors, ∀ b ∈ t.toBlock :: t.states, '\n' ∉ b.text.toList ∧
    ∀ r ∈ b.rules, '\n' ∉ r.name.toList ∧ '\n' ∉ r.value.toList

end Sheet

theorem KeywordSet.newline_notMem {α : Type} [KeywordSet α] (a : α) :
    '\n' ∉ (keyword a).toList := by
  intro h
  have hblank := (KeywordSet.oneWord a).2 _ h
  exact absurd hblank (by decide)

theorem Block.newline_notMem_fullText {b : Block} (h : '\n' ∉ b.text.toList) :
    '\n' ∉ b.fullText.toList := by
  unfold Block.fullText
  split
  · rename_i p _
    have hkeyword : '\n' ∉ p.toKeyword.toList := KeywordSet.newline_notMem p
    simp [String.toList_append, h, hkeyword]
  · exact h

theorem Block.newline_notMem_lines {b : Block} {indent : Nat} (h : '\n' ∉ b.text.toList)
    (hrules : ∀ r ∈ b.rules, '\n' ∉ r.name.toList ∧ '\n' ∉ r.value.toList) :
    ∀ line ∈ b.lines indent, '\n' ∉ line.toList := by
  unfold Block.lines
  split
  · simp
  · intro line hline
    rcases List.mem_cons.mp hline with rfl | hline
    · simp [String.toList_append, newline_notMem_fullText h]
    · rcases List.mem_append.mp hline with hline | hline
      · obtain ⟨r, hr, rfl⟩ := List.mem_map.mp hline
        obtain ⟨hname, hvalue⟩ := hrules r hr
        simp [Rule.toList_indented, Rule.toList_text, hname, hvalue]
      · rw [List.mem_singleton.mp hline]
        decide

namespace Sheet

open Decoder

/-- Without line ends in its texts, the lines of a sheet have none. -/
theorem newline_notMem_lines {s : Sheet} (h : s.LineFree) :
    ∀ line ∈ s.lines, '\n' ∉ line.toList := by
  intro line hline
  rw [lines_eq_parts] at hline
  rcases mem_or_mem_of_mem_intercalate hline with hline | ⟨part, hpart, hline⟩
  · have hempty : line = "" := by
      unfold Layout.separator at hline
      split at hline
      · exact List.mem_singleton.mp hline
      · cases hline
    rw [hempty]
    decide
  · obtain ⟨t, ht, rfl⟩ := List.mem_map.mp (List.mem_of_mem_filter hpart)
    obtain ⟨b, hb, hline⟩ := List.mem_flatMap.mp hline
    obtain ⟨htext, hrules⟩ := h t ht b hb
    exact Block.newline_notMem_lines htext hrules line hline

/-- A text without other line ends falls apart into its lines. -/
theorem decode_linesOf_text {s : Sheet} (h : s.LineFree) (strip : List Char → List Char) :
    decode strip (linesOf s.text) = decode strip s.lines := by
  by_cases hnil : s.lines = []
  · rw [text, hnil]
    rfl
  · have hmap : s.lines.map String.toList ≠ [] := by simpa using hnil
    have hfree : ∀ cs ∈ s.lines.map String.toList, '\n' ∉ cs := by
      intro cs hcs
      obtain ⟨line, hline, rfl⟩ := List.mem_map.mp hcs
      exact newline_notMem_lines h line hline
    have hlines : linesOf s.text = s.lines := by
      have hsplit : s.text.toList.splitOn '\n' = s.lines.map String.toList := by
        rw [text, String.toList_intercalate]
        exact List.splitOn_intercalate '\n' hfree hmap
      rw [linesOf, hsplit, List.map_map]
      simp
    rw [hlines]

/-- **A sheet can be read back.**  From the lines of a sheet and the number of spaces in front of
rules

* the blocks that have rules are recovered in order, each with its text and the texts of its rules;
* with empty lines, also which of them belong to one selector;
* from the line of a rule its name and its value, if the name holds no colon with a space behind it
  or is that of a property.

If no selector text, name or value holds a line end, the text of the sheet does in place of its
lines, and for rules that can be made the number of spaces is not needed either. -/
theorem decodeLines_lines (s : Sheet) :
    (decodeLines s.layout.indent s.lines).flatten = s.written ∧
      (s.layout.blankLines = true → decodeLines s.layout.indent s.lines = s.writtenGroups) ∧
      (∀ r : Rule, (¬ [':', ' '] <:+: r.name.toList ∨ ∃ p : Property, r.name = p.name) →
        Rule.ofLine? s.layout.indent (r.indented s.layout.indent) = some (r.name, r.value)) ∧
      (s.LineFree →
        decodeLines s.layout.indent (linesOf s.text) = decodeLines s.layout.indent s.lines ∧
        ((∀ t ∈ s.selectors, ∀ b ∈ t.toBlock :: t.states, ∀ r ∈ b.rules, r.Built) →
          decodeUnindented (linesOf s.text) = decodeLines s.layout.indent s.lines)) := by
  have hstrips : StripsAll (List.drop s.layout.indent) s.layout.indent s.selectors :=
    fun _ _ _ _ r _ => strips_drop s.layout.indent r
  refine ⟨flatten_decode hstrips, fun hblank => decode_of_blankLines hblank hstrips, ?_, ?_⟩
  · intro r hr
    apply Rule.ofLine?_indented
    rcases hr with hr | ⟨p, hp⟩
    · exact hr
    · rw [hp]
      exact p.not_mark_infix_name
  · intro hfree
    refine ⟨decode_linesOf_text hfree _, fun hbuilt => ?_⟩
    have hunindented : StripsAll (List.dropWhile (· == ' ')) s.layout.indent s.selectors :=
      fun t ht b hb r hr => strips_dropWhile (hbuilt t ht b hb r hr) s.layout.indent
    rw [decodeUnindented, decode_linesOf_text hfree, decode_eq hunindented hstrips]
    rfl

/-! A selector that is a closing brace, with a value that is an opening one. -/

example : decodeLines 2 ["\x7d \x7b", "  --x: \x7b;", "\x7d"] = [[⟨"\x7d", ["--x: \x7b;"]⟩]] := by
  decide +kernel

end Sheet

end UiStyle
