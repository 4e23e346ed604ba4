import Mathlib.Data.List.Perm.Subperm
import UiStyle.Proofs.Manifest.Reload

/-!
# What loading reports

While a manifest is loaded, one rule is made for each pair, in order, and those that are not valid
are reported.  The sheet that comes out of it may hold fewer rules: of the rules that one map makes
under one name it keeps the last, in the place of the first.  So the reports and the invalid rules
of the sheet are two views of the same rules, compared here.

* The rules that are made are those of the contents (`Content.allRules`), whether they are read off
  the pairs or off the contents, because a pair makes one rule only (`MakesRule.unique`).
* The selector of some content keeps some of them (`Content.allRules_number`, `lastOfEach_subperm`),
  so no invalid rule of the sheet has gone unreported.
* It keeps all of them, in order, if no two keys of a map stand for one name
  (`allRules_number_of_nodup`).  Which name a key stands for is told by the key alone
  (`declaredName`).
-/

namespace UiStyle

/-! ### The rules of a pair -/

/-- The name that the rule of a key has: of a custom property the name without its marks behind one
mark, and else the name itself. -/
def declaredName (key : String) : String :=
  if Property.isCustomName (Text.trimmed key) then
    Property.customMark ++ .ofList (Rule.stripMarks (Text.trim key.toList))
  else Text.trimmed key

/-- A key stands for a registered property if it is the name of this property. -/
theorem declaredName_eq_name_iff {p : Property} (hp : p ∈ Property.registered) {key : String} :
    declaredName key = p.name ↔ Text.trimmed key = p.name := by
  have hcustom := Property.isCustomName_eq_false hp
  unfold declaredName
  split
  · rename_i hkey
    refine iff_of_false (fun hname => ?_) (fun hname => ?_)
    · rw [← hname, Property.isCustomName, String.toList_append] at hcustom
      cases hcustom
    · rw [hname, hcustom] at hkey
      cases hkey
  · exact Iff.rfl

theorem MakesRule.name_eq {pair : String × Json} {r : Rule} (h : MakesRule pair r) :
    r.name = declaredName pair.1 := by
  obtain ⟨d, hd, rfl⟩ := h
  unfold declaredName
  cases hd with
  | custom _ hkey =>
      rw [if_pos hkey]
      rfl
  | registered _ hkey _ hname =>
      rw [if_neg (by simp [hkey]), ← hname]
      rfl

theorem MakesRule.unique {pair : String × Json} {r r' : Rule} (h : MakesRule pair r)
    (h' : MakesRule pair r') : r = r' := by
  obtain ⟨d, hd, rfl⟩ := h
  obtain ⟨d', hd', rfl⟩ := h'
  rw [hd.unique hd']

theorem ruleNames_of_makesRule {pairs : List (String × Json)} {rules : List Rule}
    (h : List.Forall₂ MakesRule pairs rules) :
    ruleNames rules = (Json.keys pairs).map declaredName := by
  induction h with
  | nil => rfl
  | cons hmakes _ ih =>
      unfold Json.keys at ih ⊢
      rw [ruleNames_cons, ih, hmakes.name_eq]
      rfl

/-- No two keys of a map of an entry stand for one name. -/
structure Entry.DistinctNames (e : Entry) : Prop where
  rules : ((Json.keys e.rules).map declaredName).Nodup
  states : ∀ state ∈ e.states, ((Json.keys state.2.pairs).map declaredName).Nodup

/-- No two keys of a map of a manifest stand for one name. -/
def Manifest.DistinctNames (m : Manifest) : Prop :=
  ∀ e ∈ m.entries, e.DistinctNames

/-! ### The rules that are kept -/

/-- Of some rules, the last of each name are some. -/
theorem lastOfEach_subperm (rules : List Rule) : (lastOfEach rules).Subperm rules := by
  have hnodup : (ruleNames (lastOfEach rules)).Nodup := by
    rw [← foldl_insertRule]
    exact nodup_ruleNames_foldl_insertRule rules
  refine List.subperm_of_subset (hnodup.of_map _) ?_
  intro r hr
  obtain ⟨name, -, hfind⟩ := List.mem_filterMap.mp hr
  exact List.mem_reverse.mp (List.mem_of_find?_eq_some hfind)

namespace Content

/-- The rules of some content, those of its pseudo-classes last. -/
def allRules (c : Content) : List Rule :=
  c.rules ++ c.states.flatMap Prod.snd

theorem flatMap_stateBlocks (text : String) (next : Nat)
    (states : List (PseudoClass × List Rule)) :
    (stateBlocks text next states).flatMap Block.rules =
      states.flatMap fun state => lastOfEach state.2 := by
  induction states generalizing next with
  | nil => rfl
  | cons state states ih =>
      rw [stateBlocks, List.flatMap_cons, ih, List.flatMap_cons]

/-- In each block of its selector, some content keeps the last rules. -/
theorem allRules_number {c : Content} (hdistinct : (c.states.map Prod.fst).Nodup) (next : Nat) :
    (c.number next).1.allRules =
      lastOfEach c.rules ++ c.states.flatMap fun state => lastOfEach state.2 := by
  rw [number_eq hdistinct, ← flatMap_stateBlocks (Text.trimmed c.text) (next + 1)]
  rfl

theorem allRules_number_subperm {c : Content} (hdistinct : (c.states.map Prod.fst).Nodup)
    (next : Nat) : (c.number next).1.allRules.Subperm c.allRules := by
  have hstates : (c.states.flatMap fun state => lastOfEach state.2).Subperm
      (c.states.flatMap Prod.snd) := by
    clear hdistinct
    induction c.states with
    | nil => exact List.Subperm.refl _
    | cons state states ih => exact (lastOfEach_subperm state.2).append ih
  rw [allRules_number hdistinct]
  exact (lastOfEach_subperm c.rules).append hstates

/-- Nothing is lost where no name comes twice. -/
theorem allRules_number_of_nodup {c : Content} (hdistinct : (c.states.map Prod.fst).Nodup)
    (hrules : (ruleNames c.rules).Nodup)
    (hstates : ∀ state ∈ c.states, (ruleNames state.2).Nodup) (next : Nat) :
    (c.number next).1.allRules = c.allRules := by
  rw [allRules_number hdistinct, lastOfEach_eq_self hrules, allRules]
  congr 1
  exact List.flatMap_congr fun state hstate => lastOfEach_eq_self (hstates state hstate)

end Content

theorem MakesState.makesRules {state : String × Json} {made : PseudoClass × List Rule}
    (h : MakesState state made) : List.Forall₂ MakesRule state.2.pairs made.2 := by
  obtain ⟨-, pairs, hvalue, hrules⟩ := h
  rw [hvalue]
  exact hrules

namespace MakesContent

variable {e : Entry} {c : Content}

/-- The pairs of an entry make the rules of its content, in order. -/
theorem makesRules (h : MakesContent e c) : List.Forall₂ MakesRule e.pairs c.allRules :=
  List.rel_append h.rules (List.rel_flatMap h.states fun _ _ hstate => hstate.makesRules)

theorem nodup_states (h : MakesContent e c) (hkeys : e.DistinctKeys) :
    (c.states.map Prod.fst).Nodup :=
  nodup_of_makesState h.states hkeys.states

/-- Where no two keys stand for one name, the selector has all rules that were made. -/
theorem allRules_number (h : MakesContent e c) (hkeys : e.DistinctKeys) (hnames : e.DistinctNames)
    (next : Nat) : (c.number next).1.allRules = c.allRules := by
  apply Content.allRules_number_of_nodup (h.nodup_states hkeys)
  · rw [ruleNames_of_makesRule h.rules]
    exact hnames.rules
  · intro made hmade
    obtain ⟨state, hstate, hmakes⟩ := exists_of_forall₂ h.states made hmade
    rw [ruleNames_of_makesRule hmakes.makesRules]
    exact hnames.states state hstate

end MakesContent

/-! ### The rules of a sheet -/

/-- The contents of a manifest have the rules that its pairs make, in order. -/
theorem makesRules_of_makesContent {entries : List Entry} {contents : List Content}
    (h : List.Forall₂ MakesContent entries contents) :
    List.Forall₂ MakesRule (entries.flatMap Entry.pairs) (contents.flatMap Content.allRules) :=
  List.rel_flatMap h fun _ _ hc => hc.makesRules

/-- Selectors keep some of the rules that were made, and all of them, in order, where no two keys
stand for one name. -/
theorem allRules_of_numbered {entries : List Entry} {contents : List Content}
    {selectors : List Selector} (hcontents : List.Forall₂ MakesContent entries contents)
    (hnumbered : List.Forall₂ (fun c t => ∃ next, (c.number next).1 = t) contents selectors)
    (hkeys : ∀ e ∈ entries, e.DistinctKeys) :
    (selectors.flatMap Selector.allRules).Subperm (contents.flatMap Content.allRules) ∧
      ((∀ e ∈ entries, e.DistinctNames) →
        selectors.flatMap Selector.allRules = contents.flatMap Content.allRules) := by
  -- along entries, contents and selectors at once; each selector stands for one entry
  induction hcontents generalizing selectors with
  | nil =>
      cases hnumbered
      exact ⟨List.Subperm.refl _, fun _ => rfl⟩
  | cons hc _ ih =>
      obtain ⟨he, hkeys⟩ := List.forall_mem_cons.mp hkeys
      cases hnumbered with
      | cons ht hnumbered =>
          obtain ⟨next, rfl⟩ := ht
          obtain ⟨hsome, hevery⟩ := ih hnumbered hkeys
          have hkept := Content.allRules_number_subperm (hc.nodup_states he) next
          refine ⟨hkept.append hsome, fun hnames => ?_⟩
          obtain ⟨hnamed, hnames⟩ := List.forall_mem_cons.mp hnames
          rw [List.flatMap_cons, List.flatMap_cons, hc.allRules_number he hnamed next,
            hevery hnames]

/-- The declarations of pairs have the rules that the pairs make. -/
theorem map_rule_of_declares {pairs : List (String × Json)} {built : List Declaration}
    {rules : List Rule} (hbuilt : List.Forall₂ Declares pairs built)
    (hrules : List.Forall₂ MakesRule pairs rules) : built.map Declaration.rule = rules := by
  have hmade : List.Forall₂ MakesRule pairs (built.map Declaration.rule) := by
    rw [List.forall₂_map_right_iff]
    exact hbuilt.imp fun pair d hd => ⟨d, hd, rfl⟩
  exact List.right_unique_forall₂' (fun _ _ _ h h' => h.unique h') hmade hrules

namespace Manifest

variable {m : Manifest} {layout : Layout} {next next' : Nat} {s : Sheet}

/-- A manifest that loads makes a declaration of each pair and reports what is wrong with them. -/
theorem built_of_load (h : (m.load layout next).result = .ok (s, next')) :
    ∃ built, List.Forall₂ Declares (m.entries.flatMap Entry.pairs) built ∧
      (m.load layout next).reports = built.filterMap Declaration.violation? := by
  cases m.goesThrough_load layout next with
  | stopped _ _ _ _ hstopped =>
      rw [hstopped] at h
      cases h
  | @passed built _ _ hbuilt hpassed =>
      -- with all checks passed, every pair has made its declaration
      rw [filterMap_checks] at hbuilt
      exact ⟨built, hbuilt, by rw [hpassed]⟩

/-- The sheet has some of the rules that were made, and all of them in order if no two keys stand
for one name. -/
theorem allRules_of_load (hm : m.DistinctKeys) (h : (m.load layout next).result = .ok (s, next'))
    {built : List Declaration}
    (hbuilt : List.Forall₂ Declares (m.entries.flatMap Entry.pairs) built) :
    s.allRules.Subperm (built.map Declaration.rule) ∧
      (m.DistinctNames → s.allRules = built.map Declaration.rule) := by
  obtain ⟨contents, selectors, hcontents, hs, hnumbered⟩ := selectors_of_load h
  obtain rfl : s = ⟨m.name, selectors, none, layout⟩ := hs
  have hmakes := result_contents_eq_ok.mp hcontents
  rw [map_rule_of_declares hbuilt (makesRules_of_makesContent hmakes)]
  exact allRules_of_numbered hmakes hnumbered hm

theorem invalidAmong_map_rule (built : List Declaration) :
    invalidAmong (built.map Declaration.rule) =
      (built.filter fun d => !d.rule.valid).map Declaration.rule := by
  rw [invalidAmong, List.filter_map]
  rfl

/-- **Reports and invalid rules.**  A manifest that loads makes a declaration of each pair, entry by
entry and in an entry the rules before the pseudo-classes.  A sink in memory gains one message for
each of them whose rule is not valid, in this order.  So there are at least as many messages as
invalid rules in the sheet; and if in no map two keys stand for one name, these are the rules that
the messages are about, one by one. -/
theorem reports_of_load (hm : m.DistinctKeys)
    (h : (m.load layout next).result = .ok (s, next')) :
    ∃ built violations, List.Forall₂ Declares (m.entries.flatMap Entry.pairs) built ∧
      List.Forall₂ (fun d v => d.violation? = some v) (built.filter fun d => !d.rule.valid)
        violations ∧
      (∀ j : Journal, j.reportAll .memory ((m.load layout next).reports.map Violation.message) =
        { j with reports := j.reports ++ violations.map Violation.message }) ∧
      s.invalidRules.length ≤ violations.length ∧
      (m.DistinctNames →
        s.invalidRules = (built.filter fun d => !d.rule.valid).map Declaration.rule) := by
  obtain ⟨built, hbuilt, hreports⟩ := built_of_load h
  obtain ⟨hsome, hevery⟩ := allRules_of_load hm h hbuilt
  have hviolations := violations_of_built built
  refine ⟨built, _, hbuilt, hviolations, fun j => ?_, ?_, fun hnames => ?_⟩
  · rw [hreports]
    exact j.reportAll_memory _
  · have hkept : (invalidAmong s.allRules).Subperm (invalidAmong (built.map Declaration.rule)) :=
      hsome.filter fun r : Rule => !r.valid
    calc s.invalidRules.length
        = (invalidAmong s.allRules).length := by rw [s.invalidRules_eq]
      _ ≤ (invalidAmong (built.map Declaration.rule)).length := hkept.length_le
      _ = (built.filter fun d => !d.rule.valid).length := by
          rw [invalidAmong_map_rule, List.length_map]
      _ = (built.filterMap Declaration.violation?).length := hviolations.length_eq
  · rw [s.invalidRules_eq, hevery hnames, invalidAmong_map_rule]

theorem reports_of_load_untidy :
    untidy.DistinctKeys ∧ untidy.DistinctNames ∧
      (untidy.load {} 1).result = .ok (Sheet.tidy, 3) ∧
      ∃ (built : List Declaration) (violations : List Violation),
        List.Forall₂ Declares (untidy.entries.flatMap Entry.pairs) built ∧
        Sheet.tidy.invalidRules = (built.filter fun d => !d.rule.valid).map Declaration.rule ∧
        violations.length = 2 ∧
        (Journal.reportAll .memory ((untidy.load {} 1).reports.map Violation.message) {}).reports =
          violations.map Violation.message := by
  have hkeys : untidy.DistinctKeys := by
    intro e he
    rw [List.mem_singleton.mp he]
    exact ⟨by decide, by decide⟩
  have hnames : untidy.DistinctNames := by
    intro e he
    rw [List.mem_singleton.mp he]
    exact ⟨by decide, by decide⟩
  have hload : (untidy.load {} 1).result = .ok (Sheet.tidy, 3) := by rfl
  obtain ⟨built, violations, hbuilt, hviolations, hsent, -, hinvalid⟩ :=
    reports_of_load hkeys hload
  have hlength := hviolations.length_eq
  rw [← List.length_map Declaration.rule, ← hinvalid hnames] at hlength
  exact ⟨hkeys, hnames, hload, built, violations, hbuilt, hinvalid hnames, hlength.symm,
    congrArg Journal.reports (hsent {})⟩

/-! A rule that is not valid and one that has no name, each with a rule of its name behind it. -/

example :
    let m : Manifest := ⟨"Card", [⟨".card",
      [("--", .string "1px"), ("padding", .string "auto"), (" padding ", .string "4px"),
        ("----", .string "2px")], []⟩]⟩
    (m.load {} 1).reports = [.unnamed, .autoForbidden .padding, .unnamed] ∧
      (m.load {} 1).result.toOption.map (fun made => made.1.invalidRules) =
        some [⟨"--", .custom, "2px", false⟩] := by
  exact ⟨rfl, rfl⟩

end Manifest

end UiStyle
