import UiStyle.Proofs.Manifest.Offences
import UiStyle.Proofs.Manifest.Settled
import UiStyle.Proofs.Sheet.WellFormed

/-!
# Loading a sheet again

A sheet can be written as a manifest: its selector texts, each rule as a pair of its name and its
value, each block of a pseudo-class under the keyword (`Sheet.manifest`).  If the sheet was loaded,
loading this manifest gives the sheet again but for its identities, and reports once more what is
wrong with each invalid rule (`Manifest.reload_of_load`).

All selectors of the sheet are settled.  So the content of each entry is what the selector holds
(`makesContent_entry`), and numbering makes the selector of it because no name and no pseudo-class
occurs twice there (`withoutIds_number`).  The reports are those of the declarations that the pairs
make, and a pair of a settled rule makes only this rule (`Rule.IsSettled.rule_eq`).
-/

namespace UiStyle

/-! ### Sheets without identities -/

def Block.withoutId (b : Block) : Block := { b with id := 0 }

/-- A selector that does not say which one it is. -/
def Selector.withoutIds (s : Selector) : Selector :=
  { s with id := 0, states := s.states.map Block.withoutId }

def Sheet.withoutIds (s : Sheet) : Sheet :=
  { s with selectors := s.selectors.map Selector.withoutIds }

theorem Selector.blocks_withoutIds (s : Selector) :
    s.withoutIds.blocks = s.blocks.map Block.withoutId := rfl

theorem Selector.lines_withoutIds (s : Selector) (indent : Nat) :
    s.withoutIds.lines indent = s.lines indent := by
  rw [lines, blocks_withoutIds, List.flatMap_map]
  rfl

theorem Sheet.lines_withoutIds (s : Sheet) : s.withoutIds.lines = s.lines := by
  refine lines_congr rfl ?_
  rw [withoutIds, List.map_map]
  exact List.map_congr_left fun t _ => t.lines_withoutIds s.layout.indent

theorem Sheet.invalidRules_withoutIds (s : Sheet) : s.withoutIds.invalidRules = s.invalidRules := by
  have hselector : ∀ t : Selector, t.withoutIds.invalidRules = t.invalidRules := by
    intro t
    rw [Selector.invalidRules, Selector.blocks_withoutIds, List.flatMap_map]
    rfl
  rw [invalidRules, withoutIds, List.flatMap_map]
  exact List.flatMap_congr fun t _ => hselector t

/-! ### Sheets as manifests -/

/-- A block of a pseudo-class as it stands in an entry. -/
def Block.state? (b : Block) : Option (String × Json) :=
  b.pseudoClass.map fun p => (KeywordSet.keyword p, .object (b.rules.map Rule.pair))

def Selector.entry (s : Selector) : Entry :=
  ⟨s.fullText, s.rules.map Rule.pair, s.states.filterMap Block.state?⟩

/-- The manifest that a sheet is written as. -/
def Sheet.manifest (s : Sheet) : Manifest :=
  ⟨s.name, s.selectors.map Selector.entry⟩

/-- What a selector holds. -/
def Selector.content (s : Selector) : Content :=
  ⟨s.fullText, s.rules, s.states.filterMap fun b => b.pseudoClass.map (·, b.rules)⟩

theorem Block.exists_pseudoClass {text : String} {b : Block} (h : b.IsStateOf text) :
    ∃ p, b.pseudoClass = some p :=
  Option.isSome_iff_exists.mp h.isPseudoClass

theorem forall₂_pairs {rules : List Rule} (h : ∀ r ∈ rules, r.IsSettled) :
    List.Forall₂ MakesRule (rules.map Rule.pair) rules := by
  rw [List.forall₂_map_left_iff, List.forall₂_same]
  exact h

theorem forall₂_states {text : String} {states : List Block}
    (hstates : ∀ b ∈ states, b.IsStateOf text) (hrules : ∀ b ∈ states, ∀ r ∈ b.rules, r.IsSettled) :
    List.Forall₂ MakesState (states.filterMap Block.state?)
      (states.filterMap fun b => b.pseudoClass.map (·, b.rules)) := by
  induction states with
  | nil => exact .nil
  | cons b states ih =>
      obtain ⟨hb, hstates⟩ := List.forall_mem_cons.mp hstates
      obtain ⟨hb', hrules⟩ := List.forall_mem_cons.mp hrules
      obtain ⟨p, hp⟩ := Block.exists_pseudoClass hb
      have hstate : b.state? = some (KeywordSet.keyword p, .object (b.rules.map Rule.pair)) := by
        rw [Block.state?, hp]
        rfl
      rw [List.filterMap_cons_some hstate, List.filterMap_cons_some (by rw [hp]; rfl)]
      exact .cons ⟨rfl, _, rfl, forall₂_pairs hb'⟩ (ih hstates hrules)

/-- Blocks of a text are numbered as what they hold. -/
theorem withoutId_stateBlocks {text : String} {states : List Block}
    (hstates : ∀ b ∈ states, b.IsStateOf text) (next : Nat) :
    (Content.stateBlocks text next
        (states.filterMap fun b => b.pseudoClass.map (·, b.rules))).map Block.withoutId =
      states.map Block.withoutId := by
  induction states generalizing next with
  | nil => rfl
  | cons b states ih =>
      obtain ⟨hb, hstates⟩ := List.forall_mem_cons.mp hstates
      obtain ⟨p, hp⟩ := Block.exists_pseudoClass hb
      rw [List.filterMap_cons_some (by rw [hp]; rfl), Content.stateBlocks, List.map_cons,
        ih hstates, List.map_cons, lastOfEach_eq_self hb.distinct_names]
      obtain ⟨id, text', pseudoClass, rules⟩ := b
      obtain rfl : text' = text := hb.text_eq
      obtain rfl : pseudoClass = some p := hp
      rfl

namespace Selector.IsSettled

variable {s : Selector}

theorem fullText_eq (h : s.IsSettled) : s.fullText = s.text := by
  rw [Block.fullText, h.plain]

/-- The entry of a settled selector says what the selector holds. -/
theorem makesContent_entry (h : s.IsSettled) : MakesContent s.entry s.content := by
  obtain ⟨hown, hrules⟩ := List.forall_mem_cons.mp h.rules
  have hnonblank : Text.isBlankText s.fullText = false := by rw [h.fullText_eq, h.nonblank]
  exact ⟨rfl, hnonblank, forall₂_pairs hown, forall₂_states h.wellFormed.states hrules⟩

theorem distinctKeys_entry (h : s.IsSettled) : s.entry.DistinctKeys where
  rules := by
    have hkeys : Json.keys (s.rules.map Rule.pair) = ruleNames s.rules := by
      rw [Json.keys, List.map_map]
      rfl
    rw [entry, hkeys]
    exact h.wellFormed.distinct_names
  states := by
    have hkeys : Json.keys (s.states.filterMap Block.state?) =
        (s.states.map Block.pseudoClass).filterMap (Option.map KeywordSet.keyword) := by
      rw [Json.keys, List.map_filterMap, List.filterMap_map]
      apply List.filterMap_congr
      intro b _
      simp [Block.state?, Function.comp_def]
    rw [entry, hkeys]
    refine h.wellFormed.distinct_states.filterMap ?_
    -- keywords tell pseudo-classes apart
    intro p q keyword hp hq
    obtain ⟨p, rfl, hp'⟩ := Option.map_eq_some_iff.mp hp
    obtain ⟨q, rfl, hq'⟩ := Option.map_eq_some_iff.mp hq
    rw [KeywordSet.distinct p q (hp'.trans hq'.symm)]

/-- Numbering what a settled selector holds makes the selector again. -/
theorem withoutIds_number (h : s.IsSettled) (next : Nat) :
    (s.content.number next).1.withoutIds = s.withoutIds := by
  have hdistinct : (s.content.states.map Prod.fst).Nodup :=
    nodup_of_makesState h.makesContent_entry.states h.distinctKeys_entry.states
  have htext : Text.trimmed s.fullText = s.text := by rw [h.fullText_eq, h.trimmed]
  have hrules : lastOfEach s.rules = s.rules := lastOfEach_eq_self h.wellFormed.distinct_names
  have hstates := withoutId_stateBlocks h.wellFormed.states (next + 1)
  rw [Content.number_eq hdistinct]
  simp only [withoutIds, content, htext, hrules, hstates, h.plain]

end Selector.IsSettled

/-! ### Reports -/

/-- The pair of a settled rule declares this rule only. -/
theorem Rule.IsSettled.rule_eq {r : Rule} (h : r.IsSettled) {d : Declaration}
    (hd : Declares r.pair d) : d.rule = r := by
  obtain ⟨d', hd', hr⟩ := h
  rw [hd.unique hd', hr]

/-- What is wrong with the declarations of settled rules is wrong with those that are not valid. -/
theorem violations_of_settled {rules : List Rule} (hrules : ∀ r ∈ rules, r.IsSettled)
    {built : List Declaration} (hbuilt : List.Forall₂ Declares (rules.map Rule.pair) built) :
    List.Forall₂ (fun r v => ∃ d, Declares r.pair d ∧ d.rule = r ∧ d.violation? = some v)
      (invalidAmong rules) (built.filterMap Declaration.violation?) := by
  rw [List.forall₂_map_left_iff] at hbuilt
  have hdeclared : List.Forall₂ (fun r d => r ∈ rules ∧ Declares r.pair d) rules built :=
    (List.forall₂_and_left rules built).mpr ⟨fun _ hr => hr, hbuilt⟩
  have hrule : ∀ r d, r ∈ rules ∧ Declares r.pair d → d.rule = r := by
    rintro r d ⟨hr, hd⟩
    exact (hrules r hr).rule_eq hd
  have hvalid : ∀ r d, r ∈ rules ∧ Declares r.pair d → r.valid = d.rule.valid := by
    intro r d h
    rw [hrule r d h]
  refine (violations_of_forall₂ hvalid hdeclared).imp ?_
  rintro r v ⟨d, hd, hviolation⟩
  exact ⟨d, hd.2, hrule r d hd, hviolation⟩

/-! ### Pairs in the order of the checks -/

theorem Check.filterMap_ofPair (pairs : List (String × Json)) :
    (pairs.flatMap ofPair).filterMap pair? = pairs := by
  induction pairs with
  | nil => rfl
  | cons pair pairs ih =>
      rw [List.flatMap_cons, List.filterMap_append, ih]
      rfl

theorem Entry.filterMap_checks (e : Entry) : e.checks.filterMap Check.pair? = e.pairs := by
  have hstate : ∀ state : String × Json,
      (Check.ofState state).filterMap Check.pair? = state.2.pairs :=
    fun state => Check.filterMap_ofPair state.2.pairs
  have hentry : e.checks.filterMap Check.pair? =
      (e.rules.flatMap Check.ofPair ++ e.states.flatMap Check.ofState).filterMap Check.pair? := rfl
  rw [hentry, List.filterMap_append, Check.filterMap_ofPair, List.filterMap_flatMap, pairs]
  exact congrArg (e.rules ++ ·) (List.flatMap_congr fun state _ => hstate state)

theorem Manifest.filterMap_checks (m : Manifest) :
    m.checks.filterMap Check.pair? = m.entries.flatMap Entry.pairs := by
  rw [checks, List.filterMap_flatMap]
  exact List.flatMap_congr fun e _ => e.filterMap_checks

/-- The rules of a selector: its own, and behind them those of its pseudo-class blocks. -/
def Selector.allRules (s : Selector) : List Rule := s.rules ++ s.states.flatMap Block.rules

theorem Selector.allRules_eq (s : Selector) : s.allRules = s.blocks.flatMap Block.rules :=
  List.flatMap_cons.symm

/-- The rules of a sheet, selector after selector. -/
def Sheet.allRules (s : Sheet) : List Rule := s.selectors.flatMap Selector.allRules

theorem Sheet.invalidRules_eq (s : Sheet) : s.invalidRules = invalidAmong s.allRules := by
  rw [invalidRules, allRules, invalidAmong, List.filter_flatMap]
  refine List.flatMap_congr fun t _ => ?_
  rw [Selector.invalidRules, t.allRules_eq, List.filter_flatMap]
  rfl

/-- No rule is listed as not valid if no rule has a cleared verdict. -/
theorem Sheet.invalidRules_eq_nil_iff {s : Sheet} :
    s.invalidRules = [] ↔ ¬ ∃ r ∈ s.allRules, r.valid = false := by
  rw [s.invalidRules_eq, invalidAmong, List.filter_eq_nil_iff]
  simp

theorem Selector.IsSettled.pairs_entry {s : Selector} (h : s.IsSettled) :
    s.entry.pairs = s.allRules.map Rule.pair := by
  have hstates : ∀ {states : List Block}, (∀ b ∈ states, b.IsStateOf s.text) →
      (states.filterMap Block.state?).flatMap (fun state => state.2.pairs) =
        (states.flatMap Block.rules).map Rule.pair := by
    intro states hstates
    induction states with
    | nil => rfl
    | cons b states ih =>
        obtain ⟨hb, hstates⟩ := List.forall_mem_cons.mp hstates
        obtain ⟨p, hp⟩ := Block.exists_pseudoClass hb
        rw [List.filterMap_cons_some (by rw [Block.state?, hp]; rfl), List.flatMap_cons,
          ih hstates, List.flatMap_cons, List.map_append]
        rfl
  rw [Entry.pairs, Selector.entry, hstates h.wellFormed.states, allRules, List.map_append]

/-! ### Loading a sheet again -/

namespace Sheet

variable {s : Sheet}

theorem pairs_manifest (h : ∀ t ∈ s.selectors, t.IsSettled) :
    s.manifest.checks.filterMap Check.pair? = s.allRules.map Rule.pair := by
  have hpairs : s.selectors.flatMap (fun t => t.entry.pairs) =
      s.selectors.flatMap fun t => t.allRules.map Rule.pair :=
    List.flatMap_congr fun t ht => (h t ht).pairs_entry
  rw [Manifest.filterMap_checks, manifest, List.flatMap_map, hpairs, allRules, List.map_flatMap]

theorem isSettled_of_mem_allRules (h : ∀ t ∈ s.selectors, t.IsSettled) :
    ∀ r ∈ s.allRules, r.IsSettled := by
  intro r hr
  obtain ⟨t, ht, hr⟩ := List.mem_flatMap.mp hr
  rw [t.allRules_eq] at hr
  obtain ⟨b, hb, hr⟩ := List.mem_flatMap.mp hr
  exact (h t ht).rules b hb r hr

theorem contents_manifest (h : ∀ t ∈ s.selectors, t.IsSettled) :
    s.manifest.contents.result = .ok (s.selectors.map Selector.content) := by
  rw [Manifest.result_contents_eq_ok, manifest, List.forall₂_map_left_iff,
    List.forall₂_map_right_iff, List.forall₂_same]
  exact fun t ht => (h t ht).makesContent_entry

theorem withoutIds_numbered {ts selectors : List Selector} (hts : ∀ t ∈ ts, t.IsSettled)
    (h : List.Forall₂ (fun c t => ∃ next, (c.number next).1 = t) (ts.map Selector.content)
      selectors) : selectors.map Selector.withoutIds = ts.map Selector.withoutIds := by
  rw [List.forall₂_map_left_iff] at h
  induction h with
  | nil => rfl
  | cons ht _ ih =>
      obtain ⟨next, rfl⟩ := ht
      obtain ⟨hsettled, hts⟩ := List.forall_mem_cons.mp hts
      rw [List.map_cons, List.map_cons, ih hts, hsettled.withoutIds_number]

/-- The manifest of settled selectors loads as a sheet of these selectors. -/
theorem load_manifest (h : ∀ t ∈ s.selectors, t.IsSettled) (layout : Layout) (first : Nat) :
    ∃ selectors next, (s.manifest.load layout first).result =
        .ok (⟨s.name, selectors, none, layout⟩, next) ∧
      selectors.map Selector.withoutIds = s.selectors.map Selector.withoutIds := by
  obtain ⟨made, hmade⟩ : ∃ made, (s.manifest.load layout first).result = .ok made :=
    ⟨_, Manifest.load_eq_ok_iff.mpr ⟨_, contents_manifest h, rfl⟩⟩
  obtain ⟨contents, selectors, hcontents, hsheet, hnumbered⟩ := Manifest.selectors_of_load hmade
  rw [contents_manifest h] at hcontents
  obtain rfl := Except.ok.inj hcontents
  obtain ⟨sheet, next⟩ := made
  obtain rfl : sheet = ⟨s.name, selectors, none, layout⟩ := hsheet
  exact ⟨selectors, next, hmade, withoutIds_numbered h hnumbered⟩

end Sheet

/-- A sheet that was loaded is loaded from its manifest again, but for the identities, and each rule
that is not valid is reported once more, in order. -/
theorem Manifest.reload_of_load {m : Manifest} {layout : Layout} {next next' : Nat} {s : Sheet}
    (h : (m.load layout next).result = .ok (s, next')) :
    s.manifest.DistinctKeys ∧ ∀ first, ∃ again next'' violations,
      s.manifest.load layout first = ⟨violations, .ok (again, next'')⟩ ∧
      again.withoutIds = s.withoutIds ∧ again.lines = s.lines ∧
      again.invalidRules = s.invalidRules ∧
      List.Forall₂ (fun r v => ∃ d, Declares r.pair d ∧ d.rule = r ∧ d.violation? = some v)
        s.invalidRules violations ∧
      ∀ j : Journal,
        j.reportAll .memory (violations.map Violation.message) =
            { j with reports := j.reports ++ violations.map Violation.message } ∧
          j.reportAll .log (violations.map Violation.message) =
            { j with events := j.events ++ violations.map fun v => .warning v.message } := by
  have hsettled : ∀ t ∈ s.selectors, t.IsSettled := isSettled_of_load h
  obtain ⟨-, selectors, -, hs, -⟩ := selectors_of_load h
  have hkeys : s.manifest.DistinctKeys := by
    intro e he
    obtain ⟨t, ht, rfl⟩ := List.mem_map.mp he
    exact (hsettled t ht).distinctKeys_entry
  refine ⟨hkeys, fun first => ?_⟩
  obtain ⟨reloaded, next'', hload, hreloaded⟩ := Sheet.load_manifest hsettled layout first
  cases s.manifest.goesThrough_load layout first with
  | stopped _ _ _ _ hstopped =>
      rw [hstopped] at hload
      cases hload
  | @passed built made _ hbuilt hpassed =>
      rw [hpassed] at hload
      obtain rfl := Except.ok.inj hload
      rw [Sheet.pairs_manifest hsettled] at hbuilt
      have hagain : (⟨s.name, reloaded, none, layout⟩ : Sheet).withoutIds = s.withoutIds := by
        obtain rfl : s = ⟨m.name, selectors, none, layout⟩ := hs
        rw [Sheet.withoutIds, Sheet.withoutIds, hreloaded]
      refine ⟨_, next'', _, hpassed, hagain, ?_, ?_, ?_, fun j => ?_⟩
      · rw [← Sheet.lines_withoutIds, hagain, Sheet.lines_withoutIds]
      · rw [← Sheet.invalidRules_withoutIds, hagain, Sheet.invalidRules_withoutIds]
      · rw [s.invalidRules_eq]
        exact violations_of_settled (Sheet.isSettled_of_mem_allRules hsettled) hbuilt
      · exact ⟨j.reportAll_memory _, j.reportAll_log _⟩

/-- A manifest in which much is to be trimmed and two rules are not valid. -/
def Manifest.untidy : Manifest :=
  ⟨"Card", [⟨" .card ",
    [(" ----gap ", .string " 1px "), ("transform-origin", .string "left   right"),
      ("opacity", .number (.natural 1))],
    [("hover", .object [("padding", .string " Auto ")])]⟩]⟩

/-- What it loads as. -/
def Sheet.tidy : Sheet :=
  ⟨"Card", [{
    id := 1, text := ".card", pseudoClass := none,
    rules := [⟨"--gap", .custom, "1px", true⟩,
      ⟨"transform-origin", .transformOrigin, "left right", false⟩,
      ⟨"opacity", .opacity, "1", true⟩],
    states := [⟨2, ".card", some .hover, [⟨"padding", .padding, "Auto", false⟩]⟩] }], none, {}⟩

theorem Manifest.reload_of_load_untidy :
    (untidy.load {} 1).result = .ok (Sheet.tidy, 3) ∧
      ∃ again next violations, Sheet.tidy.manifest.load {} 7 = ⟨violations, .ok (again, next)⟩ ∧
        again.withoutIds = Sheet.tidy.withoutIds ∧ violations.length = 2 := by
  have hload : (untidy.load {} 1).result = .ok (Sheet.tidy, 3) := by rfl
  obtain ⟨-, hagain⟩ := reload_of_load hload
  obtain ⟨again, next, violations, hreload, hsame, -, -, hviolations, -⟩ := hagain 7
  have hlength : Sheet.tidy.invalidRules.length = violations.length := hviolations.length_eq
  exact ⟨hload, again, next, violations, hreload, hsame, hlength.symm⟩

end UiStyle
