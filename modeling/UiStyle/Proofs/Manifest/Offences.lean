import UiStyle.Proofs.Declaration.Reports
import UiStyle.Proofs.Manifest.Contents

/-!
# The first offence of a manifest

Loading looks at one thing after the other, and what it looks at is a list (`Manifest.checks`): for
each entry its selector text, then for each pair of its rules the value and the name, then for each
pseudo-class its name, its value and its pairs.  A check that fails says which failure that is
(`Check.Fails`).

A computation goes through a list of checks if it ends in the failure of the first that fails, or
in a result if none does, and has by then reported what is wrong with the rules of the pairs that
came before (`GoesThrough`).  Computations behind each other go through their checks behind each
other (`GoesThrough.bind`), so loading goes through the checks of a manifest, and
`Manifest.error_of_load` says what this means: there is an error exactly if something offends, and
it is the first offence.
-/

namespace UiStyle

/-! ### What is looked at -/

/-- One thing that loading looks at. -/
inductive Check
  | selectorText (text : String)
  | scalar (key : String) (value : Json)
  | propertyName (key : String) (value : Json)
  | pseudoClass (key : String)
  | object (key : String) (value : Json)

/-- A value that can stand in a rule. -/
def Json.IsScalar (value : Json) : Prop := ∃ text, IsRuleText value text

def Json.IsObject (value : Json) : Prop := ∃ pairs, value = .object pairs

/-- The pairs of an object. -/
def Json.pairs : Json → List (String × Json)
  | .object pairs => pairs
  | _ => []

/-- A key that is, without the white space around it, a name of a custom property or a registered
one. -/
def Property.IsNamed (key : String) : Prop :=
  isCustomName (Text.trimmed key) = true ∨ ∃ p ∈ registered, p.name = Text.trimmed key

/-- A keyword of a pseudo-class. -/
def PseudoClass.IsKeyword (key : String) : Prop := ∃ p : PseudoClass, KeywordSet.keyword p = key

namespace Check

/-- A check fails, and which failure that is, to the text. -/
inductive Fails : Check → Failure → Prop
  | blank {text : String} (h : Text.isBlankText text = true) :
    Fails (.selectorText text) (.manifest "selector text is empty")
  | notScalar {key : String} {value : Json} (h : ¬ value.IsScalar) :
    Fails (.scalar key value)
      (.manifest ("value for `" ++ key ++ "` must be a string or number, got " ++ value.text))
  | unknownProperty {key : String} {value : Json} (h : ¬ Property.IsNamed key) :
    Fails (.propertyName key value) (.unknownProperty key)
  | unknownPseudoClass {key : String} (h : ¬ PseudoClass.IsKeyword key) :
    Fails (.pseudoClass key) (.manifest ("unknown pseudo-class `" ++ key ++ "`"))
  | notObject {key : String} {value : Json} (h : ¬ value.IsObject) :
    Fails (.object key value)
      (.manifest ("state `" ++ key ++ "` must map properties to values"))

def Passes (c : Check) : Prop := ∀ e, ¬ c.Fails e

/-- The pair whose rule is made once a check has passed. -/
def pair? : Check → Option (String × Json)
  | .propertyName key value => some (key, value)
  | _ => none

def ofPair (pair : String × Json) : List Check :=
  [.scalar pair.1 pair.2, .propertyName pair.1 pair.2]

def ofState (state : String × Json) : List Check :=
  .pseudoClass state.1 :: .object state.1 state.2 :: state.2.pairs.flatMap ofPair

end Check

def Entry.checks (e : Entry) : List Check :=
  .selectorText e.selector :: (e.rules.flatMap Check.ofPair ++ e.states.flatMap Check.ofState)

/-- All that loading looks at in a manifest, in order. -/
def Manifest.checks (m : Manifest) : List Check :=
  m.entries.flatMap Entry.checks

/-! ### Going through checks -/

/-- A computation ends at the first check that fails, if one does, and reports what is wrong with
the declarations of the pairs in front of it. -/
inductive GoesThrough {α : Type} (checks : List Check) (x : Reporting α) : Prop
  | passed {built : List Declaration} {a : α} (hpass : ∀ c ∈ checks, c.Passes)
    (hbuilt : List.Forall₂ Declares (checks.filterMap Check.pair?) built)
    (hx : x = ⟨built.filterMap Declaration.violation?, .ok a⟩)
  | stopped {before after : List Check} {c : Check} {e : Failure} {built : List Declaration}
    (hchecks : checks = before ++ c :: after) (hpass : ∀ c ∈ before, c.Passes) (hfails : c.Fails e)
    (hbuilt : List.Forall₂ Declares (before.filterMap Check.pair?) built)
    (hx : x = ⟨built.filterMap Declaration.violation?, .error e⟩)

namespace GoesThrough

variable {α β : Type} {checks checks' : List Check} {x : Reporting α} {f : α → Reporting β}

theorem pure (a : α) : GoesThrough [] (Pure.pure a : Reporting α) := by
  have hnone : List.Forall₂ Declares [] [] := .nil
  exact .passed nofun hnone rfl

/-- A check that fails ends what comes first in it. -/
theorem fail {c : Check} {e : Failure} (h : c.Fails e) (after : List Check) :
    GoesThrough (c :: after) (Reporting.fail e : Reporting α) := by
  have hnone : List.Forall₂ Declares [] [] := .nil
  exact .stopped (List.nil_append _).symm nofun h hnone rfl

theorem bind (hx : GoesThrough checks x) (hf : ∀ a, x.result = .ok a → GoesThrough checks' (f a)) :
    GoesThrough (checks ++ checks') (x >>= f) := by
  cases hx with
  | stopped hchecks hpass hfails hbuilt hx =>
      subst hchecks hx
      exact .stopped (List.append_assoc ..) hpass hfails hbuilt rfl
  | @passed built a hpass hbuilt hx =>
      subst hx
      rw [Reporting.bind_ok]
      -- whatever the second computation goes through comes behind all checks of the first
      have hpasses : ∀ {more : List Check}, (∀ c ∈ more, c.Passes) →
          ∀ c ∈ checks ++ more, c.Passes :=
        fun hmore => List.forall_mem_append.mpr ⟨hpass, hmore⟩
      have hdeclares : ∀ {more : List Check} {built' : List Declaration},
          List.Forall₂ Declares (more.filterMap Check.pair?) built' →
          List.Forall₂ Declares ((checks ++ more).filterMap Check.pair?) (built ++ built') := by
        intro more built' hbuilt'
        rw [List.filterMap_append]
        exact List.rel_append hbuilt hbuilt'
      cases hf a rfl with
      | passed hpass' hbuilt' hfa =>
          rw [hfa, ← List.filterMap_append]
          exact .passed (hpasses hpass') (hdeclares hbuilt') rfl
      | stopped hchecks' hpass' hfails hbuilt' hfa =>
          rw [hfa, hchecks', ← List.filterMap_append, ← List.append_assoc]
          exact .stopped rfl (hpasses hpass') hfails (hdeclares hbuilt') rfl

/-- A check in front that passes, and makes no rule, goes unnoticed. -/
theorem cons {c : Check} (hpass : c.Passes) (hpair : c.pair? = none) (hx : GoesThrough checks x) :
    GoesThrough (c :: checks) x := by
  have hfirst : GoesThrough [c] (Pure.pure () : Reporting Unit) := by
    have hnone : List.Forall₂ Declares ([c].filterMap Check.pair?) [] := by simp [hpair]
    exact .passed (by simpa using hpass) hnone rfl
  exact hfirst.bind fun _ _ => hx

theorem map (hx : GoesThrough checks x) (g : α → β) :
    GoesThrough checks (x >>= fun a => Pure.pure (g a)) := by
  have hbind := hx.bind fun a _ => pure (g a)
  rwa [List.append_nil] at hbind

/-- Computations for the items of a list go through the checks of one item after the other. -/
theorem mapM {items : List α} {checksOf : α → List Check}
    (h : ∀ a ∈ items, GoesThrough (checksOf a) (f a)) :
    GoesThrough (items.flatMap checksOf) (items.mapM f) := by
  induction items with
  | nil => exact pure []
  | cons a items ih =>
      obtain ⟨ha, hitems⟩ := List.forall_mem_cons.mp h
      rw [List.flatMap_cons, List.mapM_cons]
      exact ha.bind fun b _ => (ih hitems).map (b :: ·)

end GoesThrough

/-! ### Loading goes through the checks of a manifest -/

theorem Property.ofName?_eq_none {key : String} (h : ofName? (Text.trimmed key) = none) :
    ¬ IsNamed key := by
  rintro (hcustom | ⟨p, hp, hname⟩)
  · rw [ofName?_of_isCustomName hcustom] at h
    cases h
  · have hregistered := isCustomName_eq_false hp
    rw [hname] at hregistered
    rw [(ofName?_eq_some_iff hregistered).mpr ⟨hp, hname⟩] at h
    cases h

theorem Declares.isScalar {pair : String × Json} {d : Declaration} (h : Declares pair d) :
    pair.2.IsScalar := by
  cases h with
  | custom hvalue | registered hvalue => exact ⟨_, hvalue⟩

theorem Declares.isNamed {pair : String × Json} {d : Declaration} (h : Declares pair d) :
    Property.IsNamed pair.1 := by
  cases h with
  | custom _ hkey => exact .inl hkey
  | registered _ _ hp hname => exact .inr ⟨_, hp, hname⟩

theorem declaration_eq_error {pair : String × Json} {e : Failure}
    (h : declaration pair.1 pair.2 = .error e) :
    (Check.scalar pair.1 pair.2).Fails e ∨
      pair.2.IsScalar ∧ (Check.propertyName pair.1 pair.2).Fails e := by
  unfold declaration at h
  split at h
  · rename_i hvalue
    obtain rfl := Except.error.inj h
    refine .inl (.notScalar ?_)
    rintro ⟨text, htext⟩
    rw [ruleText?_eq_some_iff.mpr htext] at hvalue
    cases hvalue
  · rename_i text hvalue
    have htext := ruleText?_eq_some_iff.mp hvalue
    split at h
    · cases h
    · cases h
    · rename_i hname
      obtain rfl := Except.error.inj h
      exact .inr ⟨⟨text, htext⟩, .unknownProperty (Property.ofName?_eq_none hname)⟩

theorem Check.passes_scalar {key : String} {value : Json} (h : value.IsScalar) :
    (scalar key value).Passes := by
  intro e he
  cases he with
  | notScalar hnot => exact hnot h

theorem goesThrough_loadRule (pair : String × Json) :
    GoesThrough (Check.ofPair pair) (loadRule pair) := by
  unfold loadRule
  split
  · rename_i e herror
    rcases declaration_eq_error herror with hscalar | ⟨hscalar, hname⟩
    · exact .fail hscalar _
    · exact .cons (Check.passes_scalar hscalar) rfl (.fail hname [])
  · rename_i d hd
    have hdeclares := declaration_eq_ok_iff.mp hd
    refine .cons (Check.passes_scalar hdeclares.isScalar) rfl ?_
    have hname : (Check.propertyName pair.1 pair.2).Passes := by
      intro e he
      cases he with
      | unknownProperty hnot => exact hnot hdeclares.isNamed
    have hbuilt : List.Forall₂ Declares [pair] [d] := .cons hdeclares .nil
    have hreport : Reporting.declare d = ⟨[d].filterMap Declaration.violation?, .ok d.rule⟩ := by
      cases hviolation : d.violation? <;> simp [Reporting.declare_eq, hviolation]
    exact .passed (by simpa using hname) hbuilt hreport

theorem goesThrough_loadRules (pairs : List (String × Json)) :
    GoesThrough (pairs.flatMap Check.ofPair) (loadRules pairs) :=
  .mapM fun pair _ => goesThrough_loadRule pair

theorem Check.passes_pseudoClass {key : String} {p : PseudoClass}
    (h : KeywordSet.ofKeyword? key = some p) : (pseudoClass key).Passes := by
  intro e he
  cases he with
  | unknownPseudoClass hnot => exact hnot ⟨p, KeywordSet.ofKeyword?_eq_some.mp h⟩

theorem goesThrough_loadState (state : String × Json) :
    GoesThrough (Check.ofState state) (loadState state) := by
  obtain ⟨key, value⟩ := state
  unfold loadState
  split
  · rename_i hkey
    refine .fail (.unknownPseudoClass ?_) _
    rintro ⟨p, hp⟩
    rw [KeywordSet.ofKeyword?_eq_some.mpr hp] at hkey
    cases hkey
  · rename_i p pairs hkey hvalue
    obtain rfl : value = .object pairs := hvalue
    have hobject : (Check.object key (.object pairs)).Passes := by
      intro e he
      cases he with
      | notObject hnot => exact hnot ⟨pairs, rfl⟩
    have hrules := (goesThrough_loadRules pairs).map (p, ·)
    exact .cons (Check.passes_pseudoClass hkey) rfl (.cons hobject rfl hrules)
  · rename_i p hkey hvalue
    have hnot : ¬ value.IsObject := by
      rintro ⟨pairs, hpairs⟩
      exact hvalue pairs hpairs
    exact .cons (Check.passes_pseudoClass hkey) rfl (.fail (.notObject hnot) _)

theorem Entry.goesThrough_content (e : Entry) : GoesThrough e.checks e.content := by
  unfold Entry.content
  split
  · rename_i hblank
    exact .fail (.blank hblank) _
  · rename_i hblank
    have htext : (Check.selectorText e.selector).Passes := by
      intro f hf
      cases hf with
      | blank hnot => exact hblank hnot
    refine .cons htext rfl ((goesThrough_loadRules e.rules).bind fun rules _ => ?_)
    have hstates : GoesThrough (e.states.flatMap Check.ofState) (e.states.mapM loadState) :=
      .mapM fun state _ => goesThrough_loadState state
    exact hstates.map _

theorem Manifest.goesThrough_load (m : Manifest) (layout : Layout) (next : Nat) :
    GoesThrough m.checks (m.load layout next) := by
  have hcontents : GoesThrough m.checks m.contents := .mapM fun e _ => e.goesThrough_content
  exact hcontents.map _

/-! ### What offends -/

/-- The pairs of an entry, its own and then those of its pseudo-classes. -/
def Entry.pairs (e : Entry) : List (String × Json) :=
  e.rules ++ e.states.flatMap fun state => state.2.pairs

/-- What can be wrong with an entry. -/
inductive Entry.Offends (e : Entry) : Prop
  | blankText (h : Text.isBlankText e.selector = true)
  | notScalar {key : String} {value : Json} (hpair : (key, value) ∈ e.pairs) (h : ¬ value.IsScalar)
  | unknownProperty {key : String} {value : Json} (hpair : (key, value) ∈ e.pairs)
    (h : ¬ Property.IsNamed key)
  | unknownPseudoClass {key : String} {value : Json} (hstate : (key, value) ∈ e.states)
    (h : ¬ PseudoClass.IsKeyword key)
  | notObject {key : String} {value : Json} (hstate : (key, value) ∈ e.states)
    (h : ¬ value.IsObject)

namespace Check

theorem mem_ofPair {c : Check} {pair : String × Json} :
    c ∈ ofPair pair ↔ c = .scalar pair.1 pair.2 ∨ c = .propertyName pair.1 pair.2 := by
  simp [ofPair]

theorem mem_ofState {c : Check} {state : String × Json} :
    c ∈ ofState state ↔ c = .pseudoClass state.1 ∨ c = .object state.1 state.2 ∨
      ∃ pair ∈ state.2.pairs, c ∈ ofPair pair := by
  simp only [ofState, List.mem_cons, List.mem_flatMap]

end Check

theorem Entry.mem_pairs {e : Entry} {pair : String × Json} :
    pair ∈ e.pairs ↔ pair ∈ e.rules ∨ ∃ state ∈ e.states, pair ∈ state.2.pairs := by
  simp only [pairs, List.mem_append, List.mem_flatMap]

theorem Entry.mem_checks {e : Entry} {c : Check} :
    c ∈ e.checks ↔ c = .selectorText e.selector ∨ (∃ pair ∈ e.pairs, c ∈ Check.ofPair pair) ∨
      ∃ key value, (key, value) ∈ e.states ∧ (c = .pseudoClass key ∨ c = .object key value) := by
  simp only [checks, List.mem_cons, List.mem_append, List.mem_flatMap]
  refine or_congr_right ?_
  constructor
  · rintro (⟨pair, hpair, hc⟩ | ⟨⟨key, value⟩, hstate, hc⟩)
    · exact .inl ⟨pair, mem_pairs.mpr (.inl hpair), hc⟩
    · rcases Check.mem_ofState.mp hc with hc | hc | ⟨pair, hpair, hc⟩
      · exact .inr ⟨key, value, hstate, .inl hc⟩
      · exact .inr ⟨key, value, hstate, .inr hc⟩
      · exact .inl ⟨pair, mem_pairs.mpr (.inr ⟨_, hstate, hpair⟩), hc⟩
  · rintro (⟨pair, hpair, hc⟩ | ⟨key, value, hstate, hc⟩)
    · rcases mem_pairs.mp hpair with hpair | ⟨state, hstate, hpair⟩
      · exact .inl ⟨pair, hpair, hc⟩
      · exact .inr ⟨state, hstate, Check.mem_ofState.mpr (.inr (.inr ⟨pair, hpair, hc⟩))⟩
    · exact .inr ⟨_, hstate, Check.mem_ofState.mpr (hc.imp_right .inl)⟩

/-- An entry offends if one of its checks fails. -/
theorem Entry.offends_iff {e : Entry} : e.Offends ↔ ∃ c ∈ e.checks, ∃ f, c.Fails f := by
  constructor
  · intro h
    cases h with
    | blankText h => exact ⟨_, mem_checks.mpr (.inl rfl), _, .blank h⟩
    | notScalar hpair h =>
        have hc := mem_checks.mpr (.inr (.inl ⟨_, hpair, Check.mem_ofPair.mpr (.inl rfl)⟩))
        exact ⟨_, hc, _, .notScalar h⟩
    | unknownProperty hpair h =>
        have hc := mem_checks.mpr (.inr (.inl ⟨_, hpair, Check.mem_ofPair.mpr (.inr rfl)⟩))
        exact ⟨_, hc, _, .unknownProperty h⟩
    | unknownPseudoClass hstate h =>
        exact ⟨_, mem_checks.mpr (.inr (.inr ⟨_, _, hstate, .inl rfl⟩)), _, .unknownPseudoClass h⟩
    | notObject hstate h =>
        exact ⟨_, mem_checks.mpr (.inr (.inr ⟨_, _, hstate, .inr rfl⟩)), _, .notObject h⟩
  · rintro ⟨c, hc, f, hfails⟩
    rcases mem_checks.mp hc with rfl | ⟨⟨key, value⟩, hpair, hc⟩ | ⟨key, value, hstate, hc⟩
    · cases hfails with
      | blank h => exact .blankText h
    · rcases Check.mem_ofPair.mp hc with rfl | rfl
      · cases hfails with
        | notScalar h => exact .notScalar hpair h
      · cases hfails with
        | unknownProperty h => exact .unknownProperty hpair h
    · rcases hc with rfl | rfl
      · cases hfails with
        | unknownPseudoClass h => exact .unknownPseudoClass hstate h
      · cases hfails with
        | notObject h => exact .notObject hstate h

theorem Manifest.exists_offends_iff {m : Manifest} :
    (∃ e ∈ m.entries, e.Offends) ↔ ∃ c ∈ m.checks, ∃ f, c.Fails f := by
  simp only [Entry.offends_iff, checks, List.mem_flatMap]
  constructor
  · rintro ⟨e, he, c, hc, hf⟩
    exact ⟨c, ⟨e, he, hc⟩, hf⟩
  · rintro ⟨c, ⟨e, he, hc⟩, hf⟩
    exact ⟨e, he, c, hc, hf⟩

/-! ### Errors -/

/-- There is one violation for each declaration whose rule is not valid, in order. -/
theorem violations_of_forall₂ {α : Type} {R : α → Declaration → Prop} {valid : α → Bool}
    (hvalid : ∀ a d, R a d → valid a = d.rule.valid) {as : List α} {built : List Declaration}
    (h : List.Forall₂ R as built) :
    List.Forall₂ (fun a v => ∃ d, R a d ∧ d.violation? = some v) (as.filter fun a => !valid a)
      (built.filterMap Declaration.violation?) := by
  induction h with
  | nil => exact .nil
  | @cons a d as built hd _ ih =>
      have hsame : valid a = d.violation?.isNone := by rw [hvalid a d hd, d.valid_rule]
      cases hviolation : d.violation? with
      | none =>
          rw [List.filter_cons_of_neg (by simp [hsame, hviolation]),
            List.filterMap_cons_none hviolation]
          exact ih
      | some v =>
          rw [List.filter_cons_of_pos (by simp [hsame, hviolation]),
            List.filterMap_cons_some hviolation]
          exact .cons ⟨d, hd, hviolation⟩ ih

theorem violations_of_built (built : List Declaration) :
    List.Forall₂ (fun d v => d.violation? = some v) (built.filter fun d => !d.rule.valid)
      (built.filterMap Declaration.violation?) := by
  have hsame : List.Forall₂ Eq built built := List.forall₂_same.mpr fun _ _ => rfl
  have hviolations := violations_of_forall₂ (fun d d' h => congrArg (·.rule.valid) h) hsame
  refine hviolations.imp ?_
  rintro d v ⟨d', rfl, hviolation⟩
  exact hviolation

/-- **Errors of manifests.**  Loading fails exactly if some entry offends.  The failure is that of
the first check that fails, and a sink has by then gained one message for each invalid rule of the
pairs in front of it, in order. -/
theorem Manifest.error_of_load (m : Manifest) (layout : Layout) (next : Nat) :
    ((∃ e, (m.load layout next).result = .error e) ↔ ∃ e ∈ m.entries, e.Offends) ∧
      ∀ e, (m.load layout next).result = .error e →
        ∃ before c after built violations, m.checks = before ++ c :: after ∧
          (∀ c ∈ before, c.Passes) ∧ c.Fails e ∧
          List.Forall₂ Declares (before.filterMap Check.pair?) built ∧
          List.Forall₂ (fun d v => d.violation? = some v) (built.filter fun d => !d.rule.valid)
            violations ∧
          ∀ j : Journal,
            j.reportAll .memory ((m.load layout next).reports.map Violation.message) =
                { j with reports := j.reports ++ violations.map Violation.message } ∧
              j.reportAll .log ((m.load layout next).reports.map Violation.message) =
                { j with events := j.events ++ violations.map fun v => .warning v.message } := by
  rw [exists_offends_iff]
  cases m.goesThrough_load layout next with
  | passed hpass hbuilt hload =>
      rw [hload]
      refine ⟨?_, nofun⟩
      constructor
      · rintro ⟨e, he⟩
        cases he
      · rintro ⟨c, hc, f, hfails⟩
        exact absurd hfails (hpass c hc f)
  | @stopped before after c e built hchecks hpass hfails hbuilt hload =>
      rw [hload]
      refine ⟨⟨fun _ => ⟨c, by simp [hchecks], e, hfails⟩, fun _ => ⟨e, rfl⟩⟩, ?_⟩
      intro e' he
      obtain rfl := Except.error.inj he
      exact ⟨before, c, after, built, _, hchecks, hpass, hfails, hbuilt, violations_of_built built,
        fun j => ⟨j.reportAll_memory _, j.reportAll_log _⟩⟩

/-- A manifest with several offences, the first of them in a pair of a pseudo-class. -/
def Manifest.faulty : Manifest :=
  ⟨"Card", [⟨".card", [("padding", .string "auto")],
    [("hover", .object [("width", .string "1px"), ("----", .string "2px"), ("tint", .null)]),
      ("glowing", .null)]⟩, ⟨" ", [], []⟩]⟩

theorem Manifest.error_of_load_faulty :
    (∃ e ∈ faulty.entries, e.Offends) ∧
      (faulty.load {} 1).result =
        .error (.manifest "value for `tint` must be a string or number, got null") ∧
      (faulty.load {} 1).reports = [.autoForbidden .padding, .unnamed] ∧
      ∃ before c after, faulty.checks = before ++ c :: after ∧ (∀ c ∈ before, c.Passes) ∧
        c.Fails (.manifest "value for `tint` must be a string or number, got null") := by
  obtain ⟨hiff, hfirst⟩ := error_of_load faulty {} 1
  have hresult : (faulty.load {} 1).result =
      .error (.manifest "value for `tint` must be a string or number, got null") := by rfl
  obtain ⟨before, c, after, -, -, hchecks, hpass, hfails, -⟩ := hfirst _ hresult
  exact ⟨hiff.mp ⟨_, hresult⟩, hresult, by rfl, before, c, after, hchecks, hpass, hfails⟩

end UiStyle
