import Mathlib.Data.List.Forall2
import UiStyle.Manifest.Load

/-!
# What a manifest says

The first half of loading turns pairs into rules.  Here is what it makes of each part of a manifest,
as relations that do not mention how it goes about it: `IsRuleText` for a value, `MakesRule` for a
pair, `MakesState` for a pseudo-class with its pairs and `MakesContent` for an entry.  A list of
parts has results one by one, in order (`result_mapM_eq_ok`), so a list is described by
`List.Forall₂` of the relation for its items.
-/

namespace UiStyle

/-- Each item on the right has one on the left. -/
theorem exists_of_forall₂ {α β : Type} {R : α → β → Prop} {as : List α} {bs : List β}
    (h : List.Forall₂ R as bs) : ∀ b ∈ bs, ∃ a ∈ as, R a b := by
  induction h with
  | nil => exact nofun
  | @cons a b as bs hab _ ih =>
      intro b' hb'
      rcases List.mem_cons.mp hb' with rfl | hb'
      · exact ⟨a, List.mem_cons_self .., hab⟩
      · obtain ⟨a', ha', h⟩ := ih b' hb'
        exact ⟨a', List.mem_cons_of_mem a ha', h⟩

/-- An item on the left has one on the right, with those behind it behind the other. -/
theorem exists_append_of_forall₂ {α β : Type} {R : α → β → Prop} {front behind : List α} {a : α}
    {bs : List β} (h : List.Forall₂ R (front ++ a :: behind) bs) :
    ∃ before b rest, bs = before ++ b :: rest ∧ R a b ∧ List.Forall₂ R behind rest := by
  induction front generalizing bs with
  | nil =>
      obtain ⟨b, rest, hab, hrest, rfl⟩ := List.forall₂_cons_left_iff.mp h
      exact ⟨[], b, rest, rfl, hab, hrest⟩
  | cons first front ih =>
      obtain ⟨made, bs, -, hbs, rfl⟩ := List.forall₂_cons_left_iff.mp h
      obtain ⟨before, b, rest, rfl, hab⟩ := ih hbs
      exact ⟨made :: before, b, rest, rfl, hab⟩

namespace Reporting

variable {α β : Type}

/-- Computations for the items of a list have results if each of them has, and these are the
results in order. -/
theorem result_mapM_eq_ok {f : α → Reporting β} {as : List α} {bs : List β} :
    (as.mapM f).result = .ok bs ↔ List.Forall₂ (fun a b => (f a).result = .ok b) as bs := by
  induction as generalizing bs with
  | nil =>
      rw [List.mapM_nil, result_pure, Except.ok.injEq, List.forall₂_nil_left_iff]
      exact eq_comm
  | cons a as ih =>
      simp only [List.mapM_cons, result_bind_eq_ok, result_pure, Except.ok.injEq, ih,
        List.forall₂_cons_left_iff]
      constructor
      · rintro ⟨b, hb, rest, hrest, rfl⟩
        exact ⟨b, rest, hb, hrest, rfl⟩
      · rintro ⟨b, rest, hb, hrest, rfl⟩
        exact ⟨b, hb, rest, hrest, rfl⟩

end Reporting

/-! ### Names of properties -/

namespace Property

/-- No registered property has the name of a custom one. -/
theorem isCustomName_eq_false {p : Property} (hp : p ∈ registered) :
    isCustomName p.name = false := by
  revert p
  decide +kernel

theorem ofName?_of_isCustomName {s : String} (hs : isCustomName s = true) :
    ofName? s = some .custom := by
  have hnone : registered.find? (fun p => p.name == s) = none := by
    rw [List.find?_eq_none]
    intro p hp hname
    rw [← beq_iff_eq.mp hname, isCustomName_eq_false hp] at hs
    cases hs
  simp [ofName?, hnone, hs]

/-- A name that is not one of a custom property is one of the registry, or of nothing. -/
theorem ofName?_eq_some_iff {s : String} (hs : isCustomName s = false) {p : Property} :
    ofName? s = some p ↔ p ∈ registered ∧ p.name = s := by
  have hname : ofName? s = registered.find? fun p => p.name == s := by simp [ofName?, hs]
  rw [hname]
  constructor
  · intro h
    exact ⟨List.mem_of_find?_eq_some h, by simpa using List.find?_some h⟩
  · rintro ⟨hp, rfl⟩
    revert p
    decide +kernel

end Property

/-! ### Pairs -/

/-- The text of a value in a rule: a string without the white space around it, or a number. -/
inductive IsRuleText : Json → String → Prop
  | string (s : String) : IsRuleText (.string s) (Text.trimmed s)
  | number (n : JsonNumber) : IsRuleText (.number n) n.text

/-- The declaration of a pair: one of a custom property if the trimmed key is a name of one, and
otherwise one of the property of this name. -/
inductive Declares : String × Json → Declaration → Prop
  | custom {key : String} {value : Json} {text : String} (hvalue : IsRuleText value text)
    (hkey : Property.isCustomName (Text.trimmed key) = true) :
    Declares (key, value) (.custom key text)
  | registered {key : String} {value : Json} {text : String} {p : Property}
    (hvalue : IsRuleText value text) (hkey : Property.isCustomName (Text.trimmed key) = false)
    (hp : p ∈ Property.registered) (hname : p.name = Text.trimmed key) :
    Declares (key, value) (.text p text)

/-- The rule of a pair is that of its declaration. -/
def MakesRule (pair : String × Json) (r : Rule) : Prop :=
  ∃ d, Declares pair d ∧ d.rule = r

theorem ruleText?_eq_some_iff {value : Json} {text : String} :
    ruleText? value = some text ↔ IsRuleText value text := by
  constructor
  · intro h
    cases value with
    | string s =>
        obtain rfl := Option.some.inj h
        exact .string s
    | number n =>
        obtain rfl := Option.some.inj h
        exact .number n
    | null | bool | array | object => cases h
  · rintro (s | n) <;> rfl

theorem declaration_eq_ok_iff {pair : String × Json} {d : Declaration} :
    declaration pair.1 pair.2 = .ok d ↔ Declares pair d := by
  obtain ⟨key, value⟩ := pair
  constructor
  · intro h
    unfold declaration at h
    split at h
    · cases h
    · rename_i text hvalue
      have htext := ruleText?_eq_some_iff.mp hvalue
      cases hkey : Property.isCustomName (Text.trimmed key) with
      | true =>
          rw [Property.ofName?_of_isCustomName hkey] at h
          obtain rfl := Except.ok.inj h
          exact .custom htext hkey
      | false =>
          split at h
          · rename_i hp
            obtain ⟨hmem, -⟩ := (Property.ofName?_eq_some_iff hkey).mp hp
            exact absurd hmem (by decide)
          · rename_i p _ hp
            obtain ⟨hmem, hname⟩ := (Property.ofName?_eq_some_iff hkey).mp hp
            obtain rfl := Except.ok.inj h
            exact .registered htext hkey hmem hname
          · cases h
  · rintro (⟨hvalue, hkey⟩ | ⟨hvalue, hkey, hp, hname⟩)
    · simp only [declaration, ruleText?_eq_some_iff.mpr hvalue,
        Property.ofName?_of_isCustomName hkey]
    · have hcustom : ∀ p ∈ Property.registered, p ≠ .custom := by decide
      simp only [declaration, ruleText?_eq_some_iff.mpr hvalue,
        (Property.ofName?_eq_some_iff hkey).mpr ⟨hp, hname⟩]
      split
      · rename_i heq
        exact absurd (Option.some.inj heq) (hcustom _ hp)
      · rename_i heq
        rw [Option.some.inj heq]
      · rename_i heq
        cases heq

/-- A pair declares one thing only. -/
theorem Declares.unique {pair : String × Json} {d d' : Declaration} (h : Declares pair d)
    (h' : Declares pair d') : d = d' := by
  rw [← declaration_eq_ok_iff] at h h'
  exact Except.ok.inj (h.symm.trans h')

theorem result_loadRule_eq_ok {pair : String × Json} {r : Rule} :
    (loadRule pair).result = .ok r ↔ MakesRule pair r := by
  simp only [MakesRule, ← declaration_eq_ok_iff]
  unfold loadRule
  cases declaration pair.1 pair.2 with
  | error e => simp [Reporting.fail]
  | ok d => simp [Reporting.declare_eq]

/-- The rules of pairs, made one by one. -/
theorem result_loadRules_eq_ok {pairs : List (String × Json)} {rules : List Rule} :
    (loadRules pairs).result = .ok rules ↔ List.Forall₂ MakesRule pairs rules := by
  rw [loadRules, Reporting.result_mapM_eq_ok]
  simp only [result_loadRule_eq_ok]

/-! ### Pseudo-classes and entries -/

/-- A pseudo-class under its keyword, and the rules of its pairs. -/
structure MakesState (state : String × Json) (made : PseudoClass × List Rule) : Prop where
  keyword : KeywordSet.keyword made.1 = state.1
  rules : ∃ pairs, state.2 = .object pairs ∧ List.Forall₂ MakesRule pairs made.2

/-- The content of an entry. -/
structure MakesContent (e : Entry) (c : Content) : Prop where
  text : c.text = e.selector
  nonblank : Text.isBlankText e.selector = false
  rules : List.Forall₂ MakesRule e.rules c.rules
  states : List.Forall₂ MakesState e.states c.states

theorem result_loadState_eq_ok {state : String × Json} {made : PseudoClass × List Rule} :
    (loadState state).result = .ok made ↔ MakesState state made := by
  obtain ⟨key, value⟩ := state
  obtain ⟨p, rules⟩ := made
  constructor
  · intro h
    unfold loadState at h
    split at h
    · cases h
    · rename_i q pairs hkey hvalue
      obtain ⟨rules, hrules, hmade⟩ := Reporting.result_bind_eq_ok.mp h
      obtain ⟨rfl, rfl⟩ := Prod.mk.inj (Except.ok.inj hmade)
      exact ⟨KeywordSet.ofKeyword?_eq_some.mp hkey, pairs, hvalue,
        result_loadRules_eq_ok.mp hrules⟩
    · cases h
  · rintro ⟨hkey, pairs, hvalue, hrules⟩
    obtain rfl : value = .object pairs := hvalue
    simp only [loadState, KeywordSet.ofKeyword?_eq_some.mpr hkey]
    exact Reporting.result_bind_eq_ok.mpr ⟨rules, result_loadRules_eq_ok.mpr hrules, rfl⟩

theorem result_content_eq_ok {e : Entry} {c : Content} :
    e.content.result = .ok c ↔ MakesContent e c := by
  unfold Entry.content
  split
  · rename_i hblank
    constructor
    · intro h
      cases h
    · intro h
      rw [h.nonblank] at hblank
      cases hblank
  · rename_i hblank
    simp only [Reporting.result_bind_eq_ok, Reporting.result_pure, Except.ok.injEq,
      Reporting.result_mapM_eq_ok, result_loadRules_eq_ok, result_loadState_eq_ok]
    constructor
    · rintro ⟨rules, hrules, states, hstates, rfl⟩
      exact ⟨rfl, eq_false_of_ne_true hblank, hrules, hstates⟩
    · rintro ⟨htext, -, hrules, hstates⟩
      exact ⟨c.rules, hrules, c.states, hstates, by rw [← htext]⟩

/-- A manifest has contents if each of its entries has. -/
theorem Manifest.result_contents_eq_ok {m : Manifest} {contents : List Content} :
    m.contents.result = .ok contents ↔ List.Forall₂ MakesContent m.entries contents := by
  rw [Manifest.contents, Reporting.result_mapM_eq_ok]
  simp only [result_content_eq_ok]

/-! ### What is begun -/

/-- If every item loads, what is begun is what is loaded. -/
theorem Reporting.begun_eq {α β : Type} {load : α → Reporting β} {begin? : α → Option β}
    {as : List α} {bs : List β}
    (hbegin : ∀ a b, (load a).result = .ok b → begin? a = some b)
    (hload : (as.mapM load).result = .ok bs) : Reporting.begun load begin? as = bs := by
  rw [Reporting.result_mapM_eq_ok] at hload
  induction hload with
  | nil => rfl
  | cons hab _ ih => simp [Reporting.begun, hbegin _ _ hab, hab, ih]

theorem begunState?_of_loadState {state : String × Json} {made : PseudoClass × List Rule}
    (h : (loadState state).result = .ok made) : begunState? state = some made := by
  obtain ⟨hkey, pairs, hvalue, hrules⟩ := result_loadState_eq_ok.mp h
  have hloaded := result_loadRules_eq_ok.mpr hrules
  simp [begunState?, KeywordSet.ofKeyword?_eq_some.mpr hkey, hvalue, hloaded, Except.toOption]

theorem Entry.begun?_of_content {e : Entry} {c : Content} (h : e.content.result = .ok c) :
    e.begun? = some c := by
  obtain ⟨htext, hblank, hrules, hstates⟩ := result_content_eq_ok.mp h
  have hloaded : (e.states.mapM loadState).result = .ok c.states := by
    rw [Reporting.result_mapM_eq_ok]
    simpa only [result_loadState_eq_ok] using hstates
  have hbegun := Reporting.begun_eq (fun _ _ => begunState?_of_loadState) hloaded
  simp only [Entry.begun?, hblank, Bool.false_eq_true, if_false, result_loadRules_eq_ok.mpr hrules,
    hbegun]
  rw [← htext]

/-- Loading a manifest that has contents begins these and no others. -/
theorem Manifest.begun_of_contents {m : Manifest} {contents : List Content}
    (h : m.contents.result = .ok contents) : m.begun = contents :=
  Reporting.begun_eq (fun _ _ => Entry.begun?_of_content) h

end UiStyle
