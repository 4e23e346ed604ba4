import UiStyle.Manifest.Basic
import UiStyle.Proofs.Json.Yields
import UiStyle.Proofs.Manifest.Contents
import UiStyle.Proofs.Manifest.Numbering
import UiStyle.Proofs.Selector.RuleMap

/-!
# The sheet of a manifest

`Entry.Describes` says what selector an entry stands for, without identities: its text trimmed, its
rules in the order of their pairs, where pairs of one name share the place of the first and the rule
of the last, and a block for each of its pseudo-classes, in order and even if no rules are in it.
A manifest that loads has such a selector for every entry, in order (`Manifest.describes_of_load`).

The rules and the pseudo-classes of an entry are maps.  In a manifest that was read from a document
no key occurs twice in them (`Manifest.distinctKeys_of_parse`), however often it does in the
document.  So numbering finds each block of a pseudo-class missing and appends it
(`fillState_of_fresh`); one such step after the other, a selector is made of exactly what its
content lists (`Content.number_eq`).
-/

namespace UiStyle

/-! ### Maps of a manifest -/

/-- No key occurs twice in a map of an entry. -/
structure Entry.DistinctKeys (e : Entry) : Prop where
  rules : (Json.keys e.rules).Nodup
  states : (Json.keys e.states).Nodup

/-- No key occurs twice in a map of a manifest. -/
def Manifest.DistinctKeys (m : Manifest) : Prop :=
  ∀ e ∈ m.entries, e.DistinctKeys

/-- A field keeps a property if setting it to what its reader yields does. -/
theorem Json.Field.keeps_of {σ α : Type} {I : σ → Prop} {P : α → Prop} {name : String}
    {required : Bool} {read : Nat → Json.Reader α} {set : α → σ → σ}
    (hread : ∀ depth, (read depth).Yields P)
    (hset : ∀ a, P a → ∀ record, I record → I (set a record)) :
    (Json.Field.of name required read set).Keeps I := by
  intro depth s l hl
  simp only [Json.Field.of] at hl
  cases hvalue : read depth s with
  | error e =>
      rw [hvalue] at hl
      cases hl
  | ok v =>
      rw [hvalue] at hl
      obtain rfl := Except.ok.inj hl
      exact hset v.value (hread depth s v hvalue)

theorem Json.yields_true {α : Type} (reader : Json.Reader α) : reader.Yields fun _ => True :=
  fun _ _ _ => trivial

theorem Entry.yields_readRecord (depth : Nat) :
    (Json.readRecord Entry.shape depth).Yields Entry.DistinctKeys := by
  apply Json.yields_readRecord
  · exact ⟨List.nodup_nil, List.nodup_nil⟩
  · simp only [Entry.shape, List.forall_mem_cons]
    refine ⟨?_, ?_, ?_, nofun⟩
    · exact Json.Field.keeps_of (fun _ => Json.yields_true _) fun _ _ _ he => ⟨he.rules, he.states⟩
    · exact Json.Field.keeps_of Json.yields_readMap fun _ hrules _ he => ⟨hrules, he.states⟩
    · exact Json.Field.keeps_of Json.yields_readMap fun _ hstates _ he => ⟨he.rules, hstates⟩

theorem Manifest.yields_readRecord (depth : Nat) :
    (Json.readRecord Manifest.shape depth).Yields Manifest.DistinctKeys := by
  apply Json.yields_readRecord
  · exact nofun
  · simp only [Manifest.shape, List.forall_mem_cons]
    refine ⟨?_, ?_, nofun⟩
    · exact Json.Field.keeps_of (fun _ => Json.yields_true _) fun _ _ _ hm => hm
    · exact Json.Field.keeps_of (Json.yields_readList Entry.yields_readRecord)
        fun _ hentries _ _ => hentries

/-- Whatever a document repeats, the maps of the manifest it is read as do not. -/
theorem Manifest.distinctKeys_of_parse {input : Json.Bytes} {m : Manifest}
    (h : Manifest.parse input = .ok m) : m.DistinctKeys := by
  unfold Manifest.parse at h
  split at h
  · cases h
  · rename_i read hread
    split at h
    · cases h
    · rw [← Except.ok.inj h]
      exact (Manifest.yields_readRecord _).document hread

/-! ### Numbering -/

namespace Content

/-- Blocks of pseudo-classes, with identities from `next` on. -/
def stateBlocks (text : String) (next : Nat) : List (PseudoClass × List Rule) → List Block
  | [] => []
  | (p, rules) :: states =>
    ⟨next, text, some p, lastOfEach rules⟩ :: stateBlocks text (next + 1) states

/-- The block of a pseudo-class that is missing comes behind the others. -/
theorem fillState_of_fresh {s : Selector} {p : PseudoClass} (hp : s.state? p = none) (next : Nat)
    (rules : List Rule) :
    fillState (s, next) (p, rules) =
      ({ s with states := s.states ++ [⟨next, s.text, some p, lastOfEach rules⟩] }, next + 1) := by
  have hothers : ∀ b ∈ s.states, (b.pseudoClass == some p) = false := by
    intro b hb
    exact eq_false_of_ne_true (List.find?_eq_none.mp hp b hb)
  simp only [fillState, Selector.opened_of_state?_eq_none hp, fill_state, List.map_append,
    List.map_singleton, Selector.newState, beq_self_eq_true, if_true, foldl_insertRule]
  rw [List.map_congr_left (g := id), List.map_id]
  intro b hb
  simp [hothers b hb]

/-- Different pseudo-classes without blocks get theirs one behind the other. -/
theorem foldl_fillState {s : Selector} {states : List (PseudoClass × List Rule)}
    (hdistinct : (states.map Prod.fst).Nodup)
    (hfresh : ∀ p ∈ states.map Prod.fst, s.state? p = none) (next : Nat) :
    states.foldl fillState (s, next) =
      ({ s with states := s.states ++ stateBlocks s.text next states },
        next + states.length) := by
  induction states generalizing s next with
  | nil => simp [stateBlocks]
  | cons state states ih =>
      obtain ⟨p, rules⟩ := state
      obtain ⟨hnew, hdistinct⟩ := List.nodup_cons.mp hdistinct
      obtain ⟨hp, hfresh⟩ := List.forall_mem_cons.mp hfresh
      rw [List.foldl_cons, fillState_of_fresh hp, ih hdistinct]
      · simp [stateBlocks, Nat.add_comm, Nat.add_left_comm]
      · -- the block that came in is of another pseudo-class than those still to come
        intro q hq
        have hne : p ≠ q := by
          rintro rfl
          exact hnew hq
        have hq := hfresh q hq
        rw [Selector.state?] at hq ⊢
        simp [List.find?_append, hq, hne]

/-- What the selector of some content is, and how many identities it takes. -/
theorem number_eq {c : Content} (hdistinct : (c.states.map Prod.fst).Nodup) (next : Nat) :
    c.number next =
      ({ id := next, text := Text.trimmed c.text, pseudoClass := none,
         rules := lastOfEach c.rules,
         states := stateBlocks (Text.trimmed c.text) (next + 1) c.states },
        next + 1 + c.states.length) := by
  rw [number, fill_own, foldl_fillState hdistinct]
  · simp [Selector.new, foldl_insertRule]
  · exact fun _ _ => rfl

end Content

/-! ### What an entry stands for -/

/-- Rules in the order of their pairs, where pairs that make rules of one name share the place of
the first and the rule of the last. -/
def DescribesRules (pairs : List (String × Json)) (rules : List Rule) : Prop :=
  ∃ made, List.Forall₂ MakesRule pairs made ∧ rules = lastOfEach made

/-- The block of a pseudo-class under its keyword, in a selector of a text. -/
structure DescribesState (text : String) (state : String × Json) (b : Block) : Prop where
  pseudoClass : ∃ p, b.pseudoClass = some p ∧ KeywordSet.keyword p = state.1
  text : b.text = text
  rules : ∃ pairs, state.2 = .object pairs ∧ DescribesRules pairs b.rules

/-- The selector of an entry. -/
structure Entry.Describes (e : Entry) (s : Selector) : Prop where
  text : s.text = Text.trimmed e.selector
  plain : s.pseudoClass = none
  rules : DescribesRules e.rules s.rules
  states : List.Forall₂ (DescribesState s.text) e.states s.states

theorem describes_stateBlocks {states : List (String × Json)}
    {made : List (PseudoClass × List Rule)} (hmade : List.Forall₂ MakesState states made)
    (text : String) (next : Nat) :
    List.Forall₂ (DescribesState text) states (Content.stateBlocks text next made) := by
  induction hmade generalizing next with
  | nil => exact .nil
  | cons hstate _ ih =>
      obtain ⟨hkeyword, pairs, hvalue, hrules⟩ := hstate
      exact .cons ⟨⟨_, rfl, hkeyword⟩, rfl, pairs, hvalue, _, hrules, rfl⟩ (ih (next + 1))

/-- Different keywords are those of different pseudo-classes. -/
theorem nodup_of_makesState {states : List (String × Json)} {made : List (PseudoClass × List Rule)}
    (hmade : List.Forall₂ MakesState states made) (hkeys : (Json.keys states).Nodup) :
    (made.map Prod.fst).Nodup := by
  have hkeywords : (made.map Prod.fst).map KeywordSet.keyword = Json.keys states := by
    clear hkeys
    induction hmade with
    | nil => rfl
    | cons hstate _ ih =>
        unfold Json.keys at ih ⊢
        simp only [List.map_cons, ih, hstate.keyword]
  rw [← hkeywords] at hkeys
  exact hkeys.of_map _

theorem describes_number {e : Entry} {c : Content} (hc : MakesContent e c)
    (hkeys : e.DistinctKeys) (next : Nat) : e.Describes (c.number next).1 := by
  rw [Content.number_eq (nodup_of_makesState hc.states hkeys.states), hc.text]
  exact ⟨rfl, rfl, ⟨c.rules, hc.rules, rfl⟩, describes_stateBlocks hc.states _ _⟩

/-- Numbered contents are described by the entries that they were made of. -/
theorem describes_of_makesContent {entries : List Entry} {contents : List Content}
    {selectors : List Selector} (hcontents : List.Forall₂ MakesContent entries contents)
    (hnumbered : List.Forall₂ (fun c t => ∃ next, (c.number next).1 = t) contents selectors)
    (hkeys : ∀ e ∈ entries, e.DistinctKeys) : List.Forall₂ Entry.Describes entries selectors := by
  induction hcontents generalizing selectors with
  | nil =>
      cases hnumbered
      exact .nil
  | cons hc _ ih =>
      obtain ⟨he, hkeys⟩ := List.forall_mem_cons.mp hkeys
      cases hnumbered with
      | cons ht hnumbered =>
          obtain ⟨next, rfl⟩ := ht
          exact .cons (describes_number hc he next) (ih hnumbered hkeys)

/-- A manifest that loads becomes a sheet of its name, with the layout that was asked for and one
selector for each entry, in order, and each selector is the one that its entry describes. -/
theorem Manifest.describes_of_load {m : Manifest} (hm : m.DistinctKeys) {layout : Layout}
    {next next' : Nat} {s : Sheet} (h : (m.load layout next).result = .ok (s, next')) :
    s.name = m.name ∧ s.layout = layout ∧ List.Forall₂ Entry.Describes m.entries s.selectors := by
  obtain ⟨contents, selectors, hcontents, hmade, hnumbered⟩ := Manifest.selectors_of_load h
  obtain rfl : s = _ := hmade
  have hcontents := Manifest.result_contents_eq_ok.mp hcontents
  exact ⟨rfl, rfl, describes_of_makesContent hcontents hnumbered hm⟩

/-- A manifest in which two pairs make rules of one name. -/
def Manifest.card : Manifest :=
  ⟨"Card", [⟨" .card ",
    [("--gap", .string "1px"), ("width", .string " 100% "), (" ----gap", .string "2px")],
    [("hover", .object [])]⟩]⟩

/-- What it loads as. -/
def Sheet.card : Sheet :=
  ⟨"Card", [{
    id := 1, text := ".card", pseudoClass := none,
    rules := [⟨"--gap", .custom, "2px", true⟩, ⟨"width", .width, "100%", true⟩],
    states := [⟨2, ".card", some .hover, []⟩] }], none, {}⟩

theorem Manifest.describes_of_load_card :
    Manifest.card.DistinctKeys ∧ (Manifest.card.load {} 1).result = .ok (Sheet.card, 3) ∧
      List.Forall₂ Entry.Describes Manifest.card.entries Sheet.card.selectors := by
  have hkeys : Manifest.card.DistinctKeys := by
    intro e he
    rw [List.mem_singleton.mp he]
    exact ⟨by decide, by decide⟩
  have hload : (Manifest.card.load {} 1).result = .ok (Sheet.card, 3) := by rfl
  exact ⟨hkeys, hload, (Manifest.describes_of_load hkeys hload).2.2⟩

end UiStyle
