import Mathlib.Logic.ExistsUnique
import UiStyle.Proofs.Selector.WellFormed

/-!
# What a history of edits leaves

The rules of a block can be told from the edits that were made, without going through the states in
between.  Under a name stands the rule of the last edit that was about the name, if this was an
insertion (`ruleAfter?`), and the names stand in the order in which they came in.  An edit is how a
name comes in (`ComesIn`) if it inserts the name while it is absent and the name is not erased any
more; there is one such edit at most (`ComesIn.unique`).

One edit more changes both in the same way in which it changes the block:

```text
insert, name absent      its rule is the last one      the name comes in, behind the others
insert, name there       its rule is the last one      nothing comes in
erase                    nothing is left               how the name came in does not count
```

So `LeftBy`, which says that some rules are what a history leaves, is kept by an edit
(`LeftBy.edit`).  What a single edit does to a list of rules, and which rule it answers with, is
`Edit.Puts`; it is all that is needed to undo an insertion (`edit_undoing`).
-/

namespace UiStyle

namespace Edit

/-- The name that an edit is about. -/
def name : Edit → String
  | insert r => r.name
  | erase name => name

/-- The rule that an edit leaves under its name. -/
def rule? : Edit → Option Rule
  | insert r => some r
  | erase _ => none

/-- What an edit does to rules: it puts what it leaves in the place of the rule that it answers
with, which is the first of its name, or behind all rules if there is none to answer with. -/
inductive Puts (e : Edit) : Option Rule → List Rule → List Rule → Prop
  | behind {rules : List Rule} (habsent : e.name ∉ ruleNames rules) :
    Puts e none rules (rules ++ e.rule?.toList)
  | inPlace {front behind : List Rule} {old : Rule} (hname : old.name = e.name)
    (hfront : e.name ∉ ruleNames front) :
    Puts e (some old) (front ++ old :: behind) (front ++ (e.rule?.toList ++ behind))

/-- The edit that undoes the insertion of a rule, given what the insertion answered. -/
def undoing (r : Rule) : Option Rule → Edit
  | some old => insert old
  | none => erase r.name

end Edit

/-! ### Histories -/

/-- The rule under a name after some edits: what the last edit of this name has left. -/
def ruleAfter? (name : String) (edits : List Edit) : Option Rule :=
  (edits.reverse.find? fun e => e.name == name).bind Edit.rule?

/-- Whether the edit at position `n` is how a name came in: it inserted the name while it was
absent, and the name has not been erased since. -/
structure ComesIn (edits : List Edit) (n : Nat) (name : String) : Prop where
  inserted : ∃ r : Rule, edits[n]? = some (.insert r) ∧ r.name = name
  absent : ruleAfter? name (edits.take n) = none
  stays : Edit.erase name ∉ edits.drop (n + 1)

/-- Some rules are what a history leaves: of different names, under each of them the rule that the
history has for it, and in the order in which the names came in. -/
structure LeftBy (edits : List Edit) (rules : List Rule) : Prop where
  distinct_names : (ruleNames rules).Nodup
  findRule?_eq : ∀ name, findRule? name rules = ruleAfter? name edits
  came_in : ∀ name ∈ ruleNames rules, ∃! n, ComesIn edits n name
  in_order : (ruleNames rules).Pairwise fun first second =>
    ∃ m n, m < n ∧ ComesIn edits m first ∧ ComesIn edits n second

theorem ruleAfter?_concat (name : String) (edits : List Edit) (e : Edit) :
    ruleAfter? name (edits ++ [e]) = if e.name = name then e.rule? else ruleAfter? name edits := by
  rw [ruleAfter?, List.reverse_concat]
  split
  · rename_i hname
    rw [List.find?_cons_of_pos (by simpa using hname), Option.bind_some]
  · rename_i hname
    rw [List.find?_cons_of_neg (by simpa using hname), ruleAfter?]

namespace ComesIn

variable {edits : List Edit} {m n : Nat} {name : String}

theorem lt_length (h : ComesIn edits n name) : n < edits.length := by
  obtain ⟨r, hr, -⟩ := h.inserted
  exact (List.getElem?_eq_some_iff.mp hr).1

/-- How a name came in is not changed by later edits, unless one erases the name. -/
theorem concat_iff_of_lt (hn : n < edits.length) (e : Edit) :
    ComesIn (edits ++ [e]) n name ↔ ComesIn edits n name ∧ e ≠ .erase name := by
  have hget : (edits ++ [e])[n]? = edits[n]? := List.getElem?_append_left hn
  have htake : (edits ++ [e]).take n = edits.take n :=
    List.take_append_of_le_length (Nat.le_of_lt hn)
  have hdrop : (edits ++ [e]).drop (n + 1) = edits.drop (n + 1) ++ [e] :=
    List.drop_append_of_le_length hn
  constructor
  · rintro ⟨hinserted, habsent, hstays⟩
    rw [hget] at hinserted
    rw [htake] at habsent
    rw [hdrop, List.mem_append, not_or, List.mem_singleton] at hstays
    exact ⟨⟨hinserted, habsent, hstays.1⟩, Ne.symm hstays.2⟩
  · rintro ⟨⟨hinserted, habsent, hstays⟩, he⟩
    refine ⟨hget ▸ hinserted, htake ▸ habsent, ?_⟩
    rw [hdrop, List.mem_append, not_or, List.mem_singleton]
    exact ⟨hstays, Ne.symm he⟩

/-- The last edit is how a name came in if it inserts the name for the first time. -/
theorem concat_length_iff (e : Edit) :
    ComesIn (edits ++ [e]) edits.length name ↔
      (∃ r : Rule, e = .insert r ∧ r.name = name) ∧ ruleAfter? name edits = none := by
  have hget : (edits ++ [e])[edits.length]? = some e := List.getElem?_concat_length
  constructor
  · rintro ⟨⟨r, hr, hname⟩, habsent, -⟩
    rw [hget] at hr
    rw [List.take_left] at habsent
    exact ⟨⟨r, Option.some.inj hr, hname⟩, habsent⟩
  · rintro ⟨⟨r, rfl, hname⟩, habsent⟩
    exact ⟨⟨r, hget, hname⟩, by rwa [List.take_left], by simp⟩

theorem concat_iff (e : Edit) :
    ComesIn (edits ++ [e]) n name ↔
      (ComesIn edits n name ∧ e ≠ .erase name) ∨
        n = edits.length ∧ (∃ r : Rule, e = .insert r ∧ r.name = name) ∧
          ruleAfter? name edits = none := by
  constructor
  · intro h
    have hn := h.lt_length
    rw [List.length_append, List.length_singleton] at hn
    rcases Nat.lt_succ_iff_lt_or_eq.mp hn with hn | rfl
    · exact .inl ((concat_iff_of_lt hn e).mp h)
    · exact .inr ⟨rfl, (concat_length_iff e).mp h⟩
  · rintro (h | ⟨rfl, h⟩)
    · exact (concat_iff_of_lt h.1.lt_length e).mpr h
    · exact (concat_length_iff e).mpr h

/-- A name that came in is there. -/
theorem ruleAfter?_ne_none (h : ComesIn edits n name) : ruleAfter? name edits ≠ none := by
  induction edits using List.reverseRecOn with
  | nil => exact absurd h.lt_length (Nat.not_lt_zero n)
  | append_singleton edits e ih =>
      rw [ruleAfter?_concat]
      rcases (concat_iff e).mp h with ⟨hbefore, he⟩ | ⟨-, ⟨r, rfl, hname⟩, -⟩
      · cases e with
        | insert r =>
            split
            · exact Option.some_ne_none r
            · exact ih hbefore
        | erase erased =>
            have hne : (Edit.erase erased).name ≠ name := fun heq => he (congrArg Edit.erase heq)
            rw [if_neg hne]
            exact ih hbefore
      · rw [Edit.name, if_pos hname]
        exact Option.some_ne_none r

/-- A name comes in by one edit only, however often it was inserted. -/
theorem unique (hm : ComesIn edits m name) (hn : ComesIn edits n name) : m = n := by
  induction edits using List.reverseRecOn with
  | nil => exact absurd hm.lt_length (Nat.not_lt_zero m)
  | append_singleton edits e ih =>
      rcases (concat_iff e).mp hm with ⟨hm, -⟩ | ⟨rfl, -, habsent⟩
      · rcases (concat_iff e).mp hn with ⟨hn, -⟩ | ⟨-, -, habsent⟩
        · exact ih hm hn
        · exact absurd habsent hm.ruleAfter?_ne_none
      · rcases (concat_iff e).mp hn with ⟨hn, -⟩ | ⟨rfl, -⟩
        · exact absurd habsent hn.ruleAfter?_ne_none
        · rfl

/-- A name that is there came in. -/
theorem exists_of_ruleAfter?_ne_none (h : ruleAfter? name edits ≠ none) :
    ∃ n, ComesIn edits n name := by
  induction edits using List.reverseRecOn with
  | nil => exact absurd rfl h
  | append_singleton edits e ih =>
      rw [ruleAfter?_concat] at h
      by_cases hbefore : ruleAfter? name edits = none
      · -- it was absent before, so the last edit has inserted it
        rw [hbefore] at h
        cases e with
        | insert r =>
            have hname : r.name = name := (ite_ne_right_iff.mp h).1
            exact ⟨edits.length, (concat_length_iff _).mpr ⟨⟨r, rfl, hname⟩, hbefore⟩⟩
        | erase erased => simp [Edit.rule?] at h
      · obtain ⟨n, hn⟩ := ih hbefore
        refine ⟨n, (concat_iff e).mpr (.inl ⟨hn, ?_⟩)⟩
        rintro rfl
        simp [Edit.name, Edit.rule?] at h

theorem existsUnique_iff : (∃! n, ComesIn edits n name) ↔ ruleAfter? name edits ≠ none := by
  constructor
  · rintro ⟨n, hn, -⟩
    exact hn.ruleAfter?_ne_none
  · intro h
    obtain ⟨n, hn⟩ := exists_of_ruleAfter?_ne_none h
    exact ⟨n, hn, fun m hm => unique hm hn⟩

end ComesIn

/-! ### Edits of a block -/

theorem leftBy_nil : LeftBy [] [] where
  distinct_names := List.nodup_nil
  findRule?_eq _ := rfl
  came_in := by simp
  in_order := List.Pairwise.nil

namespace LeftBy

variable {edits : List Edit} {b : Block}

theorem findRule?_edit (h : LeftBy edits b.rules) (e : Edit) (name : String) :
    findRule? name (b.edit e).2.rules = ruleAfter? name (edits ++ [e]) := by
  rw [ruleAfter?_concat, ← h.findRule?_eq]
  cases e with
  | insert r => exact findRule?_insertRule name r b.rules
  | erase erased => exact findRule?_eraseRule h.distinct_names name erased

/-- A name that comes in comes in behind the others, and one that is erased leaves the others in
order. -/
theorem in_order_edit (h : LeftBy edits b.rules) (e : Edit) :
    (ruleNames (b.edit e).2.rules).Pairwise fun first second =>
      ∃ m n, m < n ∧ ComesIn (edits ++ [e]) m first ∧ ComesIn (edits ++ [e]) n second := by
  have hkept : ∀ n name, ComesIn edits n name → e ≠ .erase name → ComesIn (edits ++ [e]) n name :=
    fun n name hn he => (ComesIn.concat_iff e).mpr (.inl ⟨hn, he⟩)
  cases e with
  | insert r =>
      have hold : (ruleNames b.rules).Pairwise fun first second => ∃ m n, m < n ∧
          ComesIn (edits ++ [.insert r]) m first ∧ ComesIn (edits ++ [.insert r]) n second := by
        refine h.in_order.imp ?_
        rintro first second ⟨m, n, hlt, hm, hn⟩
        exact ⟨m, n, hlt, hkept m first hm nofun, hkept n second hn nofun⟩
      have hnames : ruleNames (b.edit (.insert r)).2.rules = _ := ruleNames_insertRule r b.rules
      rw [hnames]
      split
      · exact hold
      · rename_i hnew
        have habsent : ruleAfter? r.name edits = none := by
          rw [← h.findRule?_eq, findRule?_eq_none_iff]
          exact hnew
        refine List.pairwise_append.mpr ⟨hold, List.pairwise_singleton _ _, ?_⟩
        intro first hfirst second hsecond
        rw [List.mem_singleton.mp hsecond]
        obtain ⟨m, hm, -⟩ := h.came_in first hfirst
        exact ⟨m, edits.length, hm.lt_length, hkept m first hm nofun,
          (ComesIn.concat_length_iff _).mpr ⟨⟨r, rfl, rfl⟩, habsent⟩⟩
  | erase erased =>
      have hnames : ruleNames (b.edit (.erase erased)).2.rules = (ruleNames b.rules).erase erased :=
        ruleNames_eraseRule erased b.rules
      have hother : ∀ name ∈ (ruleNames b.rules).erase erased,
          Edit.erase erased ≠ .erase name := by
        rintro name hname heq
        rw [Edit.erase.injEq] at heq
        exact h.distinct_names.not_mem_erase (heq ▸ hname)
      rw [hnames]
      refine (h.in_order.sublist List.erase_sublist).imp_of_mem ?_
      rintro first second hfirst hsecond ⟨m, n, hlt, hm, hn⟩
      exact ⟨m, n, hlt, hkept m first hm (hother first hfirst),
        hkept n second hn (hother second hsecond)⟩

/-- One edit more leaves what the longer history does. -/
theorem edit (h : LeftBy edits b.rules) (e : Edit) :
    LeftBy (edits ++ [e]) (b.edit e).2.rules where
  distinct_names := Block.edit_distinct_names e h.distinct_names
  findRule?_eq := h.findRule?_edit e
  came_in name hname := by
    rw [ComesIn.existsUnique_iff, ← h.findRule?_edit e, ne_eq, findRule?_eq_none_iff, not_not]
    exact hname
  in_order := h.in_order_edit e

end LeftBy

namespace Block

/-- An edit answers with what stood under its name. -/
theorem edit_answer (b : Block) (e : Edit) : (b.edit e).1 = findRule? e.name b.rules := by
  cases e <;> rfl

theorem puts_edit (b : Block) (e : Edit) : e.Puts (b.edit e).1 b.rules (b.edit e).2.rules := by
  rw [edit_answer]
  cases hfind : findRule? e.name b.rules with
  | none =>
      have habsent := findRule?_eq_none_iff.mp hfind
      have hrules : (b.edit e).2.rules = b.rules ++ e.rule?.toList := by
        cases e with
        | insert r => exact insertRule_of_notMem habsent
        | erase name => exact (eraseRule_of_notMem habsent).trans (List.append_nil _).symm
      rw [hrules]
      exact .behind habsent
  | some old =>
      obtain ⟨hname, front, behind, hb, hfront⟩ := exists_of_findRule? hfind
      have hrules : (b.edit e).2.rules = front ++ (e.rule?.toList ++ behind) := by
        cases e with
        | insert r =>
            rw [edit, hb]
            exact insertRule_append_cons hname hfront behind
        | erase name =>
            obtain rfl : old.name = name := hname
            rw [edit, hb]
            exact eraseRule_append_cons hfront behind
      rw [hrules, hb]
      exact .inPlace hname hfront

/-- Undoing an insertion restores the block. -/
theorem edit_undoing (b : Block) (r : Rule) :
    ((b.edit (.insert r)).2.edit (Edit.undoing r (b.edit (.insert r)).1)).2 = b := by
  have hputs := b.puts_edit (.insert r)
  have hkept : ∀ e : Edit, (b.edit e).2 = { b with rules := (b.edit e).2.rules } := by
    intro e
    cases e <;> rfl
  rw [hkept]
  generalize (b.edit (.insert r)).1 = answer, (b.edit (.insert r)).2.rules = after at hputs
  obtain ⟨id, text, pseudoClass, rules⟩ := b
  cases hputs with
  | behind habsent =>
      have hrules : eraseRule r.name (rules ++ r :: []) = rules ++ [] :=
        eraseRule_append_cons habsent []
      simp [Edit.undoing, Edit.rule?, edit, hrules]
  | @inPlace front behind old hname hfront =>
      have hrules : insertRule old (front ++ r :: behind) = front ++ old :: behind :=
        insertRule_append_cons hname.symm (hname ▸ hfront) behind
      simp [Edit.undoing, Edit.rule?, edit, hrules]

end Block

/-! ### Edits of a selector -/

namespace Selector

/-- Changing the block of a pseudo-class changes what is found under it. -/
theorem state?_modifyAt {f : Block → Block} (hf : ∀ b, (f b).pseudoClass = b.pseudoClass)
    (s : Selector) (p : PseudoClass) : (s.modifyAt f (.state p)).state? p = (s.state? p).map f := by
  have hsame : ((fun b : Block => b.pseudoClass == some p) ∘
      fun b => if b.pseudoClass == some p then f b else b) = fun b => b.pseudoClass == some p := by
    funext b
    simp only [Function.comp_apply]
    split
    · rw [hf]
    · rfl
  rw [state?, modifyAt, List.find?_map, hsame, ← state?]
  cases hb : s.state? p with
  | none => rfl
  | some b =>
      have hclass : (b.pseudoClass == some p) = true := by
        rw [pseudoClass_of_state? hb, beq_self_eq_true]
      rw [Option.map_some, Option.map_some, if_pos hclass]

/-- Whether there is a block at a place. -/
def Has (s : Selector) : Place → Prop
  | .own => True
  | .state p => (s.state? p).isSome = true

theorem has_opened (s : Selector) (next : Nat) (place : Place) :
    (s.opened next place).1.Has place := by
  cases place with
  | own => trivial
  | state p =>
      obtain ⟨b, hb⟩ := s.state?_opened next p
      rw [Has, hb]
      rfl

/-- An edit at a place is an edit of the block there. -/
theorem blockAt_editAt {s : Selector} {place : Place} (h : s.Has place) (e : Edit) :
    (s.editAt place e).2.blockAt place = ((s.blockAt place).edit e).2 := by
  cases place with
  | own => rfl
  | state p =>
      obtain ⟨b, hb⟩ := Option.isSome_iff_exists.mp h
      have hstate : (s.editAt (.state p) e).2.state? p = some (b.edit e).2 := by
        rw [editAt, state?_modifyAt fun b => b.edit_pseudoClass e, hb, Option.map_some]
      rw [blockAt_of_state? hstate, blockAt_of_state? hb]

theorem Has.editAt {s : Selector} {place : Place} (h : s.Has place) (e : Edit) :
    (s.editAt place e).2.Has place := by
  cases place with
  | own => trivial
  | state p =>
      rw [Has, Selector.editAt, state?_modifyAt fun b => b.edit_pseudoClass e, Option.isSome_map]
      exact h

/-- A new selector after edits of its block at a place. -/
def afterEdits (id next : Nat) (text : String) (place : Place) (edits : List Edit) : Selector :=
  edits.foldl (fun s e => (s.editAt place e).2) ((new id text).opened next place).1

/-- The block at a place is a map that keeps an order and has come about by a history of edits:

* its rules are what the history leaves;
* an edit answers with the rule that stood under its name, and puts what it leaves in the place of
  this rule or, if there was none, behind all others;
* inserting a rule is undone by inserting the rule that was answered, or by erasing the name if
  there was none. -/
structure MapsBy (edits : List Edit) (s : Selector) (place : Place) : Prop where
  leftBy : LeftBy edits (s.blockAt place).rules
  answer_eq : ∀ e, (s.editAt place e).1 = ruleAfter? e.name edits
  puts : ∀ e : Edit, e.Puts (s.editAt place e).1 (s.blockAt place).rules
    ((s.editAt place e).2.blockAt place).rules
  undone : ∀ r, (((s.editAt place (.insert r)).2.editAt place
    (.undoing r (s.editAt place (.insert r)).1)).2.blockAt place).rules = (s.blockAt place).rules

variable (id next : Nat) (text : String) (place : Place) (edits : List Edit)

theorem has_afterEdits : (afterEdits id next text place edits).Has place := by
  induction edits using List.reverseRecOn with
  | nil => exact has_opened _ next place
  | append_singleton edits e ih =>
      rw [afterEdits, List.foldl_append]
      exact ih.editAt e

theorem rules_blockAt_new : (((new id text).opened next place).1.blockAt place).rules = [] := by
  cases place with
  | own => rfl
  | state p =>
      have hnone : (new id text).state? p = none := rfl
      rw [opened_of_state?_eq_none hnone]
      simp [blockAt, state?, new, newState]

theorem leftBy_afterEdits :
    LeftBy edits ((afterEdits id next text place edits).blockAt place).rules := by
  induction edits using List.reverseRecOn with
  | nil =>
      rw [afterEdits, List.foldl_nil, rules_blockAt_new]
      exact leftBy_nil
  | append_singleton edits e ih =>
      have hblock := blockAt_editAt (has_afterEdits id next text place edits) e
      rw [afterEdits, List.foldl_append]
      exact hblock ▸ ih.edit e

/-- **Blocks are maps that keep an order.**  Take a block of a new selector, its own or that of a
pseudo-class, and edit it any number of times.  For each name it then holds the rule that was
inserted last since the name was last erased, and no other; its rules stand in the order in which
their names were inserted while absent.  One edit more answers with the rule that was there under
its name, and an insertion can be undone. -/
theorem mapsBy_afterEdits : MapsBy edits (afterEdits id next text place edits) place := by
  have hplace := has_afterEdits id next text place edits
  have hleft := leftBy_afterEdits id next text place edits
  generalize afterEdits id next text place edits = s at hplace hleft
  refine ⟨hleft, fun e => ?_, fun e => ?_, fun r => ?_⟩
  · rw [← hleft.findRule?_eq]
    exact Block.edit_answer _ e
  · rw [blockAt_editAt hplace]
    exact Block.puts_edit _ e
  · rw [blockAt_editAt (hplace.editAt _), blockAt_editAt hplace]
    exact congrArg Block.rules (Block.edit_undoing _ r)

/-! A name that is erased and inserted again comes in behind the others. -/

example : ruleNames ((afterEdits 1 2 ".card" .own [.insert (.new .width "1px"),
    .insert (.new .height "2px"), .erase "width", .insert (.new .width "3px")]).blockAt
      .own).rules = ["height", "width"] := by
  decide

end Selector

end UiStyle
