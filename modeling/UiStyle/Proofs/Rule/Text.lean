import Mathlib.Data.List.Infix
import UiStyle.Declaration

/-!
# The text of a rule

A rule is written `name: value;`.  Reading it back means cutting at the first colon that a space
follows: `splitAtMark` does so, and finds the name as long as the name holds no such colon itself
(`splitAtMark_append`).  Names of registered properties hold no colon at all.

Rules are made in two ways, by `Rule.withValidity` and by `Rule.custom`, and all declarations go
through one of them (`Declaration.built_rule`).  So no name starts with a space (`head?_text`),
which tells the text of a rule from the spaces in front of it.
-/

namespace UiStyle

namespace Rule

/-! ### Characters -/

theorem toList_text (r : Rule) :
    r.text.toList = r.name.toList ++ ':' :: ' ' :: (r.value.toList ++ [';']) := by
  simp [text, String.toList_append]

theorem toList_indented (r : Rule) (indent : Nat) :
    (r.indented indent).toList = List.replicate indent ' ' ++ r.text.toList := by
  simp [indented, String.toList_append]

/-- The line of a rule ends in a semicolon. -/
theorem getLast?_indented (r : Rule) (indent : Nat) :
    (r.indented indent).toList.getLast? = some ';' := by
  have hline : (r.indented indent).toList =
      List.replicate indent ' ' ++ (r.name.toList ++ ':' :: ' ' :: r.value.toList) ++ [';'] := by
    simp [toList_indented, toList_text]
  rw [hline, List.getLast?_concat]

/-! ### Reading a rule -/

/-- What stands in front of the first colon that a space follows, and what stands behind the
space. -/
def splitAtMark : List Char → Option (List Char × List Char)
  | ':' :: ' ' :: rest => some ([], rest)
  | c :: rest => (splitAtMark rest).map fun (name, value) => (c :: name, value)
  | [] => none

/-- The name and the value in the text of a rule. -/
def ofText? (text : String) : Option (String × String) :=
  (splitAtMark text.toList).map fun (name, value) => (.ofList name, .ofList value.dropLast)

/-- The name and the value in the line of a rule behind `indent` spaces. -/
def ofLine? (indent : Nat) (line : String) : Option (String × String) :=
  ofText? (.ofList (line.toList.drop indent))

theorem splitAtMark_mark (rest : List Char) :
    splitAtMark (':' :: ' ' :: rest) = some ([], rest) := by
  rw [splitAtMark]

/-- The mark behind a name is the first one if the name does not hold another. -/
theorem splitAtMark_append {name : List Char} (h : ¬ [':', ' '] <:+: name) (value : List Char) :
    splitAtMark (name ++ ':' :: ' ' :: value) = some (name, value) := by
  induction name with
  | nil => exact splitAtMark_mark value
  | cons c name ih =>
      have hrest : ¬ [':', ' '] <:+: name :=
        fun hin => h (hin.trans (List.suffix_cons c name).isInfix)
      -- a colon at the front of the name is followed by another character of the name, which is no
      -- space, or by the colon of the mark
      have hmark : ∀ rest, c :: (name ++ ':' :: ' ' :: value) ≠ ':' :: ' ' :: rest := by
        intro rest heq
        obtain ⟨rfl, htail⟩ := List.cons.inj heq
        cases name with
        | nil => cases htail
        | cons d name =>
            obtain ⟨rfl, -⟩ := List.cons.inj htail
            exact h ⟨[], name, rfl⟩
      rw [List.cons_append, splitAtMark, ih hrest]
      · rfl
      · intro rest h₁ h₂
        exact hmark rest (by rw [h₁, h₂])

theorem ofText?_text {r : Rule} (h : ¬ [':', ' '] <:+: r.name.toList) :
    ofText? r.text = some (r.name, r.value) := by
  rw [ofText?, toList_text, splitAtMark_append h]
  simp

/-- From its line, the name and the value of a rule can be read. -/
theorem ofLine?_indented {r : Rule} (h : ¬ [':', ' '] <:+: r.name.toList) (indent : Nat) :
    ofLine? indent (r.indented indent) = some (r.name, r.value) := by
  rw [ofLine?, toList_indented, List.drop_left' (List.length_replicate ..), String.ofList_toList,
    ofText?_text h]

/-! ### Rules that can be made -/

/-- A rule that was made for a property or for a custom property. -/
inductive Built : Rule → Prop
  | withValidity (p : Property) (value : String) (valid : Bool) :
    Built (.withValidity p value valid)
  | custom (name value : String) : Built (.custom name value)

end Rule

theorem Property.colon_notMem_name (p : Property) : ':' ∉ p.name.toList := by
  cases p <;> decide

/-- The name of a property holds no mark between a name and a value. -/
theorem Property.not_mark_infix_name (p : Property) : ¬ [':', ' '] <:+: p.name.toList := by
  intro h
  exact p.colon_notMem_name (h.subset (List.mem_cons_self ..))

theorem Property.head?_name (p : Property) : ∃ c, p.name.toList.head? = some c ∧ c ≠ ' ' := by
  cases p <;> exact ⟨_, rfl, by decide⟩

/-- Every declaration makes its rule in one of the two ways. -/
theorem Declaration.built_rule (d : Declaration) : d.rule.Built := by
  unfold Declaration.rule
  split
  · exact .custom _ _
  · exact .withValidity _ _ _

/-- No rule that can be made starts with a space. -/
theorem Rule.Built.head?_text {r : Rule} (h : r.Built) :
    ∃ c, r.text.toList.head? = some c ∧ c ≠ ' ' := by
  have hname : ∃ c, r.name.toList.head? = some c ∧ c ≠ ' ' := by
    cases h with
    | withValidity p value valid => exact p.head?_name
    | custom name value =>
        refine ⟨'-', ?_, by decide⟩
        simp [Rule.custom, Property.customMark]
  obtain ⟨c, hc, hspace⟩ := hname
  refine ⟨c, ?_, hspace⟩
  rw [Rule.toList_text, List.head?_append, hc]
  rfl

end UiStyle
