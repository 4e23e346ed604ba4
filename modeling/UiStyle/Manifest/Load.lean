import UiStyle.Builder
import UiStyle.Manifest.Basic
import UiStyle.Sheet

/-!
# Loading manifests

Loading goes through a manifest in order: entry by entry, in an entry first its rules and then its
pseudo-classes, and pair by pair.  Each pair is a declaration, whose rule is reported if it is not
valid; the first pair, pseudo-class or selector text that is none ends it.  Rules that come to have
the same name share the place of the first and the value of the last.

What was reported before a failure stays reported.  Computations that report and can fail form a
lawful monad (`Reporting`): reports come in the order of the steps, however the steps are grouped.

The work has two halves.  `Manifest.contents` turns all pairs into rules and reports;
`Content.number` then gives identities to selectors and blocks, which cannot fail.  If the first
half fails, the identities of what was begun until then (`Manifest.begun`) are not given out again.
-/

namespace UiStyle

/-! ### Computations that report -/

/-- What was reported, and the result. -/
structure Reporting (α : Type) where
  reports : List Violation
  result : Except Failure α

namespace Reporting

instance : Monad Reporting where
  pure a := ⟨[], .ok a⟩
  bind x f :=
    match x.result with
    | .error e => ⟨x.reports, .error e⟩
    | .ok a => ⟨x.reports ++ (f a).reports, (f a).result⟩

theorem bind_ok {α β : Type} (reports : List Violation) (a : α) (f : α → Reporting β) :
    (⟨reports, .ok a⟩ : Reporting α) >>= f = ⟨reports ++ (f a).reports, (f a).result⟩ := rfl

theorem bind_error {α β : Type} (reports : List Violation) (e : Failure) (f : α → Reporting β) :
    (⟨reports, .error e⟩ : Reporting α) >>= f = ⟨reports, .error e⟩ := rfl

instance : LawfulMonad Reporting :=
  LawfulMonad.mk' Reporting
    (fun ⟨reports, result⟩ => by
      cases result with
      | error e => rfl
      | ok a => exact congrArg (Reporting.mk · (.ok a)) (List.append_nil reports))
    (fun _ _ => rfl)
    (fun ⟨reports, result⟩ f g => by
      cases result with
      | error e => rfl
      | ok a =>
        rw [bind_ok, bind_ok]
        cases h : f a with
        | mk more next =>
          cases next with
          | error e => rfl
          | ok b => simp only [bind_ok, List.append_assoc])

/-- A computation in two steps has a result if both steps have one. -/
theorem result_bind_eq_ok {α β : Type} {x : Reporting α} {f : α → Reporting β} {b : β} :
    (x >>= f).result = .ok b ↔ ∃ a, x.result = .ok a ∧ (f a).result = .ok b := by
  obtain ⟨reports, result⟩ := x
  cases result with
  | error e => simp [bind_error]
  | ok a => simp [bind_ok]

theorem result_pure {α : Type} (a : α) : (pure a : Reporting α).result = .ok a := rfl

/-- Nothing but a failure. -/
def fail {α : Type} (e : Failure) : Reporting α := ⟨[], .error e⟩

/-- Builds rules and keeps what is reported. -/
def builder : Builder Reporting where
  report v := ⟨[v], .ok ()⟩

/-- The rule of a declaration, reporting what is wrong with it. -/
def declare (d : Declaration) : Reporting Rule := builder.build d

theorem declare_eq (d : Declaration) : declare d = ⟨d.violation?.toList, .ok d.rule⟩ := by
  rw [declare, builder.build_eq]
  cases d.violation? <;> rfl

/-- What items begin one after the other, up to the first that does not load. -/
def begun {α β γ : Type} (load : α → Reporting β) (begin? : α → Option γ) : List α → List γ
  | [] => []
  | a :: rest =>
    (begin? a).toList ++
      match (load a).result with
      | .ok _ => begun load begin? rest
      | .error _ => []

end Reporting

/-! ### Contents -/

/-- The rules of a selector and of its pseudo-classes, as they are declared. -/
structure Content where
  text : String
  rules : List Rule
  states : List (PseudoClass × List Rule)

/-- The text of a value that can stand in a rule: a string trimmed, or a number. -/
def ruleText? : Json → Option String
  | .string s => some (Text.trimmed s)
  | .number n => some n.text
  | _ => none

/-- The declaration that a pair of a manifest stands for. -/
def declaration (key : String) (value : Json) : Except Failure Declaration :=
  match ruleText? value with
  | none => .error (Problem.valueNotScalar key value).failure
  | some text =>
    match Property.ofName? (Text.trimmed key) with
    | some .custom => .ok (.custom key text)
    | some p => .ok (.text p text)
    | none => .error (.unknownProperty key)

/-- The rule of a pair. -/
def loadRule (pair : String × Json) : Reporting Rule :=
  match declaration pair.1 pair.2 with
  | .error e => .fail e
  | .ok d => .declare d

/-- The rules of pairs, in order. -/
def loadRules (pairs : List (String × Json)) : Reporting (List Rule) :=
  pairs.mapM loadRule

/-- The rules of a pseudo-class. -/
def loadState (state : String × Json) : Reporting (PseudoClass × List Rule) :=
  match KeywordSet.ofKeyword? state.1, state.2 with
  | none, _ => .fail (Problem.unknownPseudoClass state.1).failure
  | some p, .object pairs => do return (p, ← loadRules pairs)
  | some _, _ => .fail (Problem.stateNotObject state.1).failure

/-- The rules of an entry. -/
def Entry.content (e : Entry) : Reporting Content :=
  if Text.isBlankText e.selector then .fail Problem.emptySelector.failure
  else do
    let rules ← loadRules e.rules
    let states ← e.states.mapM loadState
    return ⟨e.selector, rules, states⟩

/-- The block that a pseudo-class opens.  It stays empty if its rules do not load. -/
def begunState? (state : String × Json) : Option (PseudoClass × List Rule) :=
  match KeywordSet.ofKeyword? state.1, state.2 with
  | some p, .object pairs => some (p, (loadRules pairs).result.toOption.getD [])
  | _, _ => none

/-- The selector that an entry begins, with the blocks that are opened before something does not
load. -/
def Entry.begun? (e : Entry) : Option Content :=
  if Text.isBlankText e.selector then none
  else
    match (loadRules e.rules).result with
    | .error _ => some ⟨e.selector, [], []⟩
    | .ok rules => some ⟨e.selector, rules, Reporting.begun loadState begunState? e.states⟩

namespace Content

/-- Puts rules one after the other into the block at a place. -/
def fill (place : Place) (rules : List Rule) (s : Selector) : Selector :=
  rules.foldl (fun s r => (s.editAt place (.insert r)).2) s

/-- Opens the block of a pseudo-class and puts rules into it. -/
def fillState (made : Selector × Nat) (state : PseudoClass × List Rule) : Selector × Nat :=
  let (s, next) := made.1.opened made.2 (.state state.1)
  (fill (.state state.1) state.2 s, next)

/-- The selector of some content, with identities from `next` on, and the next identity after
them. -/
def number (c : Content) (next : Nat) : Selector × Nat :=
  c.states.foldl fillState (fill .own c.rules (.new next c.text), next + 1)

end Content

/-- The sheet with the selector of some content at its end, and the next identity. -/
def Sheet.addContent (made : Sheet × Nat) (c : Content) : Sheet × Nat :=
  let (s, next) := c.number made.2
  (made.1.add s, next)

namespace Manifest

/-- The rules of a manifest, entry by entry. -/
def contents (m : Manifest) : Reporting (List Content) :=
  m.entries.mapM Entry.content

/-- The sheet of a manifest, with identities from `next` on, and the next identity after them. -/
def load (m : Manifest) (layout : Layout) (next : Nat) : Reporting (Sheet × Nat) := do
  let contents ← m.contents
  return contents.foldl Sheet.addContent ((Sheet.new m.name).withLayout layout, next)

/-- The selectors that loading begins, one that does not load included. -/
def begun (m : Manifest) : List Content :=
  Reporting.begun Entry.content Entry.begun? m.entries

/-- The next identity after loading, which may have failed: what it had begun by then keeps its
identities. -/
def nextAfter (m : Manifest) (next : Nat) : Nat :=
  m.begun.foldl (fun next c => (c.number next).2) next

/-- What is announced when a sheet has been loaded. -/
def loadedEvent (s : Sheet) : Event :=
  ⟨.debug, "loaded manifest",
    [("sheet", s.name), ("selectors", toString s.selectors.length)]⟩

end Manifest

end UiStyle
