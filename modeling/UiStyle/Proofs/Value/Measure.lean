import Mathlib.Data.List.Basic
import Mathlib.Data.List.Forall2
import UiStyle.Proofs.Decimal.Plain
import UiStyle.Proofs.Value.Equality

/-!
# Texts of lengths, numbers and angles

The constructors make numbers that are finite and no zero with a sign.  Such a number is written as
a plain decimal that it is read back from, and its unit follows (`IsMeasure`).  No unit starts with
a character of a number, and neither do the keywords `auto` and `none`.  So one text is the text of
one number with one unit (`IsMeasure.unique`), and edges fall into the texts of their lengths at the
spaces.

On the values that constructors make, texts therefore tell apart exactly what equality of numbers
does, and what a hash does where there is one (`faithful_texts`).
-/

namespace UiStyle

open Text

/-! ### A number with a unit -/

/-- Whether a text is a plain decimal, not a zero with a sign, which a number is read back from, and
the number's unit behind it. -/
def IsMeasure (x : Binary32) (unit s : String) : Prop :=
  ∃ p : PlainDecimal, p.toBinary .single = x ∧ ¬ p.IsNegativeZero ∧ s = p.text ++ unit

namespace IsMeasure

variable {x y : Binary32} {unit unit' s : String}

theorem of_text (hx : x.isFinite = true) (hsign : x ≠ .negativeZero) (unit : String) :
    IsMeasure x unit (NumberStyle.stylesheet.text x ++ unit) := by
  obtain ⟨p, hp, htext⟩ := NumberStyle.exists_plainDecimal hx
  exact ⟨p, hp, fun hzero => hsign (hp ▸ hzero.toBinary), by rw [htext]⟩

/-- A text is that of one number with one unit. -/
theorem unique (hunit : IsUnitText unit) (hunit' : IsUnitText unit') (hx : IsMeasure x unit s)
    (hy : IsMeasure y unit' s) : x = y ∧ unit = unit' := by
  obtain ⟨p, rfl, -, rfl⟩ := hx
  obtain ⟨q, rfl, -, htext⟩ := hy
  have hchars : p.chars ++ unit.toList = q.chars ++ unit'.toList := by
    have hlists := congrArg String.toList htext
    simpa using hlists
  obtain ⟨rfl, hsame⟩ := PlainDecimal.append_inj hunit hunit' hchars
  exact ⟨rfl, String.toList_inj.mp hsame⟩

/-- A number with a unit is one word, if the unit is one. -/
theorem isWord (hunit : IsWord unit.toList) (hx : IsMeasure x unit s) : IsWord s.toList := by
  obtain ⟨p, -, -, rfl⟩ := hx
  rw [String.toList_append, PlainDecimal.toList_text]
  exact p.isWord_chars.append hunit

/-- A number with a unit is no keyword. -/
theorem not_isUnitText (hx : IsMeasure x unit s) : ¬ IsUnitText s := by
  obtain ⟨p, -, -, rfl⟩ := hx
  obtain ⟨c, cs, hchars⟩ := List.exists_cons_of_ne_nil p.chars_ne_nil
  intro hunit
  have hhead : c ∈ (p.text ++ unit).toList.head? := by
    rw [String.toList_append, PlainDecimal.toList_text, hchars]
    rfl
  have hnumeral := p.isNumeral_of_mem_chars (hchars ▸ List.mem_cons_self ..)
  rw [hunit c hhead] at hnumeral
  cases hnumeral

end IsMeasure

/-! ### The texts of values -/

/-- How a length is written. -/
def Length.WrittenAs : Length → String → Prop
  | .auto, s => s = "auto"
  | .pixels m, s => IsMeasure m "px" s
  | .percentage m, s => IsMeasure m "%" s

/-- How edges are written: the texts of one to four lengths with a space between them. -/
def Edges.WrittenAs (e : Edges) (s : String) : Prop :=
  ∃ parts : List String, 1 ≤ parts.length ∧ parts.length ≤ 4 ∧
    List.Forall₂ Length.WrittenAs e.toList parts ∧ s = " ".intercalate parts

/-- How a number is written. -/
def Number.WrittenAs (n : Number) (s : String) : Prop :=
  IsMeasure n.value "" s

/-- How an angle is written. -/
def Angle.WrittenAs : Angle → String → Prop
  | .none, s => s = "none"
  | .measured value unit, s => IsMeasure value unit.toKeyword s

/-- A length that one of the constructors has made. -/
inductive Length.Made : Length → Prop
  | auto : Made auto
  | px (magnitude : Binary32) : Made (px magnitude)
  | percent (magnitude : Binary32) : Made (percent magnitude)

/-- Edges around lengths that constructors have made. -/
def Edges.Made (e : Edges) : Prop := ∀ l ∈ e.toList, l.Made

/-- A number that the constructor has made. -/
inductive Number.Made : Number → Prop
  | of (value : Binary32) : Made (of value)

/-- An angle that one of the constructors has made. -/
inductive Angle.Made : Angle → Prop
  | none : Made none
  | of (value : Binary32) (unit : AngleUnit) : Made (of value unit)

/-- Whether the values of a set are written as a relation says, and both their texts and their
equality tell them apart. -/
structure IsFaithful {α : Type} [StyleValue α] (writtenAs : α → String → Prop)
    (numEq : α → α → Bool) (S : α → Prop) : Prop where
  written : ∀ a, S a → writtenAs a (StyleValue.text a)
  text_iff : ∀ a b, S a → S b → (StyleValue.text a = StyleValue.text b ↔ a = b)
  numEq_iff : ∀ a b, S a → S b → (numEq a b = true ↔ a = b)

/-- If a text is written for one value only, it is enough that the values are canonical. -/
theorem IsFaithful.of_canonical {α : Type} [StyleValue α] [Numeric α]
    {writtenAs : α → String → Prop} {S : α → Prop} (hcanonical : ∀ a, S a → Numeric.IsCanonical a)
    (hwritten : ∀ a, Numeric.IsCanonical a → writtenAs a (StyleValue.text a))
    (hunique : ∀ a b s, writtenAs a s → writtenAs b s → a = b) :
    IsFaithful writtenAs Numeric.numEq S where
  written a ha := hwritten a (hcanonical a ha)
  text_iff a b ha hb := by
    refine ⟨fun h => hunique a b _ (hwritten a (hcanonical a ha)) ?_, fun h => by rw [h]⟩
    rw [h]
    exact hwritten b (hcanonical b hb)
  numEq_iff a b ha hb := Numeric.numEq_iff_eq (hcanonical a ha) (hcanonical b hb)

theorem Binary.isCanonical_finiteOrZero (x : Binary32) :
    ∀ y ∈ [x.finiteOrZero], y.isFinite = true ∧ y ≠ .negativeZero :=
  List.forall_mem_singleton.mpr ⟨x.isFinite_finiteOrZero, x.finiteOrZero_ne_negativeZero⟩

namespace Length

theorem Made.isCanonical {l : Length} (h : l.Made) : Numeric.IsCanonical l := by
  cases h with
  | auto => exact nofun
  | px m | percent m => exact m.isCanonical_finiteOrZero

theorem writtenAs_text {l : Length} (h : Numeric.IsCanonical l) : l.WrittenAs l.text := by
  cases l with
  | auto => rfl
  | pixels m | percentage m =>
      obtain ⟨hfinite, hsign⟩ := h m (List.mem_singleton_self m)
      exact .of_text hfinite hsign _

theorem WrittenAs.unique {a b : Length} {s : String} (ha : a.WrittenAs s) (hb : b.WrittenAs s) :
    a = b := by
  have hauto : IsUnitText "auto" := by decide
  have hpx : IsUnitText "px" := by decide
  have hpercent : IsUnitText "%" := by decide
  match a, b, ha, hb with
  | .auto, .auto, _, _ => rfl
  | .auto, .pixels _, rfl, hb | .auto, .percentage _, rfl, hb =>
    exact absurd hauto hb.not_isUnitText
  | .pixels _, .auto, ha, rfl | .percentage _, .auto, ha, rfl =>
    exact absurd hauto ha.not_isUnitText
  | .pixels _, .pixels _, ha, hb => rw [(IsMeasure.unique hpx hpx ha hb).1]
  | .percentage _, .percentage _, ha, hb => rw [(IsMeasure.unique hpercent hpercent ha hb).1]
  | .pixels _, .percentage _, ha, hb =>
      exact absurd (IsMeasure.unique hpx hpercent ha hb).2 (by decide)
  | .percentage _, .pixels _, ha, hb =>
      exact absurd (IsMeasure.unique hpercent hpx ha hb).2 (by decide)

theorem WrittenAs.isWord {l : Length} {s : String} (h : l.WrittenAs s) : IsWord s.toList := by
  cases l with
  | auto =>
      obtain rfl : s = "auto" := h
      decide
  | pixels m => exact IsMeasure.isWord (by decide) h
  | percentage m => exact IsMeasure.isWord (by decide) h

theorem isWord_of_forall₂ {ls : List Length} {parts : List String}
    (h : List.Forall₂ WrittenAs ls parts) : ∀ part ∈ parts, IsWord part.toList := by
  induction h with
  | nil => exact nofun
  | cons hl _ ih => exact List.forall_mem_cons.mpr ⟨hl.isWord, ih⟩

theorem faithful : IsFaithful WrittenAs numEq Made :=
  .of_canonical (fun _ => Made.isCanonical) (fun _ => writtenAs_text) fun _ _ _ => WrittenAs.unique

end Length

namespace Edges

theorem Made.isCanonical {e : Edges} (h : e.Made) : Numeric.IsCanonical e := by
  intro x hx
  obtain ⟨l, hl, hx⟩ := List.mem_flatMap.mp hx
  exact (h l hl).isCanonical x hx

theorem writtenAs_text {e : Edges} (h : Numeric.IsCanonical e) :
    e.WrittenAs (StyleValue.text e) := by
  have hlengths : ∀ l ∈ e.toList, l.WrittenAs l.text := fun l hl =>
    Length.writtenAs_text fun x hx => h x (List.mem_flatMap.mpr ⟨l, hl, hx⟩)
  have hcount : 1 ≤ e.toList.length ∧ e.toList.length ≤ 4 := by
    cases e <;> exact ⟨by simp [toList], by simp [toList]⟩
  refine ⟨e.toList.map Length.text, ?_, ?_, ?_, rfl⟩
  · rw [List.length_map]
    exact hcount.1
  · rw [List.length_map]
    exact hcount.2
  · exact List.forall₂_map_right_iff.mpr (List.forall₂_same.mpr hlengths)

/-- The words of what is written are the texts of the lengths. -/
theorem WrittenAs.unique {a b : Edges} {s : String} (ha : a.WrittenAs s) (hb : b.WrittenAs s) :
    a = b := by
  obtain ⟨parts, -, -, hparts, rfl⟩ := ha
  obtain ⟨parts', -, -, hparts', htext⟩ := hb
  have hwords : ∀ {e : Edges} {parts : List String},
      List.Forall₂ Length.WrittenAs e.toList parts →
      words (" ".intercalate parts).toList = parts.map String.toList := by
    intro e parts h
    rw [String.toList_intercalate]
    exact words_intercalate (List.forall_mem_map.mpr (Length.isWord_of_forall₂ h))
  have hsame : parts = parts' := by
    have hlists := hwords hparts
    rw [htext, hwords hparts'] at hlists
    exact (List.map_injective_iff.mpr (fun _ _ h => String.toList_inj.mp h) hlists).symm
  subst hsame
  have hunique : Relator.LeftUnique Length.WrittenAs := fun _ _ _ => Length.WrittenAs.unique
  exact toList_injective (hunique.forall₂ hparts hparts')

theorem faithful : IsFaithful WrittenAs numEq Made :=
  .of_canonical (fun _ => Made.isCanonical) (fun _ => writtenAs_text) fun _ _ _ => WrittenAs.unique

end Edges

theorem Number.faithful : IsFaithful WrittenAs numEq Made := by
  refine .of_canonical ?_ ?_ ?_
  · rintro _ ⟨value⟩
    exact value.isCanonical_finiteOrZero
  · intro n h
    obtain ⟨hfinite, hsign⟩ := h n.value (List.mem_singleton_self _)
    have hwritten := IsMeasure.of_text hfinite hsign ""
    rwa [String.append_empty] at hwritten
  · intro a b s ha hb
    obtain ⟨hvalue, -⟩ := IsMeasure.unique (by decide) (by decide) ha hb
    cases a
    cases b
    exact congrArg Number.mk hvalue

namespace Angle

theorem WrittenAs.unique {a b : Angle} {s : String} (ha : a.WrittenAs s) (hb : b.WrittenAs s) :
    a = b := by
  have hnone : IsUnitText "none" := by decide
  have hunit : ∀ unit : AngleUnit, IsUnitText unit.toKeyword := by
    intro unit
    cases unit <;> decide
  match a, b, ha, hb with
  | .none, .none, _, _ => rfl
  | .none, .measured _ _, rfl, hb => exact absurd hnone hb.not_isUnitText
  | .measured _ _, .none, ha, rfl => exact absurd hnone ha.not_isUnitText
  | .measured _ u, .measured _ v, ha, hb =>
      obtain ⟨rfl, hkeyword⟩ := IsMeasure.unique (hunit u) (hunit v) ha hb
      rw [KeywordSet.distinct u v hkeyword]

theorem faithful : IsFaithful WrittenAs numEq Made := by
  refine .of_canonical ?_ ?_ fun _ _ _ => WrittenAs.unique
  · rintro _ (_ | ⟨value, unit⟩)
    · exact nofun
    · exact value.isCanonical_finiteOrZero
  · intro a h
    cases a with
    | none => rfl
    | measured value unit =>
        obtain ⟨hfinite, hsign⟩ := h value (List.mem_singleton_self _)
        exact .of_text hfinite hsign _

end Angle

/-- **Texts of what constructors make.** Every length, edge shorthand, number and angle that
constructors make is written as the relation of its type says.  Two of one type have the same text
exactly if they are the same, are equal exactly if they are the same, and, where there is a hash,
are hashed alike exactly if they are the same. -/
theorem faithful_texts :
    IsFaithful Length.WrittenAs Length.numEq Length.Made ∧
      IsFaithful Edges.WrittenAs Edges.numEq Edges.Made ∧
      IsFaithful Number.WrittenAs Number.numEq Number.Made ∧
      IsFaithful Angle.WrittenAs Angle.numEq Angle.Made ∧
      (∀ a b : Length, a.hashContent = b.hashContent ↔ a = b) ∧
      ∀ a b : Edges, a.hashContent = b.hashContent ↔ a = b :=
  ⟨Length.faithful, Edges.faithful, Number.faithful, Angle.faithful,
    fun _ _ => Length.hashContent_injective.eq_iff, fun _ _ => Edges.hashContent_injective.eq_iff⟩

end UiStyle
