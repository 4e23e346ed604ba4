import Mathlib.Data.Set.Function
import UiStyle.Proofs.Binary.Equality
import UiStyle.Value.Color
import UiStyle.Value.Measure

/-!
# Equality of values that hold numbers

Lengths, edges, numbers, angles and colors are compared by their numbers, and otherwise by what they
are.  So two of them are equal if they are the same once the zeros have lost their signs and the
numbers in them are numbers (`Numeric.numEq_iff`).  From this alone, equality is symmetric and
transitive, it is reflexive where everything is a number, and it is identity on values without the
exceptions (`Numeric.numEq_iff_eq`).

What is hashed of a length or of edges, however, tells all values apart (`hashContent_injective`).
Hence equal values are hashed alike only if they are the same, signs of zeros included, and
`keepsContract_iff` says of which sets of values equality and hash keep what they promise.
-/

namespace UiStyle

/-- Values that hold numbers and are compared by them. -/
class Numeric (α : Type) where
  /-- The numbers that a value holds. -/
  numbers : α → List Binary32
  /-- The same value, but its zeros without their signs. -/
  unsignZeros : α → α
  numEq : α → α → Bool
  numbers_unsignZeros : ∀ a, numbers (unsignZeros a) = (numbers a).map Binary.unsignZero
  unsignZeros_eq_self : ∀ a, (∀ x ∈ numbers a, x ≠ .negativeZero) → unsignZeros a = a
  numEq_iff : ∀ a b, numEq a b = true ↔
    (∀ x ∈ numbers a, x.isNaN = false) ∧ unsignZeros a = unsignZeros b

namespace Numeric

variable {α : Type} [Numeric α] {a b c : α}

theorem numEq_self_iff : numEq a a = true ↔ ∀ x ∈ numbers a, x.isNaN = false := by
  rw [numEq_iff]
  exact and_iff_left rfl

/-- The sign of a zero does not decide whether a value holds numbers only. -/
theorem isNaN_of_unsignZeros_eq (h : unsignZeros a = unsignZeros b)
    (ha : ∀ x ∈ numbers a, x.isNaN = false) : ∀ y ∈ numbers b, y.isNaN = false := by
  intro y hy
  have hmem : y.unsignZero ∈ (numbers a).map Binary.unsignZero := by
    rw [← numbers_unsignZeros, h, numbers_unsignZeros]
    exact List.mem_map_of_mem hy
  obtain ⟨x, hx, hxy⟩ := List.mem_map.mp hmem
  rw [← Binary.isNaN_unsignZero, ← hxy, Binary.isNaN_unsignZero]
  exact ha x hx

theorem numEq_symm (h : numEq a b = true) : numEq b a = true := by
  obtain ⟨hnumbers, hsame⟩ := (numEq_iff a b).mp h
  exact (numEq_iff b a).mpr ⟨isNaN_of_unsignZeros_eq hsame hnumbers, hsame.symm⟩

theorem numEq_trans (hab : numEq a b = true) (hbc : numEq b c = true) : numEq a c = true := by
  obtain ⟨hnumbers, hsame⟩ := (numEq_iff a b).mp hab
  exact (numEq_iff a c).mpr ⟨hnumbers, hsame.trans ((numEq_iff b c).mp hbc).2⟩

/-- Whether all numbers of a value are finite and none is a zero with a sign. -/
def IsCanonical (a : α) : Prop :=
  ∀ x ∈ numbers a, x.isFinite = true ∧ x ≠ .negativeZero

/-- Between values without exceptions, equality is identity. -/
theorem numEq_iff_eq (ha : IsCanonical a) (hb : IsCanonical b) : numEq a b = true ↔ a = b := by
  rw [numEq_iff, unsignZeros_eq_self a fun x hx => (ha x hx).2,
    unsignZeros_eq_self b fun x hx => (hb x hx).2]
  exact and_iff_right fun x hx => Binary.isNaN_of_isFinite (ha x hx).1

end Numeric

/-! ### The values -/

instance : Numeric Length where
  numbers
    | .auto => []
    | .pixels m | .percentage m => [m]
  unsignZeros
    | .auto => .auto
    | .pixels m => .pixels m.unsignZero
    | .percentage m => .percentage m.unsignZero
  numEq := Length.numEq
  numbers_unsignZeros l := by cases l <;> rfl
  unsignZeros_eq_self l h := by
    cases l <;> simp_all [Binary.unsignZero_eq_self_iff]
  numEq_iff a b := by
    cases a <;> cases b <;> simp [Length.numEq, Binary.numEq_iff]

namespace Edges

/-- Edges are their lengths. -/
theorem toList_injective : Function.Injective toList := by
  intro a b h
  cases a <;> cases b <;> simp_all [toList]

/-- Edges with a function applied to each length. -/
def map (g : Length → Length) : Edges → Edges
  | .all a => .all (g a)
  | .axes v h => .axes (g v) (g h)
  | .topAxisBottom t h b => .topAxisBottom (g t) (g h) (g b)
  | .each t r b l => .each (g t) (g r) (g b) (g l)

theorem toList_map (g : Length → Length) (e : Edges) : (e.map g).toList = e.toList.map g := by
  cases e <;> rfl

end Edges

/-- Lists are compared length by length. -/
theorem Length.all_zipWith_numEq_iff {as bs : List Length} :
    (as.length == bs.length && (as.zipWith Length.numEq bs).all id) = true ↔
      (∀ l ∈ as, ∀ x ∈ Numeric.numbers l, x.isNaN = false) ∧
        as.map Numeric.unsignZeros = bs.map Numeric.unsignZeros := by
  induction as generalizing bs with
  | nil => cases bs <;> simp
  | cons a as ih =>
      cases bs with
      | nil => simp
      | cons b bs =>
          have hhead : (a.numEq b = true) ↔ _ := Numeric.numEq_iff a b
          have htail := @ih bs
          simp only [Bool.and_eq_true, beq_iff_eq] at htail
          simp only [List.length_cons, List.zipWith_cons_cons, List.all_cons, id_eq,
            Bool.and_eq_true, beq_iff_eq, Nat.add_right_cancel_iff, List.forall_mem_cons,
            List.map_cons, List.cons.injEq, hhead]
          constructor
          · rintro ⟨hlength, ⟨ha, hsame⟩, hall⟩
            obtain ⟨has, hsames⟩ := htail.mp ⟨hlength, hall⟩
            exact ⟨⟨ha, has⟩, hsame, hsames⟩
          · rintro ⟨⟨ha, has⟩, hsame, hsames⟩
            obtain ⟨hlength, hall⟩ := htail.mpr ⟨has, hsames⟩
            exact ⟨hlength, ⟨ha, hsame⟩, hall⟩

instance : Numeric Edges where
  numbers e := e.toList.flatMap Numeric.numbers
  unsignZeros := Edges.map Numeric.unsignZeros
  numEq := Edges.numEq
  numbers_unsignZeros e := by
    simp only [Edges.toList_map, List.flatMap_map, Numeric.numbers_unsignZeros, List.map_flatMap]
  unsignZeros_eq_self e h := by
    have hplain : ∀ l ∈ e.toList, ∀ x ∈ Numeric.numbers l, x ≠ .negativeZero :=
      fun l hl x hx => h x (List.mem_flatMap.mpr ⟨l, hl, hx⟩)
    apply Edges.toList_injective
    rw [Edges.toList_map]
    calc e.toList.map Numeric.unsignZeros
        = e.toList.map id := List.map_congr_left fun l hl =>
          Numeric.unsignZeros_eq_self l (hplain l hl)
      _ = e.toList := List.map_id _
  numEq_iff a b := by
    rw [Edges.numEq, Length.all_zipWith_numEq_iff, ← Edges.toList_map, ← Edges.toList_map,
      Edges.toList_injective.eq_iff, List.forall_mem_flatMap]

instance : Numeric Number where
  numbers n := [n.value]
  unsignZeros n := ⟨n.value.unsignZero⟩
  numEq := Number.numEq
  numbers_unsignZeros _ := rfl
  unsignZeros_eq_self n h := by
    cases n
    simp_all [Binary.unsignZero_eq_self_iff]
  numEq_iff a b := by simp [Number.numEq, Binary.numEq_iff]

instance : Numeric Angle where
  numbers
    | .none => []
    | .measured value _ => [value]
  unsignZeros
    | .none => .none
    | .measured value unit => .measured value.unsignZero unit
  numEq := Angle.numEq
  numbers_unsignZeros a := by cases a <;> rfl
  unsignZeros_eq_self a h := by
    cases a <;> simp_all [Binary.unsignZero_eq_self_iff]
  numEq_iff a b := by
    cases a <;> cases b <;> simp [Angle.numEq, Binary.numEq_iff, and_assoc]

instance : Numeric Color where
  numbers
    | .rgba _ _ _ alpha => [alpha]
    | _ => []
  unsignZeros
    | .rgba r g b alpha => .rgba r g b alpha.unsignZero
    | c => c
  numEq := Color.numEq
  numbers_unsignZeros c := by cases c <;> rfl
  unsignZeros_eq_self c h := by
    cases c <;> simp_all [Binary.unsignZero_eq_self_iff]
  numEq_iff a b := by
    cases a <;> cases b <;> simp [Color.numEq, Binary.numEq_iff, and_assoc, and_left_comm]

/-! ### What is hashed -/

/-- What is hashed of a length ends where it ends, whatever follows. -/
theorem Length.hashContent_append_inj {a b : Length} {rest rest' : List Nat}
    (h : a.hashContent ++ rest = b.hashContent ++ rest') : a = b ∧ rest = rest' := by
  cases a <;> cases b <;> simp_all [hashContent, Binary.toBits_injective.eq_iff]

theorem Length.hashContent_injective : Function.Injective hashContent := by
  intro a b h
  have happend : a.hashContent ++ [] = b.hashContent ++ [] := by rw [h]
  exact (hashContent_append_inj happend).1

theorem Length.flatMap_hashContent_injective :
    Function.Injective fun ls : List Length => ls.flatMap hashContent := by
  intro as
  induction as with
  | nil =>
      intro bs h
      cases bs with
      | nil => rfl
      | cons b bs => cases b <;> cases h
  | cons a as ih =>
      intro bs h
      cases bs with
      | nil => cases a <;> cases h
      | cons b bs =>
          obtain ⟨hhead, htail⟩ := hashContent_append_inj (by simpa using h)
          rw [hhead, ih htail]

theorem Edges.hashContent_injective : Function.Injective hashContent := by
  intro a b h
  exact toList_injective (Length.flatMap_hashContent_injective (List.cons.inj h).2)

/-- What the equality and the hash of a type promise about the values of a set: equality is an
equivalence, and equal values are hashed alike. -/
structure KeepsContract {α : Type} (eq : α → α → Bool) (content : α → List Nat) (S : Set α) :
    Prop where
  refl : ∀ a ∈ S, eq a a = true
  symm : ∀ a ∈ S, ∀ b ∈ S, eq a b = true → eq b a = true
  trans : ∀ a ∈ S, ∀ b ∈ S, ∀ c ∈ S, eq a b = true → eq b c = true → eq a c = true
  alike : ∀ a ∈ S, ∀ b ∈ S, eq a b = true → content a = content b

/-- If a hash tells all values apart, then a set must hold numbers only, and no two values that
differ in the sign of a zero. -/
theorem Numeric.keepsContract_iff {α : Type} [Numeric α] {content : α → List Nat}
    (hcontent : Function.Injective content) (S : Set α) :
    KeepsContract numEq content S ↔
      (∀ a ∈ S, ∀ x ∈ numbers a, x.isNaN = false) ∧ S.InjOn unsignZeros := by
  constructor
  · intro h
    have hnumbers : ∀ a ∈ S, ∀ x ∈ numbers a, x.isNaN = false :=
      fun a ha => numEq_self_iff.mp (h.refl a ha)
    refine ⟨hnumbers, fun a ha b hb hsame => hcontent (h.alike a ha b hb ?_)⟩
    exact (numEq_iff a b).mpr ⟨hnumbers a ha, hsame⟩
  · rintro ⟨hnumbers, hinj⟩
    refine ⟨fun a ha => numEq_self_iff.mpr (hnumbers a ha), fun _ _ _ _ => numEq_symm,
      fun _ _ _ _ _ _ => numEq_trans, fun a ha b hb h => ?_⟩
    rw [hinj ha hb ((numEq_iff a b).mp h).2]

/-- **Equality and hash of lengths and edges.** Equality is symmetric and transitive throughout.  It
is reflexive on a set of values, and equal values of the set are hashed alike, exactly if no value
in it holds what is not a number and no two of them differ in nothing but the signs of zeros. -/
theorem keepsContract_length_edges (S : Set Length) (T : Set Edges) :
    (KeepsContract Length.numEq Length.hashContent S ↔
      (∀ l ∈ S, ∀ x ∈ Numeric.numbers l, x.isNaN = false) ∧ S.InjOn Numeric.unsignZeros) ∧
      (KeepsContract Edges.numEq Edges.hashContent T ↔
        (∀ e ∈ T, ∀ x ∈ Numeric.numbers e, x.isNaN = false) ∧ T.InjOn Numeric.unsignZeros) ∧
      (∀ a b c : Length, (a.numEq b = true → b.numEq a = true) ∧
        (a.numEq b = true → b.numEq c = true → a.numEq c = true)) ∧
      ∀ a b c : Edges, (a.numEq b = true → b.numEq a = true) ∧
        (a.numEq b = true → b.numEq c = true → a.numEq c = true) :=
  ⟨Numeric.keepsContract_iff Length.hashContent_injective S,
    Numeric.keepsContract_iff Edges.hashContent_injective T,
    fun a b c => ⟨@Numeric.numEq_symm _ _ a b, @Numeric.numEq_trans _ _ a b c⟩,
    fun a b c => ⟨@Numeric.numEq_symm _ _ a b, @Numeric.numEq_trans _ _ a b c⟩⟩

/-- A length that is made without a constructor can differ from itself, and can equal one that is
hashed otherwise. -/
theorem not_keepsContract_univ :
    (Length.pixels .nan).numEq (.pixels .nan) = false ∧
      (Edges.all (.pixels .nan)).numEq (.all (.pixels .nan)) = false ∧
      (Length.pixels .zero).numEq (.pixels .negativeZero) = true ∧
      (Length.pixels .zero).hashContent ≠ (Length.pixels .negativeZero).hashContent ∧
      (Edges.all (.pixels .zero)).numEq (.all (.pixels .negativeZero)) = true ∧
      (Edges.all (.pixels .zero)).hashContent ≠ (Edges.all (.pixels .negativeZero)).hashContent ∧
      ¬ KeepsContract Length.numEq Length.hashContent Set.univ ∧
      ¬ KeepsContract Edges.numEq Edges.hashContent Set.univ := by
  have hlength : (Length.pixels .nan).numEq (.pixels .nan) = false := by decide +kernel
  have hedges : (Edges.all (.pixels .nan)).numEq (.all (.pixels .nan)) = false := by
    decide +kernel
  refine ⟨hlength, hedges, by decide +kernel, by decide +kernel, by decide +kernel,
    by decide +kernel, fun h => ?_, fun h => ?_⟩
  · exact Bool.false_ne_true (hlength.symm.trans (h.refl _ (Set.mem_univ _)))
  · exact Bool.false_ne_true (hedges.symm.trans (h.refl _ (Set.mem_univ _)))

end UiStyle
