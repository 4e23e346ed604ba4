import UiStyle.Proofs.Text.Words
import UiStyle.Text.Basic
import UiStyle.Value.Basic
import UiStyle.Value.Keywords
import UiStyle.Value.Measure

/-!
# What the texts of values look like

Every number is one word, in every style, for every bit pattern (`NumberStyle.isWord_text`), and so
is every length.  The last character of a length tells what it is: it is `x` or `%` unless the
length is `auto`.  So no other length reads as `auto` in any letter case, and none reads as an
origin keyword.  The text of edges has the lengths as its words, in order, whereas an asset may hold
anything between its first and its last character.
-/

namespace UiStyle

open Text

/-! ### Numbers -/

namespace Decimal

theorem isDigit_of_mem_digits {n : Nat} {c : Char} (hc : c ∈ digits n) : c.isDigit = true := by
  unfold digits at hc
  split at hc
  · cases hc
  · exact Nat.isDigit_of_mem_toDigits (by decide) (by decide) hc

end Decimal

theorem isWord_toDigits (n : Nat) : IsWord (Nat.toDigits 10 n) where
  nonempty := Nat.toDigits_ne_nil
  solid _ hc := isBlank_of_isDigit (Nat.isDigit_of_mem_toDigits (by decide) (by decide) hc)

theorem isWord_repr (n : Nat) : IsWord n.repr.toList := by
  rw [Nat.repr_eq_ofList_toDigits, String.toList_ofList]
  exact isWord_toDigits n

/-- A whole number is one word. -/
theorem isWord_toString (i : Int) : IsWord (toString i).toList := by
  cases i with
  | ofNat n => exact isWord_repr n
  | negSucc n =>
      show IsWord ("-" ++ (n + 1).repr).toList
      rw [String.toList_append]
      exact IsWord.append (by decide) (isWord_repr (n + 1))

namespace NumberStyle

variable (style : NumberStyle)

/-- Digits with a point somewhere are one word, even if there are no digits. -/
theorem isWord_positionalText {digits : List Char} (hdigits : ∀ c ∈ digits, isBlank c = false)
    (point : Int) : IsWord (style.positionalText digits point) := by
  have hzeros : ∀ n, ∀ c ∈ List.replicate n '0', isBlank c = false := by
    intro n c hc
    rw [List.eq_of_mem_replicate hc]
    decide
  unfold positionalText
  split
  · refine ⟨List.cons_ne_nil _ _, ?_⟩
    simp only [List.forall_mem_cons, List.forall_mem_append]
    exact ⟨by decide, by decide, hzeros _, hdigits⟩
  · split
    · refine ⟨List.append_ne_nil_of_right_ne_nil _ (List.cons_ne_nil _ _), ?_⟩
      simp only [List.forall_mem_append, List.forall_mem_cons]
      exact ⟨fun c hc => hdigits c (List.mem_of_mem_take hc), by decide,
        fun c hc => hdigits c (List.mem_of_mem_drop hc)⟩
    · refine ⟨?_, ?_⟩
      · cases digits with
        | nil =>
            -- without digits, zeros fill the places in front of the point, which are some
            have hpoint : point.toNat ≠ 0 := by omega
            simp [hpoint]
        | cons c r => simp
      · simp only [List.forall_mem_append]
        refine ⟨⟨hdigits, hzeros _⟩, ?_⟩
        split
        · exact (by decide : IsWord ['.', '0']).solid
        · exact nofun

theorem isWord_exponentText {digits : List Char} (hdigits : ∀ c ∈ digits, isBlank c = false)
    (exponent : Int) : IsWord (exponentText digits exponent) := by
  refine ⟨List.append_ne_nil_of_right_ne_nil _ (List.cons_ne_nil _ _), ?_⟩
  simp only [exponentText, List.forall_mem_append, List.forall_mem_cons]
  refine ⟨⟨fun c hc => hdigits c (List.mem_of_mem_take hc), ?_⟩, by decide, ?_,
    (isWord_toDigits _).solid⟩
  · split
    · exact fun c hc => absurd hc List.not_mem_nil
    · exact List.forall_mem_cons.mpr ⟨by decide, fun c hc => hdigits c (List.mem_of_mem_drop hc)⟩
  · split <;> decide

theorem isWord_decimalText (d : Decimal) : IsWord (style.decimalText d) := by
  have hdigits : ∀ c ∈ Decimal.digits d.coefficient, isBlank c = false :=
    fun c hc => isBlank_of_isDigit (Decimal.isDigit_of_mem_digits hc)
  simp only [decimalText]
  split
  · exact style.isWord_positionalText hdigits _
  · exact isWord_exponentText hdigits _

theorem isWord_magnitudeText {f : BinaryFormat} (x : Binary f) :
    IsWord (style.magnitudeText x) := by
  unfold magnitudeText
  split
  · decide
  · split
    · split <;> decide
    · exact style.isWord_decimalText _

/-- Whatever number it is, its text is one word. -/
theorem isWord_text {f : BinaryFormat} (x : Binary f) : IsWord (style.text x).toList := by
  unfold text
  split
  · decide
  · rw [String.toList_ofList]
    split
    · exact (style.isWord_magnitudeText x).cons (by decide)
    · exact style.isWord_magnitudeText x

end NumberStyle

theorem Angle.isWord_text (a : Angle) : IsWord (StyleValue.text a).toList := by
  cases a with
  | none => decide
  | measured value unit =>
      show IsWord (NumberStyle.stylesheet.text value ++ KeywordSet.keyword unit).toList
      rw [String.toList_append]
      exact (NumberStyle.stylesheet.isWord_text value).append (KeywordSet.oneWord unit)

/-! ### Lengths -/

namespace Length

theorem isWord_text (l : Length) : IsWord l.text.toList := by
  cases l with
  | auto => decide
  | pixels m =>
      rw [text, String.toList_append]
      exact (NumberStyle.stylesheet.isWord_text m).append (by decide)
  | percentage m =>
      rw [text, String.toList_append]
      exact (NumberStyle.stylesheet.isWord_text m).append (by decide)

/-- The last character of a length that is not `auto`. -/
theorem getLast?_text {l : Length} (hl : l ≠ .auto) :
    l.text.toList.getLast? = some 'x' ∨ l.text.toList.getLast? = some '%' := by
  cases l with
  | auto => exact absurd rfl hl
  | pixels m =>
      left
      simp [text, String.toList_append]
  | percentage m =>
      right
      simp [text, String.toList_append]

/-- The text of no other length is `auto`, in any letter case. -/
theorem sameIgnoringCase_auto (l : Length) :
    sameIgnoringCase "auto".toList l.text.toList = StyleValue.isAuto l := by
  by_cases hl : l = .auto
  · subst hl
    decide
  · have hauto : StyleValue.isAuto l = false := by simpa [StyleValue.isAuto] using hl
    rw [hauto, sameIgnoringCase, beq_eq_false_iff_ne]
    -- no letter case makes an `o` of an `x` or of a percent sign
    intro heq
    have hlast := congrArg List.getLast? heq
    rw [lower, lower, List.getLast?_map, List.getLast?_map] at hlast
    rcases getLast?_text hl with h | h <;> rw [h] at hlast <;> revert hlast <;> decide

/-- The text of a length is no origin keyword. -/
theorem ofKeyword?_text (l : Length) :
    (KeywordSet.ofKeyword? l.text : Option OriginAlign) = none := by
  rw [KeywordSet.ofKeyword?, List.find?_eq_none]
  intro a _ hkey
  -- origin keywords end in other characters than `o`, `x` and the percent sign
  have hlast := congrArg (fun s => s.toList.getLast?) (beq_iff_eq.mp hkey)
  by_cases hl : l = .auto
  · subst hl
    cases a <;> revert hlast <;> decide
  · rcases getLast?_text hl with h | h <;> simp only [h] at hlast <;> cases a <;> revert hlast <;>
      decide

end Length

namespace Edges

theorem toList_text (e : Edges) :
    (StyleValue.text e).toList = [' '].intercalate (e.toList.map fun l => l.text.toList) := by
  simp [StyleValue.text, String.toList_intercalate, Function.comp_def]

theorem forall_isWord (e : Edges) :
    ∀ w ∈ e.toList.map fun l => l.text.toList, IsWord w := by
  simp only [List.forall_mem_map]
  exact fun l _ => l.isWord_text

/-- The words of the text of edges are their lengths. -/
theorem words_text (e : Edges) :
    words (StyleValue.text e).toList = e.toList.map fun l => l.text.toList := by
  rw [e.toList_text, words_intercalate e.forall_isWord]

theorem isTight_text (e : Edges) : IsTight (StyleValue.text e).toList := by
  rw [e.toList_text]
  refine isTight_intercalate ?_ e.forall_isWord
  cases e <;> simp [toList]

end Edges

/-! ### Assets -/

theorem Asset.isTight_text (a : Asset) : IsTight (StyleValue.text a).toList := by
  have hparts : ∀ kind : String, IsWord kind.toList → ∀ path : String,
      IsTight (kind ++ Quoted.encode path ++ ")").toList := by
    intro kind hkind path
    rw [String.toList_append, String.toList_append]
    exact hkind.isTight.append (IsWord.isTight (by decide)) _
  cases a with
  | url path => exact hparts "url(" (by decide) path
  | resource path => exact hparts "resource(" (by decide) path

end UiStyle
