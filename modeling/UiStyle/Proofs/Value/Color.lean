import Mathlib.Data.List.DropRight
import UiStyle.Proofs.Text.Words
import UiStyle.Value.Color

/-!
# Texts of colors

The constructors make every color there is to write, and a code among them is always the same
number sign in front of digits in lower case (`toList_text_ofHex`).  Read again as a code, its text
is the code that it was (`ofHex_text_ofHex`).

The first character of a text tells the forms apart: channels start with a letter, and so does no
code.  Only a keyword may be any text; one that is made of letters, digits and hyphens is a word and
starts with no number sign either.

A code is a number sign with 3, 4, 6 or 8 hexadecimal digits behind it (`Color.IsCode`).  The color
that is made of a text is well formed if such digits are left of the text when the white space
around it and the number signs in front of it are taken off (`isWellFormed_ofHex_iff`).  Lower case
makes no difference, because a digit stays one and nothing else becomes one; nor does it that bytes
are counted, because every digit is one byte.

Any number of signs comes off.  So what gives a well-formed color is a code or a code with more
signs in front of it (`areDigits_dropSigns_iff`), and only the first is a text that stands for a
color.
-/

namespace UiStyle.Color

open Text

/-- A color that one of the constructors has made. -/
inductive Made : Color → Prop
  | hex (code : String) : Made (ofHex code)
  | rgb (red green blue : UInt8) : Made (rgb red green blue)
  | rgba (red green blue : UInt8) (alpha : Binary32) : Made (withAlpha red green blue alpha)
  | named (keyword : String) : Made (named keyword)
  | ofUnits (red green blue : Binary32) : Made (ofUnits red green blue)
  | ofUnitsWithAlpha (red green blue alpha : Binary32) :
    Made (ofUnitsWithAlpha red green blue alpha)

/-! ### Codes -/

/-- What stands behind the number sign of a code. -/
def codeDigits (code : List Char) : List Char :=
  lower ((trim code).dropWhile (· == '#'))

theorem ofHex_eq (code : String) :
    ofHex code = .hex (.ofList ('#' :: codeDigits code.toList)) := rfl

theorem ofHex_eq_iff {code other : String} :
    ofHex code = ofHex other ↔ codeDigits code.toList = codeDigits other.toList := by
  rw [ofHex_eq, ofHex_eq, hex.injEq, String.ofList_inj, List.cons_inj_right]

theorem toList_text_ofHex (code : String) :
    (StyleValue.text (ofHex code)).toList = '#' :: codeDigits code.toList := by
  simp [ofHex, StyleValue.text, codeDigits]

/-- The digits of a code end as the code does. -/
theorem isTight_code (code : List Char) : IsTight ('#' :: codeDigits code) := by
  refine ⟨⟨'#', _, rfl, by decide⟩, ?_⟩
  by_cases hbare : (trim code).dropWhile (· == '#') = []
  · rw [codeDigits, hbare]
    exact ⟨[], '#', rfl, by decide⟩
  · obtain ⟨r, c, hlast, hc⟩ := last_of_suffix_trim (List.dropWhile_suffix _) hbare
    refine ⟨'#' :: lower r, c.toLower, ?_, by rw [isBlank_toLower, hc]⟩
    rw [codeDigits, hlast, lower, List.map_append]
    rfl

/-- Number signs come off in front before or after letters are taken to lower case. -/
theorem dropWhile_lower (cs : List Char) :
    (lower cs).dropWhile (· == '#') = lower (cs.dropWhile (· == '#')) := by
  have hsign : ((· == '#') ∘ Char.toLower) = fun c : Char => c == '#' := by
    funext c
    rw [Bool.eq_iff_iff]
    simp [toLower_eq_numberSign]
  rw [lower, List.dropWhile_map, hsign, lower]

theorem dropWhile_codeDigits (code : List Char) :
    (codeDigits code).dropWhile (· == '#') = codeDigits code := by
  rw [codeDigits, dropWhile_lower, List.dropWhile_idempotent]

theorem codeDigits_code (code : List Char) :
    codeDigits ('#' :: codeDigits code) = codeDigits code := by
  have hdrop : ('#' :: codeDigits code).dropWhile (· == '#') = codeDigits code := by
    rw [List.dropWhile_cons_of_pos rfl, dropWhile_codeDigits]
  calc codeDigits ('#' :: codeDigits code)
      = lower (('#' :: codeDigits code).dropWhile (· == '#')) := by
        rw [codeDigits, (isTight_code code).trim]
    _ = lower (codeDigits code) := by rw [hdrop]
    _ = codeDigits code := lower_lower _

/-- The text of a code is the code of itself. -/
theorem ofHex_text_ofHex (code : String) : ofHex (StyleValue.text (ofHex code)) = ofHex code := by
  rw [ofHex_eq_iff, toList_text_ofHex, codeDigits_code]

/-! ### Channels and keywords -/

/-- A function with arguments in brackets is tight and starts with its own first letter. -/
theorem isTight_call {name : String} (hname : IsWord name.toList) (arguments : String) :
    IsTight (name ++ arguments ++ ")").toList := by
  rw [String.toList_append, String.toList_append]
  exact hname.isTight.append (IsWord.isTight (by decide)) _

theorem isTight_text_rgb (red green blue : UInt8) :
    IsTight (StyleValue.text (rgb red green blue)).toList :=
  isTight_call (by decide) _

theorem isTight_text_rgba (red green blue : UInt8) (alpha : Binary32) :
    IsTight (StyleValue.text (rgba red green blue alpha)).toList := by
  have hname : IsWord "rgba(".toList := by decide
  have htight := isTight_call hname
    (channelsText red green blue ++ ", " ++ NumberStyle.stylesheet.text alpha)
  simpa [StyleValue.text, String.append_assoc] using htight

theorem head?_text_rgb (red green blue : UInt8) :
    (StyleValue.text (rgb red green blue)).toList.head? = some 'r' := by
  simp [StyleValue.text, String.toList_append]

theorem head?_text_rgba (red green blue : UInt8) (alpha : Binary32) :
    (StyleValue.text (rgba red green blue alpha)).toList.head? = some 'r' := by
  simp [StyleValue.text, String.toList_append]

@[simp] theorem text_named (keyword : String) : StyleValue.text (named keyword) = keyword := rfl

theorem isBlank_of_isAlphanum {c : Char} (h : c.isAlphanum = true) : isBlank c = false := by
  have hkinds : (c.isAlpha || c.isDigit) = true := h
  rcases (Bool.or_eq_true _ _).mp hkinds with hletter | hdigit
  · have hrange := toNat_of_isAlpha hletter
    simp [isBlank]
    omega
  · exact isBlank_of_isDigit hdigit

/-- A keyword is a word of letters, digits and hyphens. -/
theorem isWord_of_isKeyword {keyword : String} (h : isKeyword keyword = true) :
    IsWord keyword.toList := by
  obtain ⟨hne, hall⟩ : keyword.toList ≠ [] ∧
      ∀ c ∈ keyword.toList, c.isAlphanum = true ∨ c = '-' := by
    simpa [isKeyword] using h
  refine ⟨hne, fun c hc => ?_⟩
  rcases hall c hc with hletter | rfl
  · exact isBlank_of_isAlphanum hletter
  · decide

theorem head?_ne_numberSign_of_isKeyword {keyword : String} (h : isKeyword keyword = true) :
    keyword.toList.head? ≠ some '#' := by
  intro hhead
  have hmem : '#' ∈ keyword.toList := List.mem_of_mem_head? hhead
  have hall : ∀ c ∈ keyword.toList, c.isAlphanum = true ∨ c = '-' := by
    have hparts := (Bool.and_eq_true _ _ ▸ h).2
    simpa using hparts
  exact absurd (hall '#' hmem) (by decide)

end UiStyle.Color

/-! ### Hexadecimal codes -/

namespace UiStyle

namespace Text

/-- The characters that are hexadecimal digits. -/
def hexDigits : List Char := "0123456789abcdefABCDEF".toList

theorem isHexDigit_iff_mem {c : Char} : isHexDigit c = true ↔ c ∈ hexDigits := by
  have hall : hexDigits.all isHexDigit = true := by decide
  have hsmall : ∀ n < 103, isHexDigit (Char.ofNat n) = true → Char.ofNat n ∈ hexDigits := by decide
  refine ⟨fun h => ?_, List.all_eq_true.mp hall c⟩
  have hrange : c.toNat < 103 := by
    have := isHexDigit_iff.mp h
    omega
  have hchar := hsmall c.toNat hrange
  rw [Char.ofNat_toNat] at hchar
  exact hchar h

theorem isHexDigit_toLower (c : Char) : isHexDigit c.toLower = isHexDigit c := by
  rw [Bool.eq_iff_iff, isHexDigit_iff, isHexDigit_iff, toNat_toLower]
  split <;> omega

/-- Hexadecimal digits are one byte each. -/
theorem byteLength_of_hexDigits {cs : List Char} (h : ∀ c ∈ cs, isHexDigit c = true) :
    byteLength cs = cs.length := by
  induction cs with
  | nil => rfl
  | cons c cs ih =>
      obtain ⟨hc, hcs⟩ := List.forall_mem_cons.mp h
      have hsize : c.utf8Size = 1 := by
        have hrange := isHexDigit_iff.mp hc
        have hval : c.val.toNat = c.toNat := rfl
        rw [Char.utf8Size_eq_one_iff, UInt32.le_iff_toNat_le]
        have hbound : (127 : UInt32).toNat = 127 := rfl
        omega
      have hrest := ih hcs
      unfold byteLength at hrest ⊢
      rw [List.foldr_cons, hrest, hsize, List.length_cons, Nat.add_comm]

end Text

namespace Color

open Text

/-- 3, 4, 6 or 8 hexadecimal digits. -/
structure AreDigits (cs : List Char) : Prop where
  length_mem : cs.length ∈ [3, 4, 6, 8]
  hex : ∀ c ∈ cs, c ∈ hexDigits

/-- One number sign, 3, 4, 6 or 8 hexadecimal digits behind it, and nothing else. -/
def IsCode (cs : List Char) : Prop :=
  ∃ digits, cs = '#' :: digits ∧ AreDigits digits

theorem areDigits_iff {cs : List Char} :
    AreDigits cs ↔ byteLength cs ∈ [3, 4, 6, 8] ∧ ∀ c ∈ cs, isHexDigit c = true := by
  simp only [isHexDigit_iff_mem]
  constructor
  · rintro ⟨hlength, hhex⟩
    rw [byteLength_of_hexDigits fun c hc => isHexDigit_iff_mem.mpr (hhex c hc)]
    exact ⟨hlength, hhex⟩
  · rintro ⟨hlength, hhex⟩
    rw [byteLength_of_hexDigits fun c hc => isHexDigit_iff_mem.mpr (hhex c hc)] at hlength
    exact ⟨hlength, hhex⟩

theorem areDigits_lower_iff {cs : List Char} : AreDigits (lower cs) ↔ AreDigits cs := by
  have hlength : (lower cs).length = cs.length := List.length_map _
  have hhex : (∀ c ∈ lower cs, c ∈ hexDigits) ↔ ∀ c ∈ cs, c ∈ hexDigits := by
    simp only [lower, List.forall_mem_map, ← isHexDigit_iff_mem, isHexDigit_toLower]
  constructor
  · rintro ⟨hl, hh⟩
    exact ⟨hlength ▸ hl, hhex.mp hh⟩
  · rintro ⟨hl, hh⟩
    exact ⟨hlength.symm ▸ hl, hhex.mpr hh⟩

/-- A code is judged by what is left of it. -/
theorem isWellFormed_ofHex_iff {code : String} :
    (ofHex code).isWellFormed = true ↔ AreDigits ((trim code.toList).dropWhile (· == '#')) := by
  have hdigits : (ofHex code).isWellFormed = true ↔ AreDigits (codeDigits code.toList) := by
    have hdrop : ('#' :: codeDigits code.toList).dropWhile (· == '#') =
        codeDigits code.toList := by
      rw [List.dropWhile_cons_of_pos rfl, dropWhile_codeDigits]
    have hcode : (ofHex code).isWellFormed =
        isHexCode (.ofList ('#' :: codeDigits code.toList)) := rfl
    rw [hcode, isHexCode, String.toList_ofList, hdrop, areDigits_iff]
    simp
  rw [hdigits, codeDigits, areDigits_lower_iff]

/-- Number signs come off what starts with no other. -/
theorem AreDigits.dropSigns {digits : List Char} (h : AreDigits digits) (signs : Nat) :
    (List.replicate signs '#' ++ digits).dropWhile (· == '#') = digits := by
  rw [List.dropWhile_append_of_pos (by simp)]
  cases digits with
  | nil => rfl
  | cons c cs =>
      have hc : c ∈ hexDigits := h.hex c (List.mem_cons_self ..)
      have hne : c ≠ '#' := by
        rintro rfl
        exact absurd hc (by decide)
      rw [List.dropWhile_cons_of_neg (by simpa using hne)]

/-- What starts with a number sign and has digits behind its signs is a code with any number of
signs more in front of it. -/
theorem areDigits_dropSigns_iff {cs : List Char} (hsign : cs.head? = some '#') :
    AreDigits (cs.dropWhile (· == '#')) ↔
      ∃ more code, cs = List.replicate more '#' ++ code ∧ IsCode code := by
  have hshift : ∀ more digits, List.replicate more '#' ++ '#' :: digits =
      List.replicate (more + 1) '#' ++ digits := by
    intro more digits
    rw [List.replicate_succ', List.append_assoc, List.singleton_append]
  constructor
  · intro h
    obtain ⟨rest, rfl⟩ := List.head?_eq_some_iff.mp hsign
    rw [List.dropWhile_cons_of_pos rfl] at h
    have hsigns : rest.takeWhile (· == '#') =
        List.replicate (rest.takeWhile (· == '#')).length '#' := by
      rw [List.eq_replicate_iff]
      exact ⟨rfl, fun c hc => by simpa using List.mem_takeWhile_imp hc⟩
    refine ⟨(rest.takeWhile (· == '#')).length, '#' :: rest.dropWhile (· == '#'), ?_, _, rfl, h⟩
    rw [hshift, List.replicate_succ, ← hsigns, List.cons_append, List.takeWhile_append_dropWhile]
  · rintro ⟨more, code, rfl, digits, rfl, hdigits⟩
    rwa [hshift, hdigits.dropSigns]

end Color

end UiStyle
