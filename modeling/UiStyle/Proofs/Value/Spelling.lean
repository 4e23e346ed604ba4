import UiStyle.Proofs.Value.Color

/-!
# Spellings of a code

A code can be spelled with white space around it, with any number of number signs in front and in
either letter case, and all spellings make one color.  `Color.Spells` says what a text spells: what
is left of it without the white space around it and without some of the signs in front.

The color that is made of a text keeps nothing but that, in lower case and behind one sign
(`Spells.codeDigits_eq`), and every text spells something that is in this form already
(`exists_spells`).  So two texts make the same color exactly if they spell the same up to letter
case, and the text of the color is one of its own spellings (`ofHex_eq_iff_spelledAlike`).

White space behind a sign is not around the text, and stays.
-/

namespace UiStyle

namespace Text

/-- The hexadecimal digits in lower case. -/
def lowerHexDigits : List Char := "0123456789abcdef".toList

theorem mem_lowerHexDigits_iff {c : Char} :
    c ∈ lowerHexDigits ↔ c ∈ hexDigits ∧ c.toLower = c := by
  have hall : (hexDigits.filter fun c => c.toLower == c).all (· ∈ lowerHexDigits) = true := by
    decide
  have hback : lowerHexDigits.all (fun c => c ∈ hexDigits && c.toLower == c) = true := by decide
  constructor
  · intro h
    simpa using List.all_eq_true.mp hback c h
  · rintro ⟨hc, hlower⟩
    have hmem : c ∈ hexDigits.filter fun c => c.toLower == c := by simp [hc, hlower]
    simpa using List.all_eq_true.mp hall c hmem

end Text

namespace Color

open Text

/-- A text that spells `body`: white space around it and number signs in front of it.  The white
space is all that there is around signs and body. -/
inductive Spells (body : List Char) : List Char → Prop
  | mk {front behind : List Char} (signs : Nat) (hfront : ∀ c ∈ front, isBlank c = true)
    (hbehind : ∀ c ∈ behind, isBlank c = true)
    (hfirst : ∀ c ∈ (List.replicate signs '#' ++ body).head?, isBlank c = false)
    (hlast : ∀ c ∈ (List.replicate signs '#' ++ body).getLast?, isBlank c = false) :
    Spells body (front ++ (List.replicate signs '#' ++ body) ++ behind)

/-- Texts that differ in the white space around them, in the number of signs in front and in the
case of letters only. -/
def SpelledAlike (cs ds : List Char) : Prop :=
  ∃ body body', Spells body cs ∧ Spells body' ds ∧ lower body = lower body'

/-- One number sign and 3, 4, 6 or 8 hexadecimal digits in lower case. -/
def IsCanonicalCode (cs : List Char) : Prop :=
  ∃ digits, cs = '#' :: digits ∧ digits.length ∈ [3, 4, 6, 8] ∧ ∀ c ∈ digits, c ∈ lowerHexDigits

theorem Spells.codeDigits_eq {body cs : List Char} (h : Spells body cs) :
    codeDigits cs = (lower body).dropWhile (· == '#') := by
  obtain ⟨signs, hfront, hbehind, hfirst, hlast⟩ := h
  have htrim : trim (List.replicate signs '#' ++ body) = List.replicate signs '#' ++ body := by
    generalize List.replicate signs '#' ++ body = cs at hfirst hlast
    rcases List.eq_nil_or_concat cs with rfl | ⟨rest, c, rfl⟩
    · rfl
    · rw [List.concat_eq_append] at hfirst hlast ⊢
      refine IsTight.trim ⟨?_, rest, c, rfl, hlast c (by simp)⟩
      obtain ⟨d, tail, hcs⟩ := List.exists_cons_of_ne_nil (List.append_ne_nil_of_right_ne_nil rest
        (List.cons_ne_nil c []))
      exact ⟨d, tail, hcs, hfirst d (by rw [hcs]; rfl)⟩
  rw [codeDigits, trim_append_append hfront hbehind, htrim,
    List.dropWhile_append_of_pos (by simp), dropWhile_lower]

/-- A text spells what the color made of it keeps, up to letter case. -/
theorem exists_spells (cs : List Char) : ∃ body, Spells body cs ∧ lower body = codeDigits cs := by
  obtain ⟨front, behind, hcs, hfront, hbehind⟩ := exists_trim cs
  have hsigns : (trim cs).takeWhile (· == '#') =
      List.replicate ((trim cs).takeWhile (· == '#')).length '#' :=
    List.eq_replicate_of_mem fun c hc => by simpa using List.mem_takeWhile_imp hc
  have hsplit : List.replicate ((trim cs).takeWhile (· == '#')).length '#' ++
      (trim cs).dropWhile (· == '#') = trim cs := by
    rw [← hsigns, List.takeWhile_append_dropWhile]
  have hspells := @Spells.mk ((trim cs).dropWhile (· == '#')) front behind
    ((trim cs).takeWhile (· == '#')).length hfront hbehind
  rw [hsplit, ← hcs] at hspells
  exact ⟨_, hspells (fun c => isBlank_head?_trim) (fun c => isBlank_getLast?_trim), rfl⟩

theorem spelledAlike_iff {cs ds : List Char} :
    SpelledAlike cs ds ↔ codeDigits cs = codeDigits ds := by
  constructor
  · rintro ⟨body, body', hcs, hds, hsame⟩
    rw [hcs.codeDigits_eq, hds.codeDigits_eq, hsame]
  · intro h
    obtain ⟨body, hcs, hbody⟩ := exists_spells cs
    obtain ⟨body', hds, hbody'⟩ := exists_spells ds
    exact ⟨body, body', hcs, hds, by rw [hbody, hbody', h]⟩

theorem isCanonicalCode_iff {cs : List Char} :
    IsCanonicalCode ('#' :: codeDigits cs) ↔ AreDigits (codeDigits cs) := by
  have hlower : ∀ c ∈ codeDigits cs, c.toLower = c := by
    intro c hc
    obtain ⟨d, -, rfl⟩ := List.mem_map.mp hc
    exact toLower_toLower d
  constructor
  · rintro ⟨digits, hcs, hlength, hall⟩
    obtain rfl := (List.cons.inj hcs).2
    exact ⟨hlength, fun c hc => (mem_lowerHexDigits_iff.mp (hall c hc)).1⟩
  · intro h
    exact ⟨_, rfl, h.length_mem, fun c hc => mem_lowerHexDigits_iff.mpr ⟨h.hex c hc, hlower c hc⟩⟩

/-- **A code has one form.**  The text of a code makes the code again.  Two texts make the same code
exactly if they differ in nothing but the white space around them, the number of signs in front
behind that white space, and the case of letters.  And a code is well formed exactly if its text is
one sign and 3, 4, 6 or 8 hexadecimal digits in lower case. -/
theorem ofHex_eq_iff_spelledAlike (code : String) :
    ofHex (StyleValue.text (ofHex code)) = ofHex code ∧
      (∀ other : String, SpelledAlike code.toList other.toList ↔ ofHex code = ofHex other) ∧
      ((ofHex code).isWellFormed = true ↔
        IsCanonicalCode (StyleValue.text (ofHex code)).toList) := by
  refine ⟨ofHex_text_ofHex code, fun other => ?_, ?_⟩
  · rw [spelledAlike_iff, ofHex_eq_iff]
  · rw [toList_text_ofHex, isCanonicalCode_iff, isWellFormed_ofHex_iff, codeDigits,
      areDigits_lower_iff]

example : ofHex "\u00a0##FfF " = ofHex "fff" ∧ ofHex "# fff" ≠ ofHex "fff" := by
  decide +kernel

end Color

end UiStyle
