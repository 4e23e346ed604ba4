import Mathlib.Data.List.TakeWhile
import UiStyle.Text.Basic

/-!
# Words and tight texts

A word is a text of characters that are not blank, at least one.  Words put behind each other with a
space between them are the words of the text that comes out (`words_intercalate`).  The other way
round, words stand in the text that they were found in, with blank characters around them
(`exists_of_words_cons`), and how many and which these are is all that is lost.  A text is tight
when neither its first nor its last character is blank: trimming leaves it alone (`IsTight.trim`),
whatever stands between.  What trimming leaves is tight unless it is nothing (`isTight_trim`), so
trimming twice is trimming once; and what it takes off is blank (`exists_trim`), so blank characters
around a text are all that is lost, and no word with them (`words_trim`).

Taking a character to the lower case of ASCII moves the letters `A` to `Z` by 32 and nothing else
(`toNat_toLower`).  So it leaves what is in lower case alone, makes nothing blank and takes no blank
away, and a character that is no letter comes from itself only.  The letters are that range and the
one of lower case (`toNat_of_isAlpha`), and the hexadecimal digits are three ranges of six or ten
(`isHexDigit_iff`).
-/

namespace UiStyle.Text

/-! ### Letter case -/

theorem toNat_toLower (c : Char) :
    c.toLower.toNat = if 65 ≤ c.toNat ∧ c.toNat ≤ 90 then c.toNat + 32 else c.toNat := by
  have hupper : c.val ≥ 'A'.val ∧ c.val ≤ 'Z'.val ↔ 65 ≤ c.toNat ∧ c.toNat ≤ 90 := by
    simp only [ge_iff_le, UInt32.le_iff_toNat_le]
    rfl
  unfold Char.toLower
  split
  · rename_i h
    have hrange := hupper.mp h
    rw [if_pos hrange]
    show (c.val + ('a'.val - 'A'.val)).toNat = c.toNat + 32
    rw [UInt32.toNat_add]
    have hval : c.val.toNat = c.toNat := rfl
    have hshift : ('a'.val - 'A'.val).toNat = 32 := by decide
    omega
  · rename_i h
    rw [if_neg (mt hupper.mpr h)]

theorem toNat_of_isAlpha {c : Char} (h : c.isAlpha = true) :
    65 ≤ c.toNat ∧ c.toNat ≤ 90 ∨ 97 ≤ c.toNat ∧ c.toNat ≤ 122 := by
  have hor : (c.isUpper || c.isLower) = true := h
  rcases (Bool.or_eq_true _ _).mp hor with hupper | hlower
  · exact .inl (of_decide_eq_true hupper)
  · have hand : (decide (c.val ≥ 'a'.val) && decide (c.val ≤ 'z'.val)) = true := hlower
    exact .inr (by simpa [UInt32.le_iff_toNat_le] using hand)

theorem isHexDigit_iff {c : Char} :
    isHexDigit c = true ↔ (48 ≤ c.toNat ∧ c.toNat ≤ 57) ∨ (97 ≤ c.toNat ∧ c.toNat ≤ 102) ∨
      (65 ≤ c.toNat ∧ c.toNat ≤ 70) := by
  simp only [isHexDigit, Char.isDigit, Bool.or_eq_true, Bool.and_eq_true, decide_eq_true_eq,
    Char.le_def, ge_iff_le, UInt32.le_iff_toNat_le, or_assoc]
  rfl

theorem toLower_toLower (c : Char) : c.toLower.toLower = c.toLower := by
  have hlower : ¬ (65 ≤ c.toLower.toNat ∧ c.toLower.toNat ≤ 90) := by
    rw [toNat_toLower]
    split <;> omega
  apply Char.toNat_inj.mp
  rw [toNat_toLower c.toLower, if_neg hlower]

theorem isBlank_toLower (c : Char) : isBlank c.toLower = isBlank c := by
  rw [Bool.eq_iff_iff]
  simp only [isBlank, toNat_toLower, Bool.or_eq_true, Bool.and_eq_true, decide_eq_true_eq,
    beq_iff_eq]
  split <;> omega

/-- A number sign is the lower case of no other character. -/
theorem toLower_eq_numberSign {c : Char} : c.toLower = '#' ↔ c = '#' := by
  have hsign : '#'.toNat = 35 := rfl
  rw [← Char.toNat_inj, ← Char.toNat_inj, toNat_toLower, hsign]
  split <;> omega

theorem lower_lower (cs : List Char) : lower (lower cs) = lower cs := by
  rw [lower, lower, List.map_map]
  exact List.map_congr_left fun c _ => toLower_toLower c

/-! ### Words -/

theorem isBlank_space : isBlank ' ' = true := rfl

theorem isBlank_of_isDigit {c : Char} (h : c.isDigit = true) : isBlank c = false := by
  have hle : 48 ≤ c.toNat ∧ c.toNat ≤ 57 := by
    simpa [Char.isDigit, UInt32.le_iff_toNat_le] using h
  simp [isBlank]
  omega

theorem IsWord.append {v w : List Char} (hv : IsWord v) (hw : IsWord w) : IsWord (v ++ w) where
  nonempty := List.append_ne_nil_of_left_ne_nil hv.nonempty w
  solid c hc := (List.mem_append.mp hc).elim (hv.solid c) (hw.solid c)

theorem IsWord.cons {c : Char} {w : List Char} (hc : isBlank c = false) (hw : IsWord w) :
    IsWord (c :: w) where
  nonempty := List.cons_ne_nil c w
  solid := List.forall_mem_cons.mpr ⟨hc, hw.solid⟩

/-! ### Splitting -/

theorem splitWords_append {w : List Char} (hw : ∀ c ∈ w, isBlank c = false) (rest : List Char) :
    splitWords (w ++ rest) = (w ++ (splitWords rest).1, (splitWords rest).2) := by
  induction w with
  | nil => rfl
  | cons c w ih =>
      obtain ⟨hc, hw⟩ := List.forall_mem_cons.mp hw
      rw [List.cons_append, splitWords, ih hw]
      simp [hc]

theorem splitWords_cons_blank {c : Char} (hc : isBlank c = true) (rest : List Char) :
    splitWords (c :: rest) = ([], words rest) := by
  simp [splitWords, words, hc]

/-- A word that nothing follows. -/
theorem IsWord.words {w : List Char} (hw : IsWord w) : words w = [w] := by
  have hsplit := splitWords_append hw.solid []
  simp only [List.append_nil, splitWords] at hsplit
  simp [Text.words, hsplit, hw.nonempty]

/-- A word that a blank character follows. -/
theorem IsWord.words_append {w : List Char} (hw : IsWord w) {c : Char} (hc : isBlank c = true)
    (rest : List Char) : Text.words (w ++ c :: rest) = w :: Text.words rest := by
  have hsplit := splitWords_append hw.solid (c :: rest)
  rw [splitWords_cons_blank hc, List.append_nil] at hsplit
  simp [Text.words, hsplit, hw.nonempty]

/-- Words put behind each other are found again. -/
theorem words_intercalate {ws : List (List Char)} (hws : ∀ w ∈ ws, IsWord w) :
    words ([' '].intercalate ws) = ws := by
  induction ws with
  | nil => rfl
  | cons w ws ih =>
      obtain ⟨hw, hws⟩ := List.forall_mem_cons.mp hws
      cases ws with
      | nil => rw [List.intercalate_singleton, hw.words]
      | cons v ws =>
          rw [List.intercalate_cons_cons, List.append_assoc, List.singleton_append,
            hw.words_append isBlank_space, ih hws]

/-! ### Where words stand -/

theorem words_cons_blank {c : Char} (hc : isBlank c = true) (rest : List Char) :
    words (c :: rest) = words rest := by
  simp [words, splitWords_cons_blank hc]

/-- Blank characters in front of a text do not count. -/
theorem words_append_of_isBlank {gap : List Char} (hgap : ∀ c ∈ gap, isBlank c = true)
    (rest : List Char) : words (gap ++ rest) = words rest := by
  induction gap with
  | nil => rfl
  | cons c gap ih =>
      obtain ⟨hc, hgap⟩ := List.forall_mem_cons.mp hgap
      rw [List.cons_append, words_cons_blank hc, ih hgap]

/-- Blank characters behind a text do not count. -/
theorem words_append_behind {behind : List Char} (hbehind : ∀ c ∈ behind, isBlank c = true)
    (cs : List Char) : words (cs ++ behind) = words cs := by
  have hsplit : splitWords (cs ++ behind) = splitWords cs := by
    induction cs with
    | nil =>
        cases behind with
        | nil => rfl
        | cons c behind =>
            obtain ⟨hc, hbehind⟩ := List.forall_mem_cons.mp hbehind
            have hnone : words behind = [] := by
              rw [← List.append_nil behind, words_append_of_isBlank hbehind]
              rfl
            rw [List.nil_append, splitWords_cons_blank hc, hnone, splitWords]
    | cons c cs ih => rw [List.cons_append, splitWords, ih, splitWords]
  rw [words, hsplit, words]

theorem isBlank_of_words_eq_nil {cs : List Char} (h : words cs = []) :
    ∀ c ∈ cs, isBlank c = true := by
  induction cs with
  | nil => exact nofun
  | cons c cs ih =>
      cases hc : isBlank c with
      | true =>
          rw [words_cons_blank hc] at h
          exact List.forall_mem_cons.mpr ⟨hc, ih h⟩
      | false => simp [words, splitWords, hc] at h

/-- The word at the front of a text ends at the end of the text or in front of a blank character. -/
theorem exists_splitWords (cs : List Char) :
    ∃ rest, cs = (splitWords cs).1 ++ rest ∧ (∀ c ∈ (splitWords cs).1, isBlank c = false) ∧
      (∀ c ∈ rest.head?, isBlank c = true) ∧ words rest = (splitWords cs).2 := by
  induction cs with
  | nil => exact ⟨[], rfl, nofun, nofun, rfl⟩
  | cons c cs ih =>
      cases hc : isBlank c with
      | true =>
          rw [splitWords_cons_blank hc]
          refine ⟨c :: cs, rfl, nofun, ?_, words_cons_blank hc cs⟩
          intro d hd
          rwa [← Option.some.inj hd]
      | false =>
          obtain ⟨rest, hcs, hsolid, hhead, hwords⟩ := ih
          have hsplit : splitWords (c :: cs) = (c :: (splitWords cs).1, (splitWords cs).2) := by
            simp [splitWords, hc]
          rw [hsplit]
          refine ⟨rest, ?_, List.forall_mem_cons.mpr ⟨hc, hsolid⟩, hhead, hwords⟩
          rw [List.cons_append, ← hcs]

/-- The first word stands behind blank characters, and the other words are found behind it. -/
theorem exists_of_words_cons {cs w : List Char} {ws : List (List Char)} (h : words cs = w :: ws) :
    ∃ gap rest, cs = gap ++ w ++ rest ∧ (∀ c ∈ gap, isBlank c = true) ∧ IsWord w ∧
      (∀ c ∈ rest.head?, isBlank c = true) ∧ words rest = ws := by
  induction cs with
  | nil => cases h
  | cons c cs ih =>
      cases hc : isBlank c with
      | true =>
          rw [words_cons_blank hc] at h
          obtain ⟨gap, rest, rfl, hgap, hrest⟩ := ih h
          exact ⟨c :: gap, rest, rfl, List.forall_mem_cons.mpr ⟨hc, hgap⟩, hrest⟩
      | false =>
          obtain ⟨rest, hcs, hsolid, hhead, hwords⟩ := exists_splitWords (c :: cs)
          have hne : (splitWords (c :: cs)).1 ≠ [] := by
            simp [splitWords, hc]
          have hfirst : words (c :: cs) = (splitWords (c :: cs)).1 :: (splitWords (c :: cs)).2 := by
            simp [words, hne]
          obtain ⟨hw, hws⟩ := List.cons.inj (hfirst.symm.trans h)
          rw [hw] at hcs hsolid hne
          exact ⟨[], rest, hcs, nofun, ⟨hne, hsolid⟩, hhead, hwords.trans hws⟩

/-! ### Trimming -/

/-- A text whose first and last characters are not blank. -/
structure IsTight (cs : List Char) : Prop where
  first : ∃ c r, cs = c :: r ∧ isBlank c = false
  last : ∃ r c, cs = r ++ [c] ∧ isBlank c = false

theorem IsWord.isTight {w : List Char} (hw : IsWord w) : IsTight w where
  first := by
    obtain ⟨c, r, rfl⟩ := List.exists_cons_of_ne_nil hw.nonempty
    exact ⟨c, r, rfl, hw.solid c (List.mem_cons_self ..)⟩
  last := by
    refine ⟨w.dropLast, w.getLast hw.nonempty, ?_, hw.solid _ (List.getLast_mem _)⟩
    rw [List.dropLast_concat_getLast]

/-- Whatever stands between two tight texts, the whole is tight. -/
theorem IsTight.append {a b : List Char} (ha : IsTight a) (hb : IsTight b) (between : List Char) :
    IsTight (a ++ between ++ b) := by
  obtain ⟨⟨c, r, rfl, hc⟩, -⟩ := ha
  obtain ⟨-, r', c', rfl, hc'⟩ := hb
  exact ⟨⟨c, _, rfl, hc⟩, ⟨_, c', (List.append_assoc ..).symm, hc'⟩⟩

/-- Two tight texts with a space between them. -/
theorem IsTight.spaced {s t : String} (hs : IsTight s.toList) (ht : IsTight t.toList) :
    IsTight (s ++ " " ++ t).toList := by
  rw [String.toList_append, String.toList_append]
  exact hs.append ht _

theorem isTight_intercalate {ws : List (List Char)} (hne : ws ≠ []) (hws : ∀ w ∈ ws, IsWord w) :
    IsTight ([' '].intercalate ws) := by
  induction ws with
  | nil => exact absurd rfl hne
  | cons w ws ih =>
      obtain ⟨hw, hws⟩ := List.forall_mem_cons.mp hws
      cases ws with
      | nil =>
          rw [List.intercalate_singleton]
          exact hw.isTight
      | cons v ws =>
          rw [List.intercalate_cons_cons]
          exact hw.isTight.append (ih (List.cons_ne_nil v ws) hws) [' ']

theorem IsTight.trim {cs : List Char} (h : IsTight cs) : trim cs = cs := by
  have hstart : trimStart cs = cs := by
    obtain ⟨c, r, rfl, hc⟩ := h.first
    rw [trimStart, List.dropWhile_cons_of_neg (by simp [hc])]
  obtain ⟨r, c, hcs, hc⟩ := h.last
  rw [Text.trim, hstart, trimEnd, hcs, List.reverse_append, List.reverse_singleton,
    List.singleton_append, List.dropWhile_cons_of_neg (by simp [hc])]
  simp

theorem IsTight.trimmed {s : String} (h : IsTight s.toList) : trimmed s = s := by
  rw [Text.trimmed, h.trim, String.ofList_toList]

/-- A tight text does not start with blank characters. -/
theorem IsTight.eq_nil_of_front {front rest : List Char} (h : IsTight (front ++ rest))
    (hblank : ∀ c ∈ front, isBlank c = true) : front = [] := by
  obtain ⟨c, r, hcs, hc⟩ := h.first
  cases front with
  | nil => rfl
  | cons d front =>
      obtain ⟨rfl, -⟩ := List.cons.inj hcs
      rw [hblank d (List.mem_cons_self ..)] at hc
      cases hc

/-- A tight text does not end with blank characters. -/
theorem IsTight.eq_nil_of_behind {rest behind : List Char} (h : IsTight (rest ++ behind))
    (hblank : ∀ c ∈ behind, isBlank c = true) : behind = [] := by
  obtain ⟨r, c, hcs, hc⟩ := h.last
  rcases List.eq_nil_or_concat behind with rfl | ⟨front, d, rfl⟩
  · rfl
  · rw [List.concat_eq_append, ← List.append_assoc] at hcs
    obtain ⟨-, hlast⟩ := List.append_inj' hcs rfl
    rw [← List.singleton_inj.mp hlast, hblank d (by simp)] at hc
    cases hc

/-- Two words are those of a tight text if it is made of them and of blank characters between. -/
theorem IsTight.words_eq_pair_iff {cs v w : List Char} (h : IsTight cs) :
    words cs = [v, w] ↔ IsWord v ∧ IsWord w ∧
      ∃ gap, cs = v ++ gap ++ w ∧ gap ≠ [] ∧ ∀ c ∈ gap, isBlank c = true := by
  constructor
  · intro hwords
    obtain ⟨front, rest, rfl, hfront, hv, hhead, hrest⟩ := exists_of_words_cons hwords
    obtain ⟨gap, behind, rfl, hgap, hw, -, hnone⟩ := exists_of_words_cons hrest
    rw [← List.append_assoc] at h
    obtain rfl := h.eq_nil_of_behind (isBlank_of_words_eq_nil hnone)
    rw [List.append_assoc, List.append_assoc] at h
    obtain rfl := h.eq_nil_of_front hfront
    refine ⟨hv, hw, gap, by simp, ?_, hgap⟩
    rintro rfl
    -- nothing would keep the second word from being part of the first
    obtain ⟨c, r, rfl⟩ := List.exists_cons_of_ne_nil hw.nonempty
    have hblank := hhead c rfl
    rw [hw.solid c (List.mem_cons_self ..)] at hblank
    cases hblank
  · rintro ⟨hv, hw, gap, rfl, hne, hgap⟩
    obtain ⟨c, gap, rfl⟩ := List.exists_cons_of_ne_nil hne
    obtain ⟨hc, hgap⟩ := List.forall_mem_cons.mp hgap
    rw [List.append_assoc, List.cons_append, hv.words_append hc, words_append_of_isBlank hgap,
      hw.words]

/-! ### What trimming leaves -/

/-- What is left without the blank characters in front starts with one that is not blank. -/
theorem dropWhile_isBlank {cs : List Char} {d : Char} (hd : d ∈ cs) (hblank : isBlank d = false) :
    ∃ c r, cs.dropWhile isBlank = c :: r ∧ isBlank c = false := by
  induction cs with
  | nil => cases hd
  | cons c cs ih =>
      cases hc : isBlank c with
      | false => exact ⟨c, cs, List.dropWhile_cons_of_neg (by simp [hc]), hc⟩
      | true =>
          have hne : d ≠ c := by
            rintro rfl
            rw [hblank] at hc
            cases hc
          rw [List.dropWhile_cons_of_pos hc]
          exact ih ((List.mem_cons.mp hd).resolve_left hne)

theorem isTight_trim_of_mem {cs : List Char} {d : Char} (hd : d ∈ cs)
    (hblank : isBlank d = false) : IsTight (trim cs) := by
  obtain ⟨c, r, hstart, hc⟩ := dropWhile_isBlank hd hblank
  have hmem : c ∈ (c :: r).reverse := List.mem_reverse.mpr (List.mem_cons_self ..)
  obtain ⟨e, s, hend, he⟩ := dropWhile_isBlank hmem hc
  have htrim : trim cs = s.reverse ++ [e] := by
    rw [trim, trimStart, hstart, trimEnd, hend, List.reverse_cons]
  -- taking blanks off the end leaves the first character where it is
  have hpre : trim cs <+: c :: r := by
    rw [htrim, ← List.reverse_suffix, List.reverse_append, List.reverse_singleton,
      List.singleton_append, List.reverse_reverse, ← hend]
    exact List.dropWhile_suffix isBlank
  refine ⟨?_, s.reverse, e, htrim, he⟩
  cases hleft : trim cs with
  | nil =>
      rw [htrim] at hleft
      exact absurd hleft (List.append_ne_nil_of_right_ne_nil _ (List.cons_ne_nil _ _))
  | cons c' r' =>
      rw [hleft] at hpre
      obtain ⟨rfl, -⟩ := List.cons_prefix_cons.mp hpre
      exact ⟨_, r', rfl, hc⟩

theorem trim_of_isBlank {cs : List Char} (h : ∀ c ∈ cs, isBlank c = true) : trim cs = [] := by
  have hstart : trimStart cs = [] := by
    induction cs with
    | nil => rfl
    | cons c cs ih =>
        obtain ⟨hc, hcs⟩ := List.forall_mem_cons.mp h
        rw [trimStart, List.dropWhile_cons_of_pos hc]
        exact ih hcs
  rw [trim, hstart]
  rfl

theorem isTight_trim {cs : List Char} (h : trim cs ≠ []) : IsTight (trim cs) := by
  by_cases hblank : ∀ c ∈ cs, isBlank c = true
  · exact absurd (trim_of_isBlank hblank) h
  · obtain ⟨d, hd, hd'⟩ : ∃ d ∈ cs, isBlank d = false := by simpa using hblank
    exact isTight_trim_of_mem hd hd'

/-- Blank characters around a text do not count. -/
theorem trim_append_append {front behind : List Char} (hfront : ∀ c ∈ front, isBlank c = true)
    (hbehind : ∀ c ∈ behind, isBlank c = true) (cs : List Char) :
    trim (front ++ cs ++ behind) = trim cs := by
  have hend : ∀ rest, trimEnd (rest ++ behind) = trimEnd rest := by
    intro rest
    rw [trimEnd, List.reverse_append, List.dropWhile_append_of_pos (by simpa using hbehind),
      trimEnd]
  have hstart : trimStart (front ++ cs ++ behind) = trimStart (cs ++ behind) := by
    rw [trimStart, List.append_assoc, List.dropWhile_append_of_pos hfront, trimStart]
  rw [trim, hstart, trimStart, List.dropWhile_append]
  split
  · -- nothing but blank characters
    rename_i hblank
    have hnil : trimStart cs = [] := List.isEmpty_iff.mp hblank
    have hbehind' : behind.dropWhile isBlank = [] := List.dropWhile_eq_nil_iff.mpr hbehind
    rw [hbehind', trim, hnil]
  · rw [hend, trim, trimStart]

/-- What trimming takes off is blank. -/
theorem exists_trim (cs : List Char) :
    ∃ front behind, cs = front ++ trim cs ++ behind ∧ (∀ c ∈ front, isBlank c = true) ∧
      ∀ c ∈ behind, isBlank c = true := by
  have htail : trimStart cs = trim cs ++ ((trimStart cs).reverse.takeWhile isBlank).reverse := by
    rw [trim, trimEnd, ← List.reverse_append, List.takeWhile_append_dropWhile, List.reverse_reverse]
  refine ⟨cs.takeWhile isBlank, ((trimStart cs).reverse.takeWhile isBlank).reverse, ?_,
    fun c hc => List.mem_takeWhile_imp hc,
    fun c hc => List.mem_takeWhile_imp (List.mem_reverse.mp hc)⟩
  rw [List.append_assoc, ← htail, trimStart, List.takeWhile_append_dropWhile]

theorem words_trim (cs : List Char) : words (trim cs) = words cs := by
  obtain ⟨front, behind, hcs, hfront, hbehind⟩ := exists_trim cs
  calc words (trim cs)
      = words (front ++ trim cs ++ behind) := by
        rw [words_append_behind hbehind, words_append_of_isBlank hfront]
    _ = words cs := by rw [← hcs]

theorem isBlank_head?_trim {cs : List Char} {c : Char} (h : c ∈ (trim cs).head?) :
    isBlank c = false := by
  have hne : trim cs ≠ [] := List.ne_nil_of_mem (List.mem_of_mem_head? h)
  obtain ⟨d, r, htrim, hd⟩ := (isTight_trim hne).first
  rw [htrim, List.head?_cons] at h
  rwa [← Option.some.inj h]

theorem isBlank_getLast?_trim {cs : List Char} {c : Char} (h : c ∈ (trim cs).getLast?) :
    isBlank c = false := by
  have hne : trim cs ≠ [] := List.ne_nil_of_mem (List.mem_of_getLast? h)
  obtain ⟨r, d, htrim, hd⟩ := (isTight_trim hne).last
  rw [htrim, List.getLast?_concat] at h
  rwa [← Option.some.inj h]

/-- Whatever is taken off the front of a trimmed text, the rest ends as the text does. -/
theorem last_of_suffix_trim {cs rest : List Char} (h : rest <:+ trim cs) (hne : rest ≠ []) :
    ∃ r c, rest = r ++ [c] ∧ isBlank c = false := by
  obtain ⟨front, hfront⟩ := h
  have htrim : trim cs ≠ [] := by
    rw [← hfront]
    exact List.append_ne_nil_of_right_ne_nil _ hne
  obtain ⟨r, c, hlast, hc⟩ := (isTight_trim htrim).last
  have hrest : rest = rest.dropLast ++ [rest.getLast hne] :=
    (List.dropLast_concat_getLast hne).symm
  rw [← hfront, hrest, ← List.append_assoc] at hlast
  obtain ⟨-, hsame⟩ := List.append_inj' hlast rfl
  exact ⟨_, _, hrest, List.singleton_inj.mp hsame ▸ hc⟩

theorem trim_trim (cs : List Char) : trim (trim cs) = trim cs := by
  by_cases h : trim cs = []
  · rw [h]
    rfl
  · exact (isTight_trim h).trim

theorem trimmed_trimmed (s : String) : trimmed (trimmed s) = trimmed s := by
  rw [trimmed, toList_trimmed, trim_trim, ← trimmed]

/-- Trimming leaves nothing only of what is blank. -/
theorem isBlankText_trimmed {s : String} (h : isBlankText s = false) :
    isBlankText (trimmed s) = false := by
  obtain ⟨d, hd, hblank⟩ : ∃ d ∈ s.toList, isBlank d = false := by simpa [isBlankText] using h
  obtain ⟨c, r, htrim, hc⟩ := (isTight_trim_of_mem hd hblank).first
  simp [isBlankText, htrim, hc]

end UiStyle.Text
