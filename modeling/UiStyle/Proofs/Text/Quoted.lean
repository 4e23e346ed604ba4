import Mathlib.Data.List.Basic
import UiStyle.Proofs.Text.Words
import UiStyle.Text.Basic

/-!
# Reading a quoted string

`Quoted.read?` reads what stands behind an opening quote by the rules of stylesheets, which know
nothing of how the string was written.  It takes one written character after the other until it
comes to a quote that is not behind a backslash:

```text
\ and hexadecimal digits, six at most    the character of this code; a space behind it belongs to it
\ and another character                  this other character
the end of a line                        no string: strings do not go on in the next line
another character                        itself
```

What has been quoted is read back, whatever comes behind the closing quote (`read?_escapeAll`), with
the replacement character for the null character, which has no written form.  So the closing quote
is the first that is not behind a backslash.  This is a fact about one character at a time
(`Escapes.next?_append`): the space that ends a code keeps it apart from digits and spaces of the
text behind it, and a backslash is never left in front of what it does not belong to.
-/

namespace UiStyle.Text

/-- The control characters of ASCII. -/
def IsControl (c : Char) : Prop := c.toNat < 0x20 ∨ c.toNat = 0x7f

/-- The characters that end a line. -/
def lineEnds : List Char := ['\n', '\r', '\x0c']

instance (c : Char) : Decidable (IsControl c) :=
  inferInstanceAs (Decidable (c.toNat < 0x20 ∨ c.toNat = 0x7f))

theorem IsControl.lt {c : Char} (h : IsControl c) : c.toNat < 0x80 := by
  rcases h with h | h <;> omega

theorem not_isControl_of_isHexDigit {c : Char} (h : isHexDigit c = true) : ¬ IsControl c := by
  have hrange := isHexDigit_iff.mp h
  rw [IsControl]
  omega

theorem isControl_of_mem_lineEnds {c : Char} (h : c ∈ lineEnds) : IsControl c := by
  have hall : ∀ c ∈ lineEnds, c.toNat < 0x20 := by simp [lineEnds]
  exact .inl (hall c h)

namespace Quoted

/-! ### Reading -/

/-- The value of a hexadecimal digit. -/
def digitValue (c : Char) : Nat :=
  if c.isDigit then c.toNat - '0'.toNat else c.toLower.toNat - 'a'.toNat + 10

/-- The number that hexadecimal digits stand for. -/
def codeValue (digits : List Char) : Nat :=
  digits.foldl (fun n c => 16 * n + digitValue c) 0

/-- The character of a code.  Codes of no character stand for the replacement character, and so does
zero. -/
def ofCode (n : Nat) : Char :=
  if n.isValidChar ∧ n ≠ 0 then .ofNat n else '\ufffd'

/-- The digits of a code that a text starts with. -/
def codeDigits (cs : List Char) : List Char :=
  (cs.take 6).takeWhile isHexDigit

/-- What is behind a code, less the space that belongs to it. -/
def skipSpace : List Char → List Char
  | ' ' :: rest => rest
  | cs => cs

/-- The character that is written behind a backslash, and what stands behind it. -/
def escaped? (cs : List Char) : Option (Char × List Char) :=
  if codeDigits cs = [] then cs.head?.map (·, cs.tail)
  else some (ofCode (codeValue (codeDigits cs)), skipSpace (cs.drop (codeDigits cs).length))

/-- The character that is written first in a text, and what stands behind it. -/
def next? : List Char → Option (Char × List Char)
  | [] => none
  | '\\' :: rest => escaped? rest
  | c :: rest => if c ∈ lineEnds then none else some (c, rest)

theorem length_skipSpace_le (cs : List Char) : (skipSpace cs).length ≤ cs.length := by
  unfold skipSpace
  split
  · exact Nat.le_succ _
  · exact Nat.le_refl _

theorem length_escaped?_le {cs rest : List Char} {c : Char} (h : escaped? cs = some (c, rest)) :
    rest.length ≤ cs.length := by
  unfold escaped? at h
  split at h
  · obtain ⟨d, -, hpair⟩ := Option.map_eq_some_iff.mp h
    obtain ⟨-, rfl⟩ := Prod.mk.inj hpair
    rw [List.length_tail]
    exact Nat.sub_le ..
  · obtain ⟨-, rfl⟩ := Prod.mk.inj (Option.some.inj h)
    calc (skipSpace (cs.drop (codeDigits cs).length)).length
        ≤ (cs.drop (codeDigits cs).length).length := length_skipSpace_le _
      _ ≤ cs.length := by
        rw [List.length_drop]
        exact Nat.sub_le ..

theorem length_next?_lt {cs rest : List Char} {c : Char} (h : next? cs = some (c, rest)) :
    rest.length < cs.length := by
  unfold next? at h
  split at h
  · cases h
  · exact Nat.lt_succ_of_le (length_escaped?_le h)
  · split at h
    · cases h
    · obtain ⟨-, rfl⟩ := Prod.mk.inj (Option.some.inj h)
      exact Nat.lt_succ_self _

/-- What a string says whose opening quote stands in front of a text, and what stands behind its
closing quote, if it has one. -/
def read? (cs : List Char) : Option (List Char × List Char) :=
  match cs with
  | '"' :: rest => some ([], rest)
  | cs =>
    match _h : next? cs with
    | none => none
    | some (c, rest) => (read? rest).map fun (said, behind) => (c :: said, behind)
  termination_by cs.length
  decreasing_by exact length_next?_lt _h

theorem read?_quote (rest : List Char) : read? ('"' :: rest) = some ([], rest) := by
  rw [read?]

theorem read?_next {cs rest : List Char} {c : Char} (hquote : cs.head? ≠ some '"')
    (hnext : next? cs = some (c, rest)) :
    read? cs = (read? rest).map fun (said, behind) => (c :: said, behind) := by
  have hother : ∀ rest, cs = '"' :: rest → False := by
    rintro rest rfl
    exact hquote rfl
  rw [read?]
  · split
    · rename_i hnone
      rw [hnext] at hnone
      cases hnone
    · rename_i hsome
      rw [hnext] at hsome
      obtain ⟨rfl, rfl⟩ := Prod.mk.inj (Option.some.inj hsome)
      rfl
  · exact hother

/-- Reading a string leaves less than there was. -/
theorem length_read?_lt {cs said behind : List Char} (h : read? cs = some (said, behind)) :
    behind.length < cs.length := by
  fun_induction read? cs generalizing said with
  | case1 rest =>
      obtain ⟨-, rfl⟩ := Prod.mk.inj (Option.some.inj h)
      exact Nat.lt_succ_self _
  | case2 cs _ _ => cases h
  | case3 cs _ c rest hnext ih =>
      obtain ⟨⟨said', behind'⟩, hread, hpair⟩ := Option.map_eq_some_iff.mp h
      obtain ⟨-, rfl⟩ := Prod.mk.inj hpair
      exact Nat.lt_trans (ih hread) (length_next?_lt hnext)

/-! ### Reading what was quoted -/

/-- What is read of a quoted character: the null character has become another. -/
def withoutNull (c : Char) : Char := if c = '\x00' then '\ufffd' else c

/-- Digits in front of a space are those of a code, if they are not too many. -/
theorem codeDigits_append {digits : List Char} (hhex : ∀ c ∈ digits, isHexDigit c = true)
    (hlength : digits.length ≤ 6) (rest : List Char) :
    codeDigits (digits ++ ' ' :: rest) = digits := by
  have hspace : ∀ n, ((' ' :: rest).take n).takeWhile isHexDigit = [] := by
    intro n
    cases n with
    | zero => rfl
    | succ n => rfl
  rw [codeDigits, List.take_append, List.take_of_length_le hlength,
    List.takeWhile_append_of_pos hhex, hspace, List.append_nil]

/-- The code of a character of ASCII is made of digits, not too many, and is its number. -/
theorem toDigits_spec {n : Nat} (h : n < 0x80) :
    (∀ c ∈ Nat.toDigits 16 n, isHexDigit c = true) ∧ (Nat.toDigits 16 n).length ≤ 6 ∧
      Nat.toDigits 16 n ≠ [] ∧ codeValue (Nat.toDigits 16 n) = n := by
  rw [← List.all_eq_true]
  revert n
  decide +kernel

theorem isControl_iff {c : Char} : isControl c = true ↔ IsControl c ∧ c ≠ '\x00' := by
  have hnull : c = '\x00' ↔ c.toNat = 0 := by
    rw [← Char.toNat_inj]
    rfl
  simp only [isControl, IsControl, Bool.or_eq_true, Bool.and_eq_true, decide_eq_true_eq,
    beq_iff_eq, ne_eq, hnull]
  omega

/-- What can be written for a character. -/
inductive Escapes (c : Char) : List Char → Prop
  | marked (h : c = '"' ∨ c = '\\') : Escapes c ['\\', c]
  | null (h : c = '\x00') : Escapes c ['\ufffd']
  | code (hcontrol : IsControl c) (hnull : c ≠ '\x00') :
    Escapes c ('\\' :: (Nat.toDigits 16 c.toNat ++ [' ']))
  | itself (hquote : c ≠ '"') (hmark : c ≠ '\\') (hcontrol : ¬ IsControl c) : Escapes c [c]

theorem escapes_escape (c : Char) : Escapes c (escape c) := by
  unfold escape
  split
  · rename_i h
    exact .marked h
  · rename_i hplain
    obtain ⟨hquote, hmark⟩ := not_or.mp hplain
    split
    · rename_i hnull
      exact .null hnull
    · rename_i hnull
      split
      · rename_i hcontrol
        exact .code (isControl_iff.mp hcontrol).1 hnull
      · rename_i hcontrol
        exact .itself hquote hmark fun h => hcontrol (isControl_iff.mpr ⟨h, hnull⟩)

theorem ofCode_toNat {c : Char} (h : c ≠ '\x00') : ofCode c.toNat = c := by
  have hnull : c.toNat ≠ 0 := by
    intro hzero
    exact h (Char.toNat_inj.mp hzero)
  rw [ofCode, if_pos ⟨c.valid, hnull⟩, Char.ofNat_toNat]

theorem next?_of_notMem_lineEnds {c : Char} (hmark : c ≠ '\\') (hend : c ∉ lineEnds)
    (rest : List Char) : next? (c :: rest) = some (c, rest) := by
  rw [next?, if_neg hend]
  exact hmark

namespace Escapes

variable {c : Char} {written : List Char}

/-- A quoted character comes first in what is read. -/
theorem next?_append (h : Escapes c written) (rest : List Char) :
    next? (written ++ rest) = some (withoutNull c, rest) := by
  cases h with
  | marked h =>
      -- neither of the two is a digit, so no code starts here
      have hdigits : codeDigits (c :: rest) = [] := by
        rcases h with rfl | rfl <;> rfl
      have hnull : c ≠ '\x00' := by
        rcases h with rfl | rfl <;> decide
      rw [withoutNull, if_neg hnull]
      show escaped? (c :: rest) = some (c, rest)
      rw [escaped?, if_pos hdigits]
      rfl
  | null h =>
      rw [withoutNull, if_pos h]
      exact next?_of_notMem_lineEnds (by decide) (by decide) rest
  | code hcontrol hnull =>
      obtain ⟨hhex, hlength, hne, hvalue⟩ := toDigits_spec hcontrol.lt
      have hdigits := codeDigits_append hhex hlength rest
      rw [withoutNull, if_neg hnull, List.cons_append, List.append_assoc, List.singleton_append]
      show escaped? (Nat.toDigits 16 c.toNat ++ ' ' :: rest) = some (c, rest)
      rw [escaped?, hdigits, if_neg hne, hvalue, ofCode_toNat hnull, List.drop_left]
      rfl
  | itself hquote hmark hcontrol =>
      have hnull : c ≠ '\x00' := by
        rintro rfl
        exact hcontrol (.inl (by decide))
      rw [withoutNull, if_neg hnull]
      exact next?_of_notMem_lineEnds hmark (mt isControl_of_mem_lineEnds hcontrol) rest

/-- No quoted character starts with a quote. -/
theorem head?_append (h : Escapes c written) (rest : List Char) :
    (written ++ rest).head? ≠ some '"' := by
  cases h with
  | marked | null | code => simp
  | itself hquote => simpa using hquote

theorem not_isControl (h : Escapes c written) : ∀ d ∈ written, ¬ IsControl d := by
  cases h with
  | marked h => rcases h with rfl | rfl <;> simp [IsControl]
  | null => simp [IsControl]
  | code hcontrol =>
      obtain ⟨hhex, -⟩ := toDigits_spec hcontrol.lt
      intro d hd
      rw [List.mem_cons, List.mem_append, List.mem_singleton] at hd
      rcases hd with rfl | hd | rfl
      · decide
      · exact not_isControl_of_isHexDigit (hhex d hd)
      · decide
  | itself _ _ hcontrol =>
      intro d hd
      rwa [List.mem_singleton.mp hd]

end Escapes

/-- What has been quoted is read back, whatever is behind it. -/
theorem read?_escapeAll (cs rest : List Char) :
    read? (escapeAll cs ++ '"' :: rest) = some (cs.map withoutNull, rest) := by
  induction cs with
  | nil => exact read?_quote rest
  | cons c cs ih =>
      have hstep : escapeAll (c :: cs) ++ '"' :: rest =
          escape c ++ (escapeAll cs ++ '"' :: rest) := by
        rw [escapeAll, List.flatMap_cons, List.append_assoc]
        rfl
      have hc := escapes_escape c
      rw [hstep, read?_next (hc.head?_append _) (hc.next?_append _), ih]
      rfl

/-- No control character is written, whatever is quoted. -/
theorem not_isControl_of_mem_escapeAll {cs : List Char} {d : Char} (h : d ∈ escapeAll cs) :
    ¬ IsControl d := by
  obtain ⟨c, -, hd⟩ := List.mem_flatMap.mp h
  exact (escapes_escape c).not_isControl d hd

/-! ### The null character -/

theorem map_withoutNull {cs : List Char} (h : '\x00' ∉ cs) : cs.map withoutNull = cs := by
  have hsame : ∀ c ∈ cs, withoutNull c = c := by
    intro c hc
    refine if_neg ?_
    rintro rfl
    exact h hc
  rw [List.map_congr_left hsame, List.map_id']

/-- The null character is written as the character that it becomes. -/
theorem escapeAll_map_withoutNull (cs : List Char) :
    escapeAll (cs.map withoutNull) = escapeAll cs := by
  rw [escapeAll, List.flatMap_map]
  refine List.flatMap_congr fun c _ => ?_
  by_cases hnull : c = '\x00'
  · subst hnull
    rfl
  · rw [withoutNull, if_neg hnull]

end Quoted

end UiStyle.Text
