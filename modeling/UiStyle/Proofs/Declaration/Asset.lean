import UiStyle.Proofs.Declaration.Reports
import UiStyle.Proofs.Rule.Text
import UiStyle.Proofs.Text.Quoted

/-!
# Assets in rules

An asset is written as the call of a function with one quoted string, its path.  The path may hold
anything, also what means something in a stylesheet: quotes, semicolons, braces, ends of lines.
None of it is taken for what it is outside of strings:

* the string ends at the quote that was put behind it (`Quoted.read?_escapeAll`), and no character
  of it ends a line;
* so a reader of rules passes over the whole asset (`Asset.behind?_text`), and a rule with an asset
  ends at its own semicolon and nowhere before (`Declaration.behind?_rule`).

What is read back is the path, so the text tells which asset it is of, up to null characters and the
replacement characters that are written for them (`Asset.text_eq_iff`).
-/

namespace UiStyle

open Text

/-! ### Where a rule ends -/

namespace Rule

/-- The characters that mean something in a rule outside of strings. -/
def marks : List Char := [';', '"', '\x7d'] ++ lineEnds

/-- What stands behind the first semicolon of a text that is in no string; nothing if the block or a
line ends before, or if a string has no end. -/
def behind? (cs : List Char) : Option (List Char) :=
  match cs with
  | [] => none
  | ';' :: rest => some rest
  | '"' :: rest =>
    match _h : Quoted.read? rest with
    | none => none
    | some (_, behind) => behind? behind
  | c :: rest => if c ∈ marks then none else behind? rest
  termination_by cs.length
  decreasing_by
    · exact Nat.lt_trans (Quoted.length_read?_lt _h) (Nat.lt_succ_self _)
    · exact Nat.lt_succ_self _

theorem behind?_semicolon (rest : List Char) : behind? (';' :: rest) = some rest := by
  rw [behind?]

theorem behind?_string {cs said rest : List Char} (h : Quoted.read? cs = some (said, rest)) :
    behind? ('"' :: cs) = behind? rest := by
  rw [behind?]
  split
  · rename_i hnone
    rw [h] at hnone
    cases hnone
  · rename_i hsome
    rw [h] at hsome
    obtain ⟨-, rfl⟩ := Prod.mk.inj (Option.some.inj hsome)
    rfl

theorem behind?_cons {c : Char} (hc : c ∉ marks) (rest : List Char) :
    behind? (c :: rest) = behind? rest := by
  rw [behind?, if_neg hc]
  · rintro rfl
    exact hc (by decide)
  · rintro rfl
    exact hc (by decide)

theorem behind?_append {cs : List Char} (hcs : ∀ c ∈ cs, c ∉ marks) (rest : List Char) :
    behind? (cs ++ rest) = behind? rest := by
  induction cs with
  | nil => rfl
  | cons c cs ih =>
      obtain ⟨hc, hcs⟩ := List.forall_mem_cons.mp hcs
      rw [List.cons_append, behind?_cons hc, ih hcs]

end Rule

/-! ### The text of an asset -/

namespace Asset

/-- The path of an asset, or its place in the resources folder. -/
def path : Asset → String
  | .url path | .resource path => path

/-- The function that an asset is written as a call of. -/
def function : Asset → String
  | .url _ => "url"
  | .resource _ => "resource"

theorem function_eq (a : Asset) : a.function = "url" ∨ a.function = "resource" := by
  cases a with
  | url => exact .inl rfl
  | resource => exact .inr rfl

theorem eq_iff {a b : Asset} : a = b ↔ a.function = b.function ∧ a.path = b.path := by
  cases a <;> cases b <;> simp [function, path]

theorem toList_text (a : Asset) :
    (StyleValue.text a).toList =
      a.function.toList ++ '(' :: '"' :: (Quoted.escapeAll a.path.toList ++ ['"', ')']) := by
  cases a with
  | url path => simp [StyleValue.text, function, Asset.path, Quoted.encode, String.toList_append]
  | resource path =>
      simp [StyleValue.text, function, Asset.path, Quoted.encode, String.toList_append]

theorem behind?_text (a : Asset) (rest : List Char) :
    Rule.behind? ((StyleValue.text a).toList ++ rest) = Rule.behind? rest := by
  have hfront : ∀ c ∈ a.function.toList ++ ['('], c ∉ Rule.marks := by
    rcases a.function_eq with h | h <;> simp [h, Rule.marks, lineEnds]
  have hread : Quoted.read? (Quoted.escapeAll a.path.toList ++ '"' :: (')' :: rest)) =
      some (a.path.toList.map Quoted.withoutNull, ')' :: rest) :=
    Quoted.read?_escapeAll _ _
  calc Rule.behind? ((StyleValue.text a).toList ++ rest)
      = Rule.behind? ((a.function.toList ++ ['(']) ++
          '"' :: (Quoted.escapeAll a.path.toList ++ '"' :: (')' :: rest))) := by
        simp [a.toList_text]
    _ = Rule.behind? ('"' :: (Quoted.escapeAll a.path.toList ++ '"' :: (')' :: rest))) :=
        Rule.behind?_append hfront _
    _ = Rule.behind? (')' :: rest) := Rule.behind?_string hread
    _ = Rule.behind? rest := Rule.behind?_cons (by decide) rest

theorem not_isControl_of_mem_text {a : Asset} :
    ∀ c ∈ (StyleValue.text a).toList, ¬ IsControl c := by
  have hfront : ∀ c ∈ a.function.toList, ¬ IsControl c := by
    rcases a.function_eq with h | h <;> simp [h, IsControl]
  have hback : ∀ c ∈ ['"', ')'], ¬ IsControl c := by simp [IsControl]
  rw [a.toList_text, List.forall_mem_append, List.forall_mem_cons, List.forall_mem_cons,
    List.forall_mem_append]
  exact ⟨hfront, by decide, by decide, fun c hc => Quoted.not_isControl_of_mem_escapeAll hc, hback⟩

/-- The text of an asset tells its function and its path, less the null characters. -/
theorem text_eq_iff {a b : Asset} :
    StyleValue.text a = StyleValue.text b ↔ a.function = b.function ∧
      a.path.toList.map Quoted.withoutNull = b.path.toList.map Quoted.withoutNull := by
  rw [← String.toList_inj, a.toList_text, b.toList_text]
  constructor
  · intro h
    have hfunction : a.function = b.function := by
      -- the two functions differ in their first letter
      rcases a.function_eq with ha | ha <;> rcases b.function_eq with hb | hb <;>
        rw [ha, hb] at h ⊢ <;> simp at h
    rw [hfunction] at h
    have hinside : Quoted.escapeAll a.path.toList ++ '"' :: [')'] =
        Quoted.escapeAll b.path.toList ++ '"' :: [')'] := by
      simpa using h
    have hread := congrArg Quoted.read? hinside
    rw [Quoted.read?_escapeAll, Quoted.read?_escapeAll] at hread
    exact ⟨hfunction, (Prod.mk.inj (Option.some.inj hread)).1⟩
  · rintro ⟨hfunction, hpath⟩
    have hinside : Quoted.escapeAll a.path.toList = Quoted.escapeAll b.path.toList := by
      rw [← Quoted.escapeAll_map_withoutNull, hpath, Quoted.escapeAll_map_withoutNull]
    rw [hfunction, hinside]

/-- Without null characters, the text tells the asset. -/
theorem text_inj {a b : Asset} (ha : '\x00' ∉ a.path.toList) (hb : '\x00' ∉ b.path.toList) :
    StyleValue.text a = StyleValue.text b ↔ a = b := by
  rw [text_eq_iff, Quoted.map_withoutNull ha, Quoted.map_withoutNull hb, String.toList_inj,
    eq_iff]

end Asset

/-! ### Rules with an asset -/

/-- The characters of names and numbers, and those that stand between them. -/
def Rule.IsFiller (c : Char) : Prop := c.isLower = true ∨ c.isDigit = true ∨ c ∈ [' ', '-', ':']

namespace Rule.IsFiller

variable {c : Char}

theorem notMem_marks (h : IsFiller c) : c ∉ marks := by
  have hmarks : ∀ c ∈ marks, c.isLower = false ∧ c.isDigit = false ∧ c ∉ [' ', '-', ':'] := by
    simp [marks, lineEnds]
  intro hmem
  obtain ⟨hlower, hdigit, hother⟩ := hmarks c hmem
  rcases h with h | h | h
  · rw [hlower] at h
    cases h
  · rw [hdigit] at h
    cases h
  · exact hother h

theorem not_isControl (h : IsFiller c) : ¬ IsControl c := by
  have hcontrol : ∀ n < 0x80, IsControl (.ofNat n) → (Char.ofNat n).isLower = false ∧
      (Char.ofNat n).isDigit = false ∧ Char.ofNat n ∉ [' ', '-', ':'] := by
    decide
  intro hc
  obtain ⟨hlower, hdigit, hother⟩ := hcontrol c.toNat hc.lt (by rwa [Char.ofNat_toNat])
  rw [Char.ofNat_toNat] at hlower hdigit hother
  rcases h with h | h | h
  · rw [hlower] at h
    cases h
  · rw [hdigit] at h
    cases h
  · exact hother h

end Rule.IsFiller

open Rule (IsFiller)

/-- The name of a property is made of small letters and hyphens. -/
theorem Property.isFiller_of_mem_name (p : Property) : ∀ c ∈ p.name.toList, IsFiller c := by
  have hregistered : ∀ p ∈ registered, p.name.toList.all (fun c => c.isLower || c == '-') := by
    decide +kernel
  have hhyphen : IsFiller '-' := .inr (.inr (by decide))
  intro c hc
  by_cases hp : p = .custom
  · subst hp
    have hcustom : c = '-' := by simpa [name, customMark] using hc
    rwa [hcustom]
  · have hname := List.all_eq_true.mp (hregistered p (mem_registered hp)) c hc
    rw [Bool.or_eq_true, beq_iff_eq] at hname
    rcases hname with hlower | rfl
    · exact .inl hlower
    · exact hhyphen

theorem isFiller_of_mem_toString (i : Int) : ∀ c ∈ (toString i).toList, IsFiller c := by
  have hrepr : ∀ n : Nat, ∀ c ∈ n.repr.toList, IsFiller c := by
    intro n c hc
    rw [Nat.repr_eq_ofList_toDigits, String.toList_ofList] at hc
    exact .inr (.inl (Nat.isDigit_of_mem_toDigits (by decide) (by decide) hc))
  cases i with
  | ofNat n => exact hrepr n
  | negSucc n =>
      show ∀ c ∈ ("-" ++ (n + 1).repr).toList, IsFiller c
      rw [String.toList_append, List.forall_mem_append]
      refine ⟨fun c hc => ?_, hrepr (n + 1)⟩
      rw [List.mem_singleton.mp hc]
      exact .inr (.inr (by decide))

namespace Declaration

/-- The asset that is declared, if one is. -/
def asset? : Declaration → Option Asset
  | .asset _ _ a | .cursorImage a _ _ => some a
  | _ => none

variable {d : Declaration} {a : Asset}

/-- A rule with an asset is its name, the asset and perhaps a hotspot. -/
theorem exists_hotspot (h : d.asset? = some a) : ∃ front hotspot,
    d.rule.text.toList = front ++ ((StyleValue.text a).toList ++ (hotspot ++ [';'])) ∧
      (∀ c ∈ front, IsFiller c) ∧ ∀ c ∈ hotspot, IsFiller c := by
  have hfront : ∀ c ∈ d.property.name.toList ++ [':', ' '], IsFiller c := by
    rw [List.forall_mem_append]
    refine ⟨d.property.isFiller_of_mem_name, ?_⟩
    intro c hc
    refine .inr (.inr ?_)
    rcases List.mem_pair.mp hc with rfl | rfl <;> decide
  have hspace : IsFiller ' ' := .inr (.inr (by decide))
  cases d with
  | asset p form a' =>
      obtain rfl := Option.some.inj h
      refine ⟨_, [], ?_, hfront, nofun⟩
      rw [Rule.toList_text]
      simp [rule, Rule.withValidity, property, valueText]
  | cursorImage a' x y =>
      obtain rfl := Option.some.inj h
      refine ⟨_, ' ' :: ((toString x.toInt).toList ++ ' ' :: (toString y.toInt).toList), ?_, hfront,
        ?_⟩
      · rw [Rule.toList_text]
        simp [rule, Rule.withValidity, property, valueText, String.toList_append]
      · rw [List.forall_mem_cons, List.forall_mem_append, List.forall_mem_cons]
        exact ⟨hspace, isFiller_of_mem_toString _, hspace, isFiller_of_mem_toString _⟩
  | _ => cases h

theorem behind?_rule (h : d.asset? = some a) (rest : List Char) :
    Rule.behind? (d.rule.text.toList ++ rest) = some rest := by
  obtain ⟨front, hotspot, htext, hfront, hhotspot⟩ := exists_hotspot h
  calc Rule.behind? (d.rule.text.toList ++ rest)
      = Rule.behind? (front ++ ((StyleValue.text a).toList ++ (hotspot ++ ';' :: rest))) := by
        simp [htext]
    _ = Rule.behind? ((StyleValue.text a).toList ++ (hotspot ++ ';' :: rest)) :=
        Rule.behind?_append (fun c hc => (hfront c hc).notMem_marks) _
    _ = Rule.behind? (hotspot ++ ';' :: rest) := a.behind?_text _
    _ = Rule.behind? (';' :: rest) :=
        Rule.behind?_append (fun c hc => (hhotspot c hc).notMem_marks) _
    _ = some rest := Rule.behind?_semicolon rest

theorem not_isControl_of_mem_rule (h : d.asset? = some a) :
    ∀ c ∈ d.rule.text.toList, ¬ IsControl c := by
  obtain ⟨front, hotspot, htext, hfront, hhotspot⟩ := exists_hotspot h
  rw [htext]
  simp only [List.forall_mem_append]
  exact ⟨fun c hc => (hfront c hc).not_isControl, Asset.not_isControl_of_mem_text,
    fun c hc => (hhotspot c hc).not_isControl, by simp [IsControl]⟩

end Declaration

/-- **Assets and their texts.**  The text of an asset is its function with one quoted string between
brackets.  No control character stands between the quotes, and the string that starts at the first
of them is read to the second and says the path, with the replacement character for every null
character.  So a reader that looks for the end of a rule passes over the asset, whatever the path
is: a rule with an asset ends at its own semicolon, and has no control character in it.  Assets
without null characters have the same text only if they are the same. -/
theorem Asset.quoted_text (a : Asset) :
    (∃ inside : List Char,
      (StyleValue.text a).toList = a.function.toList ++ '(' :: '"' :: (inside ++ ['"', ')']) ∧
      (∀ c ∈ inside, ¬ IsControl c) ∧
      ∀ rest, Quoted.read? (inside ++ '"' :: rest) =
        some (a.path.toList.map Quoted.withoutNull, rest)) ∧
    (∀ rest, Rule.behind? ((StyleValue.text a).toList ++ rest) = Rule.behind? rest) ∧
    (∀ d : Declaration, d.asset? = some a → (∀ c ∈ d.rule.text.toList, ¬ IsControl c) ∧
      ∀ rest, Rule.behind? (d.rule.text.toList ++ rest) = some rest) ∧
    ∀ b : Asset, '\x00' ∉ a.path.toList → '\x00' ∉ b.path.toList →
      (StyleValue.text a = StyleValue.text b ↔ a = b) := by
  refine ⟨⟨Quoted.escapeAll a.path.toList, a.toList_text, ?_, ?_⟩, a.behind?_text, ?_, ?_⟩
  · exact fun c hc => Quoted.not_isControl_of_mem_escapeAll hc
  · exact Quoted.read?_escapeAll a.path.toList
  · exact fun d hd => ⟨Declaration.not_isControl_of_mem_rule hd, Declaration.behind?_rule hd⟩
  · exact fun b ha hb => text_inj ha hb

/-- A path with all that could end a string, a rule or a line, for a cursor. -/
theorem Asset.quoted_text_hostile :
    let a := Asset.url "a\"\n0 \\;\x7d"
    let d := Declaration.cursorImage a 3 (-4)
    d.rule.text = "cursor: url(\"a\\\"\\a 0 \\\\;\x7d\") 3 -4;" ∧ d.asset? = some a ∧
      (∀ rest, Rule.behind? (d.rule.text.toList ++ rest) = some rest) ∧
      '\x00' ∉ a.path.toList ∧ '\x00' ∉ (Asset.url "a").path.toList ∧
      StyleValue.text a ≠ StyleValue.text (Asset.url "a") := by
  intro a d
  obtain ⟨-, -, hrule, htext⟩ := a.quoted_text
  have ha : '\x00' ∉ a.path.toList := by decide
  have hb : '\x00' ∉ (Asset.url "a").path.toList := by decide
  have hne : a ≠ .url "a" := by decide
  exact ⟨by decide +kernel, rfl, (hrule d rfl).2, ha, hb, mt (htext _ ha hb).mp hne⟩

end UiStyle
