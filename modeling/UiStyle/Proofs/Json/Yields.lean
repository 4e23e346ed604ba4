import Mathlib.Data.List.Nodup
import UiStyle.Json.Record
import UiStyle.Proofs.Lists

/-!
# What readers yield

A reader yields values of some kind if every value that it reads is of this kind.  A reader that is
put together from others yields what they yield: a list has items of the kind of its item reader,
and a record that begins with some property, each of its fields keeping it, has the property in the
end.  The members of an object have different names, whatever the document says, because a name
that comes again only has its value replaced.
-/

namespace UiStyle.Json

/-- Every value that a reader reads has a property. -/
def Reader.Yields {α : Type} (reader : Reader α) (P : α → Prop) : Prop :=
  ∀ s l, reader s = .ok l → P l.value

/-! ### Objects -/

/-- The names of members. -/
def keys (members : List (String × Json)) : List String :=
  members.map Prod.fst

theorem keys_setMember (name : String) (value : Json) (members : List (String × Json)) :
    keys (setMember name value members) =
      if name ∈ keys members then keys members else keys members ++ [name] := by
  induction members with
  | nil => rfl
  | cons member rest ih =>
      obtain ⟨n, v⟩ := member
      unfold keys at ih ⊢
      by_cases hname : n = name
      · simp [setMember, hname]
      · have hne : name ≠ n := Ne.symm hname
        simp only [setMember, hname, if_false, List.map_cons, ih, List.mem_cons, hne, false_or]
        split <;> rfl

theorem nodup_keys_setMember {members : List (String × Json)} (name : String) (value : Json)
    (h : (keys members).Nodup) : (keys (setMember name value members)).Nodup := by
  rw [keys_setMember]
  split
  · exact h
  · rename_i hnew
    rw [← List.concat_eq_append, List.nodup_concat]
    exact ⟨hnew, h⟩

theorem nodup_keys_members {n : Nat} {value : Reader Json} {first : Bool}
    {taken : List (String × Json)} {s : Bytes} {h : s.length < n}
    {l : Left (List (String × Json)) n} (hl : members value first taken s h = .ok l)
    (htaken : (keys taken).Nodup) : (keys l.value).Nodup := by
  fun_induction members value first taken s h with
  | case1 => cases hl
  | case2 =>
      obtain rfl := Except.ok.inj hl
      exact htaken
  | case3 => cases hl
  | case4 => cases hl
  | case5 _ _ _ _ _ _ _ _ _ _ ih => exact ih hl (nodup_keys_setMember _ _ htaken)

theorem value_closed {α β : Type} {n : Nat} {close : Bytes → Bytes × Option Fault}
    {close_le : ∀ s, (close s).1.length ≤ s.length} {make : α → β} {l : Left α n} {l' : Left β n}
    (h : closed close close_le make l = .ok l') : l'.value = make l.value := by
  unfold closed at h
  split at h
  · cases h
  · obtain rfl := Except.ok.inj h
    rfl

/-- The names of an object are different. -/
theorem nodup_keys_objectEnd {n : Nat} {value : Reader Json} {s : Bytes} {h : s.length < n}
    {l : Left (List (String × Json)) n} (hl : objectEnd value s h = .ok l) :
    (keys l.value).Nodup := by
  obtain ⟨read, hread, hclosed⟩ := bind_eq_ok.mp hl
  rw [value_closed hclosed]
  exact nodup_keys_members hread List.nodup_nil

theorem yields_readMap (depth : Nat) :
    (readMap depth).Yields fun members => (keys members).Nodup := by
  intro s l hl
  unfold readMap at hl
  split at hl
  · cases hl
  · split at hl
    · split at hl
      · cases hl
      · exact nodup_keys_objectEnd hl
    · cases hl

/-! ### Lists -/

variable {α : Type} {P : α → Prop}

theorem forall_elements {n : Nat} {item : Reader α} (hitem : item.Yields P) {first : Bool}
    {taken : List α} {s : Bytes} {h : s.length < n} {l : Left (List α) n}
    (hl : elements item first taken s h = .ok l) (htaken : ∀ a ∈ taken, P a) :
    ∀ a ∈ l.value, P a := by
  fun_induction elements item first taken s h with
  | case1 => cases hl
  | case2 =>
      obtain rfl := Except.ok.inj hl
      exact fun a ha => htaken a (List.mem_reverse.mp ha)
  | case3 => cases hl
  | case4 _ _ _ _ _ _ _ v hv ih =>
      exact ih hl (List.forall_mem_cons.mpr ⟨hitem _ v hv, htaken⟩)

theorem forall_listEnd {n : Nat} {item : Reader α} (hitem : item.Yields P) {s : Bytes}
    {h : s.length < n} {l : Left (List α) n} (hl : listEnd item s h = .ok l) :
    ∀ a ∈ l.value, P a := by
  obtain ⟨read, hread, hclosed⟩ := bind_eq_ok.mp hl
  rw [value_closed hclosed]
  exact forall_elements hitem hread nofun

/-- A list has items of the kind that its item reader yields. -/
theorem yields_readList {item : Nat → Reader α} (hitem : ∀ depth, (item depth).Yields P)
    (depth : Nat) : (readList item depth).Yields fun items => ∀ a ∈ items, P a := by
  intro s l hl
  unfold readList at hl
  split at hl
  · cases hl
  · split at hl
    · split at hl
      · cases hl
      · exact forall_listEnd (hitem _) hl
    · cases hl

/-! ### Records -/

variable {σ : Type} {I : σ → Prop}

/-- A field keeps a property of records: what it makes of a record that has it has it too. -/
def Field.Keeps (f : Field σ) (I : σ → Prop) : Prop :=
  ∀ depth, (f.read depth).Yields fun change => ∀ record, I record → I (change record)

theorem namedFields_keeps {n : Nat} {fields : List (Field σ)} (hfields : ∀ f ∈ fields, f.Keeps I)
    {depth : Nat} {first : Bool} {seen : List String} {record : σ} {s : Bytes} {h : s.length < n}
    {l : Left (Except Reason σ) n}
    (hl : namedFields fields depth first seen record s h = .ok l) (hrecord : I record) :
    ∀ made, l.value = .ok made → I made := by
  fun_induction namedFields fields depth first seen record s h with
  | case1 | case5 | case6 | case8 | case9 => cases hl
  | case2 | case4 =>
      obtain rfl := Except.ok.inj hl
      exact nofun
  | case3 =>
      obtain rfl := Except.ok.inj hl
      intro made hmade
      rw [← Except.ok.inj hmade]
      exact hrecord
  | case7 _ _ _ _ _ _ _ f hf _ _ _ v hv ih =>
      exact ih hl (hfields f (List.mem_of_find?_eq_some hf) depth _ v hv _ hrecord)
  | case10 _ _ _ _ _ _ _ _ _ _ _ _ ih => exact ih hl hrecord

theorem listedFields_keeps {n : Nat} {shape : Shape σ} {fields : List (Field σ)}
    (hfields : ∀ f ∈ fields, f.Keeps I) {depth index : Nat} {first : Bool} {record : σ} {s : Bytes}
    {h : s.length < n} {l : Left (Except Reason σ) n}
    (hl : listedFields shape depth index first record fields s h = .ok l) (hrecord : I record) :
    ∀ made, l.value = .ok made → I made := by
  induction fields generalizing index first record s with
  | nil =>
      obtain rfl := Except.ok.inj hl
      intro made hmade
      rw [← Except.ok.inj hmade]
      exact hrecord
  | cons f fields ih =>
      obtain ⟨hf, hfields⟩ := List.forall_mem_cons.mp hfields
      unfold listedFields at hl
      split at hl
      · cases hl
      · split at hl
        · obtain rfl := Except.ok.inj hl
          exact nofun
        · exact ih hfields hl hrecord
      · split at hl
        · cases hl
        · rename_i v hv
          exact ih hfields hl (hf depth _ v hv _ hrecord)

theorem closedRecord_keeps {n : Nat} {close : Bytes → Bytes × Option Fault}
    {close_le : ∀ s, (close s).1.length ≤ s.length} {fields : Left (Except Reason σ) n}
    (hfields : ∀ made, fields.value = .ok made → I made) {l : Left σ n}
    (hl : closedRecord close close_le fields = .ok l) : I l.value := by
  unfold closedRecord at hl
  split at hl
  · cases hl
  · cases hl
  · rename_i record hvalue _
    obtain rfl := Except.ok.inj hl
    exact hfields record hvalue

/-- A record that begins with a property which its fields keep has the property. -/
theorem yields_readRecord {shape : Shape σ} (hempty : I shape.empty)
    (hfields : ∀ f ∈ shape.fields, f.Keeps I) (depth : Nat) :
    (readRecord shape depth).Yields I := by
  intro s l hl
  unfold readRecord at hl
  split at hl
  · cases hl
  · split at hl
    · split at hl
      · cases hl
      · obtain ⟨fields, hread, hclosed⟩ := bind_eq_ok.mp hl
        exact closedRecord_keeps (listedFields_keeps hfields hread hempty) hclosed
    · split at hl
      · split at hl
        · cases hl
        · obtain ⟨fields, hread, hclosed⟩ := bind_eq_ok.mp hl
          exact closedRecord_keeps (namedFields_keeps hfields hread hempty) hclosed
      · cases hl

/-- What a whole document is read as. -/
theorem Reader.Yields.document {reader : Reader α} (h : reader.Yields P) {input : Bytes} {a : α}
    (ha : Json.document reader input = .ok a) : P a := by
  obtain ⟨v, hv, hend⟩ := bind_eq_ok.mp ha
  split at hend
  · rw [← Except.ok.inj hend]
    exact h input v hv
  · cases hend

end UiStyle.Json
