import UiStyle.Json.Skipped
import UiStyle.Text.Visible

/-!
# Reading typed values

A document of a known shape is read without a detour over JSON values, and a value of another type
is a fault that names both types.  A record is written as an object, in which fields come in any
order and unknown ones are passed over, or as a list of its fields in order, in which the last ones
may be missing.  What is wrong with the fields as such is placed behind the record, or as far behind
it as its closing bracket can be reached.
-/

namespace UiStyle.Json

/-- What a value of the wrong type is called. -/
def typeName : Json → String
  | .null => "null"
  | .bool true => "boolean `true`"
  | .bool false => "boolean `false`"
  | .number (.float x) => "floating point `" ++ NumberStyle.manifest.text x ++ "`"
  | .number n => "integer `" ++ n.text ++ "`"
  | .string s => "string " ++ Text.Visible.quoted s
  | .array _ => "sequence"
  | .object _ => "map"

/-- The fault of a value that starts with the byte `b` and is not of the expected type.  A scalar is
read first and may have faults of its own. -/
def mismatch (expected : String) (b : UInt8) (r : Bytes) : Fault :=
  match scalar? b r (Nat.lt_succ_self _) with
  | some (.error e) => e
  | some (.ok v) => .here (.invalidType (typeName v.value) expected) v.rest
  | none =>
    if b = byte '[' then .here (.invalidType "sequence" expected) (b :: r)
    else if b = byte '\x7b' then .here (.invalidType "map" expected) (b :: r)
    else .past .expectedValue (b :: r)

/-- Reads a string. -/
def readString : Reader String := fun s =>
  match next? s with
  | none => .error (.past .endInValue [])
  | some ⟨b, r, h⟩ =>
    if b = byte '"' then stringEnd r h else .error (mismatch "a string" b r)

/-- Reads a list of items; its items are given how many brackets may be opened in them. -/
def readList {α : Type} (item : Nat → Reader α) (depth : Nat) : Reader (List α) := fun s =>
  match next? s with
  | none => .error (.past .endInValue [])
  | some ⟨b, r, h⟩ =>
    if b = byte '[' then
      match depth with
      | 0 => .error (.past .nestingLimit (b :: r))
      | depth + 1 => listEnd (item depth) r h
    else .error (mismatch "a sequence" b r)

/-- Reads an object of any values. -/
def readMap (depth : Nat) : Reader (List (String × Json)) := fun s =>
  match next? s with
  | none => .error (.past .endInValue [])
  | some ⟨b, r, h⟩ =>
    if b = byte '\x7b' then
      match depth with
      | 0 => .error (.past .nestingLimit (b :: r))
      | depth + 1 => objectEnd (value depth) r h
    else .error (mismatch "a map" b r)

/-- A field of a record of type `σ`: its reader, given how many brackets may be opened in it, says
how the field changes the record. -/
structure Field (σ : Type) where
  name : String
  required : Bool
  read : Nat → Reader (σ → σ)

/-- A record: what it is called, its fields in order, and the record without any of them. -/
structure Shape (σ : Type) where
  title : String
  fields : List (Field σ)
  empty : σ

variable {σ : Type}

/-- Reads the fields of a record from an object behind its opening bracket.  The fields named `seen`
have been read already. -/
def namedFields {n : Nat} (fields : List (Field σ)) (depth : Nat) (first : Bool)
    (seen : List String) (record : σ) (s : Bytes) (h : s.length < n) :
    Except Fault (Left (Except Reason σ) n) :=
  match nextKey first s with
  | .error e => .error e
  | .ok none =>
    match fields.find? fun f => f.required && !seen.contains f.name with
    | some f => .ok ⟨.error (.missingField f.name), s, h⟩
    | none => .ok ⟨.ok record, s, h⟩
  | .ok (some key) =>
    match fields.find? fun f => f.name == key.value with
    | some f =>
      if seen.contains f.name then
        .ok ⟨.error (.duplicateField f.name), key.rest, Nat.lt_trans key.lt h⟩
      else
        match colon key.rest with
        | .error e => .error e
        | .ok c =>
          match f.read depth c.rest with
          | .error e => .error e
          | .ok v =>
            namedFields fields depth false (f.name :: seen) (v.value record) v.rest
              (Nat.lt_trans (Nat.lt_trans (Nat.lt_trans v.lt c.lt) key.lt) h)
    | none =>
      match colon key.rest with
      | .error e => .error e
      | .ok c =>
        match skip c.rest with
        | .error e => .error e
        | .ok v =>
          namedFields fields depth false seen record v.rest
            (Nat.lt_trans (Nat.lt_trans (Nat.lt_trans v.lt c.lt) key.lt) h)
  termination_by s.length
  decreasing_by
  all_goals exact Nat.lt_trans (Nat.lt_trans v.lt c.lt) key.lt

/-- Reads fields of a record from a list behind its opening bracket, `index` fields having been
read. -/
def listedFields {n : Nat} (shape : Shape σ) (depth : Nat) (index : Nat) (first : Bool)
    (record : σ) : List (Field σ) → (s : Bytes) → s.length < n →
    Except Fault (Left (Except Reason σ) n)
  | [], s, h => .ok ⟨.ok record, s, h⟩
  | f :: fields, s, h =>
    match nextElement first s with
    | .error e => .error e
    | .ok none =>
      if f.required then
        .ok ⟨.error (.invalidLength index shape.title shape.fields.length), s, h⟩
      else listedFields shape depth (index + 1) first record fields s h
    | .ok (some ⟨r, hr⟩) =>
      match f.read depth r with
      | .error e => .error e
      | .ok v =>
        listedFields shape depth (index + 1) false (v.value record) fields v.rest
          (Nat.lt_trans (Nat.lt_of_lt_of_le v.lt hr) h)

/-- Closes a record.  What is wrong with its fields comes before what is wrong with its end. -/
def closedRecord {n : Nat} (close : Bytes → Bytes × Option Fault)
    (close_le : ∀ s, (close s).1.length ≤ s.length) (l : Left (Except Reason σ) n) :
    Except Fault (Left σ n) :=
  match l.value, (close l.rest).2 with
  | .error reason, _ => .error (.here reason (close l.rest).1)
  | .ok _, some e => .error e
  | .ok record, none =>
    .ok ⟨record, (close l.rest).1, Nat.lt_of_le_of_lt (close_le _) l.lt⟩

/-- Reads a record. -/
def readRecord (shape : Shape σ) (depth : Nat) : Reader σ := fun s =>
  match next? s with
  | none => .error (.past .endInValue [])
  | some ⟨b, r, h⟩ =>
    if b = byte '[' then
      match depth with
      | 0 => .error (.past .nestingLimit (b :: r))
      | depth + 1 => do
        let fields ← listedFields shape depth 0 true shape.empty shape.fields r h
        closedRecord closeList length_closeList_le fields
    else if b = byte '\x7b' then
      match depth with
      | 0 => .error (.past .nestingLimit (b :: r))
      | depth + 1 => do
        let fields ← namedFields shape.fields depth true [] shape.empty r h
        closedRecord closeObject length_closeObject_le fields
    else .error (mismatch shape.title b r)

end UiStyle.Json
