import ConverterAssembly.Json.Reader
import ConverterAssembly.Yaml.Block

/-!
# Records in documents

A record type is described by its fields: the names each may have in a document, and how its value
is read.  From that description follow all forms of the record: an object or map with the fields
under any of their names, or a list with the values in the order of the fields, where the last ones
may be absent.

* **JSON** — `Record.readJson` reads strictly from the left, so the first fault is the one reported.
  A second value for a field is refused as soon as its name is read; unknown names are skipped.
* **YAML** — `Record.ofYaml?` reads the whole document first and then looks at its node.
-/

namespace ConverterAssembly.Document

/-- A field of the record type `σ`. -/
structure Field (σ : Type) where
  /-- The name in messages. -/
  name : Text
  /-- Other names that a document may use. -/
  aliases : List Text
  /-- Whether a document has to give the field. -/
  required : Bool
  /-- Reads a JSON value into the record. -/
  readJson : σ → Json.Reader σ
  /-- Takes a YAML node into the record. -/
  ofNode? : σ → Yaml.Node → Option σ

/-- Whether a document can call the field so. -/
def Field.isCalled {σ : Type} (field : Field σ) (key : Text) : Bool :=
  field.name = key || field.aliases.contains key

/-- A record type: what messages call it, the record before any field is read, and the fields. -/
structure Record (σ : Type) where
  title : Text
  initial : σ
  fields : List (Field σ)

namespace Record

variable {σ : Type}

/-- The field that a document calls so. -/
def find? (record : Record σ) (key : Text) : Option (Field σ) :=
  record.fields.find? (·.isCalled key)

/-- The first field that has to be given and is not among `seen`. -/
def missing? (record : Record σ) (seen : List Text) : Option (Field σ) :=
  record.fields.find? fun field => field.required && !seen.contains field.name

/-! ## JSON -/

/-- Reads the members of an object, at most `bound` of them; the fields called
`seen` have been read. -/
def readMembersFrom (record : Record σ) :
    (bound : Nat) → (first : Bool) → (seen : List Text) → σ → Json.Reader σ
  | 0, _, _, _, _ => .error .malformed
  | bound + 1, first, seen, state, text => do
    match ← Json.next '\x7d' first text with
    | .closed rest =>
      match record.missing? seen with
      | some field => .error (.misfit (.missingField field.name))
      | none => .ok (state, rest)
    | .item text =>
      let (key, rest) ← Json.readKey text
      match record.find? key with
      | none =>
        let rest ← Json.afterColon rest
        let rest ← Json.skipValue rest
        readMembersFrom record bound false seen state rest
      | some field =>
        if seen.contains field.name then .error (.misfit (.duplicateField field.name))
        else
          let rest ← Json.afterColon rest
          let (state, rest) ← field.readJson state rest
          readMembersFrom record bound false (field.name :: seen) state rest

/-- Reads the values of fields from a list in which `count` values have been read. -/
def readPositions (record : Record σ) : (count : Nat) → List (Field σ) → σ → Json.Reader σ
  | _, [], state, text => do
    let rest ← Json.endList text
    .ok (state, rest)
  | count, field :: fields, state, text => do
    match ← Json.next ']' (count = 0) text with
    | .closed rest =>
      if (field :: fields).any (·.required) then
        .error (.misfit (.wrongLength count (record.title ++ " with ".toList ++
          decimal record.fields.length ++ " elements".toList)))
      else .ok (state, rest)
    | .item text =>
      let (state, rest) ← field.readJson state text
      readPositions record (count + 1) fields state rest

/-- Reads a record as an object or a list. -/
def readJson (record : Record σ) : Json.Reader σ := fun text =>
  match Json.skipBlanks text with
  | [] => .error .endsEarly
  | c :: cs =>
    if c = '\x7b' then readMembersFrom record (cs.length + 1) true [] record.initial cs
    else if c = '[' then readPositions record 0 record.fields record.initial cs
    else .error (Json.mismatch record.title c cs)

/-- Reads a document that holds one record; only blanks may follow. -/
def ofJson (record : Record σ) (document : Text) : Except Json.Fault σ := do
  let (state, rest) ← record.readJson document
  if (Json.skipBlanks rest).isEmpty then .ok state else .error .malformed

/-! ## YAML -/

/-- Takes the entries of a map; the fields called `seen` have been taken. -/
def ofEntries? (record : Record σ) :
    (seen : List Text) → σ → List (Yaml.Node × Yaml.Node) → Option σ
  | seen, state, [] => if (record.missing? seen).isSome then none else some state
  | seen, state, (key, node) :: entries =>
    match key.text? with
    | none => none
    | some key =>
      match record.find? key with
      | none => ofEntries? record seen state entries
      | some field =>
        if seen.contains field.name then none
        else
          match field.ofNode? state node with
          | none => none
          | some state => ofEntries? record (field.name :: seen) state entries

/-- Takes the values of fields from a list. -/
def ofItems? : List (Field σ) → σ → List Yaml.Node → Option σ
  | [], state, [] => some state
  | [], _, _ :: _ => none
  | field :: fields, state, [] =>
    if (field :: fields).any (·.required) then none else some state
  | field :: fields, state, node :: nodes =>
    match field.ofNode? state node with
    | none => none
    | some state => ofItems? fields state nodes

/-- The record that a node stands for. -/
def ofNode? (record : Record σ) : Yaml.Node → Option σ
  | .map entries => ofEntries? record [] record.initial entries
  | .list items => ofItems? record.fields record.initial items
  | .plain _ | .quoted _ => none

/-- The record that a YAML document holds. -/
def ofYaml? (record : Record σ) (document : Text) : Option σ :=
  (Yaml.parse document).bind record.ofNode?

end Record

end ConverterAssembly.Document
