import ConverterAssembly.Converter.Config
import ConverterAssembly.Document.Record

/-!
# Configurations in documents

How the parts of a configuration are read from JSON and YAML:

* Transforms and backend traits are a map, a list of `[key, value]` pairs, or null.  Transforms keep
  repeated names; a trait given again takes its new value in its old place.
* Backends to register for are one text, a list of texts, or null.
* The other fields are texts, some of which may be null.

Lists and objects may nest to a depth of 127; the record itself, and each list or object around a
value, counts.
-/

namespace ConverterAssembly

/-- How deep lists and objects may nest inside a record. -/
def nestingInRecord : Nat := 126

/-- The words for a text in messages. -/
def wantedText : Text := "a string".toList

/-! ## Pairs -/

/-- The words for a collection of pairs in messages. -/
def wantedPairs : Text := "a map or a list of [key, value] pairs".toList

/-- The words for one pair in messages. -/
def wantedPair : Text := "a tuple of size 2".toList

/-- Reads the next part of a pair of which `count` parts have been read. -/
def readPart {α : Type} (count : Nat) (part : Json.Reader α) : Json.Reader α := fun text => do
  match ← Json.next ']' (count = 0) text with
  | .closed _ => .error (.misfit (.wrongLength count wantedPair))
  | .item text => part text

/-- Reads a pair of a key and a value. -/
def readPair {α : Type} (value : Json.Reader α) : Json.Reader (Text × α) := fun text =>
  match Json.skipBlanks text with
  | [] => .error .endsEarly
  | c :: cs =>
    if c = '[' then do
      let (key, rest) ← readPart 0 (Json.readText wantedText) cs
      let (a, rest) ← readPart 1 value rest
      let rest ← Json.endList rest
      .ok ((key, a), rest)
    else .error (Json.mismatch wantedPair c cs)

/-- Reads a collection of pairs.  A value nests one level deeper in a list than in a map. -/
def readPairs {α : Type} (value : (depth : Nat) → Json.Reader α) : Json.Reader (List (Text × α)) :=
  fun text =>
    match Json.skipBlanks text with
    | [] => .error .endsEarly
    | c :: cs =>
      if c = '[' then Json.readItems (readPair (value (nestingInRecord - 2))) cs
      else if c = '\x7b' then Json.readMembers (value (nestingInRecord - 1)) cs
      else
        match Json.readFound c cs with
        | .ok (.null, rest) => .ok ([], rest)
        | .ok (found, _) => .error (.misfit (.wrongType found wantedPairs))
        | .error fault => .error fault

/-- The pair that an entry of a map stands for. -/
def entryPair? {α : Type} (value : Yaml.Node → Option α) (entry : Yaml.Node × Yaml.Node) :
    Option (Text × α) := do
  let key ← entry.1.text?
  let a ← value entry.2
  some (key, a)

/-- The pair that an item of a list stands for. -/
def itemPair? {α : Type} (value : Yaml.Node → Option α) (item : Yaml.Node) : Option (Text × α) :=
  match item with
  | .list [key, node] => entryPair? value (key, node)
  | _ => none

/-- The pairs that a node stands for. -/
def pairsOf? {α : Type} (value : Yaml.Node → Option α) (node : Yaml.Node) :
    Option (List (Text × α)) :=
  match node with
  | .map entries => entries.mapM (entryPair? value)
  | .list items => items.mapM (itemPair? value)
  | .plain _ | .quoted _ => if node.scalar? = some .null then some [] else none

/-! ## Transforms -/

/-- Transforms with the given names and codes. -/
def transformsOf (pairs : List (Text × Text)) : List Transform :=
  pairs.map fun (name, code) => ⟨name, code⟩

/-- Reads transforms. -/
def readTransforms : Json.Reader (List Transform) := fun text => do
  let (pairs, rest) ← readPairs (fun _ => Json.readText wantedText) text
  .ok (transformsOf pairs, rest)

/-- The transforms that a node stands for. -/
def transformsOfNode? (node : Yaml.Node) : Option (List Transform) :=
  (pairsOf? Yaml.Node.text? node).map transformsOf

/-! ## Backend traits -/

/-- The trait value that a JSON value stands for. -/
def backendValueOf? : Json → Option BackendValue
  | .bool b => some (.flag b)
  | .string s => some (.text s)
  | _ => none

/-- Reads the value of a trait: any value first, which then has to be a truth value or a text. -/
def readBackendValue (depth : Nat) : Json.Reader BackendValue := fun text => do
  let (json, rest) ← Json.readValue depth text
  match backendValueOf? json with
  | some value => .ok (value, rest)
  | none => .error (.misfit (.noVariant "BackendValue".toList))

/-- Reads backend traits. -/
def readBackendInfo : Json.Reader BackendInfo := fun text => do
  let (pairs, rest) ← readPairs readBackendValue text
  .ok (.ofList pairs, rest)

/-- The trait value that a node stands for. -/
def backendValueOfNode? (node : Yaml.Node) : Option BackendValue :=
  match node.scalar? with
  | some (.bool b) => some (.flag b)
  | some (.text t) => some (.text t)
  | _ => none

/-- The backend traits that a node stands for. -/
def backendInfoOfNode? (node : Yaml.Node) : Option BackendInfo :=
  (pairsOf? backendValueOfNode? node).map .ofList

/-! ## Registrations -/

/-- The id that a JSON value stands for. -/
def backendIdOf? : Json → Option BackendId
  | .string s => some (.parse s)
  | _ => none

/-- The ids that a JSON value stands for. -/
def registrationsOf? : Json → Option (List BackendId)
  | .string s => some [.parse s]
  | .array items => items.mapM backendIdOf?
  | .null => some []
  | _ => none

/-- Reads the backends to register for: any value first, which then has to be one text, a list of
texts or null. -/
def readRegistrations : Json.Reader (List BackendId) := fun text => do
  let (json, rest) ← Json.readValue nestingInRecord text
  match registrationsOf? json with
  | some ids => .ok (ids, rest)
  | none => .error (.misfit (.noVariant "OneOrMany".toList))

/-- The id that a node stands for. -/
def backendIdOfNode? (node : Yaml.Node) : Option BackendId :=
  match node.scalar? with
  | some (.text t) => some (.parse t)
  | _ => none

/-- The ids that a node stands for. -/
def registrationsOfNode? (node : Yaml.Node) : Option (List BackendId) :=
  match node with
  | .list items => items.mapM backendIdOfNode?
  | .plain _ | .quoted _ =>
    if node.scalar? = some .null then some [] else (backendIdOfNode? node).map fun id => [id]
  | .map _ => none

/-! ## Fields -/

/-- A field of a record whose value has readers of its own. -/
def fieldOf {σ α : Type} (name : String) (aliases : List String) (required : Bool)
    (json : Json.Reader α) (node : Yaml.Node → Option α) (set : σ → α → σ) : Document.Field σ where
  name := name.toList
  aliases := aliases.map String.toList
  required := required
  readJson := fun state text => do
    let (a, rest) ← json text
    .ok (set state a, rest)
  ofNode? := fun state n => (node n).map (set state)

/-- The record of a configuration. -/
def ConverterConfig.record : Document.Record ConverterConfig where
  title := "struct ConverterConfig".toList
  initial := {}
  fields :=
    [fieldOf "className" ["class_name"] true (Json.readText wantedText) Yaml.Node.text?
       fun config className => { config with className },
     fieldOf "transforms" ["transforms_code", "transformsCode"] false readTransforms
       transformsOfNode? fun config transforms => { config with transforms },
     fieldOf "helpersCode" ["helpers_code"] false (Json.readOptional (Json.readText wantedText))
       (Yaml.Node.optional? Yaml.Node.text?) fun config helpersCode => { config with helpersCode },
     fieldOf "registerFor" ["register_for"] false readRegistrations registrationsOfNode?
       fun config registerFor => { config with registerFor },
     fieldOf "backendInfo" ["backend_info"] false readBackendInfo backendInfoOfNode?
       fun config backendInfo => { config with backendInfo },
     fieldOf "delegateBackend" ["delegate_backend"] false
       (Json.readOptional (Json.readText wantedText)) (Yaml.Node.optional? Yaml.Node.text?)
       fun config delegateBackend => { config with delegateBackend }]

/-- Reads a configuration from a JSON document. -/
def ConverterConfig.ofJson (document : Text) : Except Json.Fault ConverterConfig :=
  ConverterConfig.record.ofJson document

/-- Reads a configuration from a YAML document. -/
def ConverterConfig.ofYaml? (document : Text) : Option ConverterConfig :=
  ConverterConfig.record.ofYaml? document

end ConverterAssembly
