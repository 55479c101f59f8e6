import ConverterAssembly.Yaml.Scalar

/-!
# YAML nodes

A node is a scalar, a list or a map.  A quoted scalar is always a text; a plain one can also stand
for null, a truth value or a number, which `Node.scalar?` tells apart.  The accessors give what a
node stands for where a certain kind of value is wanted, or nothing.
-/

namespace ConverterAssembly.Yaml

/-- A node of a document. -/
inductive Node where
  /-- A scalar without quotes. -/
  | plain (text : Text)
  /-- A quoted scalar, or a block of lines. -/
  | quoted (text : Text)
  | list (items : List Node)
  | map (entries : List (Node × Node))
deriving Repr

namespace Node

/-- What a scalar node stands for. -/
def scalar? : Node → Option Scalar
  | plain text => some (plainScalar text)
  | quoted text => some (.text text)
  | list _ | map _ => none

/-- The characters of a scalar, where a text is wanted whatever it looks like. -/
def text? : Node → Option Text
  | plain text => some text
  | quoted text => some text
  | list _ | map _ => none

/-- A node that may be null. -/
def optional? {α : Type} (read : Node → Option α) (node : Node) : Option (Option α) :=
  match node.scalar? with
  | some .null => some none
  | _ => (read node).map some

/-- A truth value. -/
def bool? (node : Node) : Option Bool :=
  match node.scalar? with
  | some (.bool b) => some b
  | _ => none

/-- An unsigned integer. -/
def count? (node : Node) : Option Nat :=
  match node.scalar? with
  | some (.number (.integer n)) => if n < 0 then none else some n.toNat
  | _ => none

end Node

mutual

/-- The JSON value of a node, with the members of its maps sorted. -/
def Node.value? : Node → Option Json
  | .plain text => some (plainScalar text).value
  | .quoted text => some (.string text)
  | .list items => (itemValues? items).map .array
  | .map entries => (entryValues? entries).map fun members => .object (Json.sortMembers members)
termination_by structural node => node

/-- The JSON values of the items of a list. -/
def itemValues? : List Node → Option (List Json)
  | [] => some []
  | node :: nodes =>
    match node.value?, itemValues? nodes with
    | some value, some values => some (value :: values)
    | _, _ => none
termination_by structural nodes => nodes

/-- The JSON members of the entries of a map. -/
def entryValues? : List (Node × Node) → Option (List (Text × Json))
  | [] => some []
  | entry :: entries =>
    match entryValue? entry, entryValues? entries with
    | some member, some members => some (member :: members)
    | _, _ => none
termination_by structural entries => entries

/-- The JSON member of an entry. -/
def entryValue? : Node × Node → Option (Text × Json)
  | (key, node) =>
    match key.text?, node.value? with
    | some name, some value => some (name, value)
    | _, _ => none
termination_by structural entry => entry

end

end ConverterAssembly.Yaml
