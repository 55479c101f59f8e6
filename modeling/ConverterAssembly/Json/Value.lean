import ConverterAssembly.Json.Number

/-!
# JSON values

The values, and their compact written form: no blanks, members in order, and every character written
as itself unless the format demands an escape.
-/

namespace ConverterAssembly

/-- A JSON value.  The members of an object keep their order and may repeat a name. -/
inductive Json where
  | null
  | bool (value : Bool)
  | number (value : Json.Number)
  | string (value : Text)
  | array (items : List Json)
  | object (members : List (Text × Json))
deriving Repr, BEq

namespace Json

/-- One character of a written string: quotes, backslashes and control characters are escaped. -/
def writeChar (c : Char) : Text :=
  if c = '"' || c = '\\' then ['\\', c]
  else if c = '\x08' then ['\\', 'b']
  else if c = '\x0c' then ['\\', 'f']
  else if c = '\n' then ['\\', 'n']
  else if c = '\r' then ['\\', 'r']
  else if c = '\t' then ['\\', 't']
  else if c.toNat < 0x20 then
    ['\\', 'u', '0', '0', Nat.digitChar (c.toNat / 16), Nat.digitChar (c.toNat % 16)]
  else [c]

/-- The written form of a string. -/
def writeString (s : Text) : Text :=
  '"' :: s.flatMap writeChar ++ ['"']

mutual

/-- The compact written form. -/
def write : Json → Text
  | .null => "null".toList
  | .bool true => "true".toList
  | .bool false => "false".toList
  | .number n => n.write
  | .string s => writeString s
  | .array items => '[' :: Text.join [','] (writeItems items) ++ [']']
  | .object members => '\x7b' :: Text.join [','] (writeMembers members) ++ ['\x7d']
termination_by structural j => j

/-- The written items of an array. -/
def writeItems : List Json → List Text
  | [] => []
  | item :: items => write item :: writeItems items
termination_by structural items => items

/-- The written members of an object. -/
def writeMembers : List (Text × Json) → List Text
  | [] => []
  | member :: members => writeMember member :: writeMembers members
termination_by structural members => members

/-- A written member: name, colon and value. -/
def writeMember : Text × Json → Text
  | (name, value) => writeString name ++ ':' :: write value
termination_by structural member => member

end

/-- Members sorted by name with one more put in; it takes the place of a member of the same name. -/
def insertSorted (name : Text) (value : Json) : List (Text × Json) → List (Text × Json)
  | [] => [(name, value)]
  | (n, v) :: rest =>
    if n = name then (name, value) :: rest
    else if Text.before name n then (name, value) :: (n, v) :: rest
    else (n, v) :: insertSorted name value rest

/-- Members sorted by name; of several with one name the last counts. -/
def sortMembers (members : List (Text × Json)) : List (Text × Json) :=
  members.foldl (fun sorted m => insertSorted m.1 m.2 sorted) []

/-- The value of the member with the given name. -/
def member? (name : Text) (members : List (Text × Json)) : Option Json :=
  (members.find? (·.1 = name)).map (·.2)

end Json

end ConverterAssembly
