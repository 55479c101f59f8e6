import ConverterAssembly.Json.Number
import ConverterAssembly.Text.Quoted

/-!
# Faults of JSON documents

A document can end too early, break the grammar, or be well formed and not have the wanted shape.
Only for the last kind is there more to say, in the words of `Misfit.message`.
-/

namespace ConverterAssembly.Json

/-- What stands in a document where something else is wanted. -/
inductive Found where
  | null
  | boolean (value : Bool)
  | number (value : Number)
  | string (value : Text)
  | list
  | map
deriving DecidableEq, Repr

/-- What was found, in words. -/
def Found.message : Found → Text
  | null => "null".toList
  | boolean value => "boolean `".toList ++ (if value then "true" else "false").toList ++ ['\x60']
  | number (.integer n) => "integer `".toList ++ writeInteger n ++ ['\x60']
  | number (.fraction d) => "floating point `".toList ++ d.write ++ ['\x60']
  | string value => "string ".toList ++ Text.quoted value
  | list => "sequence".toList
  | map => "map".toList

/-- How a document fails to have the wanted shape. -/
inductive Misfit where
  /-- Another kind of value is wanted. -/
  | wrongType (found : Found) (wanted : Text)
  /-- The kind of value is right and the value is not. -/
  | wrongValue (found : Found) (wanted : Text)
  /-- A list ends after `length` elements. -/
  | wrongLength (length : Nat) (wanted : Text)
  | missingField (name : Text)
  | duplicateField (name : Text)
  /-- None of the alternatives of a choice fits. -/
  | noVariant (choice : Text)
deriving DecidableEq, Repr

/-- The wording of a misfit. -/
def Misfit.message : Misfit → Text
  | wrongType found wanted =>
    "invalid type: ".toList ++ found.message ++ ", expected ".toList ++ wanted
  | wrongValue found wanted =>
    "invalid value: ".toList ++ found.message ++ ", expected ".toList ++ wanted
  | wrongLength length wanted =>
    "invalid length ".toList ++ decimal length ++ ", expected ".toList ++ wanted
  | missingField name => "missing field `".toList ++ name ++ ['\x60']
  | duplicateField name => "duplicate field `".toList ++ name ++ ['\x60']
  | noVariant choice => "data did not match any variant of untagged enum ".toList ++ choice

/-- Why a document is refused. -/
inductive Fault where
  | endsEarly
  | malformed
  | misfit (cause : Misfit)
deriving DecidableEq, Repr

/-- A reader takes a value from the front of a text and leaves the rest, or tells the first fault.
-/
abbrev Reader (α : Type) := Text → Except Fault (α × Text)

end ConverterAssembly.Json
