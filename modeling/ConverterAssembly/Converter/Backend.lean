import ConverterAssembly.Json.Value
import ConverterAssembly.Ruby.Literal

/-!
# Backends

A converter declares traits of its backend and registers itself for backends.

* `BackendInfo` — the traits in the order of their first declaration, one value for each key.
* `BackendId` — a backend by name or by symbol.  As a text, a symbol has a colon before its name, so
  `BackendId.parse` and `BackendId.text` agree on the ids that are `IsCanonical`.
-/

namespace ConverterAssembly

/-- The value of a backend trait. -/
inductive BackendValue where
  /-- A true flag declares the bare trait; a false one is its argument. -/
  | flag (value : Bool)
  /-- A text is the argument of the trait. -/
  | text (value : Text)
deriving DecidableEq, Repr

namespace BackendValue

/-- The Ruby literal for a value. -/
def literal : BackendValue → Text
  | flag value => (if value then "true" else "false").toList
  | text value => Ruby.stringLiteral value

/-- The JSON form of a value. -/
def json : BackendValue → Json
  | flag value => .bool value
  | text value => .string value

end BackendValue

/-- Backend traits in the order of their first declaration. -/
structure BackendInfo where
  entries : List (Text × BackendValue) := []
deriving DecidableEq, Repr

namespace BackendInfo

/-- Entries with the value for a key set: in its place if the key is there, else at the end. -/
def setEntry (key : Text) (value : BackendValue) :
    List (Text × BackendValue) → List (Text × BackendValue)
  | [] => [(key, value)]
  | (k, v) :: rest => if k = key then (k, value) :: rest else (k, v) :: setEntry key value rest

/-- Sets a trait.  A key that is there keeps its place. -/
def insert (info : BackendInfo) (key : Text) (value : BackendValue) : BackendInfo :=
  ⟨setEntry key value info.entries⟩

/-- The value of a trait. -/
def get? (info : BackendInfo) (key : Text) : Option BackendValue :=
  info.entries.lookup key

/-- The keys in order. -/
def keys (info : BackendInfo) : List Text :=
  info.entries.map (·.1)

/-- Whether no trait is set. -/
def isEmpty (info : BackendInfo) : Bool :=
  info.entries.isEmpty

/-- The traits set by a list of pairs, one after the other. -/
def ofList (pairs : List (Text × BackendValue)) : BackendInfo :=
  pairs.foldl (fun info pair => info.insert pair.1 pair.2) {}

/-- The JSON form of the traits. -/
def json (info : BackendInfo) : Json :=
  .object (info.entries.map fun (key, value) => (key, value.json))

end BackendInfo

/-- A backend that a converter registers for. -/
inductive BackendId where
  /-- Written as a string. -/
  | name (value : Text)
  /-- Written as a symbol. -/
  | symbol (value : Text)
deriving DecidableEq, Repr

namespace BackendId

/-- Reads a colon and a name after it as a symbol, and anything else as a name. -/
def parse (text : Text) : BackendId :=
  match text with
  | ':' :: c :: cs => symbol (c :: cs)
  | _ => name text

/-- The text of an id, a symbol with its colon. -/
def text : BackendId → Text
  | name value => value
  | symbol value => ':' :: value

/-- The Ruby literal for an id. -/
def literal : BackendId → Text
  | name value => Ruby.stringLiteral value
  | symbol value => Ruby.symbolLiteral value

/-- The JSON form of an id. -/
def json (id : BackendId) : Json :=
  .string id.text

/-- An id that its text determines: a name that does not look like a symbol,
or a symbol with a name. -/
def IsCanonical : BackendId → Prop
  | name value => value.head? ≠ some ':' ∨ value = [':']
  | symbol value => value ≠ []

instance (id : BackendId) : Decidable id.IsCanonical := by
  cases id <;> unfold IsCanonical <;> infer_instance

theorem parse_text_of_isCanonical {id : BackendId} (h : id.IsCanonical) : parse id.text = id := by
  match id with
  | symbol [] => simp [IsCanonical] at h
  | symbol (c :: cs) => rfl
  | name [] => rfl
  | name [c] =>
    simp only [text, parse]
  | name (c :: d :: cs) =>
    have hc : c ≠ ':' := by simpa [IsCanonical] using h
    simp [text, parse, hc]

theorem isCanonical_parse (t : Text) : (parse t).IsCanonical := by
  unfold parse
  split
  · simp [IsCanonical]
  · rename_i h
    match t with
    | [] => simp [IsCanonical]
    | [c] => by_cases hc : c = ':' <;> simp [IsCanonical, hc]
    | c :: d :: cs =>
      have hc : c ≠ ':' := fun e => h d cs (by rw [e])
      simp [IsCanonical, hc]

end BackendId

end ConverterAssembly
