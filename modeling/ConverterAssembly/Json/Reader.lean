import ConverterAssembly.Json.Scalar
import ConverterAssembly.Json.Value

/-!
# Reading lists and objects

* **Steps** — `next` moves to the next element of a list or member of an object, `readKey` and
  `afterColon` read the parts of a member, `endList` closes a list.
* **Whole lists** — `readItems` and `readMembers` with one reader for the parts.  A text cannot hold
  more parts than characters, which bounds their recursion.
* **Values** — `readValue` reads any value up to a depth; deeper nesting counts as malformed.
* **Skipping** — `skipValue` passes over a value of any depth and looks only at its outer form: it
  does not mind halves of characters in strings, and a number that ends early is malformed.
-/

namespace ConverterAssembly.Json

/-! ## Steps -/

/-- What comes next in a list or object. -/
inductive Next where
  /-- An element begins here. -/
  | item (text : Text)
  /-- The bracket is closed, and this follows. -/
  | closed (rest : Text)
deriving DecidableEq, Repr

/-- Moves to the next part of a list or object; every part but the first comes after a comma. -/
def next (closing : Char) (first : Bool) (text : Text) : Except Fault Next :=
  match skipBlanks text with
  | [] => .error .endsEarly
  | c :: cs =>
    if c = closing then .ok (.closed cs)
    else if first then .ok (.item (c :: cs))
    else if c = ',' then
      match skipBlanks cs with
      | [] => .error .endsEarly
      | d :: ds => if d = closing then .error .malformed else .ok (.item (d :: ds))
    else .error .malformed

/-- Reads the name of a member, at its first character. -/
def readKey : Reader Text := fun text =>
  match text with
  | '"' :: cs => readString cs
  | _ => .error .malformed

/-- The text after the colon of a member. -/
def afterColon (text : Text) : Except Fault Text :=
  match skipBlanks text with
  | [] => .error .endsEarly
  | c :: cs => if c = ':' then .ok cs else .error .malformed

/-- The text after the bracket that closes a list. -/
def endList (text : Text) : Except Fault Text :=
  match skipBlanks text with
  | [] => .error .endsEarly
  | c :: cs => if c = ']' then .ok cs else .error .malformed

/-! ## Whole lists -/

/-- Reads the elements of a list, at most `bound` of them. -/
def readItemsFrom {α : Type} (item : Reader α) : (bound : Nat) → (first : Bool) → Reader (List α)
  | 0, _, _ => .error .malformed
  | bound + 1, first, text => do
    match ← next ']' first text with
    | .closed rest => .ok ([], rest)
    | .item text =>
      let (a, rest) ← item text
      let (as, rest) ← readItemsFrom item bound false rest
      .ok (a :: as, rest)

/-- Reads the elements of a list from just after its opening bracket. -/
def readItems {α : Type} (item : Reader α) : Reader (List α) := fun text =>
  readItemsFrom item (text.length + 1) true text

/-- Reads the members of an object, at most `bound` of them. -/
def readMembersFrom {α : Type} (value : Reader α) :
    (bound : Nat) → (first : Bool) → Reader (List (Text × α))
  | 0, _, _ => .error .malformed
  | bound + 1, first, text => do
    match ← next '\x7d' first text with
    | .closed rest => .ok ([], rest)
    | .item text =>
      let (key, rest) ← readKey text
      let rest ← afterColon rest
      let (a, rest) ← value rest
      let (as, rest) ← readMembersFrom value bound false rest
      .ok ((key, a) :: as, rest)

/-- Reads the members of an object from just after its opening brace. -/
def readMembers {α : Type} (value : Reader α) : Reader (List (Text × α)) := fun text =>
  readMembersFrom value (text.length + 1) true text

/-! ## Values -/

/-- The value of a scalar. -/
def Found.value : Found → Json
  | null => .null
  | boolean b => .bool b
  | number n => .number n
  | string s => .string s
  | list => .array []
  | map => .object []

/-- Reads a value with at most `depth` lists and objects in one another.  The members of an object
come out sorted. -/
def readValue : (depth : Nat) → Reader Json
  | depth, text =>
    match skipBlanks text with
    | [] => .error .endsEarly
    | c :: cs =>
      if c = '[' then
        match depth with
        | 0 => .error .malformed
        | depth + 1 => do
          let (items, rest) ← readItems (readValue depth) cs
          .ok (.array items, rest)
      else if c = '\x7b' then
        match depth with
        | 0 => .error .malformed
        | depth + 1 => do
          let (members, rest) ← readMembers (readValue depth) cs
          .ok (.object (sortMembers members), rest)
      else do
        let (found, rest) ← readFound c cs
        .ok (found.value, rest)

/-! ## Skipping -/

/-- The size of the rest of a string with its closing quote; `skip` characters are part of an escape
already seen. -/
def stringSize : (skip : Nat) → Text → Except Fault Nat
  | _, [] => .error .endsEarly
  | skip + 1, _ :: cs => (· + 1) <$> stringSize skip cs
  | 0, c :: cs =>
    if c = '"' then .ok 1
    else if c.toNat < 0x20 then .error .malformed
    else if c = '\\' then
      match cs.head? with
      | none => .error .endsEarly
      | some 'u' => do
        let _ ← readUnit cs.tail
        (· + 1) <$> stringSize 5 cs
      | some letter =>
        match escapedBy? letter with
        | none => .error .malformed
        | some _ => (· + 1) <$> stringSize 1 cs
    else (· + 1) <$> stringSize 0 cs

/-- The number of digits at the front of the text, of which there has to be one. -/
def digitsSize (text : Text) : Except Fault Nat :=
  let size := (text.takeWhile isDigit).length
  if size = 0 then .error .malformed else .ok size

/-- The size of an exponent with its letter, if there is one. -/
def exponentSize (text : Text) : Except Fault Nat :=
  match text with
  | c :: cs =>
    if c = 'e' || c = 'E' then
      let sign := if cs.head? = some '-' || cs.head? = some '+' then 1 else 0
      (· + sign + 1) <$> digitsSize (cs.drop sign)
    else .ok 0
  | [] => .ok 0

/-- The size of a number from its first digit. -/
def numberSize (text : Text) : Except Fault Nat := do
  let whole ← digitsSize text
  if text.head? = some '0' && 1 < whole then .error .malformed
  else
    let rest := text.drop whole
    if rest.head? = some '.' then
      let places ← digitsSize rest.tail
      let exponent ← exponentSize (rest.drop (places + 1))
      .ok (whole + 1 + places + exponent)
    else
      let exponent ← exponentSize rest
      .ok (whole + exponent)

/-- The size of the rest of a fixed word. -/
def wordSize (word text : Text) : Except Fault Nat := do
  let _ ← readWord word text
  .ok word.length

/-- The size of the rest of the scalar that begins with `c`. -/
def scalarSize (c : Char) (cs : Text) : Except Fault Nat :=
  if c = '"' then stringSize 0 cs
  else if c = '-' then numberSize cs
  else if isDigit c then (· - 1) <$> numberSize (c :: cs)
  else if c = 'n' then wordSize "ull".toList cs
  else if c = 't' then wordSize "rue".toList cs
  else if c = 'f' then wordSize "alse".toList cs
  else .error .malformed

/-- The brackets that a skipped part can stand in. -/
inductive Enclosing where
  | list
  | object
deriving DecidableEq, Repr

/-- The character that closes the bracket. -/
def Enclosing.closer : Enclosing → Char
  | list => ']'
  | object => '\x7d'

/-- What is expected next while a value is skipped. -/
inductive Expecting where
  | value
  /-- The first part of the innermost bracket, or its end. -/
  | first
  /-- A comma, or the end of the innermost bracket. -/
  | comma
  | key
  | colon
deriving DecidableEq, Repr

/-- What is expected where a part of this bracket begins. -/
def Enclosing.part : Enclosing → Expecting
  | list => .value
  | object => .key

/-- What is expected after a part, and in which brackets. -/
structure Skipping where
  /-- How many characters of a measured scalar are still to be passed over. -/
  skip : Nat
  expecting : Expecting
  /-- The brackets around this place, innermost first. -/
  outer : List Enclosing
deriving DecidableEq, Repr

/-- Begins to skip the value whose first character is `c`. -/
def Skipping.atValue (outer : List Enclosing) (c : Char) (cs : Text) : Except Fault Skipping :=
  if c = '[' then .ok ⟨0, .first, .list :: outer⟩
  else if c = '\x7b' then .ok ⟨0, .first, .object :: outer⟩
  else do
    let size ← scalarSize c cs
    .ok ⟨size, .comma, outer⟩

/-- Begins to skip the member whose first character is `c`. -/
def Skipping.atKey (outer : List Enclosing) (c : Char) (cs : Text) : Except Fault Skipping :=
  if c = '"' then do
    let size ← stringSize 0 cs
    .ok ⟨size, .colon, outer⟩
  else .error .malformed

/-- Reads a character that is not blank, outside of scalars. -/
def Skipping.step (expecting : Expecting) (outer : List Enclosing) (c : Char) (cs : Text) :
    Except Fault Skipping :=
  match expecting, outer with
  | .value, _ => atValue outer c cs
  | .key, _ => atKey outer c cs
  | .colon, _ => if c = ':' then .ok ⟨0, .value, outer⟩ else .error .malformed
  | .first, e :: es =>
    if c = e.closer then .ok ⟨0, .comma, es⟩
    else
      match e with
      | .list => atValue outer c cs
      | .object => atKey outer c cs
  | .comma, e :: es =>
    if c = e.closer then .ok ⟨0, .comma, es⟩
    else if c = ',' then .ok ⟨0, e.part, outer⟩
    else .error .malformed
  | _, [] => .error .malformed

/-- Passes over a value to the end of the outermost bracket. -/
def skipFrom : (skip : Nat) → Expecting → (outer : List Enclosing) → Text → Except Fault Text
  | 0, .comma, [], text => .ok text
  | _, _, _, [] => .error .endsEarly
  | skip + 1, expecting, outer, _ :: cs => skipFrom skip expecting outer cs
  | 0, expecting, outer, c :: cs =>
    if isBlank c then skipFrom 0 expecting outer cs
    else do
      let s ← Skipping.step expecting outer c cs
      skipFrom s.skip s.expecting s.outer cs

/-- The text after a value, of which only the outer form is looked at. -/
def skipValue (text : Text) : Except Fault Text :=
  skipFrom 0 .value [] text

end ConverterAssembly.Json
