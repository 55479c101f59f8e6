import ConverterAssembly.Json.Fault

/-!
# Reading JSON scalars

Readers for the words `null`, `true` and `false`, for strings and for numbers.  Each tells apart a
text that ends inside the scalar from one that goes on with a wrong character.
-/

namespace ConverterAssembly.Json

/-- The blanks that may stand between the parts of a document. -/
def isBlank (c : Char) : Bool :=
  c = ' ' || c = '\n' || c = '\t' || c = '\r'

/-- The text from its first character that is not blank. -/
def skipBlanks (text : Text) : Text :=
  text.dropWhile isBlank

/-- Reads a fixed word. -/
def readWord : (word : Text) → Text → Except Fault Text
  | [], text => .ok text
  | _ :: _, [] => .error .endsEarly
  | w :: word, c :: cs => if c = w then readWord word cs else .error .malformed

/-! ## Strings -/

/-- The value of a hexadecimal digit. -/
def hexValue? (c : Char) : Option Nat :=
  if '0' ≤ c && c ≤ '9' then some (c.toNat - '0'.toNat)
  else if 'a' ≤ c && c ≤ 'f' then some (c.toNat - 'a'.toNat + 10)
  else if 'A' ≤ c && c ≤ 'F' then some (c.toNat - 'A'.toNat + 10)
  else none

/-- The code unit that four hexadecimal digits at the front of the text stand for.  The text has to
hold at least four bytes. -/
def readUnit (text : Text) : Except Fault Nat :=
  if Text.utf8Size (text.take 4) < 4 then .error .endsEarly
  else
    match (text.take 4).mapM hexValue? with
    | some [a, b, c, d] => .ok (((a * 16 + b) * 16 + c) * 16 + d)
    | _ => .error .malformed

/-- The character that a letter stands for after a backslash. -/
def escapedBy? (c : Char) : Option Char :=
  if c = '"' || c = '\\' || c = '/' then some c
  else if c = 'b' then some '\x08'
  else if c = 'f' then some '\x0c'
  else if c = 'n' then some '\n'
  else if c = 'r' then some '\r'
  else if c = 't' then some '\t'
  else none

/-- A code unit that must be followed by a second half. -/
def isHighSurrogate (n : Nat) : Bool :=
  0xD800 ≤ n && n ≤ 0xDBFF

/-- A code unit that must come after a first half. -/
def isLowSurrogate (n : Nat) : Bool :=
  0xDC00 ≤ n && n ≤ 0xDFFF

/-- The character that two halves stand for. -/
def ofSurrogates (high low : Nat) : Char :=
  Char.ofNat ((high - 0xD800) * 0x400 + (low - 0xDC00) + 0x10000)

/-- Reads a string from inside its quotes.  The next `skip` characters are part of an escape already
read, and `high` is the first half of a character whose second half has to follow. -/
def readStringFrom : (skip : Nat) → (high : Option Nat) → Reader Text
  | _, _, [] => .error .endsEarly
  | skip + 1, high, _ :: cs => readStringFrom skip high cs
  | 0, none, c :: cs =>
    if c = '"' then .ok ([], cs)
    else if c.toNat < 0x20 then .error .malformed
    else if c = '\\' then
      match cs.head? with
      | none => .error .endsEarly
      | some 'u' => do
        let n ← readUnit cs.tail
        if isLowSurrogate n then .error .malformed
        else if isHighSurrogate n then readStringFrom 5 (some n) cs
        else
          let (s, rest) ← readStringFrom 5 none cs
          .ok (Char.ofNat n :: s, rest)
      | some letter =>
        match escapedBy? letter with
        | none => .error .malformed
        | some d => do
          let (s, rest) ← readStringFrom 1 none cs
          .ok (d :: s, rest)
    else do
      let (s, rest) ← readStringFrom 0 none cs
      .ok (c :: s, rest)
  | 0, some high, c :: cs =>
    if c ≠ '\\' then .error .malformed
    else
      match cs.head? with
      | none => .error .endsEarly
      | some 'u' => do
        let n ← readUnit cs.tail
        if isLowSurrogate n then
          let (s, rest) ← readStringFrom 5 none cs
          .ok (ofSurrogates high n :: s, rest)
        else .error .malformed
      | some _ => .error .malformed

/-- Reads a string from just after its opening quote. -/
def readString : Reader Text :=
  readStringFrom 0 none

/-! ## Numbers -/

/-- A decimal digit. -/
def isDigit (c : Char) : Bool :=
  '0' ≤ c && c ≤ '9'

/-- The value of decimal digits. -/
def digitsValue (digits : Text) : Nat :=
  digits.foldl (fun n c => n * 10 + (c.toNat - '0'.toNat)) 0

/-- Reads digits, of which there has to be one. -/
def readDigits : Reader Text := fun text =>
  let digits := text.takeWhile isDigit
  if digits.isEmpty then
    if text.isEmpty then .error .endsEarly else .error .malformed
  else
    .ok (digits, text.drop digits.length)

/-- Reads what may follow the letter of an exponent. -/
def readExponent : Reader Int := fun text =>
  match text with
  | '-' :: rest => do
    let (digits, rest) ← readDigits rest
    .ok (-(digitsValue digits : Int), rest)
  | '+' :: rest => do
    let (digits, rest) ← readDigits rest
    .ok (digitsValue digits, rest)
  | _ => do
    let (digits, rest) ← readDigits text
    .ok (digitsValue digits, rest)

/-- The number with the given digits and exponent, unless it is too large. -/
def fraction (negative : Bool) (digits : Text) (exponent : Int) : Except Fault Number :=
  let d := Decimal.lowest negative (digitsValue digits) exponent
  if d.isTooLarge then .error .malformed else .ok (.fraction d.flushed)

/-- The number without an exponent; `places` is the number of digits after the
point, if there is one. -/
def unscaled (negative : Bool) (digits : Text) (places : Option Nat) : Except Fault Number :=
  match places with
  | none => .ok (.ofInteger negative (digitsValue digits))
  | some n => fraction negative digits (-n)

/-- Reads what follows the digits before and after the point. -/
def readScale (negative : Bool) (digits : Text) (places : Option Nat) : Reader Number := fun text =>
  if text.head? = some 'e' || text.head? = some 'E' then do
    let (exponent, rest) ← readExponent text.tail
    let n ← fraction negative digits (exponent - places.getD 0)
    .ok (n, rest)
  else do
    let n ← unscaled negative digits places
    .ok (n, text)

/-- Reads a number from its first digit. -/
def readNumber (negative : Bool) : Reader Number := fun text => do
  let (whole, rest) ← readDigits text
  if whole.head? = some '0' && 1 < whole.length then .error .malformed
  else
    match rest with
    | '.' :: rest => do
      let (places, rest) ← readDigits rest
      readScale negative (whole ++ places) (some places.length) rest
    | _ => readScale negative whole none rest

/-! ## Any value at its first character -/

/-- Reads the scalar that begins with `c`; of a list or an object only the bracket is read. -/
def readFound (c : Char) (cs : Text) : Except Fault (Found × Text) :=
  if c = '"' then do
    let (s, rest) ← readString cs
    .ok (.string s, rest)
  else if c = '-' then do
    let (n, rest) ← readNumber true cs
    .ok (.number n, rest)
  else if isDigit c then do
    let (n, rest) ← readNumber false (c :: cs)
    .ok (.number n, rest)
  else if c = 'n' then do
    let rest ← readWord "ull".toList cs
    .ok (.null, rest)
  else if c = 't' then do
    let rest ← readWord "rue".toList cs
    .ok (.boolean true, rest)
  else if c = 'f' then do
    let rest ← readWord "alse".toList cs
    .ok (.boolean false, rest)
  else if c = '[' then .ok (.list, cs)
  else if c = '\x7b' then .ok (.map, cs)
  else .error .malformed

/-- The fault of a value that begins with `c` where something else is wanted.  A value that is
itself broken is reported as such. -/
def mismatch (wanted : Text) (c : Char) (cs : Text) : Fault :=
  match readFound c cs with
  | .ok (found, _) => .misfit (.wrongType found wanted)
  | .error fault => fault

/-- Reads a string where one is wanted. -/
def readText (wanted : Text) : Reader Text := fun text =>
  match skipBlanks text with
  | [] => .error .endsEarly
  | c :: cs => if c = '"' then readString cs else .error (mismatch wanted c cs)

/-- Reads a truth value where one is wanted. -/
def readBool (wanted : Text) : Reader Bool := fun text =>
  match skipBlanks text with
  | [] => .error .endsEarly
  | c :: cs =>
    match readFound c cs with
    | .ok (.boolean b, rest) => .ok (b, rest)
    | .ok (found, _) => .error (.misfit (.wrongType found wanted))
    | .error fault => .error fault

/-- Reads an unsigned integer where one is wanted. -/
def readCount (wanted : Text) : Reader Nat := fun text =>
  match skipBlanks text with
  | [] => .error .endsEarly
  | c :: cs =>
    match readFound c cs with
    | .ok (.number (.integer n), rest) =>
      if n < 0 then .error (.misfit (.wrongValue (.number (.integer n)) wanted))
      else .ok (n.toNat, rest)
    | .ok (found, _) => .error (.misfit (.wrongType found wanted))
    | .error fault => .error fault

/-- Reads a value that may be null. -/
def readOptional {α : Type} (read : Reader α) : Reader (Option α) := fun text =>
  match skipBlanks text with
  | 'n' :: cs => do
    let rest ← readWord "ull".toList cs
    .ok (none, rest)
  | _ => do
    let (a, rest) ← read text
    .ok (some a, rest)

end ConverterAssembly.Json
