import ConverterAssembly.Json.Scalar
import ConverterAssembly.Json.Value

/-!
# What a plain scalar stands for

A scalar without quotes can stand for null, a truth value, a number or a text.  Integers are
decimal, or hexadecimal, octal and binary with their marks; digits that begin with a needless zero
are a text.
-/

namespace ConverterAssembly.Yaml

/-- What a scalar stands for. -/
inductive Scalar where
  | null
  | bool (value : Bool)
  | number (value : Json.Number)
  /-- A number without a finite value. -/
  | infinite
  | text (value : Text)
deriving DecidableEq, Repr

/-- Whether a plain scalar stands for null. -/
def isNull (text : Text) : Bool :=
  text.isEmpty || ["null", "Null", "NULL", "~"].any (·.toList = text)

/-- The truth value that a plain scalar stands for. -/
def boolOf? (text : Text) : Option Bool :=
  if ["true", "True", "TRUE"].any (·.toList = text) then some true
  else if ["false", "False", "FALSE"].any (·.toList = text) then some false
  else none

/-- Whether a plain scalar is a number without a finite value. -/
def isInfinite (text : Text) : Bool :=
  [".inf", ".Inf", ".INF", "+.inf", "+.Inf", "+.INF", "-.inf", "-.Inf", "-.INF", ".nan", ".NaN",
   ".NAN"].any (·.toList = text)

/-- The sign that a text begins with, if it has one, and the rest. -/
def splitSign (text : Text) : Bool × Text :=
  match text with
  | '-' :: rest => (true, rest)
  | '+' :: rest => (false, rest)
  | _ => (false, text)

/-- The value of digits in the given base. -/
def digitsIn? (base : Nat) (text : Text) : Option Nat :=
  if text.isEmpty then none
  else
    text.foldlM (fun n c =>
      match Json.hexValue? c with
      | some d => if d < base then some (n * base + d) else none
      | none => none) 0

/-- The value of an unsigned integer.  A needless zero at the front is no part of an integer. -/
def unsignedOf? (text : Text) : Option Nat :=
  match text with
  | '0' :: 'x' :: digits => digitsIn? 16 digits
  | '0' :: 'o' :: digits => digitsIn? 8 digits
  | '0' :: 'b' :: digits => digitsIn? 2 digits
  | '0' :: _ :: _ => none
  | _ => digitsIn? 10 text

/-- The exponent that ends a number: nothing, or its letter with a signed integer. -/
def exponentOf? (text : Text) : Option Int :=
  match text with
  | [] => some 0
  | c :: rest =>
    if c = 'e' || c = 'E' then
      let (negative, digits) := splitSign rest
      (digitsIn? 10 digits).map fun n => if negative then -(n : Int) else n
    else none

/-- The value of an unsigned decimal fraction: digits before or after a point, then an exponent. -/
def fractionOf? (negative : Bool) (text : Text) : Option Json.Number :=
  let whole := text.takeWhile Json.isDigit
  let rest := text.drop whole.length
  let places := if rest.head? = some '.' then rest.tail.takeWhile Json.isDigit else []
  let rest := if rest.head? = some '.' then rest.tail.drop places.length else rest
  let digits := whole ++ places
  if digits.isEmpty || (rest.isEmpty && digits.length = text.length && whole.head? = some '0' &&
      1 < whole.length) then none
  else
    match exponentOf? rest with
    | none => none
    | some exponent => (Json.fraction negative digits (exponent - places.length)).toOption

/-- The number that a plain scalar stands for. -/
def numberOf? (text : Text) : Option Json.Number :=
  let (negative, rest) := splitSign text
  match unsignedOf? rest with
  | some n => some (if negative && n = 0 then .integer 0 else .ofInteger negative n)
  | none => fractionOf? negative rest

/-- What a plain scalar stands for. -/
def plainScalar (text : Text) : Scalar :=
  if isNull text then .null
  else if isInfinite text then .infinite
  else
    match boolOf? text, numberOf? text with
    | some b, _ => .bool b
    | none, some n => .number n
    | none, none => .text text

/-- The JSON value of a scalar; a number without a finite value has none but null. -/
def Scalar.value : Scalar → Json
  | null | infinite => .null
  | bool b => .bool b
  | number n => .number n
  | text t => .string t

end ConverterAssembly.Yaml
