import ConverterAssembly.Text.Basic

/-!
# Numbers of JSON documents

A number is an integer of at most 64 bits, or a decimal fraction in lowest form.  Decimals are
written with the fewest digits: positionally from 10⁻⁵ up to 10¹⁶ with at least one digit after the
point, else with an exponent.
-/

namespace ConverterAssembly.Json

/-- A decimal fraction: `digits` times ten to the power `exponent`, with a sign of its own. -/
structure Decimal where
  negative : Bool
  digits : Nat
  exponent : Int
deriving DecidableEq, Repr

/-- The digits without the zeros they end with, and the number of those zeros.  The count of digits
bounds the zeros there can be. -/
def stripZeros : (bound : Nat) → (digits : Nat) → Nat × Nat
  | 0, digits => (digits, 0)
  | bound + 1, digits =>
    if digits ≠ 0 ∧ digits % 10 = 0 then
      let (rest, zeros) := stripZeros bound (digits / 10)
      (rest, zeros + 1)
    else
      (digits, 0)

/-- The decimal fraction in lowest form: its digits do not end in zero, and zero has exponent 0. -/
def Decimal.lowest (negative : Bool) (digits : Nat) (exponent : Int) : Decimal :=
  let (rest, zeros) := stripZeros (decimal digits).length digits
  ⟨negative, rest, if rest = 0 then 0 else exponent + zeros⟩

/-- The position of the point after the first digit: the fraction is below ten to this power. -/
def Decimal.magnitude (d : Decimal) : Int :=
  (decimal d.digits).length + d.exponent

/-- Whether the fraction is too large for a double. -/
def Decimal.isTooLarge (d : Decimal) : Bool :=
  d.digits ≠ 0 &&
    (309 < d.magnitude ||
      (d.magnitude = 309 &&
        Nat.pow 2 1024 - Nat.pow 2 970 ≤
          d.digits * Nat.pow 10 d.exponent.toNat / Nat.pow 10 (-d.exponent).toNat))

/-- The fraction, or zero where it is too small for a double. -/
def Decimal.flushed (d : Decimal) : Decimal :=
  if d.magnitude < -323 then ⟨d.negative, 0, 0⟩ else d

/-- The written form of an integer. -/
def writeInteger (n : Int) : Text :=
  if n < 0 then '-' :: decimal n.natAbs else decimal n.natAbs

/-- The written form of a decimal fraction without its sign. -/
def Decimal.writeMagnitude (d : Decimal) : Text :=
  let digits := decimal d.digits
  let point := d.magnitude
  if d.digits = 0 then "0.0".toList
  else if 0 ≤ d.exponent ∧ point ≤ 16 then
    digits ++ List.replicate d.exponent.toNat '0' ++ ".0".toList
  else if 0 < point ∧ point ≤ 16 then
    digits.take point.toNat ++ '.' :: digits.drop point.toNat
  else if -5 < point ∧ point ≤ 0 then
    "0.".toList ++ List.replicate (-point).toNat '0' ++ digits
  else
    (match digits with
      | [_] => digits
      | first :: rest => first :: '.' :: rest
      | [] => []) ++ 'e' :: writeInteger (point - 1)

/-- The written form of a decimal fraction. -/
def Decimal.write (d : Decimal) : Text :=
  if d.negative then '-' :: d.writeMagnitude else d.writeMagnitude

/-- A number of a document. -/
inductive Number where
  | integer (value : Int)
  | fraction (value : Decimal)
deriving DecidableEq, Repr

/-- The number that an integer literal stands for: one that needs more than 64 bits, and the
negative zero, are fractions. -/
def Number.ofInteger (negative : Bool) (digits : Nat) : Number :=
  if negative then
    if digits ≠ 0 ∧ digits ≤ Nat.pow 2 63 then .integer (-digits)
    else .fraction (.lowest true digits 0)
  else
    if digits < Nat.pow 2 64 then .integer digits else .fraction (.lowest false digits 0)

/-- The written form of a number. -/
def Number.write : Number → Text
  | integer n => writeInteger n
  | fraction d => d.write

end ConverterAssembly.Json
