import ConverterAssembly.Text.Letter
import ConverterAssembly.Ruby.Spelling

/-!
# Ruby literals for given texts

`stringLiteral` writes any text as a double-quoted literal: quotes, backslashes and control
characters are escaped, and so is a `#` that would begin an interpolation.  `symbolLiteral` writes a
symbol, in quotes only where the name needs them.
-/

namespace ConverterAssembly.Ruby

/-- A hexadecimal digit in upper case. -/
def upperHexDigit (n : Nat) : Char :=
  (Nat.digitChar n).toUpper

/-- The letter that escapes a control character, for those that have one. -/
def controlLetter? (c : Char) : Option Char :=
  if c = '\n' then some 'n'
  else if c = '\t' then some 't'
  else if c = '\r' then some 'r'
  else if c = '\x1b' then some 'e'
  else if c = '\x07' then some 'a'
  else if c = '\x08' then some 'b'
  else if c = '\x0b' then some 'v'
  else if c = '\x0c' then some 'f'
  else none

/-- Whether a `#` with `next` after it would begin an interpolation. -/
def beginsInterpolation (next : Option Char) : Bool :=
  next = some '\x7b' || next = some '$' || next = some '@'

/-- One character of a literal, with `next` after it. -/
def escapedChar (c : Char) (next : Option Char) : Text :=
  if c = '"' || c = '\\' then ['\\', c]
  else if c = '#' && beginsInterpolation next then ['\\', '#']
  else
    match controlLetter? c with
    | some letter => ['\\', letter]
    | none =>
      if c = '\x7f' then "\\x7F".toList
      else if c.toNat < 0x20 then
        ['\\', 'u', '0', '0', upperHexDigit (c.toNat / 16), upperHexDigit (c.toNat % 16)]
      else [c]

/-- The characters of a literal between its quotes. -/
def escaped : Text → Text
  | [] => []
  | c :: cs => escapedChar c cs.head? ++ escaped cs

/-- The double-quoted literal for a text. -/
def stringLiteral (value : Text) : Text :=
  '"' :: escaped value ++ ['"']

/-- The operators that a symbol can name without quotes. -/
def operatorSymbols : List Text :=
  ["[]", "[]=", "<=>", "===", "==", "=~", "!=", "!~", "!", "**", "+", "-", "+@", "-@", "*", "/",
   "%", "<<", ">>", "<", "<=", ">", ">=", "&", "|", "^", "~"].map String.toList

/-- Whether a text is a plain name: a letter or underscore, then letters, numbers and underscores.
-/
def isPlainName : Text → Bool
  | [] => false
  | c :: cs => (isLetter c || c = '_') && cs.all fun d => isLetterOrNumber d || d = '_'

/-- The name after the sigil of a variable, if there is a sigil. -/
def afterSigil? : Text → Option Text
  | c :: d :: cs =>
    if c = '@' && d = '@' then some cs
    else if c = '@' || c = '$' then some (d :: cs)
    else none
  | [c] => if c = '@' || c = '$' then some [] else none
  | [] => none

/-- The name without the mark that may end a method name. -/
def withoutMark (name : Text) : Text :=
  match name.getLast? with
  | some c => if c = '?' || c = '!' || c = '=' then name.dropLast else name
  | none => name

/-- Whether a symbol can be written without quotes. -/
def isPlainSymbol (name : Text) : Bool :=
  operatorSymbols.contains name ||
    match afterSigil? name with
    | some body => isPlainName body
    | none => isPlainName (withoutMark name)

/-- The symbol literal for a name. -/
def symbolLiteral (name : Text) : Text :=
  ':' :: if isPlainSymbol name then name else stringLiteral name

end ConverterAssembly.Ruby
