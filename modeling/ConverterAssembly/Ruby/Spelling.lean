import ConverterAssembly.Text.Basic

/-!
# Spellings of Ruby words and operators

Character classes for names, the table of keywords, and the tables of operators.  Every character
outside ASCII counts as a part of names.  In the operator tables a longer spelling stands before
every spelling it begins with, so the first that fits is the longest.
-/

namespace ConverterAssembly.Ruby

/-- A decimal digit. -/
def isDigit (c : Char) : Bool :=
  '0' ≤ c && c ≤ '9'

/-- A Latin letter. -/
def isAsciiLetter (c : Char) : Bool :=
  ('a' ≤ c && c ≤ 'z') || ('A' ≤ c && c ≤ 'Z')

/-- A visible ASCII character that is neither a letter nor a digit. -/
def isPunctuation (c : Char) : Bool :=
  '!' ≤ c && c ≤ '~' && !isAsciiLetter c && !isDigit c

/-- A character outside ASCII. -/
def isWide (c : Char) : Bool :=
  0x80 ≤ c.toNat

/-- A character that a name may begin with. -/
def isNameStart (c : Char) : Bool :=
  isAsciiLetter c || c = '_' || isWide c

/-- A character that a name may go on with. -/
def isNameChar (c : Char) : Bool :=
  isNameStart c || isDigit c

/-- Horizontal blanks between tokens: space, tab, carriage return, vertical tab and form feed. -/
def isGap (c : Char) : Bool :=
  c = ' ' || c = '\t' || c = '\r' || c = '\x0b' || c = '\x0c'

/-- The keywords. -/
def keywords : List Text :=
  ["BEGIN", "END", "alias", "and", "begin", "break", "case", "class", "def", "do", "else", "elsif",
   "end", "ensure", "false", "for", "if", "in", "module", "next", "nil", "not", "or", "redo",
   "rescue", "retry", "return", "self", "super", "then", "true", "undef", "unless", "until", "when",
   "while", "yield", "__FILE__", "__LINE__", "__ENCODING__"].map String.toList

/-- Keywords that are or end an expression, so that an operator follows them. -/
def valueKeywords : List Text :=
  ["end", "self", "nil", "true", "false", "redo", "retry", "super", "__FILE__", "__LINE__",
   "__ENCODING__"].map String.toList

/-- Operators of more than one character. -/
def operators : List Text :=
  ["**=", "<=>", "===", "...", "<<=", ">>=", "&&=", "||=", "==", "!=", ">=", "<=", "&&", "||", "<<",
   ">>", "**", "=~", "!~", "+=", "-=", "*=", "/=", "%=", "|=", "&=", "^=", "=>", "->", "..",
   "::"].map String.toList

/-- Operators that can name a method, as after `def` or a dot. -/
def operatorMethods : List Text :=
  ["[]=", "[]", "<=>", "===", "==", "=~", "!=", "!~", "**", "+@", "-@", "<<", ">>", "<=", ">=", "<",
   ">", "+", "-", "*", "/", "%", "~", "!", "&", "|", "^"].map String.toList

end ConverterAssembly.Ruby
