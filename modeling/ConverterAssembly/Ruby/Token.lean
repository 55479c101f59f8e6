import ConverterAssembly.Text.Basic

/-!
# Tokens of Ruby source

Only as much of Ruby is told apart as layout and the nesting check need: bodies of literals,
heredocs, comments and embedded documents are single opaque tokens, and keywords are kept apart from
method names and labels.  Everything else is punctuation or a word.

A `Lexeme` is what a token means (its kind and text); a `Token` is a lexeme with its place in the
source.
-/

namespace ConverterAssembly.Ruby

/-- The three bracket pairs. -/
inductive Bracket where
  | paren
  | square
  | brace
deriving DecidableEq, Repr

/-- The character that closes a bracket. -/
def Bracket.closer : Bracket → Char
  | paren => ')'
  | square => ']'
  | brace => '\x7d'

/-- What sort of thing a token is. -/
inductive Kind where
  /-- Horizontal blanks, or a backslash with the line feed it hides. -/
  | space
  /-- A line feed, with the bodies of the heredocs opened on its line. -/
  | newline
  | semicolon
  | comment
  /-- An embedded document from `=begin` to `=end`, without the last line feed. -/
  | document
  /-- The line `__END__` and all that follows it. -/
  | data
  | keyword
  /-- Identifiers, constants, variables, method names and labels. -/
  | ident
  /-- Numbers, strings, symbols, regular expressions, percent literals and heredoc openers. -/
  | literal
  | operator
  | comma
  | opener (bracket : Bracket)
  | closer (bracket : Bracket)
deriving DecidableEq, Repr

/-- The kind and the text of a token. -/
structure Lexeme where
  kind : Kind
  text : Text
deriving DecidableEq, Repr

/-- A lexeme with its place: the byte offset of its first character and the line, counted from 1,
that it starts on. -/
structure Token extends Lexeme where
  start : Nat
  line : Nat
deriving DecidableEq, Repr

namespace Lexeme

/-- Blanks, comments and embedded documents never change what the next token means. -/
def isTrivia (l : Lexeme) : Bool :=
  l.kind = .space || l.kind = .comment || l.kind = .document

/-- Whether this is the operator spelled `spelling`. -/
def isOperator (l : Lexeme) (spelling : Text) : Bool :=
  l.kind = .operator && l.text = spelling

/-- Whether this is the keyword spelled `spelling`. -/
def isKeyword (l : Lexeme) (spelling : Text) : Bool :=
  l.kind = .keyword && l.text = spelling

end Lexeme

/-- The byte offset just after a token. -/
def Token.stop (t : Token) : Nat :=
  t.start + Text.utf8Size t.text

/-- The source text that a list of tokens covers. -/
def sourceOf (tokens : List Token) : Text :=
  tokens.flatMap (·.text)

end ConverterAssembly.Ruby
