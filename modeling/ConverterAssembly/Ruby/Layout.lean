import ConverterAssembly.Ruby.Block
import ConverterAssembly.Ruby.Lexer

/-!
# Layout

A source is laid out again one logical line at a time.  A logical line runs to a line feed token, or
to a semicolon where statements are to be broken; heredoc bodies belong to the line feed token, so
they are copied unchanged.

* **Lines** — `splitLines` cuts the tokens, and `Line.level` finds the depth at which a line is
  written: the number of frames open at its start, less those that its leading closers and sections
  step out of.
* **Writing** — `writeLines` writes each line at its level without its own leading blanks.  Empty
  statements after a semicolon fold into the line break that ends them.
-/

namespace ConverterAssembly.Ruby

/-- How a source is laid out. -/
structure Layout where
  /-- The character that indentation is made of. -/
  indentChar : Char := ' '
  /-- How many of them make one level. -/
  indentCount : Nat := 2
  /-- Whether a semicolon ends a line, so that the next statement is indented on its own. -/
  breaksStatements : Bool := false
deriving DecidableEq, Repr

/-- One level of indentation. -/
def Layout.unit (layout : Layout) : Text :=
  List.replicate layout.indentCount layout.indentChar

/-! ## Lines -/

/-- A logical line: its tokens and the line feed or semicolon that ends it. -/
structure Line where
  tokens : List (Token × Role)
  terminator : Option Token
deriving DecidableEq, Repr

/-- Whether a token ends a logical line. -/
def Layout.breaksAt (layout : Layout) (token : Token) : Bool :=
  token.kind = .newline || (layout.breaksStatements && token.kind = .semicolon)

/-- The logical lines of a list of tokens.  Only the last may lack a
terminator, and then it is not empty. -/
def Layout.splitLines (layout : Layout) : List (Token × Role) → List Line
  | [] => []
  | (token, role) :: rest =>
    if layout.breaksAt token then
      ⟨[], some token⟩ :: splitLines layout rest
    else
      match splitLines layout rest with
      | [] => [⟨[(token, role)], none⟩]
      | line :: lines => { line with tokens := (token, role) :: line.tokens } :: lines

/-- All tokens of a line, with its terminator. -/
def Line.allTokens (line : Line) : List Token :=
  line.tokens.map (·.1) ++ line.terminator.toList

/-- The number of open frames after a token with this role. -/
def Role.heightAfter (role : Role) (height : Nat) : Nat :=
  match role with
  | opens _ => height + 1
  | closesBracket _ | closesBlock => height - 1
  | continues _ | neutral => height

/-- The number of open frames after a list of tokens. -/
def heightAfter (height : Nat) (tokens : List (Token × Role)) : Nat :=
  tokens.foldl (fun h t => t.2.heightAfter h) height

/-- The level of a line that starts inside `height` frames, from its leading tokens: each closer
steps out of the frame that it closes, and a section stands at the level of its block. -/
def levelFrom (level height : Nat) : List (Token × Role) → Nat
  | [] => level
  | (token, role) :: rest =>
    if token.isTrivia then levelFrom level height rest
    else
      match role with
      | .closesBracket _ | .closesBlock => levelFrom (height - 1) (height - 1) rest
      | .continues _ => levelFrom (height - 1) height rest
      | .opens _ | .neutral => level

/-- The level of a line that starts inside `height` frames. -/
def Line.level (line : Line) (height : Nat) : Nat :=
  levelFrom height height line.tokens

/-- The tokens of a line from the first that is not a blank. -/
def Line.visible (line : Line) : List (Token × Role) :=
  line.tokens.dropWhile (·.1.kind = .space)

/-- The text of a line without its leading blanks. -/
def Line.body (line : Line) : Text :=
  line.visible.flatMap (·.1.text)

/-- Whether a line holds nothing but blanks. -/
def Line.isBlank (line : Line) : Bool :=
  line.visible.isEmpty

/-- Whether a line must start in the first column: it begins with an embedded
document or the data section. -/
def Line.isUnindented (line : Line) : Bool :=
  line.visible.head?.any fun t => t.1.kind = .document || t.1.kind = .data

/-- The indentation of a line that starts inside `height` frames. -/
def Layout.indentation (layout : Layout) (line : Line) (height : Nat) : Text :=
  if line.isUnindented then [] else Text.times (line.level height) layout.unit

/-! ## Writing -/

/-- Writes lines from where `height` frames are open.  `pending` tells that a semicolon is still to
be written; blank lines swallow it. -/
def Layout.writeLines (layout : Layout) : (pending : Bool) → (height : Nat) → List Line → Text
  | pending, _, [] => if pending then [';'] else []
  | pending, height, line :: rest =>
    let after := heightAfter height line.tokens
    if line.isBlank then
      match line.terminator with
      | none => writeLines layout false after rest
      | some token =>
        if token.kind = .semicolon then writeLines layout pending after rest
        else token.text ++ writeLines layout false after rest
    else
      (if pending then [';'] else []) ++ layout.indentation line height ++
        match line.terminator with
        | none => line.body ++ writeLines layout false after rest
        | some token =>
          if token.kind = .semicolon then
            Text.trimEnd line.body ++ writeLines layout true after rest
          else
            line.body ++ token.text ++ writeLines layout false after rest

/-- Lays a source out again by its nesting.  Literals, heredoc bodies, embedded documents and the
data section are copied; only the blanks at the start of each line and the separators between
statements change. -/
def Layout.format (layout : Layout) (source : Text) : Text :=
  layout.writeLines false 0 (layout.splitLines (withRoles (tokenize source).tokens))

end ConverterAssembly.Ruby
