import ConverterAssembly.Ruby.Spelling
import ConverterAssembly.Ruby.Problem

/-!
# Blocks and the roles of tokens

A block is opened by a keyword and closed by `end`; a bracket is closed by its own closing bracket.
Some keywords continue the block they stand in with a new section.

`roles` tells what each token of a source does to the nesting.  A token's role follows from the
lexemes alone: the token, the last token before it that is not trivia, whether a loop header is
open, and, for `def`, what follows.  It never depends on which blocks are open.
-/

namespace ConverterAssembly.Ruby

/-- The blocks that `end` closes, by the keyword that opens them. -/
inductive Block where
  | classBody
  | moduleBody
  | method
  | beginBody
  | doBody
  | caseOf
  | ifThen
  | unlessThen
  | whileLoop
  | untilLoop
  | forLoop
deriving DecidableEq, Repr

/-- Something open: a block or a bracket. -/
inductive Frame where
  | block (block : Block)
  | bracket (bracket : Bracket)
deriving DecidableEq, Repr

/-- The keywords that begin a new section of the block they stand in. -/
inductive Section where
  | elseIf
  | otherwise
  | whenCase
  | inCase
  | rescueError
  | ensureDone
deriving DecidableEq, Repr

/-- The keyword of a section. -/
def Section.spelling : Section → Text
  | elseIf => "elsif".toList
  | otherwise => "else".toList
  | whenCase => "when".toList
  | inCase => "in".toList
  | rescueError => "rescue".toList
  | ensureDone => "ensure".toList

/-- Whether a frame can have such a section. -/
def Frame.accepts : Frame → Section → Bool
  | block .ifThen, .elseIf => true
  | block b, .otherwise =>
    b = .ifThen || b = .unlessThen || b = .caseOf || b = .beginBody || b = .method || b = .doBody
  | block .caseOf, .whenCase => true
  | block .caseOf, .inCase => true
  | block b, .rescueError | block b, .ensureDone =>
    b = .beginBody || b = .method || b = .doBody || b = .classBody || b = .moduleBody
  | _, _ => false

/-- What a token does to the nesting. -/
inductive Role where
  | opens (frame : Frame)
  | closesBracket (bracket : Bracket)
  | closesBlock
  | continues (part : Section)
  | neutral
deriving DecidableEq, Repr

/-! ## Definitions without an end -/

/-- What follows the name of a method, blanks apart; a receiver with its dot may stand before the
name.  `named` tells that a name has just been read. -/
def afterMethodName (named : Bool) : List Lexeme → Option (List Lexeme)
  | [] => none
  | l :: ls =>
    if l.kind = .space then afterMethodName named ls
    else if !named then afterMethodName true ls
    else if l.isOperator ['.'] then afterMethodName false ls
    else some (l :: ls)

/-- What follows the bracket that closes the last of `depth` open ones. -/
def afterBrackets : (depth : Nat) → List Lexeme → Option (List Lexeme)
  | _, [] => none
  | depth, l :: ls =>
    match l.kind with
    | .opener _ => afterBrackets (depth + 1) ls
    | .closer _ => if depth ≤ 1 then some ls else afterBrackets (depth - 1) ls
    | _ => afterBrackets depth ls

/-- Whether the definition that goes on with `following` is of the form `def name(args) = value`,
which has no `end`. -/
def isEndless (following : List Lexeme) : Bool :=
  match afterMethodName false following with
  | none => false
  | some rest =>
    let value :=
      if rest.head?.any (·.kind = .opener .paren) then afterBrackets 0 rest else some rest
    value.any fun v => (v.dropWhile (·.kind = .space)).head?.any (·.isOperator ['='])

/-! ## Roles -/

/-- Keywords after which `if`, `while` and the like begin an expression instead of qualifying the
statement before. -/
def expressionKeywords : List Text :=
  ["and", "or", "not", "then", "do", "else", "elsif", "begin", "ensure", "when", "in", "if",
   "unless", "while", "until", "case"].map String.toList

/-- Whether a statement begins after the token `prev`. -/
def beginsStatement (prev : Option Lexeme) : Bool :=
  prev.all fun l => l.kind = .newline || l.kind = .semicolon

/-- Whether an expression begins after the token `prev`. -/
def beginsExpression (prev : Option Lexeme) : Bool :=
  match prev with
  | none => true
  | some l =>
    match l.kind with
    | .newline | .semicolon | .comma | .operator | .opener _ => true
    | .keyword => expressionKeywords.contains l.text
    | _ => false

/-- The block that a keyword opens wherever it stands. -/
def alwaysOpens? (word : Text) : Option Block :=
  if word = "class".toList then some .classBody
  else if word = "module".toList then some .moduleBody
  else if word = "begin".toList then some .beginBody
  else if word = "case".toList then some .caseOf
  else if word = "for".toList then some .forLoop
  else none

/-- The block that a keyword opens where an expression begins. -/
def leadingOpens? (word : Text) : Option Block :=
  if word = "if".toList then some .ifThen
  else if word = "unless".toList then some .unlessThen
  else if word = "while".toList then some .whileLoop
  else if word = "until".toList then some .untilLoop
  else none

/-- The section that a keyword begins wherever it stands. -/
def alwaysContinues? (word : Text) : Option Section :=
  if word = "else".toList then some .otherwise
  else if word = "elsif".toList then some .elseIf
  else if word = "when".toList then some .whenCase
  else if word = "ensure".toList then some .ensureDone
  else none

/-- The section that a keyword begins at the start of a statement. -/
def leadingContinues? (word : Text) : Option Section :=
  if word = "rescue".toList then some .rescueError
  else if word = "in".toList then some .inCase
  else none

/-- The role of a keyword after the token `prev`; `inHeader` tells whether a loop header is open, so
that a `do` belongs to it. -/
def keywordRole (prev : Option Lexeme) (inHeader : Bool) (word : Text) (following : List Lexeme) :
    Role :=
  if let some block := alwaysOpens? word then .opens (.block block)
  else if word = "def".toList then
    if isEndless following then .neutral else .opens (.block .method)
  else if word = "do".toList then
    if inHeader then .neutral else .opens (.block .doBody)
  else if word = "end".toList then .closesBlock
  else if let some part := alwaysContinues? word then .continues part
  else if let some block := leadingOpens? word then
    if beginsExpression prev then .opens (.block block) else .neutral
  else if let some part := leadingContinues? word then
    if beginsStatement prev then .continues part else .neutral
  else .neutral

/-- The role of a token. -/
def roleOf (prev : Option Lexeme) (inHeader : Bool) (l : Lexeme) (following : List Lexeme) : Role :=
  match l.kind with
  | .opener bracket => .opens (.bracket bracket)
  | .closer bracket => .closesBracket bracket
  | .keyword => keywordRole prev inHeader l.text following
  | _ => .neutral

/-- Whether a loop header is open after a token: `while`, `until` and `for` open one, and its `do`
or the end of the statement closes it. -/
def headerAfter (prev : Option Lexeme) (inHeader : Bool) (l : Lexeme) : Bool :=
  match l.kind with
  | .newline | .semicolon => false
  | .keyword =>
    if l.text = "for".toList then true
    else if l.text = "do".toList then false
    else
      match leadingOpens? l.text with
      | some block =>
        if beginsExpression prev then block = .whileLoop || block = .untilLoop else inHeader
      | none => inHeader
  | _ => inHeader

/-- The roles of tokens in order, after the token `prev`. -/
def rolesFrom (prev : Option Lexeme) (inHeader : Bool) : List Lexeme → List Role
  | [] => []
  | l :: ls =>
    roleOf prev inHeader l ls ::
      rolesFrom (if l.isTrivia then prev else some l) (headerAfter prev inHeader l) ls

@[simp]
theorem length_rolesFrom (prev : Option Lexeme) (inHeader : Bool) (lexemes : List Lexeme) :
    (rolesFrom prev inHeader lexemes).length = lexemes.length := by
  induction lexemes generalizing prev inHeader with
  | nil => rfl
  | cons l ls ih => simp [rolesFrom, ih]

/-- The roles of the tokens of a source, in order. -/
def roles (lexemes : List Lexeme) : List Role :=
  rolesFrom none false lexemes

/-- The tokens of a source with their roles. -/
def withRoles (tokens : List Token) : List (Token × Role) :=
  tokens.zip (roles (tokens.map (·.toLexeme)))

/-- Every token has a role. -/
@[simp]
theorem map_fst_withRoles (tokens : List Token) : (withRoles tokens).map (·.1) = tokens := by
  rw [withRoles]
  exact List.map_fst_zip (by simp [roles])

end ConverterAssembly.Ruby
