import ConverterAssembly.Ruby.Heredoc
import ConverterAssembly.Ruby.Spelling

/-!
# What has been read so far

The same characters can mean different things in Ruby: a slash divides or begins a regular
expression, `<<` shifts or opens a heredoc.  `Context` holds all that the reading of the next token
depends on, and nothing else; `Context.after` is the context once a token has been read.
-/

namespace ConverterAssembly.Ruby

/-- What the reading of the next token depends on. -/
structure Context where
  /-- No character or a line feed stands before the next token. -/
  atLineStart : Bool := true
  /-- The token before is a blank. -/
  spaced : Bool := false
  /-- The next word names a method, as after `def` or a dot. -/
  naming : Bool := false
  /-- The last token that is not trivia. -/
  last : Option Lexeme := none
  /-- Whether `last` comes directly after a dot, trivia apart. -/
  afterDot : Bool := false
  /-- Names assigned so far. -/
  locals : List Text := []
  /-- Heredocs whose bodies begin after the next line feed, in order. -/
  heredocs : List Heredoc := []
deriving DecidableEq, Repr

/-- One token as read from the text: its kind, what it takes beyond its first character, and what it
leaves for the tokens after it. -/
structure Scan where
  kind : Kind
  /-- What belongs to the token after its first character. -/
  extent : Extent
  /-- Whether the next word names a method. -/
  naming : Bool
  /-- Heredocs still to come. -/
  heredocs : List Heredoc
deriving DecidableEq, Repr

namespace Context

/-- A token of `size` further characters that leaves nothing behind. -/
def plain (ctx : Context) (line : Nat) (kind : Kind) (size : Nat) : Scan :=
  ⟨kind, ⟨size, line, none⟩, false, ctx.heredocs⟩

/-- A literal token of the given extent. -/
def literal (ctx : Context) (extent : Extent) : Scan :=
  ⟨.literal, extent, false, ctx.heredocs⟩

/-- Whether an operand is expected, rather than a binary operator. -/
def expectsOperand (ctx : Context) : Bool :=
  match ctx.last with
  | none => true
  | some l =>
    match l.kind with
    | .newline | .semicolon | .comma | .operator | .opener _ => true
    | .keyword => !valueKeywords.contains l.text
    | _ => false

/-- Whether a character with `next` after it begins a command argument, as in `puts /x/`: a blank
stands after a word that is not a local variable, and none after the character. -/
def beginsArgument (ctx : Context) (next : Option Char) : Bool :=
  ctx.spaced
    && (match ctx.last with
        | some l => l.kind = .ident && !ctx.locals.contains l.text
        | none => false)
    && (match next with
        | some c => !isAsciiBlank c && c ≠ '='
        | none => false)

/-- Whether a literal may begin with a character that has `next` after it. -/
def admitsLiteral (ctx : Context) (next : Option Char) : Bool :=
  ctx.expectsOperand || ctx.beginsArgument next

/-- The names assigned once a token has been read: `x =` makes `x` a local variable. -/
def localsAfter (ctx : Context) (token : Lexeme) : List Text :=
  match ctx.last with
  | some target =>
    if token.isOperator ['='] && target.kind = .ident && !ctx.afterDot then
      target.text :: ctx.locals
    else
      ctx.locals
  | none => ctx.locals

/-- The context once a token has been read. -/
def after (ctx : Context) (scan : Scan) (text : Text) : Context :=
  let token : Lexeme := ⟨scan.kind, text⟩
  { atLineStart := text.getLast? = some '\n'
    spaced := scan.kind = .space
    naming := scan.naming || (ctx.naming && (scan.kind = .space || scan.kind = .comment))
    last := if token.isTrivia then ctx.last else some token
    afterDot :=
      if token.isTrivia then ctx.afterDot
      else ctx.last.any fun l => l.text = ['.'] || l.text = ['&', '.']
    locals := ctx.localsAfter token
    heredocs := scan.heredocs }

end Context

end ConverterAssembly.Ruby
