import ConverterAssembly.Ruby.Block
import ConverterAssembly.Ruby.Lexer

/-!
# The nesting check

A source is accepted if its literals end, its brackets pair up, every block is closed by an `end`,
and every section keyword stands in a block that can have it.  The check runs the roles of the
tokens over a stack of open frames, innermost first, and stops at the first that does not fit.
-/

namespace ConverterAssembly.Ruby

/-- The open frames once a token with this role has been read. -/
def Role.apply (role : Role) (frames : List Frame) : Except Problem (List Frame) :=
  match role, frames with
  | opens frame, frames => .ok (frame :: frames)
  | closesBracket bracket, .bracket opened :: frames =>
    if opened = bracket then .ok frames else .error (.unexpected [bracket.closer])
  | closesBracket bracket, _ => .error (.unexpected [bracket.closer])
  | closesBlock, .block _ :: frames => .ok frames
  | closesBlock, _ => .error (.unexpected "end".toList)
  | continues part, frame :: frames =>
    if frame.accepts part then .ok (frame :: frames) else .error (.unexpected part.spelling)
  | continues part, [] => .error (.unexpected part.spelling)
  | neutral, frames => .ok frames

/-- What would close a frame. -/
def Frame.closing : Frame → Text
  | block _ => "end".toList
  | bracket b => [b.closer]

/-- Runs tokens over the open frames; `line` is the line of the token before. -/
def checkFrom (frames : List Frame) (line : Nat) : List (Token × Role) → Except SyntaxError Unit
  | [] =>
    match frames with
    | [] => .ok ()
    | frame :: _ => .error ⟨line, .unfinished frame.closing⟩
  | (token, role) :: rest =>
    match role.apply frames with
    | .ok frames => checkFrom frames token.line rest
    | .error problem => .error ⟨token.line, problem⟩

/-- Checks the nesting of a source without running it. -/
def checkSyntax (source : Text) : Except SyntaxError Unit :=
  match (tokenize source).error with
  | some error => .error error
  | none => checkFrom [] 1 (withRoles (tokenize source).tokens)

/-- Whether the nesting check finds no problem. -/
def isValid (source : Text) : Bool :=
  (checkSyntax source).isOk

end ConverterAssembly.Ruby
