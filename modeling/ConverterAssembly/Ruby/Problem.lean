import ConverterAssembly.Ruby.Token

/-!
# Problems of Ruby source

What can be wrong with the outer form of a source, and the wording of each.  A `SyntaxError` names
the line it was noticed on.
-/

namespace ConverterAssembly.Ruby

/-- A cause for rejecting a source. -/
inductive Problem where
  /-- A quoted literal or an interpolation never ends. -/
  | unterminatedString
  /-- The line that ends a heredoc is missing. -/
  | unterminatedHeredoc (terminator : Text)
  /-- An embedded document has no `=end` line. -/
  | unterminatedDocument
  /-- A word or bracket that closes or continues nothing that is open. -/
  | unexpected (text : Text)
  /-- The source ends inside a block or bracket that `missing` would close. -/
  | unfinished (missing : Text)
deriving DecidableEq, Repr

/-- The wording of a problem. -/
def Problem.message : Problem → Text
  | unterminatedString => "unterminated string meets end of file".toList
  | unterminatedHeredoc terminator =>
    "can't find string \"".toList ++ terminator ++ "\" anywhere before EOF".toList
  | unterminatedDocument => "embedded document meets end of file".toList
  | unexpected text => "unexpected '".toList ++ text ++ "'".toList
  | unfinished missing => "unexpected end-of-input, expecting '".toList ++ missing ++ "'".toList

/-- A problem and the line, counted from 1, where it was noticed. -/
structure SyntaxError where
  line : Nat
  problem : Problem
deriving DecidableEq, Repr

/-- The line followed by the wording of the problem. -/
def SyntaxError.message (e : SyntaxError) : Text :=
  "line ".toList ++ decimal e.line ++ ": ".toList ++ e.problem.message

end ConverterAssembly.Ruby
