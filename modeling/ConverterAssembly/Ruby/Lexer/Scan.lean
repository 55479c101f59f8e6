import ConverterAssembly.Ruby.Lexer.Context
import ConverterAssembly.Ruby.Quote

/-!
# One token

`Context.scan` reads one token from the text at its first character.  Every function here answers
with the number of further characters that belong to the token, so that no text is lost or read
twice however the answer comes out.

* **Sizes** — names, numbers and variables, by their characters alone.
* **Words and signs** — tokens whose kind depends on the context: words, colons, question marks,
  percent literals and heredoc openers.
* **Choice** — `Context.scan` picks the rule by the first character.
-/

namespace ConverterAssembly.Ruby

/-! ## Sizes -/

/-- Number of characters that go on with a name. -/
def nameSize (text : Text) : Nat :=
  (text.takeWhile isNameChar).length

/-- Number of characters that go on with a number: name characters, and points
with a digit after them. -/
def numberSize : Text → Nat
  | [] => 0
  | c :: cs =>
    if isNameChar c || (c = '.' && cs.head?.any isDigit) then numberSize cs + 1 else 0

/-- What follows the `$` of a global variable.  Without a name it is an operator. -/
def globalSize : Text → Kind × Nat
  | [] => (.operator, 0)
  | c :: cs =>
    if isNameStart c then (.ident, nameSize cs + 1)
    else if isDigit c then (.ident, (cs.takeWhile isDigit).length + 1)
    else if c = '-' then
      match cs.head? with
      | some d => if isBlank d then (.operator, 1) else (.ident, 2)
      | none => (.operator, 1)
    else if isPunctuation c then (.ident, 1)
    else (.operator, 0)

/-- What follows the `@` of an instance or class variable.  Without a name it is an operator. -/
def memberSize (text : Text) : Kind × Nat :=
  let doubled := if text.head? = some '@' then 1 else 0
  match text.drop doubled with
  | c :: cs => if isNameStart c then (.ident, nameSize cs + 1 + doubled) else (.operator, doubled)
  | [] => (.operator, doubled)

/-- What follows the sigil of a variable. -/
def variableSize (sigil : Char) (text : Text) : Kind × Nat :=
  if sigil = '@' then memberSize text else globalSize text

/-- Whether the text goes on with a question or exclamation mark that belongs to the name before. -/
def endsInMark (text : Text) : Bool :=
  match text with
  | c :: cs => (c = '?' || c = '!') && cs.head? ≠ some '='
  | [] => false

/-- Number of characters that end the name of a symbol: a mark, or the `=` of a writer's name. -/
def symbolEndSize (text : Text) : Nat :=
  match text with
  | c :: cs =>
    if endsInMark text then 1
    else if c = '=' && cs.head? ≠ some '=' && cs.head? ≠ some '>' && cs.head? ≠ some '~' then 1
    else 0
  | [] => 0

/-- The character that closes a percent literal. -/
def closingDelimiter (opening : Char) : Char :=
  if opening = '(' then ')'
  else if opening = '[' then ']'
  else if opening = '\x7b' then '\x7d'
  else if opening = '<' then '>'
  else opening

/-- Whether a character can open a percent literal, with or without a letter before it. -/
def isDelimiter (typed : Bool) (c : Char) : Bool :=
  if typed then !isAsciiLetter c && !isDigit c && !isAsciiBlank c && !isWide c
  else isPunctuation c && c ≠ '='

/-- The heredoc that the text after `<<` opens, and the size of its opener there. -/
def heredocOpener (text : Text) : Option (Heredoc × Nat) :=
  let indented := text.head? = some '~' || text.head? = some '-'
  let dash := if indented then 1 else 0
  match text.drop dash with
  | [] => none
  | c :: cs =>
    if c = '\x27' || c = '"' || c = '\x60' then
      let terminator := cs.takeWhile fun d => d ≠ c && d ≠ '\n'
      if (cs.drop terminator.length).head? = some c then
        some (⟨terminator, indented⟩, terminator.length + 2 + dash)
      else
        none
    else if isNameStart c then
      some (⟨c :: cs.takeWhile isNameChar, indented⟩, nameSize cs + 1 + dash)
    else
      none

namespace Context

/-! ## Words and signs -/

/-- A word: a keyword, or a name with its mark or label colon. -/
def scanWord (ctx : Context) (line : Nat) (c : Char) (cs : Text) : Scan :=
  let size := nameSize cs
  let after := cs.drop size
  if endsInMark after then
    ctx.plain line .ident (size + 1)
  else if ctx.naming then
    ctx.plain line .ident (if Text.startsWith after ['=', '('] then size + 1 else size)
  else if after.head? = some ':' && (after.drop 1).head? ≠ some ':' then
    ctx.plain line .ident (size + 1)
  else if keywords.contains (c :: cs.take size) then
    { ctx.plain line .keyword size with naming := c :: cs.take size = "def".toList }
  else
    ctx.plain line .ident size

/-- A quoted literal whose opening delimiter comes after `lead` characters of `text`. -/
def scanQuoted (ctx : Context) (line : Nat) (rules : Quote) (lead : Nat) (text : Text) : Scan :=
  ctx.literal ((rules.read line (text.drop lead)).extend lead)

/-- A quoted literal that letters may follow as its flags. -/
def scanFlagged (ctx : Context) (line : Nat) (rules : Quote) (lead : Nat) (text : Text) : Scan :=
  let body := rules.read line (text.drop lead)
  let flags := ((text.drop lead).drop body.size).takeWhile isAsciiLetter
  ctx.literal { body with size := lead + body.size + flags.length }

/-- A colon: a scope operator, a symbol, or the operator of a conditional. -/
def scanColon (ctx : Context) (line : Nat) (cs : Text) : Scan :=
  match cs with
  | [] => ctx.plain line .operator 0
  | d :: ds =>
    if d = ':' then ctx.plain line .operator 1
    else if d = '"' then ctx.scanQuoted line (.between d true) 1 cs
    else if d = '\x27' then ctx.scanQuoted line (.between d false) 1 cs
    else if isNameStart d then
      let size := nameSize ds
      ctx.plain line .literal (size + 1 + symbolEndSize (ds.drop size))
    else if d = '@' || d = '$' then
      let (kind, size) := variableSize d ds
      ctx.plain line (if kind = .ident then .literal else .operator) (size + 1)
    else if ctx.expectsOperand then
      match Text.findStart? operatorMethods cs with
      | some name => ctx.plain line .literal name.length
      | none => ctx.plain line .operator 0
    else
      ctx.plain line .operator 0

/-- A question mark: a character literal where an operand is expected, else an operator. -/
def scanQuestion (ctx : Context) (line : Nat) (cs : Text) : Scan :=
  if ctx.expectsOperand then
    match cs with
    | [] => ctx.plain line .operator 0
    | d :: ds =>
      if d = '\\' then ctx.plain line .literal (if ds.isEmpty then 1 else 2)
      else if !isBlank d && !ds.head?.any isNameChar then ctx.plain line .literal 1
      else ctx.plain line .operator 0
  else
    ctx.plain line .operator 0

/-- The percent literal that goes on with `cs`, if there is one. -/
def scanPercent? (ctx : Context) (line : Nat) (cs : Text) : Option Scan :=
  let type := cs.head?.filter "qQwWiIrsx".toList.contains
  let lead := if type.isSome then 1 else 0
  match (cs.drop lead).head? with
  | none => none
  | some opening =>
    if ctx.admitsLiteral cs.head? && isDelimiter type.isSome opening then
      let interpolates := type.all "QWIrx".toList.contains
      let rules : Quote := ⟨opening, closingDelimiter opening, interpolates, false⟩
      if type = some 'r' then some (ctx.scanFlagged line rules (lead + 1) cs)
      else some (ctx.scanQuoted line rules (lead + 1) cs)
    else
      none

/-- The heredoc opener that goes on with `cs`, if there is one.  After `class`, `<<` opens a
singleton class instead. -/
def scanHeredoc? (ctx : Context) (line : Nat) (cs : Text) : Option Scan :=
  if cs.head? = some '<' && ctx.admitsLiteral cs.head?
      && !ctx.last.any (·.isKeyword "class".toList) then
    (heredocOpener (cs.drop 1)).map fun (heredoc, size) =>
      { ctx.plain line .literal (size + 1) with heredocs := ctx.heredocs ++ [heredoc] }
  else
    none

/-- A line feed with the heredoc bodies that follow it. -/
def scanNewline (ctx : Context) (line : Nat) (cs : Text) : Scan :=
  if ctx.heredocs.isEmpty then ctx.plain (line + 1) .newline 0
  else ⟨.newline, readBodies (line + 1) (line + 1) ctx.heredocs (Text.lines cs), false, []⟩

/-- An embedded document. -/
def scanDocument (ctx : Context) (line : Nat) (cs : Text) : Scan :=
  let first := (Text.lines cs).headD []
  let extent := readDocument (line + first.count '\n') line (Text.lines cs).tail
  ⟨.document, extent.extend first.length, false, ctx.heredocs⟩

/-- The data section: all the rest. -/
def scanData (ctx : Context) (line : Nat) (cs : Text) : Scan :=
  ⟨.data, ⟨cs.length, line + cs.count '\n', none⟩, false, ctx.heredocs⟩

/-- An operator: the longest spelling that fits, else the one character. -/
def scanOperator (ctx : Context) (line : Nat) (c : Char) (cs : Text) : Scan :=
  match Text.findStart? operators (c :: cs) with
  | some name => ctx.plain line .operator (name.length - 1)
  | none => ctx.plain line .operator 0

/-! ## Choice -/

/-- A bracket or comma, if the character is one. -/
def bracketKind? (c : Char) : Option Kind :=
  if c = '(' then some (.opener .paren)
  else if c = '[' then some (.opener .square)
  else if c = '\x7b' then some (.opener .brace)
  else if c = ')' then some (.closer .paren)
  else if c = ']' then some (.closer .square)
  else if c = '\x7d' then some (.closer .brace)
  else if c = ',' then some .comma
  else none

/-- A token that begins with punctuation. -/
def scanSign (ctx : Context) (line : Nat) (c : Char) (cs : Text) : Scan :=
  if c = ':' then ctx.scanColon line cs
  else if c = '?' then ctx.scanQuestion line cs
  else if c = '/' && ctx.admitsLiteral cs.head? then
    ctx.scanFlagged line ⟨'/', '/', true, true⟩ 0 cs
  else if c = '%' then (ctx.scanPercent? line cs).getD (ctx.scanOperator line c cs)
  else if c = '<' then (ctx.scanHeredoc? line cs).getD (ctx.scanOperator line c cs)
  else
    match bracketKind? c with
    | some kind => ctx.plain line kind 0
    | none =>
      if c = '.' && cs.head? ≠ some '.' then
        { ctx.plain line .operator 0 with naming := true }
      else if c = '&' && cs.head? = some '.' then
        { ctx.plain line .operator 1 with naming := true }
      else
        ctx.scanOperator line c cs

/-- A token whose kind does not depend on a method name being expected before it. -/
def scanPlain (ctx : Context) (line : Nat) (c : Char) (cs : Text) : Scan :=
  if c = '\n' then ctx.scanNewline line cs
  else if c = '\\' && cs.head? = some '\n' then ctx.plain (line + 1) .space 1
  else if isGap c then ctx.plain line .space (cs.takeWhile isGap).length
  else if c = ';' then ctx.plain line .semicolon 0
  else if c = '#' then ctx.plain line .comment (cs.takeWhile (· ≠ '\n')).length
  else if ctx.atLineStart && isDirective "=begin".toList (c :: cs) then ctx.scanDocument line cs
  else if ctx.atLineStart && isDirective "__END__".toList (c :: cs) then ctx.scanData line cs
  else if isDigit c then ctx.plain line .literal (numberSize cs)
  else if c = '"' || c = '\x60' then ctx.scanQuoted line (.between c true) 0 cs
  else if c = '\x27' then ctx.scanQuoted line (.between c false) 0 cs
  else if c = '@' || c = '$' then
    let (kind, size) := variableSize c cs
    ctx.plain line kind size
  else if isNameStart c then ctx.scanWord line c cs
  else ctx.scanSign line c cs

/-- Reads one token, whose first character is `c`.  Where a method name is
expected, an operator can be one. -/
def scan (ctx : Context) (line : Nat) (c : Char) (cs : Text) : Scan :=
  match if ctx.naming then Text.findStart? operatorMethods (c :: cs) else none with
  | some name => ctx.plain line .ident (name.length - 1)
  | none => ctx.scanPlain line c cs

end Context

end ConverterAssembly.Ruby
