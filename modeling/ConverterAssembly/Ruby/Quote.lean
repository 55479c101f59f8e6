import ConverterAssembly.Ruby.Extent

/-!
# Quoted literals

The body of a quoted literal runs to its closing delimiter.  A backslash hides the next character,
paired delimiters nest, and in a regular expression a character class hides the delimiter.  Where a
literal interpolates, `#` and an opening brace begin a piece of code that runs to its own closing
brace and may hold further literals.

So a place in a literal is a stack of enclosures, innermost first, and reading is one pass over the
characters: `Enclosure.step` says what one character does to the innermost enclosure, and
`readEnclosed` stops when no enclosure is left.
-/

namespace ConverterAssembly.Ruby

/-- The rules of a quoted literal. -/
structure Quote where
  opening : Char
  closing : Char
  /-- Whether `#` and an opening brace begin a piece of code. -/
  interpolates : Bool
  /-- Whether square brackets enclose a character class, which hides the closing delimiter. -/
  hasClasses : Bool
deriving DecidableEq, Repr

/-- A literal that begins and ends with the same character. -/
def Quote.between (delimiter : Char) (interpolates : Bool) : Quote :=
  ⟨delimiter, delimiter, interpolates, false⟩

/-- A place inside a literal, with the line on which it began. -/
inductive Enclosure where
  /-- Inside a quoted body: `depth` nested delimiter pairs are open. -/
  | quote (rules : Quote) (depth : Nat) (inClass : Bool) (line : Nat)
  /-- Inside interpolated code: `depth` braces are open beside its own. -/
  | code (depth : Nat) (line : Nat)
deriving DecidableEq, Repr

/-- The line on which the enclosure began. -/
def Enclosure.startLine : Enclosure → Nat
  | quote _ _ _ line => line
  | code _ line => line

/-- What one character does. -/
structure Enclosure.Step where
  /-- What takes the place of the innermost enclosure. -/
  enclosures : List Enclosure
  /-- The line after the character. -/
  line : Nat
  /-- Whether the next character is passed over. -/
  skips : Bool
deriving DecidableEq, Repr

/-- Reads the character `c`, with `next` after it, inside the innermost enclosure. -/
def Enclosure.step (line : Nat) (c : Char) (next : Option Char) : Enclosure → Enclosure.Step
  | quote rules depth inClass start =>
    if c = '\\' then
      ⟨[quote rules depth inClass start], if next = some '\n' then line + 1 else line, true⟩
    else if c = '\n' then
      ⟨[quote rules depth inClass start], line + 1, false⟩
    else if rules.interpolates ∧ c = '#' ∧ next = some '\x7b' then
      ⟨[code 0 line, quote rules depth inClass start], line, true⟩
    else if inClass then
      ⟨[quote rules depth (c ≠ ']') start], line, false⟩
    else if rules.hasClasses ∧ c = '[' then
      ⟨[quote rules depth true start], line, false⟩
    else if c = rules.closing then
      match depth with
      | 0 => ⟨[], line, false⟩
      | depth + 1 => ⟨[quote rules depth false start], line, false⟩
    else if c = rules.opening then
      ⟨[quote rules (depth + 1) false start], line, false⟩
    else
      ⟨[quote rules depth false start], line, false⟩
  | code depth start =>
    if c = '\x7b' then
      ⟨[code (depth + 1) start], line, false⟩
    else if c = '\x7d' then
      match depth with
      | 0 => ⟨[], line, false⟩
      | depth + 1 => ⟨[code depth start], line, false⟩
    else if c = '\n' then
      ⟨[code depth start], line + 1, false⟩
    else if c = '\\' then
      ⟨[code depth start], line, true⟩
    else if c = '"' ∨ c = '\x60' then
      ⟨[quote (.between c true) 0 false line, code depth start], line, false⟩
    else if c = '\x27' then
      ⟨[quote (.between c false) 0 false line, code depth start], line, false⟩
    else
      ⟨[code depth start], line, false⟩

/-- Reads to the end of the outermost enclosure.  At the end of the text the
innermost one is reported. -/
def readEnclosed : (skip : Bool) → (line : Nat) → List Enclosure → Text → Extent
  | _, line, [], _ => ⟨0, line, none⟩
  | _, line, e :: _, [] => ⟨0, line, some ⟨e.startLine, .unterminatedString⟩⟩
  | true, line, e :: es, _ :: cs => (readEnclosed false line (e :: es) cs).extend 1
  | false, line, e :: es, c :: cs =>
    let s := e.step line c cs.head?
    (readEnclosed s.skips s.line (s.enclosures ++ es) cs).extend 1

/-- Reads the body of a literal and its closing delimiter, from just after the opening one. -/
def Quote.read (rules : Quote) (line : Nat) (text : Text) : Extent :=
  readEnclosed false line [.quote rules 0 false line] text

end ConverterAssembly.Ruby
