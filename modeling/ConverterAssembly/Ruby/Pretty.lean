import ConverterAssembly.Ruby.Layout

/-!
# Fragments in readable form

Template engines write their code as long runs of statements between semicolons.  `prettyPrint` puts
each statement on its own line and indents by nesting.  The fragment is laid out inside a wrapper
module, with a placeholder for indentation, so that a semicolon before the placeholder is known to
separate two statements; wrapper and placeholder are removed afterwards.

Semicolons at the start or the end of a line are dropped first, without a look at what they stand
in.
-/

namespace ConverterAssembly.Ruby

/-- The character that stands for indentation while the wrapper is in place. -/
def placeholder : Char := '\x01'

/-- The line that opens the wrapper. -/
def wrapperOpening : Text := "module M_\n".toList

/-- The end of the wrapper. -/
def wrapperClosing : Text := "\nend\n".toList

/-- A line without the semicolon that it begins with, spaces and tabs apart. -/
def dropLeadingSemicolon (line : Text) : Text :=
  match line.dropWhile fun c => c = ' ' || c = '\t' with
  | c :: rest => if c = ';' then rest else line
  | [] => line

/-- The text with the leading semicolon of each line dropped. -/
def dropLeadingSemicolons (text : Text) : Text :=
  (Text.lines text).flatMap dropLeadingSemicolon

/-- How many characters after a semicolon fall away with it, if it ends a line: the blanks up to the
last line feed that only blanks separate from it, or all blanks at the end of the text. -/
def trailingBlanks? (text : Text) : Option Nat :=
  let blanks := text.takeWhile isBlank
  if (text.drop blanks.length).isEmpty then
    some blanks.length
  else if blanks.contains '\n' then
    some (blanks.length - 1 - (blanks.reverse.takeWhile (· ≠ '\n')).length)
  else
    none

/-- The text with every semicolon that ends a line dropped, and the blanks that fall away with it;
`skip` characters are still to be passed over. -/
def dropTrailingSemicolonsFrom : (skip : Nat) → Text → Text
  | _, [] => []
  | skip + 1, _ :: cs => dropTrailingSemicolonsFrom skip cs
  | 0, c :: cs =>
    if c = ';' then
      match trailingBlanks? cs with
      | some size => dropTrailingSemicolonsFrom size cs
      | none => c :: dropTrailingSemicolonsFrom 0 cs
    else
      c :: dropTrailingSemicolonsFrom 0 cs

/-- The text with every semicolon that ends a line dropped. -/
def dropTrailingSemicolons (text : Text) : Text :=
  dropTrailingSemicolonsFrom 0 text

/-- The fragment in its wrapper, without semicolons at the ends of lines. -/
def wrapFragment (code : Text) : Text :=
  dropTrailingSemicolons (dropLeadingSemicolons (wrapperOpening ++ code ++ wrapperClosing))

/-- The layout of a wrapped fragment. -/
def wrappedLayout (indentCount : Nat) : Layout :=
  ⟨placeholder, indentCount, true⟩

/-- A laid-out fragment without its wrapper and its placeholders: a semicolon before a placeholder
becomes a line break, and each line loses the level that the wrapper added. -/
def unwrapFragment (indentCount : Nat) (laidOut : Text) : Text :=
  let unit := List.replicate indentCount placeholder
  let broken := Text.replace [';', placeholder] ['\n', placeholder] laidOut
  let shifted := (Text.lines broken).flatMap fun line => (Text.dropStart? unit line).getD line
  let text := shifted.map fun c => if c = placeholder then ' ' else c
  let body := (Text.dropStart? wrapperOpening text).getD text
  (Text.dropEnd? wrapperClosing body).getD body

/-- A fragment with one statement a line, indented by `indentCount` spaces a level. -/
def prettyPrint (code : Text) (indentCount : Nat) : Text :=
  unwrapFragment indentCount ((wrappedLayout indentCount).format (wrapFragment code))

end ConverterAssembly.Ruby
