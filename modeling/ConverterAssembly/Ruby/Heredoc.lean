import ConverterAssembly.Ruby.Extent
import ConverterAssembly.Text.Blank
import ConverterAssembly.Text.Lines

/-!
# Heredocs and embedded documents

Both are read line by line.  The bodies of the heredocs opened on a line follow its line feed, in
the order of their openers, each up to and including its terminator line.  An embedded document
begins with a `=begin` line and ends with the next line that begins with `=end`.
-/

namespace ConverterAssembly.Ruby

/-- A heredoc whose body is still to come. -/
structure Heredoc where
  /-- The line that ends the body. -/
  terminator : Text
  /-- Whether blanks may stand before the terminator. -/
  indented : Bool
deriving DecidableEq, Repr

/-- A line without its line feed. -/
def withoutLineFeed (line : Text) : Text :=
  (Text.dropEnd? ['\n'] line).getD line

/-- Whether a line ends the body.  Carriage returns at its end do not count. -/
def Heredoc.endsWith (h : Heredoc) (line : Text) : Bool :=
  let text := ((withoutLineFeed line).reverse.dropWhile (· = '\r')).reverse
  (if h.indented then Text.trimStart text else text) = h.terminator

/-- Reads the bodies of pending heredocs from the lines that follow; `start` is the line on which
the body of the first one began. -/
def readBodies : (line start : Nat) → List Heredoc → List Text → Extent
  | line, _, [], _ => ⟨0, line, none⟩
  | line, start, h :: _, [] => ⟨0, line, some ⟨start, .unterminatedHeredoc h.terminator⟩⟩
  | line, start, h :: hs, l :: ls =>
    let after := line + l.count '\n'
    if h.endsWith l then
      (readBodies after after hs ls).extend l.length
    else
      (readBodies after start (h :: hs) ls).extend l.length

/-- Whether a text begins with `directive` and a blank or nothing follows. -/
def isDirective (directive text : Text) : Bool :=
  match Text.dropStart? directive text with
  | some rest => rest.head?.all isAsciiBlank
  | none => false

/-- Whether a line ends an embedded document. -/
def endsDocument (line : Text) : Bool :=
  match Text.dropStart? "=end".toList line with
  | some rest => rest.head?.all isBlank
  | none => false

/-- Reads an embedded document that began on line `start` from the lines after its first.  The line
feed of its last line is left. -/
def readDocument : (line start : Nat) → List Text → Extent
  | line, start, [] => ⟨0, line, some ⟨start, .unterminatedDocument⟩⟩
  | line, start, l :: ls =>
    if endsDocument (withoutLineFeed l) then
      ⟨(withoutLineFeed l).length, line, none⟩
    else
      (readDocument (line + l.count '\n') start ls).extend l.length

end ConverterAssembly.Ruby
