import ConverterAssembly.Text.Lines
import ConverterAssembly.Yaml.Node

/-!
# Lines of YAML documents

Indentation, comments, and the folding of scalars that run over several lines: a single line break
between two pieces becomes a space, and each empty line between them a line feed.
-/

namespace ConverterAssembly.Yaml

/-- Space or tab. -/
def isBlank (c : Char) : Bool :=
  c = ' ' || c = '\t'

/-- A blank, a line feed, or the end of the text. -/
def isGap (next : Option Char) : Bool :=
  next.all fun c => isBlank c || c = '\n'

/-- The text without the blanks it begins with. -/
def dropBlanks (text : Text) : Text :=
  text.dropWhile isBlank

/-- The text without the blanks it ends with. -/
def dropEndBlanks (text : Text) : Text :=
  (text.reverse.dropWhile isBlank).reverse

/-- Number of spaces that a line begins with. -/
def indentOf (line : Text) : Nat :=
  (line.takeWhile (· = ' ')).length

/-- Whether nothing but blanks and a comment is left on the line. -/
def atLineEnd (text : Text) : Bool :=
  match dropBlanks text with
  | [] => true
  | c :: _ => c = '\n' || (c = '#' && text.head? ≠ some '#')

/-- Whether a whole line holds nothing but blanks and a comment. -/
def isEmptyLine (line : Text) : Bool :=
  match dropBlanks line with
  | [] => true
  | c :: _ => c = '\n' || c = '#'

/-- Whether a whole line holds nothing but blanks. -/
def isBlankLine (line : Text) : Bool :=
  line.all fun c => isBlank c || c = '\n'

/-- Lines from the first that holds content. -/
def skipEmptyLines (lines : List Text) : List Text :=
  lines.dropWhile isEmptyLine

/-- The lines that follow the end of the current one. -/
def linesAfter (text : Text) : List Text :=
  (Text.lines text).tail

/-- Whether a line is a marker of three equal signs, such as `---`. -/
def isMarker (sign : Char) (line : Text) : Bool :=
  match Text.dropStart? [sign, sign, sign] line with
  | some rest => isGap rest.head?
  | none => false

/-- What stands between two pieces with so many empty lines between them. -/
def foldGap (emptyLines : Nat) : Text :=
  if emptyLines = 0 then [' '] else List.replicate emptyLines '\n'

/-- Folds further pieces; so many empty lines have come before them. -/
def foldRest (emptyLines : Nat) : List Text → Text
  | [] => []
  | [piece] => foldGap emptyLines ++ piece
  | piece :: pieces =>
    if piece.isEmpty then foldRest (emptyLines + 1) pieces
    else foldGap emptyLines ++ piece ++ foldRest 0 pieces

/-- The pieces of a scalar, one for each line, as one text. -/
def fold : List Text → Text
  | [] => []
  | piece :: pieces => piece ++ foldRest 0 pieces

end ConverterAssembly.Yaml
