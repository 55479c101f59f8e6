import ConverterAssembly.Yaml.Flow

/-!
# Block nodes of YAML documents

Lists and maps by indentation.  A reader gets the rest of the current line as `content`, which
begins at `column`, and the lines after it; `least` is the indentation that a line needs to go on
with a scalar.

* **Scalars** — plain scalars over several lines, and blocks of lines after `|`.
* **Collections** — items after a dash, and entries after a name with a colon, all at one column.

The number of characters bounds the recursion of the readers.
-/

namespace ConverterAssembly.Yaml

/-! ## Scalars -/

/-- Reads the pieces of a plain scalar on the lines that go on with it; a colon there makes the
document malformed. -/
def readContinuation (least : Nat) : List Text → Option (List Text × List Text)
  | [] => some ([], [])
  | line :: lines =>
    let content := line.drop (indentOf line)
    if isBlankLine line then
      (readContinuation least lines).map fun (pieces, rest) => ([] :: pieces, rest)
    else if indentOf line < least || content.head? = some '#' || isMarker '-' line
        || isMarker '.' line then
      some ([], line :: lines)
    else
      let size := plainSize false true content
      let piece := dropEndBlanks (content.take size)
      match content.drop size with
      | ':' :: _ => none
      | '#' :: _ => some ([piece], lines)
      | _ => (readContinuation least lines).map fun (pieces, rest) => (piece :: pieces, rest)

/-- Reads a plain scalar in block context. -/
def readPlain (least : Nat) (content : Text) (lines : List Text) : Option (Node × List Text) :=
  let size := plainSize false true content
  let piece := dropEndBlanks (content.take size)
  match content.drop size with
  | ':' :: _ => none
  | '#' :: _ => some (.plain piece, lines)
  | _ =>
    (readContinuation least lines).map fun (pieces, rest) =>
      let pieces := (pieces.reverse.dropWhile List.isEmpty).reverse
      (.plain (fold (piece :: pieces)), rest)

/-- How a block of lines ends. -/
inductive Chomping where
  /-- With one line break, if there is one. -/
  | clip
  /-- Without line breaks. -/
  | strip
  /-- With all its line breaks. -/
  | keep
deriving DecidableEq, Repr

/-- Reads the signs after the bar of a block of lines: how it ends, and its indentation if given. -/
def readHeader : Text → Option (Chomping × Option Nat)
  | [] => some (.clip, none)
  | c :: cs =>
    if c = '-' then (readHeader cs).map fun (_, indent) => (.strip, indent)
    else if c = '+' then (readHeader cs).map fun (_, indent) => (.keep, indent)
    else if '1' ≤ c && c ≤ '9' then
      (readHeader cs).map fun (chomping, _) => (chomping, some (c.toNat - '0'.toNat))
    else if atLineEnd (c :: cs) then some (.clip, none)
    else none

/-- The text without the line breaks it ends with. -/
def dropEndBreaks (text : Text) : Text :=
  (text.reverse.dropWhile (· = '\n')).reverse

/-- Ends a block of lines. -/
def Chomping.apply (chomping : Chomping) (text : Text) : Text :=
  match chomping with
  | clip =>
    let body := dropEndBreaks text
    if body.isEmpty || body.length = text.length then body else body ++ ['\n']
  | strip => dropEndBreaks text
  | keep => text

/-- The content of a line of a block with the given indentation. -/
def blockLine (indent : Nat) (line : Text) : Text :=
  if isBlankLine line && line.length ≤ indent then line.dropWhile (· = ' ') else line.drop indent

/-- Reads a block of lines, from the signs after its bar. -/
def readLiteral (least : Nat) (header : Text) (lines : List Text) : Option (Node × List Text) :=
  match readHeader header with
  | none => none
  | some (chomping, given) =>
    let found := ((lines.dropWhile isBlankLine).head?.map indentOf).getD 0
    let indent := match given with
      | some n => least - 1 + n
      | none => max found least
    let inBlock := fun line => isBlankLine line || indent ≤ indentOf line
    let body := (lines.takeWhile inBlock).flatMap (blockLine indent)
    some (.quoted (chomping.apply body), lines.dropWhile inBlock)

/-- Reads a node that begins and ends on its own line or goes on by the rules
of scalars and flow nodes. -/
def readInline (least : Nat) (content : Text) (lines : List Text) : Option (Node × List Text) :=
  match content with
  | [] => none
  | c :: cs =>
    if c = '|' then readLiteral least cs lines
    else if beginsPlain false c cs.head? then readPlain least content lines
    else
      let text := cs ++ lines.flatten
      match readFlowNode (2 * text.length + 2) c text with
      | some (node, rest) => if atLineEnd rest then some (node, linesAfter rest) else none
      | none => none

/-! ## Collections -/

/-- Whether an item of a list begins here. -/
def beginsItem (content : Text) : Bool :=
  content.head? = some '-' && isGap content.tail.head?

/-- The name that an entry begins with and the text after its colon, if an entry begins here. -/
def entryKey? (content : Text) : Option (Node × Text) :=
  match content with
  | [] => none
  | c :: cs =>
    if isQuote c then
      match readQuoted c (cs.takeWhile (· ≠ '\n')) with
      | some (text, rest) =>
        match dropBlanks rest with
        | ':' :: after => if isGap after.head? then some (.quoted text, after) else none
        | _ => none
      | none => none
    else if beginsPlain false c cs.head? then
      let size := plainSize false true content
      match content.drop size with
      | ':' :: after => some (.plain (dropEndBlanks (content.take size)), after)
      | _ => none
    else none

mutual

/-- Reads a node that begins at a column. -/
def readNode : (bound least column : Nat) → Text → List Text → Option (Node × List Text)
  | 0, _, _, _, _ => none
  | bound + 1, least, column, content, lines =>
    if beginsItem content then
      (readItems bound column content lines).map fun (items, rest) => (.list items, rest)
    else
      match entryKey? content with
      | some (key, after) =>
        (readEntries bound column key after lines).map fun (entries, rest) => (.map entries, rest)
      | none => readInline least content lines

/-- Reads a node on the lines that follow; there is none unless they are indented enough. -/
def readBelow : (bound least : Nat) → List Text → Option (Node × List Text)
  | 0, _, _ => none
  | bound + 1, least, lines =>
    match skipEmptyLines lines with
    | [] => some (.plain [], [])
    | line :: rest =>
      if least ≤ indentOf line then
        readNode bound least (indentOf line) (line.drop (indentOf line)) rest
      else some (.plain [], line :: rest)

/-- Reads the items of a list, of which the first begins with `content`. -/
def readItems : (bound column : Nat) → Text → List Text → Option (List Node × List Text)
  | 0, _, _, _ => none
  | bound + 1, column, content, lines =>
    let after := content.tail
    let blanks := (after.takeWhile isBlank).length
    let item :=
      if isEmptyLine after then readBelow bound (column + 1) lines
      else readNode bound (column + 1) (column + 1 + blanks) (after.drop blanks) lines
    match item with
    | none => none
    | some (node, rest) =>
      match skipEmptyLines rest with
      | [] => some ([node], [])
      | line :: rest =>
        let next := line.drop (indentOf line)
        if indentOf line = column && beginsItem next then
          (readItems bound column next rest).map fun (nodes, rest) => (node :: nodes, rest)
        else if column < indentOf line then none
        else some ([node], line :: rest)

/-- Reads the value of an entry from after its colon; a list may stand at the column of its name. -/
def readEntryValue : (bound column : Nat) → Text → List Text → Option (Node × List Text)
  | 0, _, _, _ => none
  | bound + 1, column, after, lines =>
    if !isEmptyLine after then readInline (column + 1) (dropBlanks after) lines
    else
      match skipEmptyLines lines with
      | [] => some (.plain [], [])
      | line :: rest =>
        let content := line.drop (indentOf line)
        if indentOf line = column && beginsItem content then
          (readItems bound column content rest).map fun (items, rest) => (.list items, rest)
        else readBelow bound (column + 1) (line :: rest)

/-- Reads the entries of a map, of which the first is called `key`. -/
def readEntries : (bound column : Nat) → Node → Text → List Text →
    Option (List (Node × Node) × List Text)
  | 0, _, _, _, _ => none
  | bound + 1, column, key, after, lines =>
    match readEntryValue bound column after lines with
    | none => none
    | some (value, rest) =>
      match skipEmptyLines rest with
      | [] => some ([(key, value)], [])
      | line :: rest =>
        if indentOf line < column || isMarker '-' line || isMarker '.' line then
          some ([(key, value)], line :: rest)
        else if indentOf line = column then
          match entryKey? (line.drop column) with
          | some (nextKey, after) =>
            (readEntries bound column nextKey after rest).map fun (entries, rest) =>
              ((key, value) :: entries, rest)
          | none => none
        else none

end

/-! ## Documents -/

/-- Line breaks of every kind as line feeds. -/
def normalizeBreaks : Text → Text
  | '\r' :: '\n' :: cs => '\n' :: normalizeBreaks cs
  | '\r' :: cs => '\n' :: normalizeBreaks cs
  | c :: cs => c :: normalizeBreaks cs
  | [] => []

/-- Whether nothing but an end marker and empty lines is left. -/
def atDocumentEnd (lines : List Text) : Bool :=
  match skipEmptyLines lines with
  | [] => true
  | line :: rest => isMarker '.' line && (skipEmptyLines rest).isEmpty

/-- The node on the first line after a start marker, or below it. -/
def readMarked (bound : Nat) (marker : Text) (lines : List Text) : Option (Node × List Text) :=
  let content := dropBlanks (marker.drop 3)
  if isEmptyLine content then readBelow bound 0 lines else readInline 0 content lines

/-- The node of a document that is not empty. -/
def parse (document : Text) : Option Node :=
  let text := normalizeBreaks document
  let bound := 4 * text.length + 4
  let result :=
    match skipEmptyLines (Text.lines text) with
    | [] => none
    | line :: rest =>
      if isMarker '-' line then readMarked bound line rest else readBelow bound 0 (line :: rest)
  match result with
  | some (node, rest) => if atDocumentEnd rest then some node else none
  | none => none

end ConverterAssembly.Yaml
