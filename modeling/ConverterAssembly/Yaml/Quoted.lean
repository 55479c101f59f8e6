import ConverterAssembly.Yaml.Line

/-!
# Quoted scalars of YAML documents

Between single quotes a quote is written twice and nothing else is special.  Between double quotes a
backslash begins an escape.  Line breaks are folded, with the blanks around them, except those that
an escape stands for.
-/

namespace ConverterAssembly.Yaml

/-- A character of a quoted scalar, and whether it was written as an escape. -/
structure Glyph where
  char : Char
  escaped : Bool
deriving DecidableEq, Repr

/-- A blank that folding may drop. -/
def Glyph.isBlank (g : Glyph) : Bool :=
  !g.escaped && Yaml.isBlank g.char

/-- A line break that is to be folded. -/
def Glyph.isBreak (g : Glyph) : Bool :=
  !g.escaped && g.char = '\n'

/-- The glyphs of each line. -/
def glyphLines : List Glyph → List (List Glyph)
  | [] => [[]]
  | g :: gs =>
    if g.isBreak then [] :: glyphLines gs
    else
      match glyphLines gs with
      | [] => [[g]]
      | line :: lines => (g :: line) :: lines

/-- The line without the blanks that a break after it drops. -/
def trimGlyphsEnd (line : List Glyph) : List Glyph :=
  (line.reverse.dropWhile Glyph.isBlank).reverse

/-- The lines after the first, without the blanks around their breaks. -/
def trimGlyphs : List (List Glyph) → List (List Glyph)
  | [] => []
  | [line] => [line.dropWhile Glyph.isBlank]
  | line :: lines => trimGlyphsEnd (line.dropWhile Glyph.isBlank) :: trimGlyphs lines

/-- The text of a quoted scalar. -/
def foldGlyphs (glyphs : List Glyph) : Text :=
  match glyphLines glyphs with
  | [] => []
  | [line] => line.map (·.char)
  | line :: lines =>
    fold ((trimGlyphsEnd line :: trimGlyphs lines).map fun glyphs => glyphs.map (·.char))

/-- Reads to the closing single quote. -/
def readSingle : Text → Option (List Glyph × Text)
  | '\x27' :: '\x27' :: cs => (readSingle cs).map fun (gs, rest) => (⟨'\x27', true⟩ :: gs, rest)
  | '\x27' :: cs => some ([], cs)
  | c :: cs => (readSingle cs).map fun (gs, rest) => (⟨c, false⟩ :: gs, rest)
  | [] => none

/-- The character that a letter stands for after a backslash. -/
def escapedBy? (c : Char) : Option Char :=
  if c = '"' || c = '\\' || c = '/' || c = ' ' || c = '\t' then some c
  else if c = '0' then some '\x00'
  else if c = 'a' then some '\x07'
  else if c = 'b' then some '\x08'
  else if c = 't' then some '\t'
  else if c = 'n' then some '\n'
  else if c = 'v' then some '\x0b'
  else if c = 'f' then some '\x0c'
  else if c = 'r' then some '\r'
  else if c = 'e' then some '\x1b'
  else if c = 'N' then some '\u0085'
  else if c = '_' then some '\u00a0'
  else if c = 'L' then some '\u2028'
  else if c = 'P' then some '\u2029'
  else none

/-- The number of hexadecimal digits that a letter asks for after a backslash. -/
def hexDigits? (c : Char) : Option Nat :=
  if c = 'x' then some 2
  else if c = 'u' then some 4
  else if c = 'U' then some 8
  else none

/-- The character with the code point that the first `count` digits of the text give. -/
def hexChar? (count : Nat) (text : Text) : Option Char :=
  let digits := text.take count
  if digits.length < count then none
  else
    match digitsIn? 16 digits with
    | some n => if n.isValidChar then some (Char.ofNat n) else none
    | none => none

/-- Reads to the closing double quote; `skip` characters belong to an escape already read. -/
def readDouble : (skip : Nat) → Text → Option (List Glyph × Text)
  | _, [] => none
  | skip + 1, _ :: cs => readDouble skip cs
  | 0, c :: cs =>
    if c = '"' then some ([], cs)
    else if c = '\\' then
      match cs with
      | [] => none
      | d :: ds =>
        if d = '\n' then readDouble ((ds.takeWhile isBlank).length + 1) cs
        else
          match escapedBy? d, hexDigits? d with
          | some e, _ => (readDouble 1 cs).map fun (gs, rest) => (⟨e, true⟩ :: gs, rest)
          | none, some count =>
            match hexChar? count ds with
            | some e =>
              (readDouble (count + 1) cs).map fun (gs, rest) => (⟨e, true⟩ :: gs, rest)
            | none => none
          | none, none => none
    else (readDouble 0 cs).map fun (gs, rest) => (⟨c, false⟩ :: gs, rest)

/-- Whether a character opens a quoted scalar. -/
def isQuote (c : Char) : Bool :=
  c = '"' || c = '\x27'

/-- Reads a quoted scalar from just after its opening quote. -/
def readQuoted (quote : Char) (text : Text) : Option (Text × Text) :=
  (if quote = '"' then readDouble 0 text else readSingle text).map fun (glyphs, rest) =>
    (foldGlyphs glyphs, rest)

end ConverterAssembly.Yaml
