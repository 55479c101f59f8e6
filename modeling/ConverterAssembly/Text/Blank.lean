import ConverterAssembly.Text.Basic

/-!
# Blank characters

Two classes of blanks are in use.  `isBlank` is the Unicode property White_Space (25 characters); it
decides what trimming removes and when a text counts as empty.  `isAsciiBlank` is the narrower class
of space, tab, line feed, form feed and carriage return, which has no vertical tab.
-/

namespace ConverterAssembly

/-- A character with the Unicode property White_Space. -/
def isBlank (c : Char) : Bool :=
  let n := c.toNat
  (0x9 ≤ n && n ≤ 0xD) || n == 0x20 || n == 0x85 || n == 0xA0 || n == 0x1680 ||
    (0x2000 ≤ n && n ≤ 0x200A) || n == 0x2028 || n == 0x2029 || n == 0x202F || n == 0x205F ||
    n == 0x3000

/-- Space, tab, line feed, form feed or carriage return. -/
def isAsciiBlank (c : Char) : Bool :=
  c == ' ' || c == '\t' || c == '\n' || c == '\x0c' || c == '\r'

namespace Text

/-- The text without the blanks it begins with. -/
def trimStart (text : Text) : Text :=
  text.dropWhile isBlank

/-- The text without the blanks it ends with. -/
def trimEnd (text : Text) : Text :=
  (text.reverse.dropWhile isBlank).reverse

/-- The text without blanks at either end. -/
def trim (text : Text) : Text :=
  trimEnd (trimStart text)

/-- Whether there is nothing but blanks. -/
def allBlank (text : Text) : Bool :=
  text.all isBlank

end Text

end ConverterAssembly
