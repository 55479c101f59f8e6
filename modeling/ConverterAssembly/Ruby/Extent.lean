import ConverterAssembly.Ruby.Problem

/-!
# Extents

A reader of a literal, a heredoc body or an embedded document answers with an `Extent`: how many
characters belong to what it reads, the line that the text after them is on, and the problem it met.
-/

namespace ConverterAssembly.Ruby

/-- How far a reader went. -/
structure Extent where
  /-- Number of characters taken. -/
  size : Nat
  /-- Line reached. -/
  line : Nat
  /-- What went wrong on the way, if anything did. -/
  error : Option SyntaxError
deriving DecidableEq, Repr

/-- The extent that begins `count` characters earlier. -/
def Extent.extend (e : Extent) (count : Nat) : Extent :=
  { e with size := count + e.size }

@[simp]
theorem Extent.extend_size (e : Extent) (count : Nat) :
    (e.extend count).size = count + e.size := rfl

@[simp]
theorem Extent.extend_line (e : Extent) (count : Nat) : (e.extend count).line = e.line := rfl

@[simp]
theorem Extent.extend_error (e : Extent) (count : Nat) : (e.extend count).error = e.error := rfl

end ConverterAssembly.Ruby
