/-!
# Sorted ranges of code points

Properties of characters come as sorted lists of inclusive ranges.  `Ranges.has` looks one code
point up, and stops at the first range that begins above it.
-/

namespace ConverterAssembly

/-- Inclusive ranges of code points, in increasing order. -/
abbrev Ranges := List (Nat × Nat)

/-- Whether a code point lies in one of the ranges. -/
def Ranges.has : Ranges → Nat → Bool
  | [], _ => false
  | (low, high) :: rest, n => low ≤ n && (n ≤ high || Ranges.has rest n)

end ConverterAssembly
