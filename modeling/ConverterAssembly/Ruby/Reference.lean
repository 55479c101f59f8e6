import ConverterAssembly.Text.Letter
import ConverterAssembly.Text.Basic

/-!
# References to constants

A reference is `::`, a namespace, and any number of further segments `::word`.  `findReferences`
reads a code from the left and collects the references into the given namespaces, each as long as
possible, without repeats and in order of first appearance.
-/

namespace ConverterAssembly.Ruby

/-- The size of the segments `::word` that a text begins with; `inWord` tells that the last segment
can still grow. -/
def segmentsSize : (inWord : Bool) → Text → Nat
  | inWord, c :: cs =>
    if inWord && isWordChar c then segmentsSize true cs + 1
    else
      match c, cs with
      | ':', ':' :: d :: ds => if isWordChar d then segmentsSize true ds + 3 else 0
      | _, _ => 0
  | _, [] => 0

/-- Whether exactly one of two neighbours is a word character; the end of the text is none. -/
def isBoundary (left : Char) (right : Option Char) : Bool :=
  isWordChar left != right.any isWordChar

/-- The size of the reference into `namespaceName` that follows `::`, if there is one.  A reference
without further segments must end at the end of a word. -/
def referenceSize? (text namespaceName : Text) : Option Nat :=
  match Text.dropStart? namespaceName text with
  | none => none
  | some rest =>
    let size := segmentsSize false rest
    if 0 < size || isBoundary (namespaceName.getLastD ':') rest.head? then
      some (namespaceName.length + size)
    else
      none

/-- The references in a text, from the left; `skip` characters belong to the last one found. -/
def referencesFrom (namespaces : List Text) : (skip : Nat) → Text → List Text
  | _, [] => []
  | skip + 1, _ :: cs => referencesFrom namespaces skip cs
  | 0, c :: cs =>
    match Text.dropStart? [':', ':'] (c :: cs) with
    | none => referencesFrom namespaces 0 cs
    | some rest =>
      match namespaces.findSome? (referenceSize? rest) with
      | some size =>
        (c :: cs.take (size + 1)) :: referencesFrom namespaces (size + 1) cs
      | none => referencesFrom namespaces 0 cs

/-- The references into the given namespaces, without repeats, in order of first appearance. -/
def findReferences (code : Text) (namespaces : List Text) : List Text :=
  (referencesFrom namespaces 0 code).foldl
    (fun found reference => if found.contains reference then found else found ++ [reference]) []

end ConverterAssembly.Ruby
