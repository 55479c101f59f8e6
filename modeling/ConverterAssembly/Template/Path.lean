import ConverterAssembly.Text.Basic

/-!
# Paths and transform names

A path is a text whose parts are divided by slashes.  Empty parts and single dots mean nothing; two
dots lead to the directory above.  The name of a template file gives the name of its transform.
-/

namespace ConverterAssembly.Template

/-- The parts of a path that mean something. -/
def pathParts (path : Text) : List Text :=
  (Text.splitOn ['/'] path).filter fun part => !part.isEmpty && part ≠ ['.']

/-- The name that a path ends in, unless it ends in two dots or names nothing. -/
def fileName? (path : Text) : Option Text :=
  (pathParts path).getLast?.filter (· ≠ ['.', '.'])

/-- The path of a file in a directory. -/
def joinPath (directory name : Text) : Text :=
  match directory.getLast? with
  | none => name
  | some c => if c = '/' then directory ++ name else directory ++ '/' :: name

/-- The name of the transform that a template defines: its file name up to the first dot, without a
leading `block_`. -/
def transformName (path : Text) : Text :=
  let stem := ((fileName? path).getD []).takeWhile (· ≠ '.')
  (Text.dropStart? "block_".toList stem).getD stem

end ConverterAssembly.Template
