import ConverterAssembly.Template.Path

/-!
# Directories

A directory is a list of named entries, in no particular order.  Names and contents are texts, or
raw bytes where they are no UTF-8.

* **Building** — `put` and `makeDirectory` add entries and the directories they stand in.
* **Finding** — `find` follows a path part by part; every part but the last has to lead to a
  directory.
* **Templates** — `templates` lists the template files of a directory in the order of their names,
  and `readHelpers` reads the shared helper code.
-/

namespace ConverterAssembly.Template

/-- A file name. -/
inductive Name where
  | text (value : Text)
  /-- Bytes that are no UTF-8. -/
  | raw (bytes : List UInt8)
deriving DecidableEq, Repr

/-- The content of a file. -/
inductive Content where
  | text (value : Text)
  /-- Bytes that are no UTF-8. -/
  | raw (bytes : List UInt8)
deriving DecidableEq, Repr

/-- A file or a directory. -/
inductive Entry where
  | file (content : Content)
  | directory (entries : List (Name × Entry))
deriving Repr

/-- The entries of a directory. -/
abbrev Directory := List (Name × Entry)

/-- Why a file or directory cannot be read. -/
inductive ReadError where
  | notFound
  | notADirectory
  | invalidText
deriving DecidableEq, Repr

/-- The wording of a failure to read. -/
def ReadError.message : ReadError → Text
  | notFound => "No such file or directory (os error 2)".toList
  | notADirectory => "Not a directory (os error 20)".toList
  | invalidText => "stream did not contain valid UTF-8".toList

namespace Directory

/-- The entry with the given name. -/
def get? (directory : Directory) (name : Name) : Option Entry :=
  directory.lookup name

/-- The directory with one entry set, in its place if the name is there. -/
def set (name : Name) (entry : Entry) : Directory → Directory
  | [] => [(name, entry)]
  | (n, e) :: rest => if n = name then (name, entry) :: rest else (n, e) :: set name entry rest

/-! ## Building -/

/-- The entries of a subdirectory; none where there is no such directory yet. -/
def subdirectory (directory : Directory) (name : Name) : Directory :=
  match directory.get? name with
  | some (.directory entries) => entries
  | _ => []

/-- Puts a file where the names lead, with the directories on the way. -/
def put (directory : Directory) : List Name → Content → Directory
  | [], _ => directory
  | [name], content => set name (.file content) directory
  | name :: names, content =>
    set name (.directory (put (directory.subdirectory name) names content)) directory

/-- Makes the directory where the names lead, with those on the way. -/
def makeDirectory (directory : Directory) : List Name → Directory
  | [] => directory
  | name :: names =>
    set name (.directory (makeDirectory (directory.subdirectory name) names)) directory

/-! ## Finding -/

/-- Follows parts of a path from the innermost of nested directories. -/
def findFrom (inner : Directory) (outer : List Directory) : List Text → Except ReadError Entry
  | [] => .ok (.directory inner)
  | part :: parts =>
    if part = ['.', '.'] then
      match outer with
      | [] => .error .notFound
      | directory :: outer => findFrom directory outer parts
    else
      match inner.get? (.text part) with
      | none => .error .notFound
      | some (.directory entries) => findFrom entries (inner :: outer) parts
      | some (.file content) => if parts.isEmpty then .ok (.file content) else .error .notADirectory

/-- Whether a path can only lead to a directory, by a slash or a dot at its end. -/
def asksForDirectory (path : Text) : Bool :=
  let last := (Text.splitOn ['/'] path).getLastD []
  last.isEmpty || last = ['.']

/-- The entry that a relative path leads to. -/
def find (root : Directory) (path : Text) : Except ReadError Entry :=
  if path.isEmpty || path.head? = some '/' then .error .notFound
  else
    match root.findFrom [] (pathParts path) with
    | .ok (.file content) =>
      if asksForDirectory path then .error .notADirectory else .ok (.file content)
    | result => result

/-- The entries of the directory that a path leads to. -/
def list (root : Directory) (path : Text) : Except ReadError Directory :=
  match root.find path with
  | .ok (.directory entries) => .ok entries
  | .ok (.file _) => .error .notADirectory
  | .error error => .error error

/-- The text of the file that a path leads to, if it is a file. -/
def textOf? (root : Directory) (path : Text) : Option (Except ReadError Text) :=
  match root.find path with
  | .ok (.file (.text text)) => some (.ok text)
  | .ok (.file (.raw _)) => some (.error .invalidText)
  | _ => none

/-! ## Templates -/

/-- The name of the file with the shared helper code. -/
def helpersFile : Text := "helpers.rb".toList

/-- The name of an entry that is a template: a file whose name ends in a dot and the extension and
does not begin with an underscore. -/
def templateName? (extension : Text) : Name × Entry → Option Text
  | (.text name, .file _) =>
    if name.head? ≠ some '_' && Text.endsWith name ('.' :: extension) then some name else none
  | _ => none

/-- The names of the templates among entries, in the order of their bytes. -/
def templateNames (entries : Directory) (extension : Text) : List Text :=
  (entries.filterMap (templateName? extension)).mergeSort fun name name' => !Text.before name' name

/-- The paths of the templates directly in a directory, in the order of their names. -/
def templates (root : Directory) (path extension : Text) : Except ReadError (List Text) := do
  let entries ← root.list path
  .ok ((templateNames entries extension).map (joinPath path))

/-- The helper code of a directory, or nothing where there is no such file. -/
def readHelpers (root : Directory) (path : Text) : Except ReadError Text :=
  (root.textOf? (joinPath path helpersFile)).getD (.ok [])

end Directory

end ConverterAssembly.Template
