import ConverterAssembly.Converter.Source
import ConverterAssembly.Diagnostic
import ConverterAssembly.Ruby.Pretty
import ConverterAssembly.Ruby.Reference
import ConverterAssembly.Template.Directory
import ConverterAssembly.Template.Options

/-!
# Compile runs

A compile run turns the templates of a directory into the source of a converter class.  Templates
are taken in the order of their file names, and the first that fails to compile ends the run.
References to the engine's own constants and repeated transforms are reported and change nothing in
the source.
-/

namespace ConverterAssembly.Template

/-- Why a compile run fails. -/
inductive CompileError (ε : Type) where
  | templatesDirNotFound (path : Text)
  | unreadable (path : Text) (cause : ReadError)
  | invalid (cause : ValidationError)
  /-- The engine cannot compile a template. -/
  | engine (cause : ε)
deriving DecidableEq, Repr

/-- The wording of a failure, given that of the engine's errors. -/
def CompileError.message {ε : Type} (engineMessage : ε → Text) : CompileError ε → Text
  | templatesDirNotFound path =>
    "Templates directory '".toList ++ path ++ "' does not exist".toList
  | unreadable path cause =>
    "Failed to read '".toList ++ path ++ "': ".toList ++ cause.message
  | invalid cause => cause.message
  | engine cause => engineMessage cause

/-- The result of a successful run. -/
structure CompileOutput where
  /-- The source of the class. -/
  code : Text
  /-- The names of the transforms in the order of their methods. -/
  transforms : List Text
  diagnostics : Diagnostics
deriving DecidableEq, Repr

/-- The transforms of compiled templates up to the first failure, and what was found on the way. -/
structure Gathered (ε : Type) where
  diagnostics : List Diagnostic
  transforms : Except ε (List Transform)

/-- What is found in one compiled template; `seen` are the names of the transforms before it. -/
def findings (namespaces seen : List Text) (path code : Text) : List Diagnostic :=
  (Ruby.findReferences code namespaces).map (.leakedConstant path) ++
    if seen.contains (transformName path) then [.duplicateTransform (transformName path) path]
    else []

/-- Gathers compiled templates in order; `seen` are the names of the transforms before them. -/
def gatherFrom {ε : Type} (namespaces seen : List Text) :
    List (Text × Except ε Text) → Gathered ε
  | [] => ⟨[], .ok []⟩
  | (_, .error cause) :: _ => ⟨[], .error cause⟩
  | (path, .ok code) :: rest =>
    let gathered := gatherFrom namespaces (transformName path :: seen) rest
    ⟨findings namespaces seen path code ++ gathered.diagnostics,
      gathered.transforms.map (⟨transformName path, code⟩ :: ·)⟩

/-- What a run tells: its outcome, and the warnings it gave on the way. -/
structure CompileReport (ε : Type) where
  outcome : Except (CompileError ε) CompileOutput
  warnings : List Text

/-- How many spaces make a level in readable fragments. -/
def prettyIndent : Nat := 2

/-- Compiles one template. -/
def Engine.fragment {ε : Type} (engine : Engine ε) (options : EngineOptions) (pretty : Bool)
    (path : Text) : Except ε Text :=
  (engine.compile path options).map fun code =>
    if pretty then Ruby.prettyPrint code prettyIndent else code

/-- Compiles the templates at the given paths. -/
def Engine.gather {ε : Type} (engine : Engine ε) (options : CompileOptions) (paths : List Text) :
    Gathered ε :=
  let engineOptions := engine.configure options.engineOptions options.backendInfo
  gatherFrom engine.internalNamespaces []
    (paths.map fun path => (path, engine.fragment engineOptions options.pretty path))

/-- The configuration of the class that a run generates. -/
def CompileOptions.converterConfig (options : CompileOptions) (transforms : List Transform)
    (helpers : Text) : ConverterConfig where
  className := options.className
  transforms := transforms
  helpersCode := some helpers
  registerFor := options.registerFor
  backendInfo := options.backendInfo
  delegateBackend := options.delegateBackend

/-- The warnings for references to the engine's constants. -/
def leakWarnings (diagnostics : List Diagnostic) : List Text :=
  diagnostics.filterMap fun
    | .leakedConstant template constant =>
      some (Diagnostic.leakedConstant template constant).message
    | .duplicateTransform _ _ => none

/-- Assembles gathered transforms and helper code into the class. -/
def assemble {ε : Type} (options : CompileOptions) (diagnostics : List Diagnostic)
    (transforms : List Transform) (helpers : Text) : CompileReport ε :=
  let config := options.converterConfig transforms helpers
  { outcome :=
      match Converter.ofConfig config with
      | .error cause => .error (.invalid cause)
      | .ok converter =>
        .ok ⟨converter.source, converter.config.transforms.map (·.name), ⟨diagnostics⟩⟩
    warnings := leakWarnings diagnostics ++ Converter.warnings config }

/-- Compiles the templates of a directory under `root` into the source of a converter class. -/
def compileConverter {ε : Type} (engine : Engine ε) (options : CompileOptions) (root : Directory) :
    CompileReport ε :=
  match root.templates options.templatesDir engine.extension with
  | .error _ => ⟨.error (.templatesDirNotFound options.templatesDir), []⟩
  | .ok paths =>
    let gathered := engine.gather options paths
    match gathered.transforms with
    | .error cause => ⟨.error (.engine cause), leakWarnings gathered.diagnostics⟩
    | .ok transforms =>
      match root.readHelpers options.templatesDir with
      | .error cause =>
        ⟨.error (.unreadable (joinPath options.templatesDir Directory.helpersFile) cause),
          leakWarnings gathered.diagnostics⟩
      | .ok helpers =>
        assemble options gathered.diagnostics transforms (engine.adaptHelpers helpers)

end ConverterAssembly.Template
