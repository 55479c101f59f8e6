import ConverterAssembly.Converter.Document
import ConverterAssembly.Template.Engine

/-!
# Options of a compile run

The options, their JSON form, and how they are read from documents.  Every field may be absent.
-/

namespace ConverterAssembly.Template

/-- The options of one compile run. -/
structure CompileOptions where
  /-- The directory with the templates and the helper code. -/
  templatesDir : Text := []
  engineOptions : EngineOptions := []
  /-- Whether each compiled template is put in readable form. -/
  pretty : Bool := false
  /-- Upper bound on the number of templates compiled at a time. -/
  maxThreads : Option Nat := none
  className : Text := []
  registerFor : List BackendId := []
  backendInfo : BackendInfo := {}
  delegateBackend : Option Text := none
deriving Repr, BEq

namespace CompileOptions

/-- The JSON form of options. -/
def json (options : CompileOptions) : Json :=
  .object
    ([("templatesDir".toList, .string options.templatesDir),
      ("engineOptions".toList, .object options.engineOptions),
      ("pretty".toList, .bool options.pretty)] ++
     (options.maxThreads.map fun n => ("maxThreads".toList, Json.number (.integer n))).toList ++
     [("className".toList, .string options.className),
      ("registerFor".toList, registrationsJson options.registerFor),
      ("backendInfo".toList, options.backendInfo.json)] ++
     ConverterConfig.optionalMember "delegateBackend".toList options.delegateBackend)

/-- Reads options for an engine. -/
def readEngineOptions : Json.Reader EngineOptions := fun text =>
  match Json.skipBlanks text with
  | [] => .error .endsEarly
  | c :: cs =>
    if c = '\x7b' then do
      let (members, rest) ← Json.readMembers (Json.readValue (nestingInRecord - 1)) cs
      .ok (Json.sortMembers members, rest)
    else .error (Json.mismatch "a map".toList c cs)

/-- The engine options that a node stands for. -/
def engineOptionsOfNode? (node : Yaml.Node) : Option EngineOptions :=
  match node with
  | .map entries => (Yaml.entryValues? entries).map Json.sortMembers
  | _ => none

/-- The record of the options. -/
def record : Document.Record CompileOptions where
  title := "struct CompileOptions".toList
  initial := {}
  fields :=
    [fieldOf "templatesDir" ["templates_dir"] false (Json.readText "path string".toList)
       Yaml.Node.text? fun options templatesDir => { options with templatesDir },
     fieldOf "engineOptions" ["engine_options", "engineOpts", "engine_opts"] false readEngineOptions
       engineOptionsOfNode? fun options engineOptions => { options with engineOptions },
     fieldOf "pretty" [] false (Json.readBool "a boolean".toList) Yaml.Node.bool?
       fun options pretty => { options with pretty },
     fieldOf "maxThreads" ["max_threads"] false (Json.readOptional (Json.readCount "usize".toList))
       (Yaml.Node.optional? Yaml.Node.count?) fun options maxThreads => { options with maxThreads },
     fieldOf "className" ["class_name"] false (Json.readText wantedText) Yaml.Node.text?
       fun options className => { options with className },
     fieldOf "registerFor" ["register_for"] false readRegistrations registrationsOfNode?
       fun options registerFor => { options with registerFor },
     fieldOf "backendInfo" ["backend_info"] false readBackendInfo backendInfoOfNode?
       fun options backendInfo => { options with backendInfo },
     fieldOf "delegateBackend" ["delegate_backend"] false
       (Json.readOptional (Json.readText wantedText)) (Yaml.Node.optional? Yaml.Node.text?)
       fun options delegateBackend => { options with delegateBackend }]

/-- Reads options from a JSON document. -/
def ofJson (document : Text) : Except Json.Fault CompileOptions :=
  record.ofJson document

/-- Reads options from a YAML document. -/
def ofYaml? (document : Text) : Option CompileOptions :=
  record.ofYaml? document

end CompileOptions

end ConverterAssembly.Template
