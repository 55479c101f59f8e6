import ConverterAssembly.Converter.Config
import ConverterAssembly.Text.Blank
import ConverterAssembly.Text.Lines

/-!
# The source of a converter class

A configuration is checked once and becomes a `Converter`, whose `source` is the Ruby text of its
class.  The class extends the converter base class of Asciidoctor.  Each transform becomes a method
that runs its fragment in the context of the node, so that fragments can call the node's methods.

* **Check** — a helper block that is not blank has to declare `module Helpers`.
* **Parts** — head, helpers, initializer, `convert` method, transform methods, support methods, in
  the order in which they stand in the source.
* **Output** — `source`, and `writeTo` for a sink of limited size.
-/

namespace ConverterAssembly

/-! ## Check -/

/-- Why a configuration is rejected. -/
inductive ValidationError where
  /-- There is helper code, and it does not declare `module Helpers`. -/
  | missingHelpersModule
deriving DecidableEq, Repr

/-- The wording of a rejection. -/
def ValidationError.message : ValidationError → Text
  | missingHelpersModule => "The helpers_code does not contain module Helpers".toList

/-- Whether `module Helpers` begins here, with a blank or a comment after it. -/
def beginsHelpers (text : Text) : Bool :=
  match Text.dropStart? "module Helpers".toList text with
  | some (c :: _) => isBlank c || c = '#'
  | _ => false

/-- Whether `module Helpers` occurs as whole words; `inWord` tells that a word character stands
before the text. -/
def declaresHelpersFrom (inWord : Bool) : Text → Bool
  | [] => false
  | c :: cs =>
    (!inWord && beginsHelpers (c :: cs)) || declaresHelpersFrom (isWordChar c) cs

/-- Whether a code mentions the declaration of `module Helpers`. -/
def declaresHelpers (code : Text) : Bool :=
  declaresHelpersFrom false code

/-- A configuration that has passed the check, with its helper code unless that is blank. -/
structure Converter where
  config : ConverterConfig
  helpers : Option Text
deriving DecidableEq, Repr

/-- Helper code that is not blank. -/
def ConverterConfig.helpers? (config : ConverterConfig) : Option Text :=
  config.helpersCode.filter fun code => !Text.allBlank code

/-- Checks a configuration. -/
def Converter.ofConfig (config : ConverterConfig) : Except ValidationError Converter :=
  match config.helpers? with
  | none => .ok ⟨config, none⟩
  | some code =>
    if declaresHelpers code then .ok ⟨config, some code⟩ else .error .missingHelpersModule

/-- The names that stand in a list for a second or later time, once for each time; `seen` are the
names before the list. -/
def repeatedFrom (seen : List Text) : List Text → List Text
  | [] => []
  | name :: names =>
    if seen.contains name then name :: repeatedFrom seen names
    else repeatedFrom (name :: seen) names

/-- The names of transforms that repeat an earlier one, in order. -/
def repeatedNames (transforms : List Transform) : List Text :=
  repeatedFrom [] (transforms.map (·.name))

/-- The wording of the warning for a repeated transform. -/
def repeatedMessage (name : Text) : Text :=
  "Transform '".toList ++ name ++
    "' is defined more than once, the last definition wins".toList

/-- The warnings that the check of a configuration gives; a rejected one gives none. -/
def Converter.warnings (config : ConverterConfig) : List Text :=
  match Converter.ofConfig config with
  | .ok converter => (repeatedNames converter.config.transforms).map repeatedMessage
  | .error _ => []

/-! ## Parts -/

/-- A line of source. -/
def lineOf (parts : List Text) : Text :=
  parts.flatten ++ ['\n']

/-- Lines of source given word by word. -/
def linesOf (lines : List String) : Text :=
  lines.flatMap fun line => lineOf [line.toList]

/-- A comment line with a title centered between dashes, 76 columns and the two number signs. -/
def separator (title : Text) : Text :=
  let dashes := List.replicate ((76 - title.length) / 2) '-'
  lineOf ["#".toList, dashes, " ".toList, title, " ".toList, dashes, "#".toList]

/-- The statement that makes the modules around a class exist before the class is declared, or
nothing for a class that stands in none. -/
def namespacePrologue (className : Text) : Text :=
  let namespaces := (Text.splitOn "::".toList className).dropLast.filter fun s => !s.isEmpty
  if namespaces.isEmpty then []
  else
    Text.join [' ']
      (namespaces.map (fun name => "module ".toList ++ name ++ ";".toList) ++
        namespaces.map fun _ => "end".toList)

/-- The head of the file and the first line of the class. -/
def headPart (className : Text) : Text :=
  linesOf ["# This file has been generated!", ""] ++
    lineOf [namespacePrologue className] ++
    lineOf ["class ".toList, className, " < ::Asciidoctor::Converter::Base".toList]

/-- The helper code, with its constants made accessible from the class. -/
def helpersPart (helpers : Text) : Text :=
  Text.indent
    (lineOf [separator "Begin of Helpers".toList] ++
      lineOf [helpers] ++
      linesOf
        ["", "# Make Helpers' constants accessible from transform methods.",
         "Helpers.constants.each do |const|",
         "  const_set(const, Helpers.const_get(const))",
         "end", ""] ++
      lineOf [separator "End of Helpers".toList])
    2

/-- The statement that registers the converter, if there are backends to register for. -/
def registration? (ids : List BackendId) : Option Text :=
  if ids.isEmpty then none
  else some (lineOf ["register_for ".toList, Text.join ", ".toList (ids.map BackendId.literal)])

/-- The statement that declares a trait. -/
def traitStatement (entry : Text × BackendValue) : Text :=
  match entry.2 with
  | .flag true => "  ".toList ++ entry.1
  | value => "  ".toList ++ entry.1 ++ " ".toList ++ value.literal

/-- The statements that declare the traits, if there are any. -/
def traits? (info : BackendInfo) : Option Text :=
  if info.isEmpty then none else some (Text.join ['\n'] (info.entries.map traitStatement))

/-- The statements that find the converter for the other nodes. -/
def delegateStatements (backend : Text) : Text :=
  lineOf [] ++
    lineOf ["  delegate_backend = (opts[:delegate_backend] || ".toList, Ruby.stringLiteral backend,
      ").to_s".toList] ++
    linesOf
      ["  factory = ::Asciidoctor::Converter::Factory", "",
       "  converter = factory.create(delegate_backend, backend_info)",
       "  @delegate_converter = if converter == self",
       "    factory.new.create(delegate_backend, backend_info)",
       "  else",
       "    converter"] ++
    "  end".toList

/-- The registration and the constructor. -/
def initializerPart (config : ConverterConfig) : Text :=
  let parts :=
    (registration? config.registerFor).toList ++
      ["def initialize(backend, opts = \x7b\x7d)".toList, "  super".toList] ++
      (traits? config.backendInfo).toList ++
      (config.delegateBackend.map delegateStatements).toList ++
      ["end".toList, []]
  Text.indent (Text.join ['\n'] parts) 2

/-- The method that sends a node to its transform. -/
def convertPart (delegates : Bool) : Text :=
  linesOf
    ["  def convert(node, transform = nil, opts = \x7b\x7d)",
     "    transform ||= node.node_name",
     if delegates then "    converter = respond_to?(transform) ? self : @delegate_converter"
     else "    converter = self",
     "",
     "    if opts.empty?",
     "      converter.send(transform, node)",
     "    else",
     "      converter.send(transform, node, opts)",
     "    end",
     "  end"]

/-- The method of a transform. -/
def transformMethod (hasHelpers : Bool) (transform : Transform) : Text :=
  lineOf [] ++
    lineOf ["  def ".toList, transform.name, "(node, opts = \x7b\x7d)".toList] ++
    (if hasHelpers then linesOf ["    node.extend(Helpers)"] else []) ++
    linesOf
      ["    node.instance_eval do",
       "      converter.set_local_variables(binding, opts) unless opts.empty?"] ++
    lineOf [Text.indent transform.code 6] ++
    linesOf ["    end", "  end"]

/-- The methods of all transforms between two separators. -/
def transformsPart (hasHelpers : Bool) (transforms : List Transform) : Text :=
  "  ".toList ++ separator "Begin of generated transformation methods".toList ++
    transforms.flatMap (transformMethod hasHelpers) ++
    "  ".toList ++ separator "End of generated transformation methods".toList

/-- The methods that the transforms rely on. -/
def supportPart : Text :=
  linesOf
    ["  def set_local_variables(binding, vars)",
     "    vars.each do |key, val|",
     "      binding.local_variable_set(key.to_sym, val)",
     "    end",
     "  end"]

/-! ## Output -/

namespace Converter

/-- The Ruby source of the class. -/
def source (converter : Converter) : Text :=
  let config := converter.config
  lineOf [headPart config.className] ++
    (converter.helpers.map fun code => lineOf [helpersPart code]).getD [] ++
    lineOf [initializerPart config] ++
    lineOf [convertPart config.delegateBackend.isSome] ++
    transformsPart converter.helpers.isSome config.transforms ++
    lineOf [supportPart] ++
    lineOf ["end".toList]

/-- A place for text that holds at most `limit` bytes. -/
structure Sink where
  text : Text
  limit : Nat
  /-- How often something was written. -/
  writes : Nat := 0
deriving DecidableEq, Repr

/-- Writes a text to the sink, whole or not at all. -/
def Sink.write (sink : Sink) (text : Text) : Option Sink :=
  if Text.utf8Size sink.text + Text.utf8Size text ≤ sink.limit then
    some { sink with text := sink.text ++ text, writes := sink.writes + 1 }
  else
    none

/-- Writes the source to a sink in one piece. -/
def writeTo (converter : Converter) (sink : Sink) : Option Sink :=
  sink.write converter.source

/-- The source for a configuration. -/
def generate (config : ConverterConfig) : Except ValidationError Text :=
  (ofConfig config).map source

end Converter

end ConverterAssembly
