import ConverterAssembly.Converter.Backend

/-!
# Converter configurations

All that the generator of a converter class needs, as plain data, with its JSON form.
-/

namespace ConverterAssembly

/-- A transform method: its name, usually that of a node, and the Ruby code of its body. -/
structure Transform where
  name : Text
  code : Text
deriving DecidableEq, Repr

/-- The JSON form of transforms: one member for each, repeated names included. -/
def transformsJson (transforms : List Transform) : Json :=
  .object (transforms.map fun t => (t.name, .string t.code))

/-- The JSON form of a list of backends. -/
def registrationsJson (ids : List BackendId) : Json :=
  .array (ids.map BackendId.json)

/-- The configuration of a converter class. -/
structure ConverterConfig where
  /-- The qualified name of the class. -/
  className : Text := []
  /-- Transform methods in the order in which they are written.  Names may repeat. -/
  transforms : List Transform := []
  /-- Ruby code that all transforms share; it has to declare `module Helpers`. -/
  helpersCode : Option Text := none
  /-- Backends that the converter registers for. -/
  registerFor : List BackendId := []
  /-- Backend traits that the constructor declares. -/
  backendInfo : BackendInfo := {}
  /-- The backend whose converter handles nodes without a transform. -/
  delegateBackend : Option Text := none
deriving DecidableEq, Repr

namespace ConverterConfig

/-- A configuration with nothing set but the name of the class. -/
def named (className : Text) : ConverterConfig :=
  { className }

/-- Adds a transform at the end. -/
def withTransform (config : ConverterConfig) (name code : Text) : ConverterConfig :=
  { config with transforms := config.transforms ++ [⟨name, code⟩] }

/-- Sets the shared helper code. -/
def withHelpers (config : ConverterConfig) (code : Text) : ConverterConfig :=
  { config with helpersCode := some code }

/-- Sets the backends to register for. -/
def withRegisterFor (config : ConverterConfig) (ids : List BackendId) : ConverterConfig :=
  { config with registerFor := ids }

/-- Sets one backend trait. -/
def withBackendInfo (config : ConverterConfig) (key : Text) (value : BackendValue) :
    ConverterConfig :=
  { config with backendInfo := config.backendInfo.insert key value }

/-- Sets the backend that handles the other nodes. -/
def withDelegateBackend (config : ConverterConfig) (backend : Text) : ConverterConfig :=
  { config with delegateBackend := some backend }

/-- A member that is left out where there is no value. -/
def optionalMember (name : Text) (value : Option Text) : List (Text × Json) :=
  match value with
  | some text => [(name, .string text)]
  | none => []

/-- The JSON form of a configuration. -/
def json (config : ConverterConfig) : Json :=
  .object
    ([("className".toList, .string config.className),
      ("transforms".toList, transformsJson config.transforms)] ++
     optionalMember "helpersCode".toList config.helpersCode ++
     [("registerFor".toList, registrationsJson config.registerFor),
      ("backendInfo".toList, config.backendInfo.json)] ++
     optionalMember "delegateBackend".toList config.delegateBackend)

end ConverterConfig

end ConverterAssembly
