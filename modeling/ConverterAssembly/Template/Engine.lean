import ConverterAssembly.Converter.Backend

/-!
# Template engines

An engine compiles one template into a Ruby fragment, the body of a transform method.
-/

namespace ConverterAssembly.Template

/-- Options for an engine, sorted by name. -/
abbrev EngineOptions := List (Text × Json)

/-- A template engine whose errors are of type `ε`. -/
structure Engine (ε : Type) where
  /-- The extension of its template files, without the dot. -/
  extension : Text
  /-- Compiles the template at a path. -/
  compile : (path : Text) → EngineOptions → Except ε Text
  /-- Fits the options to the backend before any template is compiled. -/
  configure : EngineOptions → BackendInfo → EngineOptions := fun options _ => options
  /-- Changes the shared helper code so that it declares `module Helpers`. -/
  adaptHelpers : Text → Text := fun helpers => helpers
  /-- Namespaces of the engine that compiled code should not refer to. -/
  internalNamespaces : List Text := []

end ConverterAssembly.Template
