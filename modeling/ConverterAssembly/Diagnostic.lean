import ConverterAssembly.Text.Basic

/-!
# Diagnostics

Findings that do not stop a compile run: a fragment that still refers to a constant of the template
engine, and a template that defines a transform anew.
-/

namespace ConverterAssembly

/-- A finding that does not stop a compile run. -/
inductive Diagnostic where
  /-- A compiled template refers to a constant of the engine, which the generated class would need
  at run time. -/
  | leakedConstant (template constant : Text)
  /-- A template defines a transform that an earlier one defines too. -/
  | duplicateTransform (name template : Text)
deriving DecidableEq, Repr

/-- The wording of a finding. -/
def Diagnostic.message : Diagnostic → Text
  | leakedConstant template constant =>
    "Compiled template '".toList ++ template ++ "' references constant ".toList ++ constant
  | duplicateTransform name template =>
    "Template '".toList ++ template ++ "' redefines transform '".toList ++ name ++ "'".toList

/-- The findings of one run, in the order of their discovery. -/
structure Diagnostics where
  warnings : List Diagnostic := []
deriving DecidableEq, Repr

namespace Diagnostics

/-- The findings with one more at the end. -/
def add (d : Diagnostics) (warning : Diagnostic) : Diagnostics :=
  ⟨d.warnings ++ [warning]⟩

/-- The findings with several more at the end. -/
def addAll (d : Diagnostics) (warnings : List Diagnostic) : Diagnostics :=
  ⟨d.warnings ++ warnings⟩

/-- Whether anything was found. -/
def hasWarnings (d : Diagnostics) : Bool :=
  !d.warnings.isEmpty

/-- Number of findings. -/
def count (d : Diagnostics) : Nat :=
  d.warnings.length

@[simp]
theorem warnings_add (d : Diagnostics) (w : Diagnostic) :
    (d.add w).warnings = d.warnings ++ [w] := rfl

@[simp]
theorem warnings_addAll (d : Diagnostics) (ws : List Diagnostic) :
    (d.addAll ws).warnings = d.warnings ++ ws := rfl

end Diagnostics

end ConverterAssembly
