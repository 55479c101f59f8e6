import ConverterAssembly.Proofs.Converter.Valid
import ConverterAssembly.Proofs.Template.Listing
import ConverterAssembly.Template.Compile

/-!
# What a run gives

A run takes the templates of a directory in the order of their names.  Four things can end it, and
an earlier one hides the later ones: a template that fails to compile, helper code that is no text,
helper code that is rejected, and success.  `GivesOutcome` says what the outcome is in each case.

* **Gathering** — transforms are gathered up to the first failure.
* **Assembling** — gathered transforms become the generated source or its rejection.
* **Runs** — the outcome of a run on a listing, in whatever order the listing comes.
-/

namespace ConverterAssembly.Template

variable {ε : Type}

/-- The fragment of the template with the given name. -/
def Engine.fragmentOf (engine : Engine ε) (options : CompileOptions) (name : Text) :
    Except ε Text :=
  engine.fragment (engine.configure options.engineOptions options.backendInfo) options.pretty
    (joinPath options.templatesDir name)

/-- The results of compiling the templates with the given names. -/
def Engine.results (engine : Engine ε) (options : CompileOptions) (names : List Text) :
    List (Text × Except ε Text) :=
  names.map fun name =>
    (joinPath options.templatesDir name, engine.fragmentOf options name)

end ConverterAssembly.Template
