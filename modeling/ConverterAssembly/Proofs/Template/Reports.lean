import ConverterAssembly.Proofs.Ruby.References
import ConverterAssembly.Proofs.Template.Listing
import ConverterAssembly.Template.Compile

/-!
# What a run reports

A run reports the names of the transforms, the findings in the compiled templates and the warnings
that it gave on the way, or the error that ended it.  The code of a fragment enters this report only
through the references that are found in it, and a fragment in readable form holds the references of
the fragment.  So asking for readable fragments changes nothing but the source of the class.

* **Gathering** — findings and names are those of any other run with the same references.
* **Assembling** — the check of a configuration looks at the names of transforms, never at code.
* **Runs** — two runs that differ in readability give the same report.
-/

namespace ConverterAssembly.Template

variable {ε : Type}

/-! ## Gathering -/

/-- Two results that are the same after a map both failed alike, or both succeeded. -/
lemma error_or_ok_of_map_eq_map {α β γ : Type} {x : Except ε α} {y : Except ε β} {p : α → γ}
    {q : β → γ} (h : x.map p = y.map q) :
    (∃ cause, x = .error cause ∧ y = .error cause) ∨
      ∃ a b, x = .ok a ∧ y = .ok b ∧ p a = q b := by
  cases x with
  | error cause =>
      cases y with
      | error _ => exact .inl ⟨cause, rfl, congrArg Except.error (Except.error.inj h).symm⟩
      | ok _ => exact nomatch h
  | ok a =>
      cases y with
      | error _ => exact nomatch h
      | ok b => exact .inr ⟨a, b, rfl, rfl, Except.ok.inj h⟩

/-- The names of the gathered transforms, or the failure that ended the gathering. -/
def Gathered.names (gathered : Gathered ε) : Except ε (List Text) :=
  gathered.transforms.map fun transforms => transforms.map (·.name)

lemma names_gatherFrom_ok (namespaces seen : List Text) (path code : Text)
    (rest : List (Text × Except ε Text)) :
    (gatherFrom namespaces seen ((path, .ok code) :: rest)).names =
      (gatherFrom namespaces (transformName path :: seen) rest).names.map
        (transformName path :: ·) := by
  simp only [Gathered.names, gatherFrom]
  cases (gatherFrom namespaces (transformName path :: seen) rest).transforms <;> rfl

/-- Gathering fragments and gathering others that fail alike and hold the same references gives the
same findings and the same names. -/
lemma gatherFrom_eq_of_references {namespaces : List Text} {f g : Text → Except ε Text}
    (h : ∀ path, (f path).map (Ruby.findReferences · namespaces) =
      (g path).map (Ruby.findReferences · namespaces))
    (seen paths : List Text) :
    let left := gatherFrom namespaces seen (paths.map fun path => (path, f path))
    let right := gatherFrom namespaces seen (paths.map fun path => (path, g path))
    left.diagnostics = right.diagnostics ∧ left.names = right.names := by
  induction paths generalizing seen with
  | nil => exact ⟨rfl, rfl⟩
  | cons path paths ih =>
      rw [List.map_cons, List.map_cons]
      obtain ⟨cause, hf, hg⟩ | ⟨code, code', hf, hg, href⟩ := error_or_ok_of_map_eq_map (h path)
      · rw [hf, hg]
        exact ⟨rfl, rfl⟩
      · obtain ⟨hdiag, hnames⟩ := ih (transformName path :: seen)
        rw [hf, hg]
        refine ⟨?_, ?_⟩
        · simp only [gatherFrom, findings, href, hdiag]
        · rw [names_gatherFrom_ok, names_gatherFrom_ok, hnames]

/-- A compiled template in readable form fails as it does in plain form, and
holds the same references. -/
lemma references_fragment {engine : Engine ε}
    (hnames : ∀ name ∈ engine.internalNamespaces, Ruby.IsWord name)
    (engineOptions : EngineOptions) (pretty : Bool) (path : Text) :
    (engine.fragment engineOptions pretty path).map
        (Ruby.findReferences · engine.internalNamespaces) =
      (engine.compile path engineOptions).map
        (Ruby.findReferences · engine.internalNamespaces) := by
  rw [Engine.fragment]
  cases engine.compile path engineOptions with
  | error _ => rfl
  | ok code =>
      cases pretty with
      | false => rfl
      | true => exact congrArg Except.ok (Ruby.findReferences_prettyPrint hnames code _)

/-! ## Assembling -/

/-- What a run reports apart from the source: the names of the transforms and the findings. -/
def CompileOutput.reported (output : CompileOutput) : List Text × Diagnostics :=
  (output.transforms, output.diagnostics)

/-- A report without the source. -/
def CompileReport.reported (report : CompileReport ε) :
    Except (CompileError ε) (List Text × Diagnostics) × List Text :=
  (report.outcome.map CompileOutput.reported, report.warnings)

/-- Assembling reports the same for any transforms of the same names. -/
lemma reported_assemble (options : CompileOptions) (diagnostics : List Diagnostic)
    {transforms transforms' : List Transform} (helpers : Text)
    (hnames : transforms.map (·.name) = transforms'.map (·.name)) :
    (assemble options diagnostics transforms helpers : CompileReport ε).reported =
      (assemble options diagnostics transforms' helpers).reported := by
  have hhelpers : (options.converterConfig transforms helpers).helpers? =
      (options.converterConfig transforms' helpers).helpers? := rfl
  have hrepeated : repeatedNames transforms = repeatedNames transforms' := by
    rw [repeatedNames, repeatedNames, hnames]
  simp only [CompileReport.reported, assemble, Converter.warnings, Converter.ofConfig, hhelpers]
  cases (options.converterConfig transforms' helpers).helpers? with
  | none =>
      simp only [CompileOptions.converterConfig, Except.map, CompileOutput.reported, hnames,
        hrepeated]
  | some code =>
      dsimp only
      split_ifs
      · simp only [CompileOptions.converterConfig, Except.map, CompileOutput.reported, hnames,
          hrepeated]
      · rfl

/-! ## Runs -/

/-- A run for readable fragments gathers the findings and the names of a run for plain ones. -/
lemma gather_pretty {engine : Engine ε}
    (hnames : ∀ name ∈ engine.internalNamespaces, Ruby.IsWord name)
    (options : CompileOptions) (paths : List Text) :
    let readable := engine.gather { options with pretty := true } paths
    let plain := engine.gather { options with pretty := false } paths
    readable.diagnostics = plain.diagnostics ∧ readable.names = plain.names := by
  refine gatherFrom_eq_of_references (fun path => ?_) [] paths
  rw [references_fragment hnames, references_fragment hnames]

/-- **Readable fragments change nothing that a run reports.**  Both runs fail with the same error,
or both succeed with the same transforms and the same findings; and they give the same warnings. -/
theorem compileConverter_pretty {engine : Engine ε}
    (hnames : ∀ name ∈ engine.internalNamespaces, Ruby.IsWord name)
    (options : CompileOptions) (root : Directory) :
    (compileConverter engine { options with pretty := true } root).reported =
      (compileConverter engine { options with pretty := false } root).reported := by
  simp only [compileConverter]
  cases root.templates options.templatesDir engine.extension with
  | error _ => rfl
  | ok paths =>
      obtain ⟨hdiag, hgathered⟩ := gather_pretty hnames options paths
      simp only [hdiag]
      obtain ⟨cause, hreadable, hplain⟩ |
          ⟨transforms, transforms', hreadable, hplain, htransforms⟩ :=
        error_or_ok_of_map_eq_map hgathered
      · rw [hreadable, hplain]
      · rw [hreadable, hplain]
        dsimp only
        cases root.readHelpers options.templatesDir with
        | error _ => rfl
        | ok helpers => exact reported_assemble _ _ _ htransforms

/-- An engine whose fragments refer to one of its own constants, next to a semicolon. -/
def leakyEngine : Engine Unit where
  extension := "slim".toList
  compile := fun _ _ => .ok "_buf = '';_buf << (::Slim::Helper.call);; _buf".toList
  internalNamespaces := ["Slim".toList]

/-- Two templates of one transform. -/
def leakyDirectory : Directory :=
  [(.text "block_a.slim".toList, .file (.text [])), (.text "a.slim".toList, .file (.text []))]

theorem compileConverter_pretty_leaky :
    (compileConverter leakyEngine { templatesDir := ['.'], pretty := true }
      leakyDirectory).reported =
      (.ok (["a".toList, "a".toList],
        ⟨[.leakedConstant "./a.slim".toList "::Slim::Helper".toList,
          .leakedConstant "./block_a.slim".toList "::Slim::Helper".toList,
          .duplicateTransform "a".toList "./block_a.slim".toList]⟩),
       ["Compiled template './a.slim' references constant ::Slim::Helper".toList,
        "Compiled template './block_a.slim' references constant ::Slim::Helper".toList,
        "Transform 'a' is defined more than once, the last definition wins".toList]) := by
  have hnames : ∀ name ∈ leakyEngine.internalNamespaces, Ruby.IsWord name := by decide
  rw [compileConverter_pretty hnames { templatesDir := ['.'], pretty := true }, compileConverter,
    Directory.templates]
  simp only [Directory.templateNames_eq_insertionSort]
  decide +kernel

end ConverterAssembly.Template
