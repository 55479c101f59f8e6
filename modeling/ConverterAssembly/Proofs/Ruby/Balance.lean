import ConverterAssembly.Proofs.Ruby.Nesting

/-!
# Balanced blocks

The nesting check runs over a stack of open frames.  Here is the language it accepts, without the
stack: a grammar over the roles of the tokens, in which every frame is closed by its own closer, and
a section keyword stands directly inside a frame that can have it.

**Grammar.**  `Balanced around roles` derives what can stand directly inside `around`, a frame or
the whole source.

**Runs.**  A balanced list of roles leaves the stack as it was (`Balanced.runRoles_append`).
Conversely, a run that ends with an empty stack cuts the roles at the closers of the frames that
were open (`closes_of_runRoles`).
-/

namespace ConverterAssembly.Ruby

/-! ## Grammar -/

/-- The role that closes a frame: its own closing bracket, or `end`. -/
def Frame.closer : Frame → Role
  | block _ => .closesBlock
  | bracket b => .closesBracket b

/-- What can stand directly inside `around`, or on the outside where that is nothing. -/
inductive Balanced : (around : Option Frame) → List Role → Prop
  | nil {around : Option Frame} : Balanced around []
  | neutral {around : Option Frame} {rest : List Role} (tail : Balanced around rest) :
      Balanced around (.neutral :: rest)
  /-- A section keyword, directly inside a frame that can have such a section. -/
  | continues {frame : Frame} {part : Section} {rest : List Role}
      (accepted : frame.accepts part = true) (tail : Balanced (some frame) rest) :
      Balanced (some frame) (.continues part :: rest)
  /-- A frame from its opener to its closer. -/
  | encloses {around : Option Frame} {frame : Frame} {inner rest : List Role}
      (inside : Balanced (some frame) inner) (tail : Balanced around rest) :
      Balanced around (.opens frame :: (inner ++ frame.closer :: rest))

lemma Balanced.append {around : Option Frame} {a b : List Role} (ha : Balanced around a)
    (hb : Balanced around b) : Balanced around (a ++ b) := by
  induction ha with
  | nil => exact hb
  | neutral tail ih => exact .neutral (ih hb)
  | continues accepted tail ih => exact .continues accepted (ih hb)
  | encloses inside tail _ ih =>
      rw [List.cons_append, List.append_assoc, List.cons_append]
      exact .encloses inside (ih hb)

/-! ## Runs -/

/-- Its closer takes a frame away. -/
lemma Frame.apply_closer (frame : Frame) (frames : List Frame) :
    frame.closer.apply (frame :: frames) = .ok frames := by
  cases frame with
  | block _ => rfl
  | bracket b => simp [closer, Role.apply]

/-! ### Balanced roles run through -/

/-- A balanced list leaves the frames as they were, whatever is open further out. -/
lemma Balanced.runRoles_append {around : Option Frame} {inner : List Role}
    (h : Balanced around inner) (base : List Frame) (rest : List Role) :
    runRoles (around.toList ++ base) (inner ++ rest) = runRoles (around.toList ++ base) rest := by
  induction h generalizing base rest with
  | nil => rfl
  | neutral tail ih => exact ih base rest
  | continues accepted tail ih =>
      rw [List.cons_append, runRoles]
      simpa [Role.apply, accepted] using ih base rest
  | @encloses around frame inner tail inside _ ihInside ihTail =>
      calc
        runRoles (around.toList ++ base) (.opens frame :: (inner ++ frame.closer :: tail) ++ rest)
        _ = runRoles (frame :: (around.toList ++ base))
              (inner ++ frame.closer :: (tail ++ rest)) := by
            simp [runRoles, Role.apply]
        _ = runRoles (frame :: (around.toList ++ base)) (frame.closer :: (tail ++ rest)) :=
            ihInside (around.toList ++ base) (frame.closer :: (tail ++ rest))
        _ = runRoles (around.toList ++ base) (tail ++ rest) := by
            rw [runRoles, frame.apply_closer]
        _ = runRoles (around.toList ++ base) rest := ihTail base rest

/-! ### Runs cut the roles at the closers -/

/-- Roles that close the given frames, innermost first, with balanced roles before each closer. -/
def Closes : List Frame → List Role → Prop
  | [], roles => Balanced none roles
  | frame :: frames, roles =>
    ∃ inner rest, roles = inner ++ frame.closer :: rest ∧ Balanced (some frame) inner ∧
      Closes frames rest

/-- Balanced roles can stand before what closes the frames. -/
lemma Closes.prepend {frames : List Frame} {a b : List Role} (ha : Balanced frames.head? a)
    (hb : Closes frames b) : Closes frames (a ++ b) := by
  cases frames with
  | nil => exact ha.append hb
  | cons frame frames =>
      obtain ⟨inner, rest, rfl, hinner, hrest⟩ := hb
      exact ⟨a ++ inner, rest, (List.append_assoc ..).symm, ha.append hinner, hrest⟩

/-- What a frame encloses can stand before what closes the frames around it. -/
lemma Closes.enclose {frame : Frame} {frames : List Frame} {roles : List Role}
    (h : Closes (frame :: frames) roles) : Closes frames (.opens frame :: roles) := by
  obtain ⟨inner, rest, rfl, hinner, hrest⟩ := h
  have hframe : Balanced frames.head? (.opens frame :: (inner ++ [frame.closer])) :=
    .encloses hinner .nil
  have happend := hrest.prepend hframe
  rwa [List.cons_append, List.append_assoc, List.singleton_append] at happend

/-- A role that fits is an opener, the closer of the innermost frame, a
section of it, or neutral. -/
lemma Role.apply_cases {role : Role} {frames frames' : List Frame}
    (h : role.apply frames = .ok frames') :
    (∃ frame, role = .opens frame ∧ frames' = frame :: frames) ∨
      (∃ frame, role = frame.closer ∧ frames = frame :: frames') ∨
      (∃ frame part, role = .continues part ∧ frames.head? = some frame ∧
        frame.accepts part = true ∧ frames' = frames) ∨
      (role = .neutral ∧ frames' = frames) := by
  cases role with
  | opens frame => exact .inl ⟨frame, rfl, (Except.ok.inj h).symm⟩
  | closesBracket bracket =>
      rcases frames with _ | ⟨_ | opened, frames⟩
      · simp [Role.apply] at h
      · simp [Role.apply] at h
      · simp only [Role.apply] at h
        split_ifs at h with hbracket
        obtain rfl := Except.ok.inj h
        exact .inr (.inl ⟨.bracket opened, by rw [hbracket]; rfl, rfl⟩)
  | closesBlock =>
      rcases frames with _ | ⟨block | _, frames⟩
      · simp [Role.apply] at h
      · obtain rfl := Except.ok.inj h
        exact .inr (.inl ⟨.block block, rfl, rfl⟩)
      · simp [Role.apply] at h
  | continues part =>
      cases frames with
      | nil => simp [Role.apply] at h
      | cons frame frames =>
          simp only [Role.apply] at h
          split_ifs at h with haccepts
          exact .inr (.inr (.inl ⟨frame, part, rfl, rfl, haccepts, (Except.ok.inj h).symm⟩))
  | neutral => exact .inr (.inr (.inr ⟨rfl, (Except.ok.inj h).symm⟩))

lemma closes_of_runRoles {frames : List Frame} {roles : List Role}
    (h : runRoles frames roles = .ok []) : Closes frames roles := by
  induction roles generalizing frames with
  | nil =>
      obtain rfl := Except.ok.inj h
      exact .nil
  | cons role roles ih =>
      rw [runRoles] at h
      cases happly : role.apply frames with
      | error problem => simp [happly] at h
      | ok frames' =>
          rw [happly] at h
          have hclose := ih h
          obtain ⟨frame, rfl, rfl⟩ | ⟨frame, rfl, rfl⟩ | ⟨frame, part, rfl, hframe, haccepts, rfl⟩ |
            ⟨rfl, rfl⟩ := Role.apply_cases happly
          · exact hclose.enclose
          · exact ⟨[], roles, rfl, .nil, hclose⟩
          · refine Closes.prepend (a := [.continues part]) ?_ hclose
            rw [hframe]
            exact .continues haccepts .nil
          · exact Closes.prepend (a := [.neutral]) (.neutral .nil) hclose

/-- Roles close all that they open exactly if they are balanced. -/
theorem runRoles_eq_ok_iff_balanced (roles : List Role) :
    runRoles [] roles = .ok [] ↔ Balanced none roles := by
  refine ⟨closes_of_runRoles, fun h => ?_⟩
  have hrun := h.runRoles_append [] []
  rw [List.append_nil, List.append_nil] at hrun
  exact hrun

/-! ## Sources -/

/-- A source that never ends is refused for that; any other is accepted exactly if the roles of its
tokens are balanced. -/
theorem checkSyntax_iff_balanced (source : Text) :
    (∀ error, (tokenize source).error = some error → checkSyntax source = .error error) ∧
      ((tokenize source).error = none →
        (checkSyntax source = .ok () ↔ Balanced none (roles (lexemesOf source)))) := by
  constructor
  · intro error herror
    rw [checkSyntax, herror]
  · intro hends
    rw [checkSyntax, hends, lexemesOf, ← map_snd_withRoles, ← runRoles_eq_ok_iff_balanced]
    exact checkFrom_eq_ok_iff_runRoles [] 1 _

/-- An `else` stands directly inside its `if`, but not inside the bracket in it. -/
theorem checkSyntax_iff_balanced_else :
    checkSyntax "if a\n(b)\nelse\nend".toList = .ok () ∧
      ¬ Balanced none (roles (lexemesOf "if a\n(b\nelse)\nend".toList)) ∧
      checkSyntax "if \"a".toList = .error ⟨1, .unterminatedString⟩ := by
  refine ⟨?_, ?_, (checkSyntax_iff_balanced _).1 _ (by decide)⟩
  · refine ((checkSyntax_iff_balanced _).2 (by decide)).mpr ?_
    rw [← runRoles_eq_ok_iff_balanced]
    decide
  · refine fun h => absurd (((checkSyntax_iff_balanced _).2 (by decide)).mpr h) ?_
    decide

end ConverterAssembly.Ruby
