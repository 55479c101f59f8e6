import ConverterAssembly.Proofs.Ruby.Nesting

/-!
# What the roles of tokens depend on

A role follows from the kinds of the lexemes and from the spelling of keywords and operators.  What
a literal holds does not matter, nor whether a statement ends with a line feed or with a semicolon.
`Lexeme.outline` keeps what does matter, and `roles_map_outline` says that nothing else does.
-/

namespace ConverterAssembly.Ruby

/-- A lexeme without what its part in the nesting does not depend on. -/
def Lexeme.outline (l : Lexeme) : Lexeme :=
  match l.kind with
  | .keyword | .operator => l
  | .newline | .semicolon => ⟨.newline, []⟩
  | kind => ⟨kind, []⟩

/-! ## Lexemes -/

namespace Lexeme

lemma outline_keyword (text : Text) : outline ⟨.keyword, text⟩ = ⟨.keyword, text⟩ := rfl

variable (l : Lexeme)

@[simp]
lemma isSpace_outline : l.outline.kind = .space ↔ l.kind = .space := by
  obtain ⟨kind, text⟩ := l
  cases kind <;> simp [outline]

@[simp]
lemma isOpener_outline (bracket : Bracket) :
    l.outline.kind = .opener bracket ↔ l.kind = .opener bracket := by
  obtain ⟨kind, text⟩ := l
  cases kind <;> simp [outline]

@[simp]
lemma isOperator_outline (spelling : Text) :
    l.outline.isOperator spelling = l.isOperator spelling := by
  obtain ⟨kind, text⟩ := l
  cases kind <;> rfl

@[simp]
lemma isTrivia_outline : l.outline.isTrivia = l.isTrivia := by
  obtain ⟨kind, text⟩ := l
  cases kind <;> rfl

end Lexeme

/-! ## Looking ahead -/

lemma afterMethodName_outline (named : Bool) (ls : List Lexeme) :
    afterMethodName named (ls.map (·.outline)) =
      (afterMethodName named ls).map (List.map (·.outline)) := by
  induction ls generalizing named with
  | nil => rfl
  | cons l ls ih =>
      rw [List.map_cons, afterMethodName, afterMethodName]
      simp only [Lexeme.isSpace_outline, Lexeme.isOperator_outline, ih]
      split_ifs <;> rfl

lemma afterBrackets_outline (depth : Nat) (ls : List Lexeme) :
    afterBrackets depth (ls.map (·.outline)) =
      (afterBrackets depth ls).map (List.map (·.outline)) := by
  induction ls generalizing depth with
  | nil => rfl
  | cons l ls ih =>
      obtain ⟨kind, text⟩ := l
      rw [List.map_cons, afterBrackets, afterBrackets]
      cases kind with
      | closer bracket =>
          change (if depth ≤ 1 then _ else _) = Option.map _ (if depth ≤ 1 then _ else _)
          split_ifs
          · rfl
          · exact ih _
      | _ => exact ih _

lemma beginsValue_outline (ls : List Lexeme) :
    beginsValue (ls.map (·.outline)) = beginsValue ls := by
  induction ls with
  | nil => rfl
  | cons l ls ih =>
      rw [List.map_cons]
      by_cases hspace : l.kind = .space
      · rw [beginsValue_cons_of_space (l.isSpace_outline.2 hspace),
          beginsValue_cons_of_space hspace, ih]
      · rw [beginsValue_cons_of_ne (mt l.isSpace_outline.1 hspace), beginsValue_cons_of_ne hspace,
          l.isOperator_outline]

lemma isEndless_outline (ls : List Lexeme) : isEndless (ls.map (·.outline)) = isEndless ls :=
  isEndless_map (afterMethodName_outline false ls) (afterBrackets_outline 0) beginsValue_outline
    fun l _ _ => ⟨_, _, List.map_cons, l.isOpener_outline .paren⟩

/-! ## Roles -/

lemma beginsStatement_outline (prev : Option Lexeme) :
    beginsStatement (prev.map (·.outline)) = beginsStatement prev := by
  cases prev with
  | none => rfl
  | some l =>
      obtain ⟨kind, text⟩ := l
      cases kind <;> rfl

lemma beginsExpression_outline (prev : Option Lexeme) :
    beginsExpression (prev.map (·.outline)) = beginsExpression prev := by
  cases prev with
  | none => rfl
  | some l =>
      obtain ⟨kind, text⟩ := l
      cases kind <;> rfl

lemma roleOf_outline (prev : Option Lexeme) (inHeader : Bool) (l : Lexeme) (ls : List Lexeme) :
    roleOf (prev.map (·.outline)) inHeader l.outline (ls.map (·.outline)) =
      roleOf prev inHeader l ls := by
  obtain ⟨kind, text⟩ := l
  cases kind with
  | keyword =>
      rw [Lexeme.outline_keyword]
      simp only [roleOf, keywordRole, isEndless_outline, beginsExpression_outline,
        beginsStatement_outline]
  | _ => rfl

lemma headerAfter_outline (prev : Option Lexeme) (inHeader : Bool) (l : Lexeme) :
    headerAfter (prev.map (·.outline)) inHeader l.outline = headerAfter prev inHeader l := by
  obtain ⟨kind, text⟩ := l
  cases kind with
  | keyword =>
      rw [Lexeme.outline_keyword]
      simp only [headerAfter, beginsExpression_outline]
  | _ => rfl

lemma rolesFrom_outline (prev : Option Lexeme) (inHeader : Bool) (ls : List Lexeme) :
    rolesFrom (prev.map (·.outline)) inHeader (ls.map (·.outline)) =
      rolesFrom prev inHeader ls := by
  induction ls generalizing prev inHeader with
  | nil => rfl
  | cons l ls ih =>
      rw [List.map_cons, rolesFrom, rolesFrom, roleOf_outline, headerAfter_outline,
        Lexeme.isTrivia_outline, ← ih]
      split_ifs <;> rfl

/-- The open frames after lexemes are those after their outlines. -/
lemma framesAfter_outline (prev : Option Lexeme) (inHeader : Bool) (frames : List Frame)
    (ls : List Lexeme) :
    framesAfter (prev.map (·.outline)) inHeader frames (ls.map (·.outline)) =
      framesAfter prev inHeader frames ls := by
  rw [framesAfter_eq, rolesFrom_outline, framesAfter_eq]

/-- The roles of lexemes are those of their outlines. -/
theorem roles_map_outline (ls : List Lexeme) : roles (ls.map (·.outline)) = roles ls :=
  rolesFrom_outline none false ls

end ConverterAssembly.Ruby
