import ConverterAssembly.Proofs.Ruby.Passages
import ConverterAssembly.Ruby.Check

/-!
# Nesting of parts

The nesting check runs over a whole source, and `runRoles` is its run without the lines.  To put
accepted parts together, the same run is followed through lists of lexemes: `framesAfter` gives the
open frames after them (`framesAfter_eq`).

**Blanks.**  `framesAfter_solid`: blanks between tokens do not matter.

**Parts.**  `Nests before ls after` tells that the lexemes take the frames `before` to the frames
`after`, wherever a statement begins, with whatever else is open and whatever follows.

**Fragments.**  `nests_fragment`: a source that is accepted alone opens and closes nothing when it
stands between other lines.  Only `def` looks ahead, and it never looks past the end of an accepted
source, since every bracket in it is closed.
-/

namespace ConverterAssembly.Ruby

/-! ## Runs -/

/-- The frames that are open after roles, or the first problem. -/
def runRoles (frames : List Frame) : List Role → Except Problem (List Frame)
  | [] => .ok frames
  | role :: rest =>
    match role.apply frames with
    | .ok frames => runRoles frames rest
    | .error problem => .error problem

/-- Nothing may be left open at the end. -/
def closeFrames : Except Problem (List Frame) → Except Problem Unit
  | .ok [] => .ok ()
  | .ok (frame :: _) => .error (.unfinished frame.closing)
  | .error problem => .error problem

lemma closeFrames_eq_ok_iff {run : Except Problem (List Frame)} :
    closeFrames run = .ok () ↔ run = .ok [] := by
  rcases run with problem | _ | ⟨frame, frames⟩ <;> simp [closeFrames]

/-- The check of tokens is a run of their roles, apart from the line of the problem. -/
lemma checkFrom_mapError (frames : List Frame) (line : Nat) (tokens : List (Token × Role)) :
    (checkFrom frames line tokens).mapError (·.problem) =
      closeFrames (runRoles frames (tokens.map (·.2))) := by
  induction tokens generalizing frames line with
  | nil => cases frames <;> rfl
  | cons t tokens ih =>
      rw [checkFrom, List.map_cons, runRoles]
      cases t.2.apply frames with
      | ok frames => exact ih frames t.1.line
      | error problem => rfl

lemma checkFrom_eq_ok_iff_runRoles (frames : List Frame) (line : Nat)
    (tokens : List (Token × Role)) :
    checkFrom frames line tokens = .ok () ↔ runRoles frames (tokens.map (·.2)) = .ok [] := by
  rw [← closeFrames_eq_ok_iff, ← checkFrom_mapError frames line]
  cases checkFrom frames line tokens <;> simp [Except.mapError]

lemma map_snd_withRoles (tokens : List Token) :
    (withRoles tokens).map (·.2) = roles (tokens.map (·.toLexeme)) :=
  List.map_snd_zip (by simp [roles])

/-- A source is accepted if it ends well and the roles of its tokens close all that they open. -/
lemma checkSyntax_eq_ok_iff_runRoles (source : Text) : checkSyntax source = .ok () ↔
    (tokenize source).error = none ∧ runRoles [] (roles (lexemesOf source)) = .ok [] := by
  rw [checkSyntax, lexemesOf, ← map_snd_withRoles]
  cases (tokenize source).error with
  | some error => simp
  | none => simpa using checkFrom_eq_ok_iff_runRoles [] 1 _

/-- The frames that are open after the lexemes, or nothing if one of them does not fit. -/
def framesAfter (prev : Option Lexeme) (inHeader : Bool) (frames : List Frame) :
    List Lexeme → Option (List Frame)
  | [] => some frames
  | l :: ls =>
    match (roleOf prev inHeader l ls).apply frames with
    | .ok frames =>
      framesAfter (if l.isTrivia then prev else some l) (headerAfter prev inHeader l) frames ls
    | .error _ => none

/-- The frames after lexemes are those after their roles. -/
lemma framesAfter_eq (prev : Option Lexeme) (inHeader : Bool) (frames : List Frame)
    (ls : List Lexeme) :
    framesAfter prev inHeader frames ls =
      (runRoles frames (rolesFrom prev inHeader ls)).toOption := by
  induction ls generalizing prev inHeader frames with
  | nil => rfl
  | cons l ls ih =>
      rw [framesAfter, rolesFrom, runRoles]
      cases (roleOf prev inHeader l ls).apply frames with
      | ok frames => exact ih _ _ _
      | error problem => rfl

lemma checkFrom_eq_ok_iff (tokens : List Token) : checkFrom [] 1 (withRoles tokens) = .ok () ↔
    framesAfter none false [] (tokens.map (·.toLexeme)) = some [] := by
  rw [checkFrom_eq_ok_iff_runRoles, map_snd_withRoles, roles, framesAfter_eq]
  cases runRoles [] (rolesFrom none false (tokens.map (·.toLexeme))) <;> simp [Except.toOption]

/-- A source is accepted if it ends well and its lexemes close all that they open. -/
theorem checkSyntax_eq_ok_iff (source : Text) : checkSyntax source = .ok () ↔
    (tokenize source).error = none ∧ framesAfter none false [] (lexemesOf source) = some [] := by
  rw [checkSyntax, lexemesOf]
  cases (tokenize source).error with
  | some error => simp
  | none => simpa using checkFrom_eq_ok_iff _

/-! ## Blanks -/

/-- The lexemes that are not blanks. -/
def solid (ls : List Lexeme) : List Lexeme :=
  ls.filter (·.kind ≠ .space)

@[simp]
lemma solid_nil : solid [] = [] := rfl

@[simp]
lemma solid_append (a b : List Lexeme) : solid (a ++ b) = solid a ++ solid b :=
  List.filter_append ..

lemma solid_cons_of_space {l : Lexeme} (h : l.kind = .space) (ls : List Lexeme) :
    solid (l :: ls) = solid ls := by
  simp [solid, h]

lemma solid_cons_of_ne {l : Lexeme} (h : l.kind ≠ .space) (ls : List Lexeme) :
    solid (l :: ls) = l :: solid ls := by
  simp [solid, h]

lemma afterMethodName_solid (named : Bool) (ls : List Lexeme) :
    afterMethodName named (solid ls) = (afterMethodName named ls).map solid := by
  induction ls generalizing named with
  | nil => rfl
  | cons l ls ih =>
      by_cases hspace : l.kind = .space
      · rw [solid_cons_of_space hspace, afterMethodName, if_pos hspace, ih]
      · rw [solid_cons_of_ne hspace, afterMethodName, afterMethodName, if_neg hspace, if_neg hspace]
        split_ifs
        · exact ih true
        · exact ih false
        · rw [Option.map_some, solid_cons_of_ne hspace]

lemma afterBrackets_solid (depth : Nat) (ls : List Lexeme) :
    afterBrackets depth (solid ls) = (afterBrackets depth ls).map solid := by
  induction ls generalizing depth with
  | nil => rfl
  | cons l ls ih =>
      by_cases hspace : l.kind = .space
      · rw [solid_cons_of_space hspace, afterBrackets, hspace, ih]
      · rw [solid_cons_of_ne hspace, afterBrackets, afterBrackets]
        cases l.kind with
        | closer bracket =>
            dsimp only
            split_ifs
            · rfl
            · exact ih _
        | _ => exact ih _

/-- What follows the name of a method begins with no blank. -/
lemma exists_of_afterMethodName {named : Bool} {ls rest : List Lexeme}
    (h : afterMethodName named ls = some rest) :
    ∃ l tail, rest = l :: tail ∧ l.kind ≠ .space ∧ rest <:+ ls := by
  induction ls generalizing named with
  | nil => simp [afterMethodName] at h
  | cons l ls ih =>
      rw [afterMethodName] at h
      split_ifs at h with hspace _ _
      · obtain ⟨l', tail, hrest, hl', hsuffix⟩ := ih h
        exact ⟨l', tail, hrest, hl', hsuffix.trans (List.suffix_cons l ls)⟩
      · obtain ⟨l', tail, hrest, hl', hsuffix⟩ := ih h
        exact ⟨l', tail, hrest, hl', hsuffix.trans (List.suffix_cons l ls)⟩
      · obtain ⟨l', tail, hrest, hl', hsuffix⟩ := ih h
        exact ⟨l', tail, hrest, hl', hsuffix.trans (List.suffix_cons l ls)⟩
      · obtain rfl := Option.some.inj h
        exact ⟨l, ls, rfl, hspace, List.suffix_rfl⟩

/-- Whether lexemes begin with the `=` of a definition without end, blanks apart. -/
def beginsValue (ls : List Lexeme) : Bool :=
  (ls.dropWhile (·.kind = .space)).head?.any (·.isOperator ['='])

lemma beginsValue_cons_of_space {l : Lexeme} (h : l.kind = .space) (ls : List Lexeme) :
    beginsValue (l :: ls) = beginsValue ls := by
  rw [beginsValue, List.dropWhile_cons, if_pos (by simpa using h)]
  rfl

lemma beginsValue_cons_of_ne {l : Lexeme} (h : l.kind ≠ .space) (ls : List Lexeme) :
    beginsValue (l :: ls) = l.isOperator ['='] := by
  rw [beginsValue, List.dropWhile_cons, if_neg (by simpa using h)]
  rfl

lemma beginsValue_solid (ls : List Lexeme) : beginsValue (solid ls) = beginsValue ls := by
  induction ls with
  | nil => rfl
  | cons l ls ih =>
      by_cases hspace : l.kind = .space
      · rw [solid_cons_of_space hspace, ih, beginsValue_cons_of_space hspace]
      · rw [solid_cons_of_ne hspace, beginsValue_cons_of_ne hspace, beginsValue_cons_of_ne hspace]

lemma isEndless_of_afterMethodName {ls tail : List Lexeme} {l : Lexeme}
    (h : afterMethodName false ls = some (l :: tail)) :
    isEndless ls = if l.kind = .opener .paren then (afterBrackets 0 (l :: tail)).any beginsValue
      else beginsValue (l :: tail) := by
  rw [isEndless, h]
  by_cases hparen : l.kind = .opener .paren
  · simp only [List.head?_cons, Option.any_some, hparen, decide_true, if_pos]
    rfl
  · simp only [List.head?_cons, Option.any_some, hparen, decide_false, Bool.false_eq_true, if_neg,
      not_false_eq_true]
    rfl

/-- What a `def` defines does not change with its lexemes, if the three searches after its name do
not and the first lexeme stays a parenthesis or none. -/
lemma isEndless_map {f : List Lexeme → List Lexeme} {ls : List Lexeme}
    (hname : afterMethodName false (f ls) = (afterMethodName false ls).map f)
    (hbrackets : ∀ ls, afterBrackets 0 (f ls) = (afterBrackets 0 ls).map f)
    (hvalue : ∀ ls, beginsValue (f ls) = beginsValue ls)
    (hparen : ∀ l ls, l.kind ≠ .space → ∃ l' ls', f (l :: ls) = l' :: ls' ∧
      (l'.kind = .opener .paren ↔ l.kind = .opener .paren)) : isEndless (f ls) = isEndless ls := by
  cases hrest : afterMethodName false ls with
  | none =>
      rw [hrest, Option.map_none] at hname
      rw [isEndless, isEndless, hname, hrest]
  | some rest =>
      obtain ⟨l, tail, rfl, hl, -⟩ := exists_of_afterMethodName hrest
      obtain ⟨l', tail', hcons, hsame⟩ := hparen l tail hl
      rw [hrest, Option.map_some, hcons] at hname
      rw [isEndless_of_afterMethodName hname, isEndless_of_afterMethodName hrest, ← hcons,
        hbrackets, Option.any_map, hvalue]
      simp only [hvalue, hsame]

lemma isEndless_solid (ls : List Lexeme) : isEndless (solid ls) = isEndless ls :=
  isEndless_map (afterMethodName_solid false ls) (afterBrackets_solid 0) beginsValue_solid
    fun l ls hl => ⟨l, solid ls, solid_cons_of_ne hl ls, .rfl⟩

lemma roleOf_solid (prev : Option Lexeme) (inHeader : Bool) (l : Lexeme) (ls : List Lexeme) :
    roleOf prev inHeader l (solid ls) = roleOf prev inHeader l ls := by
  simp only [roleOf, keywordRole, isEndless_solid]

lemma roleOf_of_space {l : Lexeme} (h : l.kind = .space) (prev : Option Lexeme) (inHeader : Bool)
    (following : List Lexeme) : roleOf prev inHeader l following = .neutral := by
  simp [roleOf, h]

lemma headerAfter_of_space {l : Lexeme} (h : l.kind = .space) (prev : Option Lexeme)
    (inHeader : Bool) : headerAfter prev inHeader l = inHeader := by
  simp [headerAfter, h]

/-- Blanks open and close nothing. -/
lemma runRoles_rolesFrom_solid (prev : Option Lexeme) (inHeader : Bool) (frames : List Frame)
    (ls : List Lexeme) :
    runRoles frames (rolesFrom prev inHeader (solid ls)) =
      runRoles frames (rolesFrom prev inHeader ls) := by
  induction ls generalizing prev inHeader frames with
  | nil => rfl
  | cons l ls ih =>
      by_cases hspace : l.kind = .space
      · have htrivia : l.isTrivia = true := by simp [Lexeme.isTrivia, hspace]
        rw [solid_cons_of_space hspace, ih, rolesFrom, roleOf_of_space hspace,
          headerAfter_of_space hspace, if_pos htrivia]
        rfl
      · rw [solid_cons_of_ne hspace, rolesFrom, rolesFrom, roleOf_solid, runRoles, runRoles]
        cases (roleOf prev inHeader l ls).apply frames with
        | ok frames => exact ih _ _ _
        | error problem => rfl

lemma framesAfter_solid (prev : Option Lexeme) (inHeader : Bool) (frames : List Frame)
    (ls : List Lexeme) :
    framesAfter prev inHeader frames (solid ls) = framesAfter prev inHeader frames ls := by
  rw [framesAfter_eq, runRoles_rolesFrom_solid, framesAfter_eq]

/-! ## Parts -/

section

variable {prev : Option Lexeme} (h : beginsStatement prev = true)
include h

lemma beginsExpression_of_beginsStatement : beginsExpression prev = true := by
  cases prev with
  | none => rfl
  | some l =>
      simp only [beginsStatement, Option.all_some, Bool.or_eq_true, decide_eq_true_eq] at h
      rcases h with h | h <;> simp [beginsExpression, h]

lemma roleOf_of_beginsStatement (inHeader : Bool) (l : Lexeme) (ls : List Lexeme) :
    roleOf prev inHeader l ls = roleOf none inHeader l ls := by
  simp only [roleOf, keywordRole, h, beginsExpression_of_beginsStatement h]
  rfl

lemma headerAfter_of_beginsStatement (inHeader : Bool) (l : Lexeme) :
    headerAfter prev inHeader l = headerAfter none inHeader l := by
  simp only [headerAfter, beginsExpression_of_beginsStatement h]
  rfl

/-- Any separator before a statement is as good as another, or as none. -/
lemma framesAfter_of_beginsStatement (inHeader : Bool) (frames : List Frame) (ls : List Lexeme) :
    framesAfter prev inHeader frames ls = framesAfter none inHeader frames ls := by
  induction ls generalizing inHeader frames with
  | nil => rfl
  | cons l ls ih =>
      rw [framesAfter, framesAfter, roleOf_of_beginsStatement h, headerAfter_of_beginsStatement h]
      cases (roleOf none inHeader l ls).apply frames with
      | error problem => rfl
      | ok frames =>
          dsimp only
          split_ifs
          · exact ih _ _
          · rfl

end

/-- What is open below does not matter to a token that fits. -/
lemma Role.apply_append {role : Role} {frames frames' : List Frame}
    (h : role.apply frames = .ok frames') (base : List Frame) :
    role.apply (frames ++ base) = .ok (frames' ++ base) := by
  cases role with
  | opens frame =>
      obtain rfl := Except.ok.inj h
      rfl
  | neutral =>
      obtain rfl := Except.ok.inj h
      rfl
  | closesBracket bracket =>
      match frames with
      | [] | .block _ :: _ => simp [Role.apply] at h
      | .bracket opened :: frames =>
          simp only [Role.apply, List.cons_append] at h ⊢
          split_ifs at h ⊢
          obtain rfl := Except.ok.inj h
          rfl
  | closesBlock =>
      match frames with
      | [] | .bracket _ :: _ => simp [Role.apply] at h
      | .block _ :: frames =>
          obtain rfl := Except.ok.inj h
          rfl
  | continues part =>
      match frames with
      | [] => simp [Role.apply] at h
      | frame :: frames =>
          simp only [Role.apply, List.cons_append] at h ⊢
          split_ifs at h ⊢
          obtain rfl := Except.ok.inj h
          rfl

/-- Wherever a statement begins, the lexemes take the frames `before` to the frames `after`, and a
statement begins after them. -/
def Nests (before : List Frame) (ls : List Lexeme) (after : List Frame) : Prop :=
  ∀ (base : List Frame) (following : List Lexeme),
    framesAfter none false (before ++ base) (ls ++ following) =
      framesAfter none false (after ++ base) following

namespace Nests

variable {before between after : List Frame} {la lb ls : List Lexeme}

lemma nil (frames : List Frame) : Nests frames [] frames :=
  fun _ _ => rfl

lemma append (ha : Nests before la between) (hb : Nests between lb after) :
    Nests before (la ++ lb) after := by
  intro base following
  rw [List.append_assoc, ha, hb]

/-- Parts nest inside other frames. -/
lemma inside (h : Nests before ls after) (frames : List Frame) :
    Nests (before ++ frames) ls (after ++ frames) := by
  intro base following
  rw [List.append_assoc, List.append_assoc, h]

lemma flatMap {α : Type} {lexemes : α → List Lexeme} {parts : List α}
    (h : ∀ part ∈ parts, Nests [] (lexemes part) []) : Nests [] (parts.flatMap lexemes) [] := by
  induction parts with
  | nil => exact .nil []
  | cons part parts ih =>
      rw [List.forall_mem_cons] at h
      exact h.1.append (ih h.2)

/-- Parts nest alike if they differ in blanks alone. -/
lemma of_solid_eq (h : Nests before la after)
    (heq : solid la = solid lb) : Nests before lb after := by
  intro base following
  rw [← h, ← framesAfter_solid, ← framesAfter_solid _ _ _ (la ++ following), solid_append,
    solid_append, heq]

end Nests

/-! ### Parts that are run alone -/

lemma afterMethodName_append {named : Bool} {ls rest : List Lexeme}
    (h : afterMethodName named ls = some rest) (following : List Lexeme) :
    afterMethodName named (ls ++ following) = some (rest ++ following) := by
  induction ls generalizing named with
  | nil => simp [afterMethodName] at h
  | cons l ls ih =>
      rw [afterMethodName] at h
      rw [List.cons_append, afterMethodName]
      split_ifs at h ⊢
      · exact ih h
      · exact ih h
      · exact ih h
      · obtain rfl := Option.some.inj h
        rfl

lemma afterBrackets_append {depth : Nat} {ls rest : List Lexeme}
    (h : afterBrackets depth ls = some rest) (following : List Lexeme) :
    afterBrackets depth (ls ++ following) = some (rest ++ following) := by
  induction ls generalizing depth with
  | nil => simp [afterBrackets] at h
  | cons l ls ih =>
      rw [afterBrackets] at h
      rw [List.cons_append, afterBrackets]
      cases hkind : l.kind with
      | closer bracket =>
          rw [hkind] at h
          dsimp only at h ⊢
          split_ifs at h ⊢
          · obtain rfl := Option.some.inj h
            rfl
          · exact ih h
      | _ =>
          rw [hkind] at h
          exact ih h

/-- Whether a definition is known to be endless or not, whatever comes after the lexemes. -/
def isSettled (following : List Lexeme) : Bool :=
  (afterMethodName false following).any fun rest =>
    !rest.head?.any (·.kind = .opener .paren) ||
      (afterBrackets 0 rest).any fun value => value.any (·.kind ≠ .space)

lemma beginsValue_append {ls : List Lexeme} (h : (ls.any (·.kind ≠ .space)) = true)
    (following : List Lexeme) : beginsValue (ls ++ following) = beginsValue ls := by
  have hne : ls.dropWhile (·.kind = .space) ≠ [] := by simpa using h
  rw [beginsValue, beginsValue, List.dropWhile_append, if_neg (by simpa using h),
    List.head?_append_of_ne_nil _ hne]

lemma isEndless_append_of_isSettled {ls : List Lexeme} (h : isSettled ls = true)
    (following : List Lexeme) : isEndless (ls ++ following) = isEndless ls := by
  obtain ⟨rest, hname, hrest⟩ := (Option.any_eq_true _ _).mp h
  obtain ⟨l, tail, rfl, hl, -⟩ := exists_of_afterMethodName hname
  rw [isEndless_of_afterMethodName (afterMethodName_append hname following),
    isEndless_of_afterMethodName hname, beginsValue_cons_of_ne hl]
  split_ifs with hparen
  · simp only [List.head?_cons, Option.any_some, hparen, decide_true, Bool.not_true,
      Bool.false_or] at hrest
    obtain ⟨value, hvalue, hsolid⟩ := (Option.any_eq_true _ _).mp hrest
    have happend : afterBrackets 0 (l :: (tail.append following)) = some (value ++ following) :=
      afterBrackets_append hvalue following
    rw [happend, hvalue, Option.any_some, Option.any_some, beginsValue_append hsolid]
  · exact (beginsValue_cons_of_ne hl tail).symm

/-- Runs lexemes as `framesAfter` does, as long as it is known what every `def` defines.  Gives the
last token, whether a loop header is open, and the frames. -/
def runNesting (prev : Option Lexeme) (inHeader : Bool) (frames : List Frame) :
    List Lexeme → Option (Option Lexeme × Bool × List Frame)
  | [] => some (prev, inHeader, frames)
  | l :: ls =>
    if l.isKeyword "def".toList && !isSettled ls then none
    else
      match (roleOf prev inHeader l ls).apply frames with
      | .ok frames =>
        runNesting (if l.isTrivia then prev else some l) (headerAfter prev inHeader l) frames ls
      | .error _ => none

lemma framesAfter_append_of_runNesting {prev prev' : Option Lexeme} {inHeader inHeader' : Bool}
    {frames frames' : List Frame} {ls : List Lexeme}
    (h : runNesting prev inHeader frames ls = some (prev', inHeader', frames'))
    (base : List Frame) (following : List Lexeme) :
    framesAfter prev inHeader (frames ++ base) (ls ++ following) =
      framesAfter prev' inHeader' (frames' ++ base) following := by
  induction ls generalizing prev inHeader frames with
  | nil =>
      obtain ⟨rfl, rfl, rfl⟩ : prev = prev' ∧ inHeader = inHeader' ∧ frames = frames' := by
        simpa [runNesting] using h
      rfl
  | cons l ls ih =>
      rw [runNesting] at h
      by_cases hdef : (l.isKeyword "def".toList && !isSettled ls) = true
      · rw [if_pos hdef] at h
        simp at h
      rw [if_neg hdef] at h
      have hrole : roleOf prev inHeader l (ls ++ following) = roleOf prev inHeader l ls := by
        by_cases hword : l.isKeyword "def".toList = true
        · have hsettled : isSettled ls = true := by
            rw [hword, Bool.true_and, Bool.not_eq_true', Bool.not_eq_false] at hdef
            exact hdef
          simp only [roleOf, keywordRole, isEndless_append_of_isSettled hsettled]
        · cases hkind : l.kind with
          | keyword =>
              have htext : l.text ≠ "def".toList := by
                simpa [Lexeme.isKeyword, hkind] using hword
              simp only [roleOf, hkind, keywordRole, if_neg htext]
          | _ => simp only [roleOf, hkind]
      rw [List.cons_append, framesAfter, hrole]
      cases happly : (roleOf prev inHeader l ls).apply frames with
      | error problem => simp [happly] at h
      | ok frames₁ =>
          rw [happly] at h
          rw [Role.apply_append happly]
          exact ih h

/-- Whether lexemes take the frames `before` to the frames `after`, found by running them alone. -/
def nests (before : List Frame) (ls : List Lexeme) (after : List Frame) : Bool :=
  (runNesting none false before ls).any fun (prev, inHeader, frames) =>
    beginsStatement prev && !inHeader && frames = after

/-- Lexemes that nest when they are run alone do so everywhere. -/
theorem nests_of_run {before after : List Frame} {ls : List Lexeme}
    (h : nests before ls after = true) : Nests before ls after := by
  obtain ⟨⟨prev, inHeader, frames⟩, hrun, hend⟩ := (Option.any_eq_true _ _).mp h
  obtain ⟨⟨hprev, rfl⟩, rfl⟩ : (beginsStatement prev = true ∧ inHeader = false) ∧
      frames = after := by
    simpa using hend
  intro base following
  rw [framesAfter_append_of_runNesting hrun, framesAfter_of_beginsStatement hprev]

/-- Whether a fixed text is a passage that takes the frames `before` to the frames `after`, found by
reading it alone. -/
def isPart (before : List Frame) (text : Text) (after : List Frame) : Bool :=
  isPassage text && nests before (lexemesOf text) after

lemma passage_of_isPart {before after : List Frame} {text : Text}
    (h : isPart before text after = true) : Passage text (lexemesOf text) :=
  passage_of_isPassage ((Bool.and_eq_true _ _).mp h).1

lemma nests_of_isPart {before after : List Frame} {text : Text}
    (h : isPart before text after = true) : Nests before (lexemesOf text) after :=
  nests_of_run ((Bool.and_eq_true _ _).mp h).2

/-- A fixed text that is a passage keeps to its lines. -/
lemma keepsLine_of_isPart {before after : List Frame} {text : Text}
    (h : isPart before text after = true) : ∀ l ∈ lexemesOf text, l.keepsLine = true := by
  simp only [isPart, isPassage, Bool.and_eq_true, List.all_eq_true] at h
  exact h.1.1.1.2

/-! ### Lines without nesting -/

/-- Whether a keyword can open, close or continue something. -/
def isNestingWord (word : Text) : Bool :=
  (alwaysOpens? word).isSome || (leadingOpens? word).isSome || (alwaysContinues? word).isSome ||
    (leadingContinues? word).isSome || ["def".toList, "do".toList, "end".toList].contains word

/-- Whether a lexeme has no part in the nesting. -/
def Lexeme.isInert (l : Lexeme) : Bool :=
  match l.kind with
  | .opener _ | .closer _ => false
  | .keyword => !isNestingWord l.text
  | _ => true

/-- A word that has no part in the nesting is in none of the tables. -/
lemma not_isNestingWord {word : Text} (h : isNestingWord word = false) :
    (alwaysOpens? word = none ∧ leadingOpens? word = none ∧ alwaysContinues? word = none ∧
      leadingContinues? word = none) ∧
      word ≠ "def".toList ∧ word ≠ "do".toList ∧ word ≠ "end".toList := by
  simp only [isNestingWord, Bool.or_eq_false_iff, Option.isSome_eq_false_iff,
    Option.isNone_iff_eq_none, List.contains_eq_mem, List.mem_cons, List.not_mem_nil, or_false,
    decide_eq_false_iff_not, not_or] at h
  obtain ⟨⟨⟨⟨hopens, hleading⟩, hcontinues⟩, hsection⟩, hwords⟩ := h
  exact ⟨⟨hopens, hleading, hcontinues, hsection⟩, hwords⟩

lemma roleOf_of_isInert {l : Lexeme} (h : l.isInert = true) (prev : Option Lexeme) (inHeader : Bool)
    (ls : List Lexeme) : roleOf prev inHeader l ls = .neutral := by
  cases hkind : l.kind with
  | opener bracket => simp [Lexeme.isInert, hkind] at h
  | closer bracket => simp [Lexeme.isInert, hkind] at h
  | keyword =>
      have hword : isNestingWord l.text = false := by simpa [Lexeme.isInert, hkind] using h
      obtain ⟨⟨hopens, hleading, hcontinues, hsection⟩, hdef, hdo, hend⟩ := not_isNestingWord hword
      simp only [roleOf, hkind, keywordRole, hopens, hleading, hcontinues, hsection, if_neg hdef,
        if_neg hdo, if_neg hend]
  | _ => simp only [roleOf, hkind]

lemma headerAfter_of_isInert {l : Lexeme} (h : l.isInert = true) (prev : Option Lexeme) :
    headerAfter prev false l = false := by
  cases hkind : l.kind with
  | keyword =>
      have hword : isNestingWord l.text = false := by simpa [Lexeme.isInert, hkind] using h
      obtain ⟨⟨hopens, hleading, -, -⟩, -, hdo, -⟩ := not_isNestingWord hword
      have hfor : l.text ≠ "for".toList := by
        intro htext
        rw [htext] at hopens
        exact absurd hopens (by decide)
      simp only [headerAfter, hkind, hleading, if_neg hfor, if_neg hdo]
  | _ => simp only [headerAfter, hkind]

lemma framesAfter_of_isInert {ls : List Lexeme} (h : ∀ l ∈ ls, l.isInert = true)
    (prev : Option Lexeme) (frames : List Frame) (following : List Lexeme) :
    ∃ prev', framesAfter prev false frames (ls ++ following) =
      framesAfter prev' false frames following := by
  induction ls generalizing prev with
  | nil => exact ⟨prev, rfl⟩
  | cons l ls ih =>
      rw [List.forall_mem_cons] at h
      rw [List.cons_append, framesAfter, roleOf_of_isInert h.1, headerAfter_of_isInert h.1]
      exact ih h.2 _

lemma framesAfter_feed (prev : Option Lexeme) (inHeader : Bool) (frames : List Frame)
    (following : List Lexeme) : framesAfter prev inHeader frames (lineFeed :: following) =
      framesAfter none false frames following := by
  rw [framesAfter]
  exact framesAfter_of_beginsStatement rfl false frames following

/-- A line without nesting. -/
lemma nests_of_isInert {ls : List Lexeme} (h : ∀ l ∈ ls, l.isInert = true) :
    Nests [] (ls ++ [lineFeed]) [] := by
  intro base following
  obtain ⟨prev, hprev⟩ := framesAfter_of_isInert h none base (lineFeed :: following)
  rw [List.append_assoc, List.singleton_append, List.nil_append, hprev, framesAfter_feed]

/-! ## Fragments -/

/-- The end of an accepted list of lexemes is accepted too, from the frames that are open there. -/
lemma framesAfter_of_suffix {prev : Option Lexeme} {inHeader : Bool} {frames : List Frame}
    {ls rest : List Lexeme} (h : framesAfter prev inHeader frames ls = some [])
    (hsuffix : rest <:+ ls) :
    ∃ prev' inHeader' frames', framesAfter prev' inHeader' frames' rest = some [] := by
  obtain ⟨lead, rfl⟩ := hsuffix
  induction lead generalizing prev inHeader frames with
  | nil => exact ⟨prev, inHeader, frames, h⟩
  | cons l lead ih =>
      rw [List.cons_append, framesAfter] at h
      cases happly : (roleOf prev inHeader l (lead ++ rest)).apply frames with
      | error problem => simp [happly] at h
      | ok frames' =>
          rw [happly] at h
          exact ih h

/-- The number of brackets among open frames. -/
def bracketCount (frames : List Frame) : Nat :=
  frames.countP fun
    | .bracket _ => true
    | .block _ => false

/-- Keywords have no part in brackets. -/
lemma keywordRole_ne_bracket (prev : Option Lexeme) (inHeader : Bool) (word : Text)
    (ls : List Lexeme) (bracket : Bracket) :
    keywordRole prev inHeader word ls ≠ .opens (.bracket bracket) ∧
      keywordRole prev inHeader word ls ≠ .closesBracket bracket := by
  unfold keywordRole
  repeat' split
  all_goals simp

/-- Only brackets change the number of open brackets, each by one. -/
lemma bracketCount_apply {prev : Option Lexeme} {inHeader : Bool} {l : Lexeme} {ls : List Lexeme}
    {frames frames' : List Frame} (h : (roleOf prev inHeader l ls).apply frames = .ok frames') :
    match l.kind with
    | .opener _ => bracketCount frames' = bracketCount frames + 1
    | .closer _ => bracketCount frames' + 1 = bracketCount frames
    | _ => bracketCount frames' = bracketCount frames := by
  have hblock : ∀ role : Role, (∀ bracket, role ≠ .opens (.bracket bracket)) →
      (∀ bracket, role ≠ .closesBracket bracket) → role.apply frames = .ok frames' →
      bracketCount frames' = bracketCount frames := by
    intro role hopens hcloses happly
    match role, frames with
    | .opens (.block _), _ | .neutral, _ | .closesBlock, .block _ :: _ =>
        obtain rfl := Except.ok.inj happly
        simp [bracketCount]
    | .opens (.bracket bracket), _ => exact absurd rfl (hopens bracket)
    | .closesBracket bracket, _ => exact absurd rfl (hcloses bracket)
    | .closesBlock, [] | .closesBlock, .bracket _ :: _ | .continues _, [] =>
        simp [Role.apply] at happly
    | .continues part, frame :: frames =>
        simp only [Role.apply] at happly
        split_ifs at happly
        obtain rfl := Except.ok.inj happly
        rfl
  cases hkind : l.kind with
  | opener bracket =>
      simp only [roleOf, hkind] at h
      obtain rfl := Except.ok.inj h
      simp [bracketCount]
  | closer bracket =>
      simp only [roleOf, hkind] at h
      match frames with
      | [] | .block _ :: _ => simp [Role.apply] at h
      | .bracket opened :: frames =>
          simp only [Role.apply] at h
          split_ifs at h
          obtain rfl := Except.ok.inj h
          simp [bracketCount]
  | keyword =>
      simp only [roleOf, hkind] at h
      exact hblock _ (fun bracket => (keywordRole_ne_bracket _ _ _ _ bracket).1)
        (fun bracket => (keywordRole_ne_bracket _ _ _ _ bracket).2) h
  | _ =>
      simp only [roleOf, hkind] at h
      obtain rfl := Except.ok.inj h
      rfl

/-- In an accepted list of lexemes every bracket is closed. -/
lemma afterBrackets_isSome {prev : Option Lexeme} {inHeader : Bool} {frames : List Frame}
    {ls : List Lexeme} (h : framesAfter prev inHeader frames ls = some []) {depth : Nat}
    (hdepth : 0 < depth) (hcount : depth ≤ bracketCount frames) :
    (afterBrackets depth ls).isSome := by
  induction ls generalizing prev inHeader frames depth with
  | nil =>
      obtain rfl : frames = [] := by simpa [framesAfter] using h
      simp only [bracketCount, List.countP_nil] at hcount
      omega
  | cons l ls ih =>
      rw [framesAfter] at h
      cases happly : (roleOf prev inHeader l ls).apply frames with
      | error problem => simp [happly] at h
      | ok frames' =>
          rw [happly] at h
          have hbracket := bracketCount_apply happly
          rw [afterBrackets]
          cases hkind : l.kind with
          | opener bracket =>
              rw [hkind] at hbracket
              exact ih h (by omega) (by omega)
          | closer bracket =>
              rw [hkind] at hbracket
              dsimp only at hbracket ⊢
              split_ifs
              · rfl
              · exact ih h (by omega) (by omega)
          | _ =>
              rw [hkind] at hbracket
              exact ih h hdepth (by omega)

lemma afterBrackets_isSome_of_paren {prev : Option Lexeme} {inHeader : Bool} {frames : List Frame}
    {l : Lexeme} {ls : List Lexeme} (h : framesAfter prev inHeader frames (l :: ls) = some [])
    (hl : l.kind = .opener .paren) : (afterBrackets 0 (l :: ls)).isSome := by
  rw [framesAfter] at h
  cases happly : (roleOf prev inHeader l ls).apply frames with
  | error problem => simp [happly] at h
  | ok frames' =>
      rw [happly] at h
      have hbracket := bracketCount_apply happly
      rw [hl] at hbracket
      dsimp only at hbracket
      rw [afterBrackets, hl]
      exact afterBrackets_isSome h (by omega) (by omega)

/-- A lexeme with which neither the name, the parameters nor the value of a
method begins or goes on. -/
def Lexeme.endsDefinition (l : Lexeme) : Bool :=
  l.kind ≠ .space && l.kind ≠ .opener .paren && l.kind ≠ .operator

lemma beginsValue_append_feed (ls following : List Lexeme) :
    beginsValue (ls ++ lineFeed :: following) = beginsValue ls := by
  rw [beginsValue, beginsValue, List.dropWhile_append]
  split_ifs with hblank
  · rw [List.isEmpty_iff.1 hblank]
    rfl
  · rw [List.head?_append_of_ne_nil _ (by simpa using hblank)]

lemma afterMethodName_append_of_none {named : Bool} {ls : List Lexeme}
    (h : afterMethodName named ls = none) (following : List Lexeme) :
    ∃ named', afterMethodName named (ls ++ following) = afterMethodName named' following := by
  induction ls generalizing named with
  | nil => exact ⟨named, rfl⟩
  | cons l ls ih =>
      rw [afterMethodName] at h
      rw [List.cons_append, afterMethodName]
      split_ifs at h ⊢
      · exact ih h
      · exact ih h
      · exact ih h

/-- A `def` in an accepted list of lexemes never looks past the end of the list. -/
lemma isEndless_append_feed {prev : Option Lexeme} {inHeader : Bool} {frames : List Frame}
    {ls : List Lexeme} (h : framesAfter prev inHeader frames ls = some []) {l : Lexeme}
    (hl : l.endsDefinition = true) (following : List Lexeme) :
    isEndless (ls ++ lineFeed :: l :: following) = isEndless ls := by
  simp only [Lexeme.endsDefinition, Bool.and_eq_true, decide_eq_true_eq] at hl
  obtain ⟨⟨hspace, hparen⟩, hoperator⟩ := hl
  cases hname : afterMethodName false ls with
  | some rest =>
      obtain ⟨l', tail, rfl, hl', hsuffix⟩ := exists_of_afterMethodName hname
      rw [isEndless_of_afterMethodName hname,
        isEndless_of_afterMethodName (afterMethodName_append hname _)]
      split_ifs with hopener
      · obtain ⟨prev', inHeader', frames', hrest⟩ := framesAfter_of_suffix h hsuffix
        obtain ⟨value, hvalue⟩ :=
          Option.isSome_iff_exists.mp (afterBrackets_isSome_of_paren hrest hopener)
        have happend := afterBrackets_append hvalue (lineFeed :: l :: following)
        rw [hvalue, Option.any_some, ← beginsValue_append_feed value (l :: following),
          ← Option.any_some (p := beginsValue), ← happend]
        rfl
      · rw [beginsValue_cons_of_ne hl' tail]
        exact beginsValue_cons_of_ne hl' _
  | none =>
      have hnone : isEndless ls = false := by rw [isEndless, hname]
      obtain ⟨named, hnamed⟩ := afterMethodName_append_of_none hname (lineFeed :: l :: following)
      rw [hnone]
      cases named with
      | true =>
          have hfeed : afterMethodName true (lineFeed :: l :: following) =
              some (lineFeed :: l :: following) := rfl
          rw [hfeed] at hnamed
          rw [isEndless_of_afterMethodName hnamed]
          rfl
      | false =>
          have hfeed : afterMethodName false (lineFeed :: l :: following) =
              some (l :: following) := by
            simp [afterMethodName, lineFeed, hspace, Lexeme.isOperator, hoperator]
          rw [hfeed] at hnamed
          rw [isEndless_of_afterMethodName hnamed, if_neg hparen, beginsValue_cons_of_ne hspace]
          simp [Lexeme.isOperator, hoperator]

lemma roleOf_append_feed {prev prev' : Option Lexeme} {inHeader : Bool} {frames : List Frame}
    {ls : List Lexeme} (h : framesAfter prev inHeader frames ls = some []) {l : Lexeme}
    (hl : l.endsDefinition = true) (inHeader' : Bool) (l' : Lexeme) (following : List Lexeme) :
    roleOf prev' inHeader' l' (ls ++ lineFeed :: l :: following) =
      roleOf prev' inHeader' l' ls := by
  simp only [roleOf, keywordRole, isEndless_append_feed h hl]

/-- Accepted lexemes open and close nothing in front of a line feed and a token that ends
definitions. -/
lemma framesAfter_fragment {prev : Option Lexeme} {inHeader : Bool} {frames : List Frame}
    {ls : List Lexeme} (h : framesAfter prev inHeader frames ls = some []) {l : Lexeme}
    (hl : l.endsDefinition = true) (base : List Frame) (following : List Lexeme) :
    framesAfter prev inHeader (frames ++ base) (ls ++ lineFeed :: l :: following) =
      framesAfter none false base (l :: following) := by
  induction ls generalizing prev inHeader frames with
  | nil =>
      obtain rfl : frames = [] := by simpa [framesAfter] using h
      exact framesAfter_feed prev inHeader base (l :: following)
  | cons l' ls ih =>
      rw [framesAfter] at h
      rw [List.cons_append, framesAfter]
      cases happly : (roleOf prev inHeader l' ls).apply frames with
      | error problem => simp [happly] at h
      | ok frames' =>
          rw [happly] at h
          rw [roleOf_append_feed h hl, Role.apply_append happly]
          exact ih h

/-- An accepted source opens and closes nothing in front of a line feed and a token that ends
definitions. -/
theorem nests_fragment {before after : List Frame} {code ls : List Lexeme} {l : Lexeme}
    (h : framesAfter none false [] code = some []) (hl : l.endsDefinition = true)
    (hls : Nests before (l :: ls) after) : Nests before (code ++ lineFeed :: l :: ls) after := by
  intro base following
  rw [← hls, List.append_assoc]
  exact framesAfter_fragment h hl (before ++ base) (ls ++ following)

end ConverterAssembly.Ruby
