import ConverterAssembly.Proofs.Ruby.Levels
import ConverterAssembly.Proofs.Ruby.Reformat
import ConverterAssembly.Proofs.Ruby.Separators
import ConverterAssembly.Ruby.Pretty

/-!
# One statement a line

Where statements are broken, the lines of a source are its statements, each with the line feed or
the semicolon that ends it.  In readable form every one of them has a line feed, and those that hold
nothing are gone.

**Lines.**  `Line.broken` has a line feed in the place of the semicolon at the end of a line, and
`Settles` takes all lines of a source to those in readable form.

**Margins.**  `outdented` gives lines the margins that they have without the wrapper.  A line stands
at the level where it stood before it was broken (`Line.steps_broken`).

**Invariance.**  Neither changes the statements, nor what acts and its roles
(`Settles.statements_eq`, `Settles.acting_eq`), so both follow for the tokens of the result.
-/

namespace ConverterAssembly.Ruby

open Text

/-! ## Lines -/

/-- The tokens of a line and what ends it. -/
def Line.withTerminator (line : Line) : List (Token × Role) :=
  line.tokens ++ line.terminator.toList.map (·, Role.neutral)

/-- All tokens of lines. -/
def tokensIn (lines : List Line) : List (Token × Role) :=
  lines.flatMap Line.withTerminator

/-- The text of lines. -/
def textIn (lines : List Line) : Text :=
  (tokensIn lines).flatMap (·.1.text)

@[simp]
lemma tokensIn_nil : tokensIn [] = [] := rfl

@[simp]
lemma tokensIn_cons (line : Line) (lines : List Line) :
    tokensIn (line :: lines) = line.withTerminator ++ tokensIn lines := rfl

@[simp]
lemma textIn_nil : textIn [] = [] := rfl

@[simp]
lemma textIn_cons (line : Line) (lines : List Line) :
    textIn (line :: lines) = line.withTerminator.flatMap (·.1.text) ++ textIn lines :=
  List.flatMap_append

@[simp]
lemma tokensIn_append (a b : List Line) : tokensIn (a ++ b) = tokensIn a ++ tokensIn b :=
  List.flatMap_append

lemma textIn_eq (lines : List Line) :
    textIn lines = (lexemesIn (tokensIn lines)).flatMap (·.text) := by
  rw [textIn, lexemesIn, List.flatMap_map]

/-- The token that ends the last of some lines. -/
def lastTerminator (lines : List Line) : Option Token :=
  lines.getLast?.bind (·.terminator)

lemma lastTerminator_singleton (line : Line) : lastTerminator [line] = line.terminator := rfl

lemma lastTerminator_cons (line : Line) {lines : List Line} (h : lines ≠ []) :
    lastTerminator (line :: lines) = lastTerminator lines := by
  obtain ⟨next, rest, rfl⟩ := List.exists_cons_of_ne_nil h
  rw [lastTerminator, List.getLast?_cons_cons, lastTerminator]

lemma ne_nil_of_lastTerminator {lines : List Line} {n : Token} (h : lastTerminator lines = some n) :
    lines ≠ [] := by
  rintro rfl
  cases h

/-- The tokens of lines that end with a line feed. -/
lemma exists_lexemesIn_eq {lines : List Line} {n : Token} (h : lastTerminator lines = some n)
    (hn : n.toLexeme = lineFeed) : ∃ ls, lexemesIn (tokensIn lines) = ls ++ [lineFeed] := by
  obtain ⟨last, hlast, hterminator⟩ := Option.bind_eq_some_iff.1 h
  obtain ⟨init, rfl⟩ := List.getLast?_eq_some_iff.1 hlast
  refine ⟨lexemesIn (tokensIn init) ++ lexemesIn last.tokens, ?_⟩
  simp [lexemesIn, Line.withTerminator, hterminator, hn]

/-- The text of lines that end with a line feed. -/
lemma exists_textIn_eq {lines : List Line} {n : Token} (h : lastTerminator lines = some n)
    (hn : n.toLexeme = lineFeed) : ∃ text, textIn lines = text ++ ['\n'] := by
  obtain ⟨ls, hls⟩ := exists_lexemesIn_eq h hn
  refine ⟨ls.flatMap (·.text), ?_⟩
  rw [textIn_eq, hls, List.flatMap_append]
  rfl

namespace Line

variable (line : Line)

lemma withTerminator_eq : line.withTerminator = line.lead ++ line.rest := by
  rw [withTerminator, rest, ← List.append_assoc, lead, visible, List.takeWhile_append_dropWhile]

/-- A line feed token without a place. -/
def feed : Token :=
  ⟨lineFeed, 0, 0⟩

/-- Whether a semicolon ends a line. -/
def endsStatement : Bool :=
  line.terminator.any (·.kind = .semicolon)

/-- A line with a line feed in the place of the semicolon that ends it, and of the blanks before. -/
def broken : Line :=
  if line.endsStatement then ⟨line.tokens.rdropWhile (!isSolid ·), some feed⟩ else line

variable {line}

lemma terminator_broken {n : Token} (h : line.terminator = some n) (hn : n.kind = .semicolon) :
    line.broken.terminator = some feed := by
  rw [broken, if_pos (by simp [endsStatement, h, hn])]

lemma broken_of_newline {n : Token} (h : line.terminator = some n) (hn : n.kind = .newline) :
    line.broken = line :=
  if_neg (by simp [endsStatement, h, hn])

variable (line) in
/-- Breaking a line takes nothing but blanks from its tokens. -/
lemma exists_blanks :
    ∃ blanks, line.tokens = line.broken.tokens ++ blanks ∧ ∀ t ∈ blanks, t.1.kind = .space := by
  rw [broken]
  split_ifs
  · refine ⟨line.tokens.rtakeWhile (!isSolid ·), List.rdropWhile_append_rtakeWhile.symm, ?_⟩
    intro t ht
    simpa [isSolid] using List.mem_rtakeWhile_imp ht
  · exact ⟨[], (List.append_nil _).symm, by simp⟩

/-- A line that is not blank keeps what is visible of it, and the blanks before. -/
lemma visible_broken (h : line.isBlank = false) {blanks : List (Token × Role)}
    (htokens : line.tokens = line.broken.tokens ++ blanks)
    (hblanks : ∀ t ∈ blanks, t.1.kind = .space) :
    line.visible = line.broken.visible ++ blanks ∧ line.broken.visible ≠ [] ∧
      line.broken.lead = line.lead := by
  have hnone : blanks.dropWhile (·.1.kind = .space) = [] := by
    simpa [List.dropWhile_eq_nil_iff] using hblanks
  have hsplit : line.broken.lead ++ line.broken.visible = line.broken.tokens :=
    List.takeWhile_append_dropWhile
  cases hvisible : line.broken.visible with
  | nil =>
      rw [isBlank, visible, htokens, List.dropWhile_append, ← visible, hvisible, hnone] at h
      simp at h
  | cons t visible =>
      have hline : line.visible = t :: visible ++ blanks := by
        rw [Line.visible, htokens, List.dropWhile_append, ← Line.visible, hvisible]
        rfl
      refine ⟨hline, List.cons_ne_nil _ _, ?_⟩
      have hall : line.lead ++ line.visible = line.tokens := List.takeWhile_append_dropWhile
      rw [hline, htokens, ← hsplit, hvisible, List.append_assoc] at hall
      exact (List.append_cancel_right hall).symm

/-- The tokens of a blank line are blanks. -/
lemma kind_of_isBlank (h : line.isBlank = true) : ∀ t ∈ line.tokens, t.1.kind = .space := by
  have hvisible : line.visible = [] := by simpa [isBlank] using h
  simpa [visible, List.dropWhile_eq_nil_iff] using hvisible

lemma visible_of_isBlank (h : line.isBlank = true) : line.visible = [] := by
  simpa [isBlank] using h

end Line

/-- What the layout of a line needs to know of it: comments and blanks have no role, no token before
the last ends a statement, and there is no placeholder. -/
structure Line.Sound (line : Line) : Prop where
  neutral : TriviaNeutral line.tokens
  unbroken : ∀ t ∈ line.tokens, t.1.isBreak = false
  unmarked : placeholder ∉ line.text

/-- A sound line with a line feed of its own. -/
structure Line.Whole (line : Line) : Prop extends line.Sound where
  ended : ∃ n, line.terminator = some n ∧ n.kind = .newline ∧ n.text.getLast? = some '\n'

/-- Lines and those that are left of them when each statement has a line feed; `pending` tells that
the statement before ended with a semicolon. -/
inductive Settles : (pending : Bool) → List Line → List Line → Prop
  | nil : Settles false [] []
  /-- An empty statement. -/
  | empty {pending : Bool} {line : Line} {n : Token} {lines settled : List Line}
      (sound : line.Sound) (blank : line.isBlank = true) (terminator : line.terminator = some n)
      (kind : n.kind = .semicolon) (tail : Settles pending lines settled) :
      Settles pending (line :: lines) settled
  /-- Nothing between a semicolon and the end of the line. -/
  | swallowed {line : Line} {n : Token} {lines settled : List Line}
      (sound : line.Sound) (blank : line.isBlank = true) (terminator : line.terminator = some n)
      (spelled : n.toLexeme = lineFeed) (tail : Settles false lines settled) :
      Settles true (line :: lines) settled
  /-- A line that has a line feed. -/
  | kept {pending : Bool} {line : Line} {n : Token} {lines settled : List Line}
      (sound : line.Sound)
      (behind : pending = true → line.isBlank = false ∧ line.isUnindented = false)
      (terminator : line.terminator = some n) (kind : n.kind = .newline)
      (ends : n.text.getLast? = some '\n') (tail : Settles false lines settled) :
      Settles pending (line :: lines) (line :: settled)
  /-- A statement that gets one. -/
  | broken {pending : Bool} {line : Line} {n : Token} {lines settled : List Line}
      (sound : line.Sound) (visible : line.isBlank = false)
      (behind : pending = true → line.isUnindented = false)
      (terminator : line.terminator = some n) (kind : n.kind = .semicolon)
      (trimmed : trimEnd line.body = line.broken.body) (tail : Settles true lines settled) :
      Settles pending (line :: lines) (line.broken :: settled)

/-! ## Margins -/

/-- The number of levels that a line is indented by. -/
def Line.steps (line : Line) (height : Nat) : Nat :=
  if line.isBlank || line.isUnindented then 0 else line.level height

lemma Layout.margin_eq (layout : Layout) (line : Line) (height : Nat) :
    layout.margin line height =
      List.replicate (line.steps height * layout.indentCount) layout.indentChar := by
  unfold margin indentation Line.steps
  by_cases hblank : line.isBlank = true
  · simp [hblank]
  · by_cases hunindented : line.isUnindented = true
    · simp [hunindented]
    · simp [hblank, hunindented, Text.times, unit, List.flatten_replicate_replicate]

/-- The margin of a line that stands one level further in than it will in the end. -/
def Line.outerMargin (line : Line) (indentCount height : Nat) : Text :=
  List.replicate ((line.steps height - 1) * indentCount) ' '

/-- Lines with the margins that they have without the level of the wrapper. -/
def outdented (indentCount : Nat) : (height : Nat) → List Line → List Line
  | _, [] => []
  | height, line :: lines =>
    ⟨blankTokens (line.outerMargin indentCount height) ++ line.visible, line.terminator⟩ ::
      outdented indentCount (heightAfter height line.tokens) lines

namespace Line

variable (line : Line) (indentCount height : Nat)

lemma isGap_of_mem_outerMargin : ∀ c ∈ line.outerMargin indentCount height, isGap c = true := by
  intro c hc
  rw [List.eq_of_mem_replicate hc]
  rfl

lemma outerMargin_of_steps {line : Line} (h : line.isBlank = true ∨ line.isUnindented = true) :
    line.outerMargin indentCount height = [] := by
  have hsteps : line.steps height = 0 := by
    rcases h with h | h <;> simp [steps, h]
  rw [outerMargin, hsteps, Nat.zero_sub, Nat.zero_mul, List.replicate_zero]

/-- A margin in front of a line does not change what is visible of it. -/
lemma visible_behind_margin (margin : Text) (terminator : Option Token) :
    Line.visible ⟨blankTokens margin ++ line.visible, terminator⟩ = line.visible := by
  have hvisible : line.visible = line.tokens.dropWhile (!isSolid ·) :=
    visible_eq line.tokens line.terminator
  rw [visible_eq, hvisible, dropWhile_blankTokens_append]

lemma steps_behind_margin (margin : Text) (terminator : Option Token) :
    Line.steps ⟨blankTokens margin ++ line.visible, terminator⟩ height = line.steps height := by
  have hlevel : ∀ line : Line, line.level height = levelFrom height height line.visible := by
    intro line
    rw [level, ← levelFrom_dropWhile, ← visible_eq line.tokens line.terminator]
  simp only [steps, isBlank, isUnindented, hlevel, visible_behind_margin]

lemma heightAfter_behind_margin {line : Line} (h : BlanksNeutral line.tokens) (margin : Text) :
    heightAfter height (blankTokens margin ++ line.visible) = heightAfter height line.tokens := by
  have hneutral : BlanksNeutral (blankTokens margin ++ line.visible) := by
    intro t ht hspace
    rcases List.mem_append.1 ht with ht | ht
    · rw [of_mem_blankTokens ht]
    · exact h t ((List.dropWhile_suffix _).subset ht) hspace
  rw [← heightAfter_filter height hneutral, ← heightAfter_filter height h, List.filter_append,
    filter_blankTokens, List.nil_append, show line.visible = line.tokens.dropWhile (!isSolid ·) from
      visible_eq line.tokens line.terminator, filter_dropWhile]

end Line

lemma TriviaNeutral.blanksNeutral {tokens : List (Token × Role)} (h : TriviaNeutral tokens) :
    BlanksNeutral tokens :=
  fun t ht hspace => h t ht (by simp [Lexeme.isTrivia, hspace])

/-- New margins for lines that have them change nothing. -/
lemma outdented_outdented (indentCount height : Nat) {lines : List Line}
    (h : ∀ line ∈ lines, BlanksNeutral line.tokens) :
    outdented indentCount height (outdented indentCount height lines) =
      outdented indentCount height lines := by
  induction lines generalizing height with
  | nil => rfl
  | cons line lines ih =>
      obtain ⟨hline, hlines⟩ := List.forall_mem_cons.1 h
      rw [outdented, outdented, Line.visible_behind_margin, Line.heightAfter_behind_margin _ hline,
        Line.outerMargin, Line.steps_behind_margin, ← Line.outerMargin, ih _ hlines]

/-- The tokens and the text of a line with a new margin. -/
lemma withTerminator_behind_margin (line : Line) (margin : Text) :
    lexemesIn (Line.withTerminator ⟨blankTokens margin ++ line.visible, line.terminator⟩) =
        marginLexemes margin ++ lexemesIn line.rest ∧
      (Line.withTerminator ⟨blankTokens margin ++ line.visible, line.terminator⟩).flatMap
          (·.1.text) =
        margin ++ line.text := by
  have hline : Line.withTerminator ⟨blankTokens margin ++ line.visible, line.terminator⟩ =
      blankTokens margin ++ line.rest := by
    rw [Line.withTerminator, List.append_assoc, Line.rest]
  rw [hline]
  constructor
  · rw [lexemesIn_append]
    rfl
  · rw [List.flatMap_append, flatMap_blankTokens, ← text_rest, lexemesIn, List.flatMap_map]

/-- Whole lines stay whole under new margins. -/
lemma whole_of_mem_outdented {indentCount height : Nat} {lines : List Line}
    (h : ∀ line ∈ lines, line.Whole) : ∀ line ∈ outdented indentCount height lines, line.Whole := by
  induction lines generalizing height with
  | nil => simp [outdented]
  | cons line lines ih =>
      obtain ⟨⟨⟨hneutral, hunbroken, hunmarked⟩, hended⟩, hlines⟩ := List.forall_mem_cons.1 h
      set margin := line.outerMargin indentCount height with hmargin
      have hmem : ∀ t ∈ blankTokens margin ++ line.visible, t.1.kind = .space ∧ t.2 = .neutral ∨
          t ∈ line.tokens := by
        intro t ht
        rcases List.mem_append.1 ht with ht | ht
        · rw [of_mem_blankTokens ht]
          exact .inl ⟨rfl, rfl⟩
        · exact .inr ((List.dropWhile_suffix _).subset ht)
      refine List.forall_mem_cons.2 ⟨⟨⟨?_, ?_, ?_⟩, hended⟩, ih hlines⟩
      · intro t ht htrivia
        rcases hmem t ht with ⟨-, hrole⟩ | ht
        · exact hrole
        · exact hneutral t ht htrivia
      · intro t ht
        rcases hmem t ht with ⟨hspace, -⟩ | ht
        · simp [Lexeme.isBreak, hspace]
        · exact hunbroken t ht
      · rwa [Line.text, Line.body, Line.visible_behind_margin]

/-- New margins do not change how the last line ends. -/
lemma lastTerminator_outdented (indentCount height : Nat) (lines : List Line) :
    lastTerminator (outdented indentCount height lines) = lastTerminator lines := by
  induction lines generalizing height with
  | nil => rfl
  | cons line lines ih =>
      cases lines with
      | nil => rfl
      | cons next lines =>
          rw [lastTerminator_cons line (List.cons_ne_nil _ _), outdented,
            lastTerminator_cons _ (by simp [outdented]), ih]

/-! ## Broken lines -/

/-- Blanks at the end of a line do not change its level. -/
lemma levelFrom_append_blanks (level height : Nat) (tokens : List (Token × Role))
    {blanks : List (Token × Role)} (h : ∀ t ∈ blanks, t.1.kind = .space) :
    levelFrom level height (tokens ++ blanks) = levelFrom level height tokens := by
  induction tokens generalizing level height with
  | nil =>
      have hnone : blanks.dropWhile (!isSolid ·) = [] := by
        rw [List.dropWhile_eq_nil_iff]
        intro t ht
        simp [isSolid, h t ht]
      rw [List.nil_append, ← levelFrom_dropWhile, hnone]
  | cons t tokens ih => simp only [List.cons_append, levelFrom, ih]

lemma heightAfter_of_blanks (height : Nat) {blanks : List (Token × Role)}
    (h : ∀ t ∈ blanks, t.1.kind = .space) (hneutral : BlanksNeutral blanks) :
    heightAfter height blanks = height := by
  have hnone : blanks.filter isSolid = [] := by
    rw [List.filter_eq_nil_iff]
    intro t ht
    simp [isSolid, h t ht]
  rw [← heightAfter_filter height hneutral, hnone]
  rfl

namespace Line

variable {line : Line}

lemma isUnindented_broken (hvisible : line.isBlank = false) :
    line.broken.isUnindented = line.isUnindented := by
  obtain ⟨blanks, htokens, hblanks⟩ := line.exists_blanks
  obtain ⟨hsplit, hne, -⟩ := visible_broken hvisible htokens hblanks
  obtain ⟨t, visible, hcons⟩ := List.exists_cons_of_ne_nil hne
  rw [isUnindented, isUnindented, hsplit, hcons]
  rfl

/-- A line has the same level with a line feed in the place of its semicolon. -/
lemma steps_broken (hvisible : line.isBlank = false) (height : Nat) :
    line.broken.steps height = line.steps height := by
  obtain ⟨blanks, htokens, hblanks⟩ := line.exists_blanks
  obtain ⟨-, hne, -⟩ := visible_broken hvisible htokens hblanks
  have hvisible' : line.broken.isBlank = false := by simpa [isBlank] using hne
  have hlevel : line.broken.level height = line.level height := by
    rw [level, level, htokens, levelFrom_append_blanks _ _ _ hblanks]
  rw [steps, steps, hvisible, hvisible', isUnindented_broken hvisible, hlevel]

/-- The lines after it stand where they stood. -/
lemma heightAfter_broken (hneutral : BlanksNeutral line.tokens) (height : Nat) :
    heightAfter height line.broken.tokens = heightAfter height line.tokens := by
  obtain ⟨blanks, htokens, hblanks⟩ := line.exists_blanks
  rw [htokens] at hneutral
  rw [htokens, heightAfter, heightAfter, List.foldl_append]
  exact (heightAfter_of_blanks _ hblanks fun t ht => hneutral t (List.mem_append_right _ ht)).symm

end Line

/-! ## Invariance -/

/-- A token with its role, without its place. -/
def part (t : Token × Role) : Lexeme × Role :=
  (t.1.toLexeme, t.2)

lemma map_fst_part (tokens : List (Token × Role)) :
    (tokens.map part).map (·.1) = lexemesIn tokens :=
  List.map_map ..

lemma acting_append (a b : List (Lexeme × Role)) : acting (a ++ b) = acting a ++ acting b :=
  List.filter_append ..

lemma acting_of_blanks {blanks : List (Token × Role)} (h : ∀ t ∈ blanks, t.1.kind = .space) :
    acting (blanks.map part) = [] := by
  rw [acting, List.filter_eq_nil_iff]
  intro p hp
  obtain ⟨t, ht, rfl⟩ := List.mem_map.1 hp
  simp [part, Lexeme.acts, h t ht]

/-- What acts in a line acts among its visible tokens. -/
lemma acting_line (line : Line) (hbreak : ∀ n ∈ line.terminator, n.isBreak = true) :
    acting (line.withTerminator.map part) = acting (line.visible.map part) := by
  have hlead : acting (line.lead.map part) = [] :=
    acting_of_blanks fun t ht => by simpa using List.mem_takeWhile_imp ht
  have hend : acting ((line.terminator.toList.map (·, Role.neutral)).map part) = [] := by
    cases hterminator : line.terminator with
    | none => rfl
    | some n => exact acting_cons_of_not_acts (by simp [Lexeme.acts, hbreak n hterminator]) _ _
  rw [Line.withTerminator_eq, Line.rest, List.map_append, List.map_append, acting_append,
    acting_append, hlead, hend, List.nil_append, List.append_nil]

lemma statementsFrom_append_of_blanks {blanks : List Lexeme} (h : ∀ l ∈ blanks, l.kind = .space)
    (pause : Pause) (ls : List Lexeme) :
    statementsFrom pause (blanks ++ ls) = statementsFrom pause ls := by
  induction blanks with
  | nil => rfl
  | cons l blanks ih =>
      obtain ⟨hl, hblanks⟩ := List.forall_mem_cons.1 h
      rw [List.cons_append, statementsFrom_cons_of_space _ hl, ih hblanks]

/-- Statements go on alike behind the same lexemes. -/
lemma statementsFrom_append_congr {a b : List Lexeme}
    (h : ∀ pause, statementsFrom pause a = statementsFrom pause b) (pause : Pause)
    (ls : List Lexeme) :
    statementsFrom pause (ls ++ a) = statementsFrom pause (ls ++ b) := by
  induction ls generalizing pause with
  | nil => exact h pause
  | cons l ls ih =>
      rw [List.cons_append, List.cons_append, statementsFrom, statementsFrom, ih, ih, ih, ih]

/-- What follows a break matters only where no statement has begun. -/
lemma statementsFrom_cons_break {n : Lexeme} (hn : n.isBreak = true) {a b : List Lexeme}
    (h : ∀ pause, pause ≠ .within → statementsFrom pause a = statementsFrom pause b)
    (pause : Pause) :
    statementsFrom pause (n :: a) = statementsFrom pause (n :: b) := by
  have hpause : (if pause = .within then Pause.due else pause) ≠ .within := by
    cases pause <;> decide
  have hspace : n.kind ≠ .space := by
    simp only [Lexeme.isBreak, Bool.or_eq_true, decide_eq_true_eq] at hn
    rcases hn with hn | hn <;> simp [hn]
  have hacts : ¬ n.acts = true := by simp [Lexeme.acts, hn]
  rcases n.forms with h' | hseparator | ⟨hnewline, hbodies⟩ | h'
  · exact absurd h' hspace
  · rw [statementsFrom_cons_of_isSeparator _ hseparator,
      statementsFrom_cons_of_isSeparator _ hseparator, h _ hpause]
  · rw [statementsFrom_cons_of_newline _ hnewline hbodies,
      statementsFrom_cons_of_newline _ hnewline hbodies, h .fresh (by decide)]
  · exact absurd h' hacts

/-- The lexemes of a line. -/
lemma lexemesIn_withTerminator {line : Line} {n : Token} (h : line.terminator = some n) :
    lexemesIn line.withTerminator = lexemesIn line.tokens ++ [n.toLexeme] := by
  simp [Line.withTerminator, lexemesIn, h]

lemma kind_of_mem_lexemesIn {blanks : List (Token × Role)} (h : ∀ t ∈ blanks, t.1.kind = .space) :
    ∀ l ∈ lexemesIn blanks, l.kind = .space := by
  intro l hl
  obtain ⟨t, ht, rfl⟩ := List.mem_map.1 hl
  exact h t ht

/-- Empty statements have no part in the statements of a source. -/
lemma statementsFrom_blank_line {line : Line} {n : Token} (hblank : line.isBlank = true)
    (hterminator : line.terminator = some n) (hn : n.isSeparator = true) {pause : Pause}
    (hpause : pause ≠ .within) (ls : List Lexeme) :
    statementsFrom pause (lexemesIn line.withTerminator ++ ls) = statementsFrom pause ls := by
  rw [lexemesIn_withTerminator hterminator, List.append_assoc, List.singleton_append,
    statementsFrom_append_of_blanks (kind_of_mem_lexemesIn (Line.kind_of_isBlank hblank)),
    statementsFrom_cons_of_isSeparator _ hn, if_neg hpause]

namespace Settles

variable {pending : Bool} {lines settled : List Line}

/-- Settled lines hold the same statements. -/
lemma statementsFrom_eq (h : Settles pending lines settled) {pause : Pause}
    (hpause : pause ≠ .within) :
    statementsFrom pause (lexemesIn (tokensIn settled)) =
      statementsFrom pause (lexemesIn (tokensIn lines)) := by
  induction h generalizing pause with
  | nil => rfl
  | empty sound blank terminator kind tail ih =>
      rw [tokensIn_cons, lexemesIn_append, ih hpause,
        statementsFrom_blank_line blank terminator (by simp [Lexeme.isSeparator, kind]) hpause]
  | swallowed sound blank terminator spelled tail ih =>
      rw [tokensIn_cons, lexemesIn_append, ih hpause,
        statementsFrom_blank_line blank terminator (by simp [Lexeme.isSeparator, spelled]) hpause]
  | kept sound behind terminator kind ends tail ih =>
      rw [tokensIn_cons, tokensIn_cons, lexemesIn_append, lexemesIn_append,
        lexemesIn_withTerminator terminator, List.append_assoc, List.append_assoc]
      refine statementsFrom_append_congr (fun pause => ?_) _ _
      exact statementsFrom_cons_break (by simp [Lexeme.isBreak, kind])
        (fun _ hpause => ih hpause) pause
  | @broken _ line n lines settled sound visible behind terminator kind trimmed tail ih =>
      obtain ⟨blanks, htokens, hblanks⟩ := line.exists_blanks
      have hbroken := Line.terminator_broken terminator kind
      have hsplit : lexemesIn line.tokens = lexemesIn line.broken.tokens ++ lexemesIn blanks := by
        rw [htokens, lexemesIn_append]
      rw [tokensIn_cons, tokensIn_cons, lexemesIn_append, lexemesIn_append,
        lexemesIn_withTerminator hbroken, lexemesIn_withTerminator terminator, hsplit,
        List.append_assoc, List.append_assoc, List.append_assoc]
      refine statementsFrom_append_congr (fun pause => ?_) _ _
      have hseparator : n.isSeparator = true := by simp [Lexeme.isSeparator, kind]
      rw [statementsFrom_append_of_blanks (kind_of_mem_lexemesIn hblanks), List.singleton_append,
        List.singleton_append, statementsFrom_cons_of_isSeparator _ hseparator,
        statementsFrom_cons_of_isSeparator _ (show Line.feed.isSeparator = true from rfl)]
      exact ih (by cases pause <;> decide)

/-- Settled lines hold the same statements. -/
theorem statements_eq (h : Settles pending lines settled) :
    statements (lexemesIn (tokensIn settled)) = statements (lexemesIn (tokensIn lines)) :=
  h.statementsFrom_eq (by decide)

/-- What acts has the same role in settled lines. -/
theorem acting_eq (h : Settles pending lines settled) :
    acting ((tokensIn settled).map part) = acting ((tokensIn lines).map part) := by
  have hempty : ∀ {line : Line} {n : Token}, line.isBlank = true → line.terminator = some n →
      n.isBreak = true → acting (line.withTerminator.map part) = [] := by
    intro line n hblank hterminator hn
    rw [acting_line line (by simp [hterminator, hn]), Line.visible_of_isBlank hblank]
    rfl
  induction h with
  | nil => rfl
  | empty sound blank terminator kind tail ih =>
      rw [ih, tokensIn_cons, List.map_append, acting_append,
        hempty blank terminator (by simp [Lexeme.isBreak, kind]), List.nil_append]
  | swallowed sound blank terminator spelled tail ih =>
      rw [ih, tokensIn_cons, List.map_append, acting_append,
        hempty blank terminator (by rw [spelled]; rfl), List.nil_append]
  | kept sound behind terminator kind ends tail ih =>
      rw [tokensIn_cons, tokensIn_cons, List.map_append, List.map_append, acting_append,
        acting_append, ih]
  | @broken _ line n lines settled sound visible behind terminator kind trimmed tail ih =>
      obtain ⟨blanks, htokens, hblanks⟩ := line.exists_blanks
      have hbroken := Line.terminator_broken terminator kind
      obtain ⟨hvisible, -, -⟩ := Line.visible_broken visible htokens hblanks
      have hline : acting (line.broken.withTerminator.map part) =
          acting (line.withTerminator.map part) := by
        rw [acting_line line.broken (by simp [hbroken, Line.feed, lineFeed, Lexeme.isBreak]),
          acting_line line (by simp [terminator, Lexeme.isBreak, kind]), hvisible, List.map_append,
          acting_append, acting_of_blanks hblanks, List.append_nil]
      rw [tokensIn_cons, tokensIn_cons, List.map_append, List.map_append, acting_append,
        acting_append, ih, hline]

/-- Every settled line is whole. -/
lemma whole_of_mem (h : Settles pending lines settled) : ∀ line ∈ settled, line.Whole := by
  induction h with
  | nil => simp
  | empty sound blank terminator kind tail ih => exact ih
  | swallowed sound blank terminator spelled tail ih => exact ih
  | kept sound behind terminator kind ends tail ih =>
      exact List.forall_mem_cons.2 ⟨⟨sound, _, terminator, kind, ends⟩, ih⟩
  | @broken _ line n lines settled sound visible behind terminator kind trimmed tail ih =>
      obtain ⟨blanks, htokens, hblanks⟩ := line.exists_blanks
      have hbroken := Line.terminator_broken terminator kind
      have hsubset : ∀ t ∈ line.broken.tokens, t ∈ line.tokens := by
        intro t ht
        rw [htokens]
        exact List.mem_append_left _ ht
      refine List.forall_mem_cons.2 ⟨⟨⟨?_, ?_, ?_⟩, Line.feed, hbroken, rfl, rfl⟩, ih⟩
      · exact fun t ht => sound.neutral t (hsubset t ht)
      · exact fun t ht => sound.unbroken t (hsubset t ht)
      · intro hmem
        rw [Line.text, hbroken, ← trimmed, List.mem_append] at hmem
        rcases hmem with hmem | hmem
        · exact sound.unmarked (List.mem_append_left _
            ((List.rdropWhile_prefix isBlank _).subset hmem))
        · exact absurd hmem (by decide)

/-- Whole lines are settled. -/
lemma of_whole (h : ∀ line ∈ lines, line.Whole) : Settles false lines lines := by
  induction lines with
  | nil => exact .nil
  | cons line lines ih =>
      obtain ⟨⟨hsound, n, hterminator, hkind, hends⟩, hlines⟩ := List.forall_mem_cons.1 h
      exact .kept hsound (by simp) hterminator hkind hends (ih hlines)

/-- A settled line is one of the lines, with a line feed. -/
lemma exists_eq_broken (h : Settles pending lines settled) :
    ∀ line ∈ settled, ∃ l ∈ lines, line = l.broken := by
  have hlater : ∀ {first : Line} {lines settled : List Line},
      (∀ line ∈ settled, ∃ l ∈ lines, line = l.broken) →
        ∀ line ∈ settled, ∃ l ∈ first :: lines, line = l.broken := by
    intro first lines settled h line hline
    obtain ⟨l, hl, heq⟩ := h line hline
    exact ⟨l, List.mem_cons_of_mem _ hl, heq⟩
  induction h with
  | nil => simp
  | empty sound blank terminator kind tail ih => exact hlater ih
  | swallowed sound blank terminator spelled tail ih => exact hlater ih
  | kept sound behind terminator kind ends tail ih =>
      refine List.forall_mem_cons.2 ⟨⟨_, List.mem_cons_self, ?_⟩, hlater ih⟩
      rw [Line.broken_of_newline terminator kind]
  | broken sound visible behind terminator kind trimmed tail ih =>
      exact List.forall_mem_cons.2 ⟨⟨_, List.mem_cons_self, rfl⟩, hlater ih⟩

/-- Lines that end with a line feed settle as lines that do, or all of them were empty. -/
lemma lastTerminator_eq (h : Settles pending lines settled) {n : Token} (hn : n.toLexeme = lineFeed)
    (hlast : lastTerminator lines = some n) :
    (settled = [] ∧ pending = true) ∨
      ∃ n', lastTerminator settled = some n' ∧ n'.toLexeme = lineFeed := by
  induction h with
  | nil => cases hlast
  | @empty pending line m lines settled sound blank terminator kind tail ih =>
      by_cases hnil : lines = []
      · subst hnil
        rw [lastTerminator_singleton, terminator, Option.some.injEq] at hlast
        rw [hlast, hn] at kind
        cases kind
      · exact ih (lastTerminator_cons line hnil ▸ hlast)
  | @swallowed line m lines settled sound blank terminator spelled tail ih =>
      by_cases hnil : lines = []
      · subst hnil
        cases tail
        exact .inl ⟨rfl, rfl⟩
      · exact .inr ((ih (lastTerminator_cons line hnil ▸ hlast)).resolve_left (by simp))
  | @kept pending line m lines settled sound behind terminator kind ends tail ih =>
      by_cases hnil : lines = []
      · subst hnil
        cases tail
        exact .inr ⟨n, hlast, hn⟩
      · have hsettled := (ih (lastTerminator_cons line hnil ▸ hlast)).resolve_left (by simp)
        obtain ⟨n', hn', hfeed⟩ := hsettled
        rw [lastTerminator_cons line (ne_nil_of_lastTerminator hn')]
        exact .inr ⟨n', hn', hfeed⟩
  | @broken pending line m lines settled sound visible behind terminator kind trimmed tail ih =>
      by_cases hnil : lines = []
      · subst hnil
        rw [lastTerminator_singleton, terminator, Option.some.injEq] at hlast
        rw [hlast, hn] at kind
        cases kind
      · right
        rcases ih (lastTerminator_cons line hnil ▸ hlast) with ⟨rfl, -⟩ | hsettled
        · exact ⟨Line.feed, Line.terminator_broken terminator kind, rfl⟩
        · obtain ⟨n', hn', hfeed⟩ := hsettled
          rw [lastTerminator_cons line.broken (ne_nil_of_lastTerminator hn')]
          exact ⟨n', hn', hfeed⟩

end Settles

/-- New margins change no statement. -/
lemma statementsFrom_outdented (indentCount height : Nat) (lines : List Line) (pause : Pause) :
    statementsFrom pause (lexemesIn (tokensIn (outdented indentCount height lines))) =
      statementsFrom pause (lexemesIn (tokensIn lines)) := by
  induction lines generalizing height pause with
  | nil => rfl
  | cons line lines ih =>
      set margin := line.outerMargin indentCount height with hmargin
      have hblanks : ∀ t ∈ blankTokens margin, t.1.kind = .space := by
        intro t ht
        rw [of_mem_blankTokens ht]
      rw [outdented, ← hmargin, tokensIn_cons, tokensIn_cons, lexemesIn_append,
        (withTerminator_behind_margin line margin).1, line.withTerminator_eq]
      simp only [lexemesIn_append, List.append_assoc]
      rw [marginLexemes, ← lexemesIn, statementsFrom_append_of_blanks
        (kind_of_mem_lexemesIn hblanks), statementsFrom_append_of_blanks kind_of_mem_lead]
      exact statementsFrom_append_congr (ih _) _ _

/-- New margins change nothing that acts. -/
lemma acting_outdented (indentCount height : Nat) {lines : List Line}
    (h : ∀ line ∈ lines, ∀ n ∈ line.terminator, n.isBreak = true) :
    acting ((tokensIn (outdented indentCount height lines)).map part) =
      acting ((tokensIn lines).map part) := by
  induction lines generalizing height with
  | nil => rfl
  | cons line lines ih =>
      obtain ⟨hline, hlines⟩ := List.forall_mem_cons.1 h
      rw [outdented, tokensIn_cons, tokensIn_cons, List.map_append, List.map_append, acting_append,
        acting_append, ih _ hlines, acting_line line hline,
        acting_line ⟨blankTokens (line.outerMargin indentCount height) ++ line.visible, _⟩ hline,
        Line.visible_behind_margin]

end ConverterAssembly.Ruby
