import ConverterAssembly.Proofs.Ruby.Levels
import ConverterAssembly.Proofs.Ruby.Margins
import ConverterAssembly.Proofs.Ruby.Matching
import ConverterAssembly.Proofs.Ruby.Numbering

/-!
# Indentation by matching

The printer finds the level of a line with a counter that goes up and down with the tokens.  In a
source that the nesting check accepts, the level can be told from the openers and closers alone
(`StandsAt`): a line that begins with closers or sections stands where the opener of the last of
them stands, and any other line inside all that is open where it starts.

**One line.**  `levelFrom_eq` reads the counter off the last token of the run that a line begins
with, so that the line stands at its level (`Line.standsAt_level`).

**Lines in the source.**  `Layout.exists_of_splitLines` finds the tokens of a line among those of
the source, and `Layout.writeLines_append` its text in what is written.

**Sources.**  `format_followsMatching` puts the two together for every line of a source.
-/

namespace ConverterAssembly.Ruby

open Text

/-! ## One line -/

/-- The place of the last token of the closers and sections that a line begins
with, trivia apart. -/
def lastStep? : List (Token × Role) → Option Nat
  | [] => none
  | (token, role) :: rest =>
    if token.isTrivia then (lastStep? rest).map (· + 1)
    else if role.stepsBack then some ((lastStep? rest).elim 0 (· + 1))
    else none

lemma exists_of_lastStep? {tokens : List (Token × Role)} {k : Nat} (h : lastStep? tokens = some k) :
    ∃ run t rest, tokens = run ++ t :: rest ∧ run.length = k ∧ t.2.stepsBack = true := by
  induction tokens generalizing k with
  | nil => cases h
  | cons t tokens ih =>
      rw [lastStep?] at h
      have hlater : ∀ m, lastStep? tokens = some m → k = m + 1 →
          ∃ run u rest, t :: tokens = run ++ u :: rest ∧ run.length = k ∧ u.2.stepsBack = true := by
        rintro m hm rfl
        obtain ⟨run, u, rest, rfl, rfl, hu⟩ := ih hm
        exact ⟨t :: run, u, rest, rfl, rfl, hu⟩
      split_ifs at h with htrivia hback
      · obtain ⟨m, hm, rfl⟩ := Option.map_eq_some_iff.1 h
        exact hlater m hm rfl
      · cases hrest : lastStep? tokens with
        | none =>
            rw [hrest] at h
            obtain rfl := Option.some.inj h
            exact ⟨[], t, tokens, rfl, rfl, hback⟩
        | some m =>
            rw [hrest] at h
            exact hlater m hrest (Option.some.inj h).symm

/-- The level of a line is set last by the last of its leading closers and sections, which steps out
of one frame. -/
lemma levelFrom_eq {tokens : List (Token × Role)} (hneutral : TriviaNeutral tokens)
    (level height : Nat) : levelFrom level height tokens =
      match lastStep? tokens with
      | some k => heightAfter height (tokens.take k) - 1
      | none => level := by
  induction tokens generalizing level height with
  | nil => rfl
  | cons t tokens ih =>
      obtain ⟨token, role⟩ := t
      obtain ⟨ht, htokens⟩ := List.forall_mem_cons.1 hneutral
      simp only [levelFrom, lastStep?]
      by_cases htrivia : token.isTrivia = true
      · obtain rfl : role = .neutral := ht htrivia
        rw [if_pos htrivia, if_pos htrivia, ih htokens]
        cases lastStep? tokens <;> rfl
      · rw [if_neg htrivia, if_neg htrivia]
        cases role with
        | opens frame => rfl
        | neutral => rfl
        | closesBracket bracket | closesBlock | continues part =>
            simp only [Role.stepsBack, ih htokens]
            cases lastStep? tokens <;> rfl

lemma heightAfter_append (height : Nat) (a b : List (Token × Role)) :
    heightAfter height (a ++ b) = heightAfter (heightAfter height a) b :=
  List.foldl_append

/-- A line with these tokens, of which the first has the place `start`, stands at the level: inside
the openers that enclose the opener that its last leading closer or section belongs to, or without
such a token, inside those that enclose its start. -/
def StandsAt (roles : List Role) (start : Nat) (tokens : List (Token × Role))
    (level : Nat) : Prop :=
  match lastStep? tokens with
  | some k => ∃ i, (Matches roles i (start + k) ∨ Continues roles i (start + k)) ∧
      level = (enclosing roles i).ncard
  | none => level = (enclosing roles start).ncard

section

variable {done rest : List (Token × Role)}

/-- The height at a place is the number of openers that enclose it. -/
lemma ncard_enclosing_eq_heightAfter (h : runRoles [] ((done ++ rest).map (·.2)) = .ok []) :
    (enclosing ((done ++ rest).map (·.2)) done.length).ncard = heightAfter 0 done := by
  rw [List.map_append] at h ⊢
  obtain ⟨frames, hdone, -⟩ := runRoles_append_eq_ok_iff.1 h
  have hcount := ncard_enclosing h hdone
  rw [List.length_map] at hcount
  exact hcount.trans (heightAfter_of_runRoles hdone 0).symm

/-- A closer or section has an opener, and the height at the opener is one less. -/
lemma exists_opener_of_token {t : Token × Role}
    (h : runRoles [] ((done ++ t :: rest).map (·.2)) = .ok []) (ht : t.2.stepsBack = true) :
    ∃ i, (Matches ((done ++ t :: rest).map (·.2)) i done.length ∨
        Continues ((done ++ t :: rest).map (·.2)) i done.length) ∧
      heightAfter 0 done = (enclosing ((done ++ t :: rest).map (·.2)) i).ncard + 1 := by
  rw [List.map_append, List.map_cons] at h ⊢
  obtain ⟨i, frame, frames, hplace, hdone, hcount⟩ := exists_opener_of_stepsBack h ht
  rw [List.length_map] at hplace
  refine ⟨i, hplace, ?_⟩
  rw [hcount]
  exact heightAfter_of_runRoles hdone 0

/-- In a source that closes all that it opens, a line stands at its level. -/
lemma Line.standsAt_level {line : Line} (hneutral : TriviaNeutral line.tokens)
    (h : runRoles [] ((done ++ (line.tokens ++ rest)).map (·.2)) = .ok []) :
    StandsAt ((done ++ (line.tokens ++ rest)).map (·.2)) done.length line.tokens
      (line.level (heightAfter 0 done)) := by
  rw [StandsAt, level, levelFrom_eq hneutral]
  cases hstep : lastStep? line.tokens with
  | none => exact (ncard_enclosing_eq_heightAfter h).symm
  | some k =>
      obtain ⟨run, t, tail, hline, rfl, ht⟩ := exists_of_lastStep? hstep
      have hsplit : done ++ (line.tokens ++ rest) = (done ++ run) ++ t :: (tail ++ rest) := by
        simp [hline]
      rw [hsplit] at h ⊢
      obtain ⟨i, hi, hcount⟩ := exists_opener_of_token h ht
      rw [List.length_append] at hi
      refine ⟨i, hi, ?_⟩
      dsimp only
      rw [hline, List.take_left, ← heightAfter_append, hcount, Nat.add_sub_cancel]

end

/-! ## Lines in the source -/

namespace Layout

variable {layout : Layout}

/-- The tokens of a line follow those of the lines before it. -/
lemma exists_of_splitLines {tokens : List (Token × Role)} {before after : List Line} {line : Line}
    (h : layout.splitLines tokens = before ++ line :: after)
    (hbreaks : ∀ t ∈ tokens, layout.breaksAt t.1 = true → t.2 = .neutral) :
    ∃ done rest, tokens = done ++ (line.tokens ++ rest) ∧
      done.length = (before.flatMap Line.allTokens).length ∧
      ∀ height, heightAfter height done = heightAfter height (before.flatMap (·.tokens)) := by
  induction tokens using break_induction (fun t : Token × Role => layout.breaksAt t.1)
      generalizing before with
  | last tokens hlast =>
      by_cases hnil : tokens = []
      · rw [hnil] at h
        cases before <;> cases h
      · rw [splitLines_of_no_break hnil hlast] at h
        cases before with
        | nil =>
            obtain ⟨rfl, -⟩ := List.cons_eq_cons.1 h
            exact ⟨[], [], by simp, rfl, fun _ => rfl⟩
        | cons first before => cases before <;> cases h
  | line tokens n rest hline hn ih =>
      rw [splitLines_append_break hline hn] at h
      cases before with
      | nil =>
          obtain ⟨rfl, -⟩ := List.cons_eq_cons.1 h
          exact ⟨[], n :: rest, rfl, rfl, fun _ => rfl⟩
      | cons first before =>
          obtain ⟨rfl, hrest⟩ := List.cons_eq_cons.1 h
          obtain ⟨done, rest', rfl, hlength, hheight⟩ :=
            ih hrest fun t ht => hbreaks t (by simp [ht])
          have hrole : n.2 = .neutral := hbreaks n (by simp) hn
          refine ⟨tokens ++ n :: done, rest', by simp, ?_, fun height => ?_⟩
          · simp [Line.allTokens, hlength]
          · rw [List.flatMap_cons, heightAfter_append, heightAfter_append, ← hheight, heightAfter,
              List.foldl_cons, hrole]
            rfl

/-- What is written for lines before one that is not blank does not depend on it. -/
lemma writeLines_append {line : Line} (hblank : line.isBlank = false) (pending : Bool)
    (height : Nat) (before after : List Line) :
    layout.writeLines pending height (before ++ line :: after) =
      layout.writeLines pending height before ++
        layout.writeLines false (heightAfter height (before.flatMap (·.tokens)))
        (line :: after) := by
  induction before generalizing pending height with
  | nil =>
      rw [List.nil_append, writeLines, writeLines, writeLines]
      simp [hblank, heightAfter]
  | cons first before ih =>
      rw [List.cons_append, writeLines, writeLines, List.flatMap_cons, heightAfter_append]
      cases first.terminator with
      | none => split_ifs <;> simp [ih]
      | some n => by_cases hkind : n.kind = .semicolon <;> split_ifs <;> simp [ih, hkind]

/-- A line that is not blank is written with its indentation, and then without
the blanks at its ends. -/
lemma exists_writeLines_cons (layout : Layout) {line : Line} (hblank : line.isBlank = false)
    (height : Nat) (after : List Line) :
    ∃ rest, layout.writeLines false height (line :: after) =
      layout.indentation line height ++ (trimEnd line.body ++ rest) := by
  obtain ⟨trail, htrail⟩ : trimEnd line.body <+: line.body := List.rdropWhile_prefix isBlank _
  rw [writeLines, if_neg (by simp [hblank])]
  cases line.terminator with
  | none =>
      refine ⟨trail ++ layout.writeLines false (heightAfter height line.tokens) after, ?_⟩
      rw [← List.append_assoc _ trail, htrail]
      simp
  | some n =>
      by_cases hkind : n.kind = .semicolon
      · exact ⟨layout.writeLines true (heightAfter height line.tokens) after, by simp [hkind]⟩
      · refine
          ⟨trail ++ (n.text ++ layout.writeLines false (heightAfter height line.tokens) after), ?_⟩
        rw [← List.append_assoc _ trail, htrail]
        simp [hkind]

end Layout

/-! ## Sources -/

/-- Blanks, comments and what ends a statement have no role. -/
lemma roleOf_of_isLayout {l : Lexeme} (h : l.kind.isLayout = true) (prev : Option Lexeme)
    (inHeader : Bool) (following : List Lexeme) : roleOf prev inHeader l following = .neutral := by
  rw [roleOf]
  cases hkind : l.kind <;> simp_all [Kind.isLayout]

lemma role_withRoles_of_isLayout {tokens : List Token} {t : Token × Role}
    (ht : t ∈ withRoles tokens) (hlayout : t.1.kind.isLayout = true) : t.2 = .neutral := by
  obtain ⟨-, prev, inHeader, following, hrole⟩ := exists_roleOf_of_mem ht
  rw [hrole]
  exact roleOf_of_isLayout hlayout prev inHeader following

lemma Token.isLayout_of_isTrivia {t : Token} (h : t.isTrivia = true) : t.kind.isLayout = true := by
  simp only [Lexeme.isTrivia, Bool.or_eq_true, decide_eq_true_eq] at h
  obtain (hkind | hkind) | hkind := h <;> rw [hkind] <;> rfl

lemma Layout.isLayout_of_breaksAt {layout : Layout} {t : Token} (h : layout.breaksAt t = true) :
    t.kind.isLayout = true := by
  simp only [breaksAt, Bool.or_eq_true, Bool.and_eq_true, decide_eq_true_eq] at h
  obtain hkind | ⟨-, hkind⟩ := h <;> rw [hkind] <;> rfl

lemma runRoles_of_checkSyntax {source : Text} (h : checkSyntax source = .ok ()) :
    runRoles [] ((withRoles (tokenize source).tokens).map (·.2)) = .ok [] := by
  rw [map_snd_withRoles]
  exact ((checkSyntax_eq_ok_iff_runRoles source).1 h).2

/-- How `layout` writes a source by the matching of its openers and closers.  Every line that holds
more than blanks, and that need not start in the first column, is written with the indentation of
the level at which it stands; and wherever a closer or section steps out of a frame, one is open. -/
structure Layout.FollowsMatching (layout : Layout) (source : Text) : Prop where
  written : ∀ before line after,
    layout.splitLines (withRoles (tokenize source).tokens) = before ++ line :: after →
    line.isBlank = false → line.isUnindented = false →
    ∃ level rest,
      StandsAt (roles (lexemesOf source)) (before.flatMap Line.allTokens).length line.tokens level ∧
      layout.format source = layout.writeLines false 0 before ++
        (Text.times level layout.unit ++ (trimEnd line.body ++ rest))
  never_below_zero : ∀ before t after,
    withRoles (tokenize source).tokens = before ++ t :: after → t.2.stepsBack = true →
    0 < heightAfter 0 before

/-- **Indentation follows the matching structure** in every source that the
nesting check accepts. -/
theorem format_followsMatching {source : Text} (h : checkSyntax source = .ok ()) (layout : Layout) :
    layout.FollowsMatching source := by
  have hrun := runRoles_of_checkSyntax h
  have hroles : roles (lexemesOf source) = (withRoles (tokenize source).tokens).map (·.2) :=
    (map_snd_withRoles _).symm
  constructor
  · intro before line after hlines hblank hindented
    obtain ⟨done, later, hsplit, hplace, hheight⟩ := Layout.exists_of_splitLines hlines
      fun t ht hbreak => role_withRoles_of_isLayout ht (Layout.isLayout_of_breaksAt hbreak)
    have hneutral : TriviaNeutral line.tokens := by
      intro t ht htrivia
      have hmem : t ∈ withRoles (tokenize source).tokens := by
        rw [hsplit]
        simp [ht]
      exact role_withRoles_of_isLayout hmem (Token.isLayout_of_isTrivia htrivia)
    obtain ⟨rest, hwritten⟩ := layout.exists_writeLines_cons hblank (heightAfter 0 done) after
    refine ⟨line.level (heightAfter 0 done), rest, ?_, ?_⟩
    · rw [hroles, ← hplace, hsplit]
      rw [hsplit] at hrun
      exact Line.standsAt_level hneutral hrun
    · rw [Layout.format, hlines, Layout.writeLines_append hblank, ← hheight, hwritten,
        Layout.indentation, if_neg (by simp [hindented])]
  · intro before t after hsplit ht
    rw [hsplit] at hrun
    obtain ⟨i, -, hcount⟩ := exists_opener_of_token hrun ht
    rw [hcount]
    exact Nat.succ_pos _

/-- Source with a line that closes a block and the bracket around it. -/
def crossingSource : Text :=
  "p(if a; b\nelse\nc\nend)\nd".toList

/-- Broken at its semicolon, the source has a section inside a bracket and a
line that closes both. -/
theorem format_followsMatching_crossing : checkSyntax crossingSource = .ok () ∧
    Layout.FollowsMatching { breaksStatements := true } crossingSource :=
  ⟨by decide +kernel, format_followsMatching (by decide +kernel) _⟩

example : ({} : Layout).format crossingSource =
    "p(if a; b\n  else\n    c\nend)\nd".toList := by decide +kernel

end ConverterAssembly.Ruby
