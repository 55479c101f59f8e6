import ConverterAssembly.Proofs.Ruby.Stability

/-!
# Passages of whole lines

A passage is a text that is read in the same way wherever a line begins with a new statement, and
that ends where one begins again.  So passages can be put one after another (`Passage.append`).  A
fixed text is found to be a passage by reading it alone (`passage_of_isPassage`).
-/

namespace ConverterAssembly.Ruby

open Text

/-- A statement begins here, at the start of a line. -/
structure Context.StartsLine (ctx : Context) : Prop extends ctx.StartsStatement where
  atLineStart : ctx.atLineStart = true

/-- The lexeme of a line feed without heredoc bodies. -/
def lineFeed : Lexeme := ⟨.newline, ['\n']⟩

/-- A text that is read as these lexemes at the start of any line, whatever follows, and after which
a line starts again. -/
def Passage (text : Text) (lexemes : List Lexeme) : Prop :=
  ∀ (rest : Text) (ctx : Context), ctx.StartsLine →
    ∃ ctx', Reads rest ctx text lexemes ctx' ∧ ctx'.StartsLine

lemma passage_nil : Passage [] [] :=
  fun _ ctx h => ⟨ctx, .nil ctx, h⟩

lemma Passage.append {a b : Text} {la lb : List Lexeme} (ha : Passage a la) (hb : Passage b lb) :
    Passage (a ++ b) (la ++ lb) := by
  intro rest ctx hctx
  obtain ⟨ctx₁, hreads₁, hctx₁⟩ := ha (b ++ rest) ctx hctx
  obtain ⟨ctx₂, hreads₂, hctx₂⟩ := hb rest ctx₁ hctx₁
  exact ⟨ctx₂, hreads₁.append hreads₂, hctx₂⟩

lemma Passage.flatMap {α : Type} {text : α → Text} {lexemes : α → List Lexeme} {parts : List α}
    (h : ∀ part ∈ parts, Passage (text part) (lexemes part)) :
    Passage (parts.flatMap text) (parts.flatMap lexemes) := by
  induction parts with
  | nil => exact passage_nil
  | cons part parts ih =>
      rw [List.forall_mem_cons] at h
      exact h.1.append (ih h.2)

lemma startsLine_initial (locals : List Text) : Context.StartsLine { locals := locals } :=
  ⟨⟨rfl, rfl, by simp⟩, rfl⟩

/-- A line feed that stands alone comes after no heredoc and starts a line. -/
lemma Reads.of_feed {ctx ctx' : Context} {rest : Text} (h : Reads rest ctx ['\n'] [lineFeed] ctx') :
    ctx.heredocs = [] ∧ ctx'.StartsLine ∧ ctx'.locals = ctx.locals := by
  generalize ht : ['\n'] = t at h
  generalize [lineFeed] = ls at h
  cases h with
  | nil => simp at ht
  | @cons _ _ c p text _ scan read size complete tail =>
      obtain ⟨rfl, rfl, rfl⟩ : '\n' = c ∧ p = [] ∧ text = [] := by simpa using ht
      cases tail
      have hheredocs : ctx.heredocs = [] := by
        rw [← read] at size complete
        exact Context.heredocs_of_scan_feed size complete
      obtain rfl : scan = ctx.plain 1 .newline 0 := by
        rw [← read, Context.scan_feed, Context.scanNewline, hheredocs, List.isEmpty_nil, if_pos rfl]
      refine ⟨hheredocs, ⟨⟨?_, ?_, ?_⟩, rfl⟩, ?_⟩
      · simp [Context.after, Context.plain]
      · simp [Context.after, Context.plain, hheredocs]
      · simp [Context.after, Context.plain, Lexeme.isTrivia]
      · cases hlast : ctx.last <;>
          simp [Context.after, Context.localsAfter, Context.plain, Lexeme.isOperator, hlast]

/-- A line feed without heredocs before it is read alone. -/
lemma reads_feed {ctx : Context} (h : ctx.heredocs = []) (rest : Text) :
    ∃ ctx', Reads rest ctx ['\n'] [lineFeed] ctx' ∧ ctx'.StartsLine ∧ ctx'.locals = ctx.locals := by
  have hscan : ctx.scan 0 '\n' ([] ++ ([] ++ rest)) = ctx.plain 1 .newline 0 := by
    rw [Context.scan_feed, Context.scanNewline, h, List.isEmpty_nil, if_pos rfl]
  have hreads : Reads rest ctx ['\n'] [lineFeed] _ := .cons hscan rfl rfl (.nil _)
  exact ⟨_, hreads, hreads.of_feed.2⟩

lemma passage_feed : Passage ['\n'] [lineFeed] := by
  intro rest ctx hctx
  obtain ⟨ctx', hreads, hstarts, -⟩ := reads_feed hctx.heredocs rest
  exact ⟨ctx', hreads, hstarts⟩

/-- The lexemes of a text. -/
def lexemesOf (text : Text) : List Lexeme :=
  (tokenize text).tokens.map (·.toLexeme)

/-- A whole source that is read with nothing left open. -/
lemma Reads.tokenize_eq {source : Text} {ls : List Lexeme} {ctx : Context}
    (h : Reads [] {} source ls ctx) (hheredocs : ctx.heredocs = []) :
    (tokenize source).error = none ∧ lexemesOf source = ls := by
  obtain ⟨tokens, line, htokens, hrest, -⟩ := tokensFrom_append_of_reads h 0 1
  rw [List.append_nil] at hrest
  rw [lexemesOf, tokenize, hrest]
  simp [tokensFrom, hheredocs, htokens]

/-- A passage that is a whole source is read as its lexemes, without a problem. -/
lemma Passage.tokenize {text : Text} {ls : List Lexeme} (h : Passage text ls) :
    (Ruby.tokenize text).error = none ∧ lexemesOf text = ls := by
  obtain ⟨ctx, hreads, hctx⟩ := h [] {} (startsLine_initial [])
  exact hreads.tokenize_eq hctx.heredocs

/-- Whether a lexeme keeps to its line: it holds no line feed, or is one, and
it is not the data section. -/
def Lexeme.keepsLine (l : Lexeme) : Bool :=
  l.kind ≠ .data && (l = lineFeed || ('\n' ∉ l.text && l.kind ≠ .newline))

/-- Whether a text is a passage, found by reading it alone: it is complete, none of its tokens runs
over lines, its last token is a line feed, and nothing in it asks for the names assigned before. -/
def isPassage (text : Text) : Bool :=
  (tokenize text).error.isNone && (lexemesOf text).all Lexeme.keepsLine &&
    (lexemesOf text).getLast? = some lineFeed && asksNoLocals text

lemma Lexeme.keepsLine_iff {l : Lexeme} : l.keepsLine = true ↔
    l.kind ≠ .data ∧ (l = lineFeed ∨ ('\n' ∉ l.text ∧ l.kind ≠ .newline)) := by
  simp [Lexeme.keepsLine]

/-- A part before a line feed is a passage with it, if it is read in the same way whatever was
assigned before. -/
lemma passage_of_reads {text : Text} {ls : List Lexeme}
    (h : ∀ locals, ∃ ctx', Reads ['\n'] { locals := locals } text ls ctx' ∧ ctx'.heredocs = []) :
    Passage (text ++ ['\n']) (ls ++ [lineFeed]) := by
  intro rest ctx hctx
  obtain ⟨ctx₁, hreads, hheredocs⟩ := h ctx.locals
  have hbefore : Reads ('\n' :: rest) { locals := ctx.locals } text ls ctx₁ :=
    hreads.before_line (d := []) rest
  have halike : Context.Alike { locals := ctx.locals } ctx :=
    .inr ⟨(startsLine_initial _).toStartsStatement, hctx.toStartsStatement, rfl⟩
  obtain ⟨ctx₂, hreads₂, halike₂, -⟩ := hbefore.alike halike (.inl hctx.atLineStart.symm)
  obtain ⟨ctx₃, hfeed, hstarts, -⟩ := reads_feed (halike₂.heredocs_eq.symm.trans hheredocs) rest
  exact ⟨ctx₃, hreads₂.append hfeed, hstarts⟩

/-- A text that reads as a passage alone is one everywhere. -/
theorem passage_of_isPassage {text : Text} (h : isPassage text = true) :
    Passage text (lexemesOf text) := by
  simp only [isPassage, Bool.and_eq_true, Option.isNone_iff_eq_none, List.all_eq_true,
    decide_eq_true_eq] at h
  obtain ⟨⟨⟨herror, -⟩, hlast⟩, hasks⟩ := h
  obtain ⟨ctx', hreads, -⟩ := exists_reads_of_tokensFrom herror
  obtain ⟨ls, hls⟩ := List.getLast?_eq_some_iff.mp hlast
  have htext : text = ls.flatMap (·.text) ++ ['\n'] := by
    rw [hreads.text_eq]
    change (lexemesOf text).flatMap _ = _
    rw [hls, List.flatMap_append]
    simp [lineFeed]
  rw [hls, htext]
  refine passage_of_reads fun locals => ?_
  obtain ⟨locals', hreads'⟩ := hreads.with_locals hasks locals
  change Reads [] _ text (lexemesOf text) _ at hreads'
  rw [hls] at hreads'
  obtain ⟨a, b, ctx₁, hab, ha, hb⟩ := hreads'.split
  obtain rfl : b = ['\n'] := by simpa [lineFeed] using hb.text_eq
  rw [List.append_nil, ha.text_eq] at ha
  exact ⟨ctx₁, ha, hb.of_feed.1⟩

end ConverterAssembly.Ruby
