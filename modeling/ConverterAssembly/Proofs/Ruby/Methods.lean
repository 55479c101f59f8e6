import ConverterAssembly.Proofs.Ruby.Appending
import ConverterAssembly.Proofs.Ruby.Names
import ConverterAssembly.Proofs.Ruby.Outline
import ConverterAssembly.Proofs.Ruby.Standing

/-!
# Methods one after another

A method that is accepted alone is put in front of another one.  The first leaves nothing open, so
the second is read from the start of a line, where of all that stands before only the names assigned
there matter.

**Nesting.**  An accepted source that ends with a line feed opens and closes nothing
(`framesAfter_complete`).

**Sources.**  `Complete` is an accepted source with its last token apart.  If that is a line feed,
what follows is read as after the names that the source assigns (`Complete.append_of_newline`); if
it is the data section, nothing follows (`Complete.append_of_data`).

**Methods.**  `checkSyntax_methods`: two methods are accepted together exactly if the second is
accepted where the names of the first are known.  This is so in particular where none of them is a
command of the second.
-/

namespace ConverterAssembly.Ruby

open Text

/-! ## Nesting -/

lemma afterBrackets_append_feed (depth : Nat) (ls : List Lexeme) :
    afterBrackets depth (ls ++ [lineFeed]) = (afterBrackets depth ls).map (· ++ [lineFeed]) := by
  induction ls generalizing depth with
  | nil => rfl
  | cons l ls ih =>
      rw [List.cons_append, afterBrackets, afterBrackets]
      cases l.kind with
      | closer bracket =>
          dsimp only
          split_ifs
          · rfl
          · exact ih _
      | _ => exact ih _

/-- A line feed at the end adds no value to a definition. -/
lemma isEndless_append_lineFeed (ls : List Lexeme) :
    isEndless (ls ++ [lineFeed]) = isEndless ls := by
  cases hname : afterMethodName false ls with
  | some rest =>
      obtain ⟨l, tail, rfl, hl, -⟩ := exists_of_afterMethodName hname
      have happend := afterMethodName_append hname [lineFeed]
      rw [List.cons_append] at happend
      rw [isEndless_of_afterMethodName hname, isEndless_of_afterMethodName happend,
        beginsValue_cons_of_ne hl, beginsValue_cons_of_ne hl, ← List.cons_append,
        afterBrackets_append_feed, Option.any_map]
      simp only [beginsValue_append_feed]
  | none =>
      obtain ⟨named, hnamed⟩ := afterMethodName_append_of_none hname [lineFeed]
      rw [isEndless, isEndless, hname, hnamed]
      cases named <;> rfl

lemma framesAfter_append_lineFeed (prev : Option Lexeme) (inHeader : Bool) (frames : List Frame)
    (ls : List Lexeme) :
    framesAfter prev inHeader frames (ls ++ [lineFeed]) = framesAfter prev inHeader frames ls := by
  induction ls generalizing prev inHeader frames with
  | nil => exact framesAfter_feed prev inHeader frames []
  | cons l ls ih =>
      have hrole : roleOf prev inHeader l (ls ++ [lineFeed]) = roleOf prev inHeader l ls := by
        simp only [roleOf, keywordRole, isEndless_append_lineFeed]
      rw [List.cons_append, framesAfter, framesAfter, hrole]
      cases (roleOf prev inHeader l ls).apply frames with
      | ok frames => exact ih _ _ _
      | error problem => rfl

/-- Accepted lexemes with a line feed at their end open and close nothing in front of a token that
ends definitions. -/
theorem framesAfter_complete {init : List Lexeme} {n l : Lexeme} (hn : n.kind = .newline)
    (h : framesAfter none false [] (init ++ [n]) = some []) (hl : l.endsDefinition = true)
    (following : List Lexeme) :
    framesAfter none false [] (init ++ [n] ++ l :: following) =
      framesAfter none false [] (l :: following) := by
  have hfeed : ∀ tail, framesAfter none false [] (init ++ n :: tail) =
      framesAfter none false [] (init ++ lineFeed :: tail) := by
    intro tail
    have houtline : n.outline = lineFeed.outline := by simp [Lexeme.outline, hn, lineFeed]
    rw [← framesAfter_outline, ← framesAfter_outline _ _ _ (init ++ lineFeed :: tail)]
    simp only [List.map_append, List.map_cons, houtline]
  rw [hfeed, framesAfter_append_lineFeed] at h
  rw [List.append_assoc, List.singleton_append, hfeed]
  exact framesAfter_fragment h hl [] following

/-! ## Sources after one another -/

/-- The nesting check of a source where the names are known as local variables already. -/
def checkSyntaxAfter (names : List Text) (source : Text) : Except SyntaxError Unit :=
  match (tokensFrom { locals := names } 0 1 0 source).error with
  | some error => .error error
  | none => checkFrom [] 1 (withRoles (tokensFrom { locals := names } 0 1 0 source).tokens)

lemma checkSyntaxAfter_nil (source : Text) : checkSyntaxAfter [] source = checkSyntax source := rfl

/-- A source is accepted if it ends well and its lexemes close all that they open. -/
lemma checkSyntaxAfter_eq_ok_iff (names : List Text) (source : Text) :
    checkSyntaxAfter names source = .ok () ↔
      Context.problem? { locals := names } source = none ∧
        framesAfter none false [] (Context.lexemes { locals := names } source) = some [] := by
  obtain ⟨hlexemes, hproblem⟩ := tokensFrom_place { locals := names } 0 1 0 0 0 source
  rw [Context.lexemes, Context.problem?, ← hlexemes, ← hproblem, checkSyntaxAfter]
  cases (tokensFrom { locals := names } 0 1 0 source).error with
  | some error => simp
  | none => simpa using checkFrom_eq_ok_iff _

/-- Names that are no command of an accepted source do not matter to it. -/
lemma checkSyntaxAfter_of_commands {names : List Text} {source : Text}
    (h : ∀ name ∈ commandsIn source, name ∉ names) :
    checkSyntaxAfter names source = checkSyntax source := by
  have hread : tokensFrom { locals := names } 0 1 0 source = tokenize source :=
    tokensFrom_withNames {} names 0 1 0 source h
  rw [checkSyntaxAfter, hread]
  rfl

/-- An accepted source, its lexemes with the last one apart, and the context after them. -/
structure Complete (source : Text) (init : List Lexeme) (l : Lexeme) (ctx : Context) : Prop where
  lexemes : lexemesOf source = init ++ [l]
  reads : Reads [] {} source (init ++ [l]) ctx
  heredocs : ctx.heredocs = []
  frames : framesAfter none false [] (init ++ [l]) = some []

namespace Complete

variable {first second : Text} {init following : List Lexeme} {l next : Lexeme} {ctx : Context}
  (h : Complete first init l ctx)
include h

/-- A data section takes in all that follows. -/
lemma append_of_data (hkind : l.kind = .data) (hfeed : '\n' ∈ l.text) (second : Text) :
    checkSyntax (first ++ second) = .ok () := by
  obtain ⟨ctx', hreads, hheredocs⟩ := h.reads.exists_of_data hkind hfeed second
  obtain ⟨herror, hlexemes⟩ := hreads.tokenize_eq (hheredocs.trans h.heredocs)
  refine (checkSyntax_eq_ok_iff _).mpr ⟨herror, ?_⟩
  have houtline : l.outline = Lexeme.outline ⟨.data, l.text ++ second⟩ := by
    simp [Lexeme.outline, hkind]
  rw [hlexemes, ← h.frames, ← framesAfter_outline, ← framesAfter_outline _ _ _ (init ++ [l])]
  simp only [List.map_append, List.map_cons, houtline]

/-- What follows a line feed is read as after the names that the source assigns. -/
lemma append_of_newline (hkind : l.kind = .newline) (hends : EndsLine first)
    (hsecond : Context.lexemes { locals := namesIn first } second = next :: following)
    (hnext : next.endsDefinition = true) :
    checkSyntax (first ++ second) = .ok () ↔ checkSyntaxAfter (namesIn first) second = .ok () := by
  have hlast : ∀ d ∈ (init ++ [l]).getLast?, d.kind = .newline := by
    intro d hd
    obtain rfl : l = d := by simpa using hd
    exact hkind
  have hlocals : ctx.locals = namesIn first := by
    rw [h.reads.locals_eq, List.append_nil, namesIn, h.lexemes]
  have hstarts := h.reads.startsLine_of_newline hkind hends h.heredocs
  have halike : ctx.Alike { locals := namesIn first } :=
    .inr ⟨hstarts.toStartsStatement, (startsLine_initial _).toStartsStatement, hlocals⟩
  obtain ⟨hlexemes, hproblem⟩ :
      ctx.lexemes second = Context.lexemes { locals := namesIn first } second ∧
        ctx.problem? second = Context.problem? { locals := namesIn first } second :=
    halike.lexemes_eq (.inl hstarts.atLineStart)
  obtain ⟨hlexemes', hproblem'⟩ := Context.lexemes_of_reads (h.reads.in_front hlast hends second)
  rw [← checkSyntaxAfter_nil, checkSyntaxAfter_eq_ok_iff, checkSyntaxAfter_eq_ok_iff, hproblem',
    hproblem, hlexemes', hlexemes, hsecond, framesAfter_complete hkind h.frames hnext]

/-- Where the last token is a line feed, there is no data section. -/
lemma ne_data_of_newline (hkind : l.kind = .newline) : ¬ ∃ d ∈ lexemesOf first, d.kind = .data := by
  rw [h.lexemes]
  rintro ⟨d, hd, hdata⟩
  rcases List.mem_append.mp hd with hd | hd
  · exact h.reads.init_ne_data d hd hdata
  · obtain rfl := List.mem_singleton.mp hd
    rw [hkind] at hdata
    exact absurd hdata (by decide)

end Complete

/-! ## Methods -/

/-- A method: a line `def` with its name, the lines of its body, and a line `end`. -/
def IsMethod (source : Text) : Prop :=
  ∃ name body, isName name = true ∧ EndsLine body ∧
    source = "def".toList ++ ' ' :: (name ++ '\n' :: (body ++ "end\n".toList))

namespace IsMethod

variable {source : Text}

/-- Whatever names are known, a method begins with its keyword. -/
lemma exists_lexemes (h : IsMethod source) (names : List Text) :
    ∃ following, Context.lexemes { locals := names } source =
      ⟨.keyword, "def".toList⟩ :: following := by
  obtain ⟨name, body, -, -, rfl⟩ := h
  obtain ⟨ctx, hreads, -⟩ := @stands_word "def".toList (by decide)
    (' ' :: (name ++ '\n' :: (body ++ "end\n".toList))) rfl false { locals := names } rfl rfl
    fun _ => by decide
  exact ⟨_, (Context.lexemes_of_reads hreads).1⟩

/-- A method ends its line, and does not hide the line feed. -/
lemma ends (h : IsMethod source) : source.getLast? = some '\n' ∧ ¬ escapedFeed <:+ source := by
  obtain ⟨lead, rfl⟩ : ∃ lead, source = lead ++ "end\n".toList := by
    obtain ⟨name, body, -, -, rfl⟩ := h
    exact ⟨"def".toList ++ ' ' :: (name ++ '\n' :: body), by simp⟩
  constructor
  · rw [List.getLast?_append_of_ne_nil _ (by decide)]
    rfl
  · rintro ⟨lead', hlead⟩
    have hsecond := congrArg (fun text : Text => text.reverse[1]?) hlead
    simp [escapedFeed] at hsecond

/-- An accepted method ends with a line feed token or with its data section. -/
lemma exists_complete (h : IsMethod source) (hok : checkSyntax source = .ok ()) :
    ∃ init l ctx, Complete source init l ctx ∧ (l.kind = .newline ∨ l.kind = .data) ∧
      '\n' ∈ l.text := by
  obtain ⟨herror, hframes⟩ := (checkSyntax_eq_ok_iff source).mp hok
  obtain ⟨ctx, hreads, hheredocs⟩ := exists_reads_of_tokensFrom herror
  change Reads [] {} source (lexemesOf source) ctx at hreads
  cases hls : lexemesOf source using List.reverseRecOn with
  | nil =>
      have hnil := hreads.text_eq
      rw [hls] at hnil
      exact absurd h.ends.1 (by simp [hnil])
  | append_singleton init l =>
      rw [hls] at hreads hframes
      exact ⟨init, l, ctx, ⟨hls, hreads, hheredocs, hframes⟩,
        hreads.kind_of_getLast h.ends.1 h.ends.2⟩

end IsMethod

/-- Two accepted methods are accepted one after the other exactly if the first ends in a data
section, or the second is accepted where the names that the first assigns are known.  It is, if none
of them is a word that the second uses as a command before a regular expression, a percent literal
or a heredoc. -/
theorem checkSyntax_methods {first second : Text} (hfirst : IsMethod first)
    (hsecond : IsMethod second) (hok : checkSyntax first = .ok ())
    (hok' : checkSyntax second = .ok ()) :
    (checkSyntax (first ++ second) = .ok () ↔
        (∃ l ∈ lexemesOf first, l.kind = .data) ∨
          checkSyntaxAfter (namesIn first) second = .ok ()) ∧
      ((∀ name ∈ commandsIn second, name ∉ namesIn first) →
        checkSyntax (first ++ second) = .ok ()) := by
  have hiff : checkSyntax (first ++ second) = .ok () ↔
      (∃ l ∈ lexemesOf first, l.kind = .data) ∨
      checkSyntaxAfter (namesIn first) second = .ok () := by
    obtain ⟨init, l, ctx, hcomplete, hkind | hkind, hfeed⟩ := hfirst.exists_complete hok
    · obtain ⟨following, hlexemes⟩ := hsecond.exists_lexemes (namesIn first)
      have hends : EndsLine first := fun c hc => Option.some.inj (hc.symm.trans hfirst.ends.1)
      rw [hcomplete.append_of_newline hkind hends hlexemes rfl,
        or_iff_right (hcomplete.ne_data_of_newline hkind)]
    · have hdata : ∃ d ∈ lexemesOf first, d.kind = .data := ⟨l, by simp [hcomplete.lexemes], hkind⟩
      exact ⟨fun _ => .inl hdata, fun _ => hcomplete.append_of_data hkind hfeed second⟩
  refine ⟨hiff, fun hcommands => hiff.mpr (.inr ?_)⟩
  rw [checkSyntaxAfter_of_commands hcommands, hok']

/-- A regular expression after `y` does not mind that another method assigns `x`. -/
theorem checkSyntax_methods_command :
    checkSyntax ("def a\nx = 1\nend\n".toList ++ "def b\ny /(/\nend\n".toList) = .ok () :=
  (checkSyntax_methods ⟨"a".toList, "x = 1\n".toList, by decide, by simp [EndsLine], rfl⟩
    ⟨"b".toList, "y /(/\n".toList, by decide, by simp [EndsLine], rfl⟩ (by decide) (by decide)).2
    (by decide)

/-- After `x`, once it is assigned, the same slash divides, and the next one begins a regular
expression that never ends. -/
theorem not_checkSyntax_methods : ¬ ∀ first second : Text, IsMethod first → IsMethod second →
    checkSyntax first = .ok () → checkSyntax second = .ok () →
      checkSyntax (first ++ second) = .ok () := by
  intro h
  have hmethods := h _ _ ⟨"a".toList, "x = 1\n".toList, by decide, by simp [EndsLine], rfl⟩
    ⟨"b".toList, "x /(/\n".toList, by decide, by simp [EndsLine], rfl⟩ (by decide) (by decide)
  exact absurd hmethods (by decide)

end ConverterAssembly.Ruby
