import ConverterAssembly.Proofs.Ruby.Nesting

/-!
# Indented fragments

A fragment of code that is accepted alone is put between other lines, each of its own lines shifted
to the right.  `Embeddable` collects what it takes, and `Embeddable.passage` says that nothing but
blanks changes: the shifted fragment is read as `padded` lexemes at the start of any line.  For a
fragment that stands alone it is enough that its tokens keep to their lines (`indent_keeps_tokens`).

The argument goes line by line (`break_induction`).  A line is read in the same way whatever follows
its line feed (`Reads.before_line`), and blanks before it are the only thing that its first token
can notice (`Reads.padded_line`).
-/

namespace ConverterAssembly.Ruby

open Text

/-! ## Blanks before a statement -/

/-- A run of blanks is one token. -/
lemma reads_gap_after {ctx : Context} {c : Char} {p rest : Text}
    (hgap : ∀ d ∈ c :: p, isGap d = true) (hrest : rest.head?.any isGap = false) :
    Reads rest ctx (c :: p) [⟨.space, c :: p⟩]
      (ctx.after (ctx.plain 0 .space p.length) (c :: p)) := by
  rw [List.forall_mem_cons] at hgap
  have hrun : (p ++ ([] ++ rest)).takeWhile isGap = p := by
    rw [List.nil_append, List.takeWhile_append_of_pos hgap.2]
    cases rest with
    | nil => simp
    | cons d rest =>
        have hd : isGap d = false := by simpa using hrest
        simp [hd]
  have hscan : ctx.scan 0 c (p ++ ([] ++ rest)) = ctx.plain 0 .space p.length := by
    rw [ctx.scan_gap 0 hgap.1, hrun]
  have hreads : Reads rest ctx (c :: p ++ []) _ _ := .cons hscan rfl rfl (.nil _)
  rwa [List.append_nil] at hreads

/-- Blanks before a statement. -/
lemma reads_gap {ctx : Context} (h : ctx.StartsStatement) {c : Char} {p rest : Text}
    (hgap : ∀ d ∈ c :: p, isGap d = true) (hrest : rest.head?.any isGap = false) :
    ∃ ctx', Reads rest ctx (c :: p) [⟨.space, c :: p⟩] ctx' ∧ ctx'.StartsStatement ∧
      ctx'.locals = ctx.locals ∧ ctx'.atLineStart = false := by
  obtain ⟨hstarts, hlocals⟩ := @Context.StartsStatement.after_trivia ctx h
    (ctx.plain 0 .space p.length) (c :: p) rfl rfl rfl
  refine ⟨_, reads_gap_after hgap hrest, hstarts, hlocals, ?_⟩
  have hlast : (c :: p).getLast? ≠ some '\n' := by
    intro hlast
    exact absurd (hgap _ (List.mem_of_getLast? hlast)) (by decide)
  simpa [Context.after] using hlast

/-! ## Padding -/

/-- Lexemes with `width` spaces before every line that holds more than its line feed. -/
def padded (width : Nat) : (atStart : Bool) → List Lexeme → List Lexeme
  | _, [] => []
  | atStart, l :: ls =>
    if l = lineFeed then l :: padded width true ls
    else if !atStart then l :: padded width false ls
    else if l.kind = .space then
      ⟨.space, List.replicate width ' ' ++ l.text⟩ :: padded width false ls
    else
      ⟨.space, List.replicate width ' '⟩ :: l :: padded width false ls

/-- Padding adds blanks only. -/
lemma solid_padded (width : Nat) (atStart : Bool) (ls : List Lexeme) :
    solid (padded width atStart ls) = solid ls := by
  induction ls generalizing atStart with
  | nil => rfl
  | cons l ls ih =>
      rw [padded]
      split_ifs with hfeed hstart hspace
      · subst hfeed
        rw [solid_cons_of_ne (by decide), solid_cons_of_ne (by decide), ih]
      · by_cases hspace : l.kind = .space
        · rw [solid_cons_of_space hspace, solid_cons_of_space hspace, ih]
        · rw [solid_cons_of_ne hspace, solid_cons_of_ne hspace, ih]
      · rw [solid_cons_of_space rfl, solid_cons_of_space hspace, ih]
      · rw [solid_cons_of_space rfl, solid_cons_of_ne hspace, solid_cons_of_ne hspace, ih]

lemma padded_append_feed (width : Nat) (atStart : Bool) {ls : List Lexeme} (h : lineFeed ∉ ls)
    (rest : List Lexeme) : padded width atStart (ls ++ lineFeed :: rest) =
      padded width atStart ls ++ lineFeed :: padded width true rest := by
  induction ls generalizing atStart with
  | nil => simp [padded]
  | cons l ls ih =>
      rw [List.mem_cons, not_or] at h
      rw [List.cons_append, padded, padded, if_neg (Ne.symm h.1), if_neg (Ne.symm h.1)]
      split_ifs <;> rw [ih _ h.2] <;> rfl

lemma padded_of_no_feed (width : Nat) {ls : List Lexeme} (h : lineFeed ∉ ls) :
    padded width false ls = ls := by
  induction ls with
  | nil => rfl
  | cons l ls ih =>
      rw [List.mem_cons, not_or] at h
      rw [padded, if_neg (Ne.symm h.1), ih h.2]
      rfl

/-- The text of a padded line. -/
lemma text_padded_line (width : Nat) {ls : List Lexeme} (h : lineFeed ∉ ls) (hne : ls ≠ []) :
    (padded width true ls).flatMap (·.text) =
      List.replicate width ' ' ++ ls.flatMap (·.text) := by
  cases ls with
  | nil => exact absurd rfl hne
  | cons l ls =>
      rw [List.mem_cons, not_or] at h
      rw [padded, if_neg (Ne.symm h.1), if_neg (by simp), padded_of_no_feed width h.2]
      split_ifs <;> simp

/-- The text of padded lexemes is the indented text. -/
lemma text_padded (width : Nat) {ls : List Lexeme} (hkeep : ∀ l ∈ ls, l.keepsLine = true)
    (hne : ∀ l ∈ ls, l.text ≠ []) :
    (padded width true ls).flatMap (·.text) = Text.indent (ls.flatMap (·.text)) width := by
  have hfeed : ∀ {ls : List Lexeme}, (∀ l ∈ ls, l.keepsLine = true) → lineFeed ∉ ls →
      '\n' ∉ ls.flatMap (·.text) := by
    intro ls hkeep hno hmem
    obtain ⟨l, hl, hmem⟩ := List.mem_flatMap.mp hmem
    obtain ⟨-, rfl | ⟨hno', -⟩⟩ := Lexeme.keepsLine_iff.mp (hkeep l hl)
    · exact hno hl
    · exact hno' hmem
  have hempty : ∀ {ls : List Lexeme}, (∀ l ∈ ls, l.text ≠ []) → ls ≠ [] →
      ls.flatMap (·.text) ≠ [] := by
    intro ls hne hls
    obtain ⟨l, ls, rfl⟩ := List.exists_cons_of_ne_nil hls
    simp [hne l (by simp)]
  induction ls using break_induction (fun l => l = lineFeed) with
  | last ls hls =>
      have hno : lineFeed ∉ ls := fun h => by simpa using hls _ h
      by_cases hnil : ls = []
      · subst hnil
        rfl
      · rw [text_padded_line width hno hnil, Text.indent,
          Text.lines_of_no_feed (hfeed hkeep hno) (hempty hne hnil)]
        have hne' : ls.flatMap (·.text) ≠ ['\n'] := by
          intro h
          exact hfeed hkeep hno (by simp [h])
        simp [hne']
  | line ls n rest hls hn ih =>
      have hno : lineFeed ∉ ls := fun h => by simpa using hls _ h
      obtain rfl : n = lineFeed := by simpa using hn
      simp only [List.forall_mem_append, List.forall_mem_cons] at hkeep hne
      have htext : (ls ++ lineFeed :: rest).flatMap (·.text) =
          ls.flatMap (·.text) ++ '\n' :: rest.flatMap (·.text) := by simp [lineFeed]
      rw [padded_append_feed width true hno, htext, Text.indent_append_feed, List.flatMap_append,
        List.flatMap_cons, ih hkeep.2.2 hne.2.2, ← List.append_assoc]
      congr 1
      by_cases hnil : ls = []
      · subst hnil
        rfl
      · rw [text_padded_line width hno hnil,
          Text.indent_line (hfeed hkeep.1 hno) (hempty hne.1 hnil)]
        simp [lineFeed]

/-! ## Reading padded lines -/

/-- A line that keeps to itself is read in the same way after more blanks. -/
lemma Reads.padded_line {r text : Text} {ctx ctx' : Context} {ls : List Lexeme}
    (h : Reads r ctx text ls ctx') (hctx : ctx.StartsLine)
    (hkeep : ∀ l ∈ ls, l.keepsLine = true) (hdocument : ∀ l ∈ ls, l.kind ≠ .document)
    (hno : lineFeed ∉ ls) {width : Nat} (hwidth : 0 < width) :
    ∃ b, Reads r ctx ((padded width true ls).flatMap (·.text)) (padded width true ls) b ∧
      ctx'.Alike b := by
  have hdata : ∀ l ∈ ls, l.kind ≠ .data := fun l hl => (Lexeme.keepsLine_iff.mp (hkeep l hl)).1
  have hplain : ∀ l ∈ ls, '\n' ∉ l.text ∧ l.kind ≠ .newline := by
    intro l hl
    obtain ⟨-, rfl | hl'⟩ := Lexeme.keepsLine_iff.mp (hkeep l hl)
    · exact absurd hl hno
    · exact hl'
  obtain ⟨w, rfl⟩ : ∃ w, width = w + 1 := ⟨width - 1, by omega⟩
  have hspaces : ∀ d ∈ ' ' :: List.replicate w ' ', isGap d = true := by simp [isGap]
  cases ls with
  | nil =>
      cases h
      exact ⟨ctx, .nil ctx, .refl ctx⟩
  | cons l ls =>
      rw [List.mem_cons, not_or] at hno
      rw [List.forall_mem_cons] at hdata hplain hdocument
      rw [padded, if_neg (Ne.symm hno.1), if_neg (by simp), padded_of_no_feed _ hno.2]
      by_cases hspace : l.kind = .space
      · -- the blanks that are there go on the new ones
        cases h with
        | @cons _ _ c p text lexemes scan read size complete tail =>
            subst read
            obtain ⟨hgap, hhead⟩ := ctx.of_scan_gap 0 hspace size hplain.1.1
            have hall : ∀ d ∈ ' ' :: (List.replicate w ' ' ++ c :: p), isGap d = true := by
              rw [← List.cons_append]
              exact List.forall_mem_append.mpr ⟨hspaces, hgap⟩
            obtain ⟨b, hblank, hb, hlocals, hstart⟩ := reads_gap hctx.toStartsStatement hall hhead
            have hkind : (ctx.scan 0 c (p ++ (text ++ r))).kind = .space := hspace
            have htrivia : (⟨(ctx.scan 0 c (p ++ (text ++ r))).kind, c :: p⟩ : Lexeme).isTrivia =
                true := by
              simp [Lexeme.isTrivia, hkind]
            obtain ⟨hnaming, hheredocs⟩ := ctx.scan_trivia 0 htrivia
            obtain ⟨hafter, hlocals'⟩ := hctx.toStartsStatement.after_trivia htrivia hnaming
              hheredocs
            have hstart' : (c :: p).getLast? ≠ some '\n' :=
              fun hlast => hplain.1.1 (List.mem_of_getLast? hlast)
            obtain ⟨b', hreads, halike, -⟩ :=
              tail.alike (.inr ⟨hafter, hb, by rw [hlocals', hlocals]⟩)
                (.inl (by rw [hstart]; simpa [Context.after] using hstart'))
            refine ⟨b', ?_, halike⟩
            rw [if_pos hspace, List.flatMap_cons, ← tail.text_eq]
            exact hblank.append hreads
      · -- a blank stands where none stood
        have hhead : (text ++ r).head?.any isGap = false := by
          cases h with
          | @cons _ _ c p text lexemes scan read size complete tail =>
              subst read
              by_contra hgap
              rw [Bool.not_eq_false] at hgap
              rw [ctx.scan_gap 0 (by simpa using hgap)] at hspace
              exact hspace rfl
        have hdirective : isDirective "=begin".toList (text ++ r) = false ∧
            isDirective "__END__".toList (text ++ r) = false := by
          cases h with
          | @cons _ _ c p text lexemes scan read size complete tail =>
              subst read
              have hscan := fun c cs => @Context.scan_directive ctx 0 c cs hctx.atLineStart
                hctx.naming
              obtain ⟨hbegin, hend⟩ := hscan c (p ++ (text ++ r))
              rw [List.cons_append, List.cons_append, List.append_assoc]
              constructor
              · by_contra h
                exact hdocument.1 (hbegin (by simpa using h))
              · by_contra h
                exact hdata.1 (hend (by simpa using h))
        obtain ⟨b, hblank, hb, hlocals, -⟩ := reads_gap hctx.toStartsStatement hspaces hhead
        obtain ⟨b', hreads', halike, -⟩ :=
          h.alike (.inr ⟨hctx.toStartsStatement, hb, hlocals.symm⟩) (.inr hdirective)
        refine ⟨b', ?_, halike⟩
        rw [if_neg hspace, List.flatMap_cons, ← h.text_eq]
        exact hblank.append hreads'

/-- Lines are read in the same way when they are shifted to the right. -/
lemma Reads.padded {r text : Text} {ctx ctx' : Context} {ls : List Lexeme}
    (h : Reads r ctx text ls ctx') (hctx : ctx.StartsLine)
    (hkeep : ∀ l ∈ ls, l.keepsLine = true) (hdocument : ∀ l ∈ ls, l.kind ≠ .document)
    {width : Nat} (hwidth : 0 < width) :
    ∃ b, Reads r ctx ((padded width true ls).flatMap (·.text)) (padded width true ls) b ∧
      ctx'.Alike b := by
  induction ls using break_induction (fun l => l = lineFeed) generalizing text ctx ctx' with
  | last ls hls =>
      have hno : lineFeed ∉ ls := fun h => by simpa using hls _ h
      exact h.padded_line hctx hkeep hdocument hno hwidth
  | line ls n lt hls hn ih =>
      have hno : lineFeed ∉ ls := fun h => by simpa using hls _ h
      obtain rfl : n = lineFeed := by simpa using hn
      simp only [List.forall_mem_append, List.forall_mem_cons] at hkeep hdocument
      -- the line, its line feed, and the lines after it
      obtain ⟨line, tail, ctx₁, rfl, hline, htail⟩ := h.split
      obtain ⟨feed, lines, ctx₂, rfl, hfeed, hlines⟩ :=
        @Reads.split _ _ _ _ [lineFeed] lt (by simpa using htail)
      obtain rfl : feed = ['\n'] := by simpa [lineFeed] using hfeed.text_eq
      obtain ⟨hheredocs₁, hctx₂, hlocals₂⟩ := hfeed.of_feed
      set after := (Ruby.padded width true lt).flatMap (·.text) with hafter
      have hbefore : Reads ('\n' :: (after ++ r)) ctx line ls ctx₁ :=
        hline.before_line (d := []) (after ++ r)
      obtain ⟨b₁, hreads₁, halike₁⟩ :=
        hbefore.padded_line hctx hkeep.1 hdocument.1 hno hwidth
      have hsame₁ : ctx₁.heredocs = b₁.heredocs ∧ ctx₁.locals = b₁.locals := by
        rcases halike₁ with rfl | ⟨ha, hb, hlocals⟩
        · exact ⟨rfl, rfl⟩
        · exact ⟨by rw [ha.heredocs, hb.heredocs], hlocals⟩
      obtain ⟨b₂, hreads₂, hb₂, hlocals₂'⟩ :=
        reads_feed (by rw [← hsame₁.1, hheredocs₁]) (after ++ r)
      have halike₂ : ctx₂.Alike b₂ :=
        .inr ⟨hctx₂.toStartsStatement, hb₂.toStartsStatement, by rw [hlocals₂, hlocals₂', hsame₁.2]⟩
      obtain ⟨b₃, hreads₃, halike₃, -⟩ :=
        hlines.alike halike₂ (.inl (by rw [hctx₂.atLineStart, hb₂.atLineStart]))
      obtain ⟨b, hreads, halike⟩ := ih hreads₃ hb₂ hkeep.2.2 hdocument.2.2
      refine ⟨b, ?_, halike₃.trans halike⟩
      rw [padded_append_feed width true hno]
      simpa [lineFeed] using hreads₁.append (hreads₂.append hreads)

/-! ## Fragments -/

/-- Lexemes keep to their lines if the tokens do. -/
lemma Reads.keepsLine_lexemesOf {rest code : Text} {ctx ctx' : Context}
    (h : Reads rest ctx code (lexemesOf code) ctx')
    (hlines : ∀ t ∈ (tokenize code).tokens, '\n' ∉ t.text ∨ (t.kind = .newline ∧ t.text.length = 1))
    (hdata : ∀ t ∈ (tokenize code).tokens, t.kind ≠ .data) :
    ∀ l ∈ lexemesOf code, l.keepsLine = true := by
  intro l hl
  obtain ⟨-, hnewline⟩ := h.text_ne_nil l hl
  obtain ⟨t, ht, rfl⟩ := List.mem_map.mp hl
  refine Lexeme.keepsLine_iff.mpr ⟨hdata t ht, ?_⟩
  rcases hlines t ht with hno | ⟨hkind, hlength⟩
  · exact .inr ⟨hno, fun hkind => hno (hnewline hkind)⟩
  · left
    obtain ⟨c, hc⟩ := List.length_eq_one_iff.mp hlength
    have hfeed := hnewline hkind
    rw [hc, List.mem_singleton] at hfeed
    rw [lineFeed, ← hkind, hfeed, ← hc]

/-- **A fragment whose tokens keep to their lines has the same tokens when it is indented**, blanks
apart, and is still accepted. -/
theorem indent_keeps_tokens {code : Text} (haccepted : checkSyntax code = .ok ())
    (hlines : ∀ t ∈ (tokenize code).tokens, '\n' ∉ t.text ∨ (t.kind = .newline ∧ t.text.length = 1))
    (hundivided : ∀ t ∈ (tokenize code).tokens, t.kind ≠ .document ∧ t.kind ≠ .data)
    {width : Nat} (hwidth : 0 < width) :
    solid (lexemesOf (Text.indent code width)) = solid (lexemesOf code) ∧
      checkSyntax (Text.indent code width) = .ok () := by
  obtain ⟨herror, hframes⟩ := (checkSyntax_eq_ok_iff code).mp haccepted
  obtain ⟨ctx, hreads, hheredocs⟩ : ∃ ctx, Reads [] {} code (lexemesOf code) ctx ∧
      ctx.heredocs = [] := exists_reads_of_tokensFrom herror
  have hkeep := hreads.keepsLine_lexemesOf hlines fun t ht => (hundivided t ht).2
  have hdocument : ∀ l ∈ lexemesOf code, l.kind ≠ .document := by
    intro l hl
    obtain ⟨t, ht, rfl⟩ := List.mem_map.mp hl
    exact (hundivided t ht).1
  have hindent : (padded width true (lexemesOf code)).flatMap (·.text) =
      Text.indent code width := by
    rw [text_padded width hkeep fun l hl => (hreads.text_ne_nil l hl).1, ← hreads.text_eq]
  obtain ⟨b, hpadded, halike⟩ := hreads.padded (startsLine_initial []) hkeep hdocument hwidth
  rw [hindent] at hpadded
  obtain ⟨herror', hlexemes⟩ := hpadded.tokenize_eq (halike.heredocs_eq.symm.trans hheredocs)
  have hsolid : solid (lexemesOf (Text.indent code width)) = solid (lexemesOf code) := by
    rw [hlexemes, solid_padded]
  refine ⟨hsolid, (checkSyntax_eq_ok_iff _).mpr ⟨herror', ?_⟩⟩
  rw [← framesAfter_solid, hsolid, framesAfter_solid, hframes]

/-- A string that keeps to its line is the same string after the indentation. -/
theorem indent_keeps_tokens_string :
    solid (lexemesOf "      x = \"a\"\n      y".toList) = solid (lexemesOf "x = \"a\"\ny".toList) ∧
      checkSyntax "      x = \"a\"\n      y".toList = .ok () :=
  @indent_keeps_tokens "x = \"a\"\ny".toList (by decide +kernel) (by decide +kernel)
    (by decide +kernel) 6 (by decide)

/-- The body of a heredoc does not keep to one line.  It is indented too, and its terminator with
it, which ends nothing any more. -/
theorem indent_loses_heredoc :
    checkSyntax "x = <<E\nbody\nE\n".toList = .ok () ∧
      solid (lexemesOf (Text.indent "x = <<E\nbody\nE\n".toList 6)) ≠
        solid (lexemesOf "x = <<E\nbody\nE\n".toList) ∧
      checkSyntax (Text.indent "x = <<E\nbody\nE\n".toList 6) ≠ .ok () := by
  decide +kernel

/-- What a fragment has to fulfil to be put between other lines: it is accepted alone, its tokens
keep to their lines, it has no embedded document and no data section, it does not end with a
backslash, and its tokens do not depend on names that were assigned before it. -/
structure Embeddable (code : Text) : Prop where
  accepted : checkSyntax code = .ok ()
  keepsLines : ∀ t ∈ (tokenize code).tokens, '\n' ∉ t.text ∨ (t.kind = .newline ∧ t.text.length = 1)
  undivided : ∀ t ∈ (tokenize code).tokens, t.kind ≠ .document ∧ t.kind ≠ .data
  unhidden : code.getLast? ≠ some '\\'
  unassigned : ∀ locals, tokensFrom { locals := locals } 0 1 0 code = tokenize code

namespace Embeddable

variable {code : Text} (h : Embeddable code)
include h

/-- A fragment is read as its lexemes, whatever was assigned before. -/
lemma exists_reads (locals : List Text) : ∃ ctx',
    Reads [] { locals := locals } code (lexemesOf code) ctx' ∧
    ctx'.heredocs = [] := by
  obtain ⟨herror, -⟩ := (checkSyntax_eq_ok_iff code).mp h.accepted
  have hreads := @exists_reads_of_tokensFrom code { locals := locals } 0 1
    (by rw [h.unassigned, herror])
  rwa [h.unassigned] at hreads

lemma keepsLine : ∀ l ∈ lexemesOf code, l.keepsLine = true := by
  obtain ⟨ctx', hreads, -⟩ := h.exists_reads []
  exact hreads.keepsLine_lexemesOf h.keepsLines fun t ht => (h.undivided t ht).2

/-- A fragment that is shifted to the right is read as its lexemes with more blanks. -/
theorem passage {width : Nat} (hwidth : 0 < width) :
    Passage (Text.indent code width ++ ['\n'])
      (padded width true (lexemesOf code) ++ [lineFeed]) := by
  obtain ⟨_, htext, -⟩ := h.exists_reads []
  have hindent : (padded width true (lexemesOf code)).flatMap (·.text) =
      Text.indent code width := by
    rw [text_padded width h.keepsLine fun l hl => (htext.text_ne_nil l hl).1, ← htext.text_eq]
  have hdocument : ∀ l ∈ lexemesOf code, l.kind ≠ .document := by
    intro l hl
    obtain ⟨t, ht, rfl⟩ := List.mem_map.mp hl
    exact (h.undivided t ht).1
  have hdata : ∀ l ∈ lexemesOf code, l.kind ≠ .data :=
    fun l hl => (Lexeme.keepsLine_iff.mp (h.keepsLine l hl)).1
  have hfeeds : ∀ l ∈ lexemesOf code, l.kind = .newline → EndsLine l.text := by
    intro l hl hkind
    obtain ⟨-, rfl | ⟨-, hno⟩⟩ := Lexeme.keepsLine_iff.mp (h.keepsLine l hl)
    · intro c hc
      simpa [lineFeed] using hc.symm
    · exact absurd hkind hno
  have hback : ∀ l ∈ (lexemesOf code).getLast?, l.text ≠ ['\\'] ∧ l.text ≠ ['?', '\\'] := by
    intro l hl
    obtain ⟨init, hinit⟩ := List.getLast?_eq_some_iff.mp hl
    have hcode : code = init.flatMap (·.text) ++ l.text := by
      rw [htext.text_eq, hinit]
      simp
    constructor <;> intro hback <;> refine h.unhidden ?_ <;> rw [hcode, hback] <;> simp
  rw [← hindent]
  refine passage_of_reads fun locals => ?_
  obtain ⟨ctx', hreads, hheredocs⟩ := h.exists_reads locals
  have hbefore := hreads.before_feed hdata hfeeds hback []
  obtain ⟨b, hpadded, halike⟩ :=
    hbefore.padded (startsLine_initial locals) h.keepsLine hdocument hwidth
  refine ⟨b, hpadded, ?_⟩
  exact halike.heredocs_eq.symm.trans hheredocs

end Embeddable

/-- Whether a fragment can be put between other lines, found by reading it alone.  This also rejects
some that could: those in which a slash, a percent sign or `<<` makes it depend on the names
assigned before. -/
def isEmbeddable (code : Text) : Bool :=
  isValid code &&
    ((tokenize code).tokens.all fun t =>
      ('\n' ∉ t.text || (t.kind = .newline && t.text.length = 1)) &&
        t.kind ≠ .document && t.kind ≠ .data) &&
    code.getLast? ≠ some '\\' && asksNoLocals code

theorem embeddable_of_isEmbeddable {code : Text}
    (h : isEmbeddable code = true) : Embeddable code := by
  simp only [isEmbeddable, isValid, Bool.and_eq_true, List.all_eq_true, Bool.or_eq_true,
    decide_eq_true_eq] at h
  obtain ⟨⟨⟨hvalid, htokens⟩, hlast⟩, hasks⟩ := h
  refine ⟨?_, fun t ht => (htokens t ht).1.1, fun t ht => ⟨(htokens t ht).1.2, (htokens t ht).2⟩,
    hlast, fun locals => tokensFrom_with_locals hasks {} locals 0 1 0⟩
  cases hcheck : checkSyntax code with
  | ok => rfl
  | error error =>
      rw [hcheck] at hvalid
      simp [Except.isOk, Except.toBool] at hvalid

end ConverterAssembly.Ruby
