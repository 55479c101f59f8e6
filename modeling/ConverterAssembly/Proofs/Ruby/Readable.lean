import ConverterAssembly.Proofs.Ruby.Breaks
import ConverterAssembly.Proofs.Ruby.Wrapping

/-!
# Readable form

`prettyPrint` gives every statement of a fragment a line of its own.  Where each semicolon can be
read as a line feed, the result holds the same statements (`prettyPrint_keeps_statements`), and a
second run finds nothing to do (`prettyPrint_prettyPrint`).

**Legible fragments.**  `Legible` collects what this takes.  The semicolons at the ends of lines,
which are dropped before, are a matter of their own.

**Statements.**  The settled lines are read as their tokens, so the result has the tokens of these
lines; the same statements give them the same roles.

**A second run.**  The result has whole lines with the margins that they get.

**Escaped blanks and heredocs.**  `prettyPrint_joins_statements` and `prettyPrint_twice` are what
happens to fragments that are not legible.
-/

namespace ConverterAssembly.Ruby

open Text

/-! ## Legible fragments -/

/-- A fragment each of whose statements can have a line of its own. -/
structure Legible (text : Text) : Prop extends Closed text where
  unmarked : placeholder ∉ text
  named : namesMethods (lexemesOf text) = true
  legible : ∀ line ∈ fragmentLines text, line.staysLegible = true

lemma neutral_of_isTrivia {prev : Option Lexeme} {inHeader : Bool} {ls : List Lexeme} :
    ∀ p ∈ parts prev inHeader ls, p.1.isTrivia = true → p.2 = .neutral := by
  induction ls generalizing prev inHeader with
  | nil => intro p hp; cases hp
  | cons l ls ih =>
      rw [parts_cons]
      refine List.forall_mem_cons.2 ⟨fun htrivia => ?_, ih⟩
      simp only [Lexeme.isTrivia, Bool.or_eq_true, decide_eq_true_eq] at htrivia
      rcases htrivia with (h | h) | h <;> simp [roleOf, h]

lemma textIn_fragmentLines (text : Text) : textIn (fragmentLines text) = text ++ ['\n'] := by
  rw [textIn_eq, lexemesIn_fragmentLines, List.flatMap_append, Context.lexemes_tokenize,
    Context.flatMap_lexemes]
  rfl

lemma Line.mem_textIn {lines : List Line} {line : Line} (hline : line ∈ lines) {c : Char}
    (hc : c ∈ line.text) : c ∈ textIn lines := by
  rw [← text_rest, lexemesIn, List.flatMap_map] at hc
  obtain ⟨t, ht, hct⟩ := List.mem_flatMap.1 hc
  refine List.mem_flatMap.2 ⟨t, List.mem_flatMap.2 ⟨line, hline, ?_⟩, hct⟩
  rw [line.withTerminator_eq]
  exact List.mem_append_right _ ht

namespace Legible

variable {text : Text}

/-- Each line of a legible fragment ends a statement. -/
lemma ends (h : Legible text) : ∀ line ∈ fragmentLines text, line.Ends := by
  intro line hline
  obtain ⟨hunbroken, n, hterminator, hbreak⟩ :
      (∀ t ∈ line.tokens, t.1.isBreak = false) ∧
        ∃ m, line.terminator = some m ∧ m.isBreak = true := by
    rw [fragmentLines, fragmentParts, List.map_append] at hline
    exact of_mem_statementLines rfl line hline
  refine ⟨⟨?_, hunbroken, ?_⟩, h.legible line hline, n, hterminator, ?_⟩
  · intro t ht htrivia
    obtain ⟨p, hp, rfl⟩ := List.mem_map.1 (Layout.mem_of_mem_splitLines hline ht)
    rcases List.mem_append.1 hp with hp | hp
    · exact neutral_of_isTrivia p hp htrivia
    · rw [List.mem_singleton.1 hp]
      rfl
  · intro hmem
    have hall := Line.mem_textIn hline hmem
    rw [textIn_fragmentLines, List.mem_append] at hall
    rcases hall with hall | hall
    · exact h.unmarked hall
    · exact absurd hall (by decide)
  · simpa [Lexeme.isBreak] using hbreak

/-- The lines of a legible fragment settle, and can be read again. -/
lemma exists_settles (h : Legible text) :
    ∃ settled, Settles false (fragmentLines text) settled ∧ Rereads {} settled := by
  obtain ⟨ctx, hreads, -⟩ := h.exists_reads (startsLine_initial []) rfl ['\n']
  rw [← lexemesIn_fragmentLines] at hreads
  refine Ruby.exists_settles h.ends ?_ (by simp) (by simp) (startsLine_initial []).toStartsStatement
    (by simp) hreads
  intro line hline
  have hlast := lastTerminator_fragmentLines text
  rw [lastTerminator, hline] at hlast
  exact ⟨Line.feed, hlast, rfl⟩

end Legible

/-! ## Statements -/

lemma map_strip_fragmentLines (text : Text) :
    (fragmentLines text).map Line.strip = fragmentLines text := by
  rw [fragmentLines, statementLines, ← splitLines_map_stripped, List.map_map]
  rfl

/-- What does not act in whole lines has no role. -/
lemma inert_part {lines : List Line} (h : ∀ line ∈ lines, line.Whole) :
    Inert ((tokensIn lines).map part) := by
  intro p hp hacts
  obtain ⟨t, ht, rfl⟩ := List.mem_map.1 hp
  obtain ⟨line, hline, ht⟩ := List.mem_flatMap.1 ht
  rcases List.mem_append.1 ht with ht | ht
  · have hbreak := (h line hline).unbroken t ht
    have hspace : t.1.kind = .space := by
      by_contra hspace
      rw [Lexeme.acts, show (part t).1 = t.1.toLexeme from rfl, hbreak] at hacts
      simp [hspace] at hacts
    exact (h line hline).neutral.blanksNeutral t ht hspace
  · obtain ⟨n, -, rfl⟩ := List.mem_map.1 ht
    rfl

section

variable {code : Text} (hlegible : Legible (thinned code))
  (haccepted : checkSyntax (thinned code) = .ok ()) {indentCount : Nat} (hcount : 0 < indentCount)
  {settled : List Line} (hsettles : Settles false (fragmentLines (thinned code)) settled)
include hlegible haccepted hcount hsettles

lemma prettyPrint_append_feed_of_settles :
    prettyPrint code indentCount ++ ['\n'] = textIn (outdented indentCount 1 settled) :=
  prettyPrint_append_feed hlegible.toClosed haccepted (map_strip_fragmentLines _) hsettles hcount

variable (hrereads : Rereads {} settled)
include hrereads

/-- The result is read as the tokens of the settled lines. -/
lemma closed_prettyPrint :
    Closed (prettyPrint code indentCount) ∧ (tokenize (prettyPrint code indentCount)).error = none ∧
      lexemesOf (prettyPrint code indentCount) ++ [lineFeed] =
        lexemesIn (tokensIn (outdented indentCount 1 settled)) := by
  obtain ⟨n, hlast, hn⟩ := (hsettles.lastTerminator_eq (n := Line.feed) rfl
    (lastTerminator_fragmentLines _)).resolve_left (by simp)
  obtain ⟨ls, hls⟩ :=
    exists_lexemesIn_eq ((lastTerminator_outdented indentCount 1 settled).trans hlast) hn
  obtain ⟨ctx, hreads, -⟩ := hrereads indentCount 1 {} (startsLine_initial []) rfl []
  rw [hls, ← prettyPrint_append_feed_of_settles hlegible haccepted hcount hsettles] at hreads
  obtain ⟨hclosed, herror, hlexemes⟩ := hreads.closed
  exact ⟨hclosed, herror, by rw [hlexemes, hls]⟩

/-- The result holds the statements of the fragment. -/
lemma statements_prettyPrint :
    statements (lexemesOf (prettyPrint code indentCount)) =
      statements (lexemesOf (thinned code)) := by
  obtain ⟨-, -, hlexemes⟩ := closed_prettyPrint hlegible haccepted hcount hsettles hrereads
  calc statements (lexemesOf (prettyPrint code indentCount))
      = statements (lexemesIn (tokensIn (outdented indentCount 1 settled))) := by
        rw [← statements_append_feed, hlexemes]
    _ = statements (lexemesIn (tokensIn settled)) :=
      statementsFrom_outdented indentCount 1 settled .fresh
    _ = statements (lexemesIn (tokensIn (fragmentLines (thinned code)))) := hsettles.statements_eq
    _ = statements (lexemesOf (thinned code)) := by
        rw [lexemesIn_fragmentLines, statements_append_feed]

lemma checkSyntax_prettyPrint : checkSyntax (prettyPrint code indentCount) = .ok () := by
  obtain ⟨-, herror, -⟩ := closed_prettyPrint hlegible haccepted hcount hsettles hrereads
  have hstatements := statements_prettyPrint hlegible haccepted hcount hsettles hrereads
  refine (checkSyntax_eq_ok_iff_runRoles _).2 ⟨herror, ?_⟩
  rw [← runRoles_roles_eq hstatements.symm hlegible.named]
  exact ((checkSyntax_eq_ok_iff_runRoles _).1 haccepted).2

lemma kind_ne_semicolon_of_mem_prettyPrint :
    ∀ l ∈ lexemesOf (prettyPrint code indentCount), l.kind ≠ .semicolon := by
  obtain ⟨-, -, hlexemes⟩ := closed_prettyPrint hlegible haccepted hcount hsettles hrereads
  intro l hl hkind
  have hmem : l ∈ lexemesIn (tokensIn (outdented indentCount 1 settled)) := by
    rw [← hlexemes]
    exact List.mem_append_left _ hl
  obtain ⟨t, ht, rfl⟩ := List.mem_map.1 hmem
  obtain ⟨line, hline, ht⟩ := List.mem_flatMap.1 ht
  obtain ⟨hsound, n, hterminator, hnewline, -⟩ :=
    whole_of_mem_outdented hsettles.whole_of_mem line hline
  rcases List.mem_append.1 ht with ht | ht
  · simpa [Lexeme.isBreak, hkind] using hsound.unbroken t ht
  · simp only [hterminator, Option.toList_some, List.map_cons, List.map_nil, List.mem_singleton]
      at ht
    rw [ht, hnewline] at hkind
    cases hkind

/-- The lines of the result are the settled lines under their margins. -/
lemma fragmentLines_prettyPrint :
    fragmentLines (prettyPrint code indentCount) =
      (outdented indentCount 1 settled).map Line.strip := by
  obtain ⟨-, -, hlexemes⟩ := closed_prettyPrint hlegible haccepted hcount hsettles hrereads
  have hstatements := statements_prettyPrint hlegible haccepted hcount hsettles hrereads
  have hwhole := @whole_of_mem_outdented indentCount 1 settled hsettles.whole_of_mem
  have hbreaks : ∀ line ∈ settled, ∀ n ∈ line.terminator, n.isBreak = true := by
    intro line hline n hn
    obtain ⟨n', hterminator, hkind, -⟩ := (hsettles.whole_of_mem line hline).ended
    rw [hterminator] at hn
    rw [← Option.some.inj hn]
    simp [Lexeme.isBreak, hkind]
  have hfeed : ∀ text, acting (fragmentParts text) =
      acting (parts none false (lexemesOf text)) := by
    intro text
    rw [fragmentParts, acting_append, acting_cons_of_not_acts rfl]
    exact List.append_nil _
  have hacting : acting (fragmentParts (prettyPrint code indentCount)) =
      acting ((tokensIn (outdented indentCount 1 settled)).map part) := by
    have hsource : (tokensIn (fragmentLines (thinned code))).map part =
        fragmentParts (thinned code) := by
      rw [tokensIn_fragmentLines, List.map_map]
      exact List.map_id _
    rw [hfeed, acting_eq hstatements ?_, acting_outdented _ _ hbreaks, hsettles.acting_eq, hsource,
      hfeed]
    rw [← namesMethods_statementsFrom .fresh, ← statements, hstatements, statements,
      namesMethods_statementsFrom, hlegible.named]
  have hparts : fragmentParts (prettyPrint code indentCount) =
      (tokensIn (outdented indentCount 1 settled)).map part := by
    refine eq_of_acting_eq (inert_fragmentParts _) (inert_part hwhole) ?_ hacting
    rw [map_fst_part, ← hlexemes, fragmentParts, List.map_append, map_fst_parts]
    rfl
  rw [fragmentLines, hparts, ← map_stripped_eq, statementLines, splitLines_map_stripped,
    ← statementLines, statementLines_tokensIn hwhole]

end

/-- **Statements.**  A legible fragment that is accepted, and loses only separators at the ends of
its lines, has the same statements in readable form.  The result is accepted
and holds no semicolon. -/
theorem prettyPrint_keeps_statements {code : Text} (haccepted : checkSyntax code = .ok ())
    (hthinned : statements (lexemesOf (thinned code)) = statements (lexemesOf code))
    (hlegible : Legible (thinned code)) {indentCount : Nat} (hcount : 0 < indentCount) :
    statements (lexemesOf (prettyPrint code indentCount)) = statements (lexemesOf code) ∧
      checkSyntax (prettyPrint code indentCount) = .ok () ∧
      ∀ l ∈ lexemesOf (prettyPrint code indentCount), l.kind ≠ .semicolon := by
  have haccepted' : checkSyntax (thinned code) = .ok () := by
    obtain ⟨_, halone⟩ := hlegible.exists_reads_alone
    refine (checkSyntax_eq_ok_iff_runRoles _).2 ⟨halone.closed.2.1, ?_⟩
    rw [runRoles_roles_eq hthinned hlegible.named]
    exact ((checkSyntax_eq_ok_iff_runRoles _).1 haccepted).2
  obtain ⟨settled, hsettles, hrereads⟩ := hlegible.exists_settles
  refine ⟨?_, ?_, ?_⟩
  · rw [statements_prettyPrint hlegible haccepted' hcount hsettles hrereads, hthinned]
  · exact checkSyntax_prettyPrint hlegible haccepted' hcount hsettles hrereads
  · exact kind_ne_semicolon_of_mem_prettyPrint hlegible haccepted' hcount hsettles hrereads

/-- A semicolon at the end, and one in the body of a heredoc, which stays. -/
theorem prettyPrint_keeps_statements_heredoc :
    let code := "if a; p <<E\nb; c\nE\nend;".toList
    let result := "if a\n  p <<E\nb; c\nE\nend".toList
    prettyPrint code 2 = result ∧ statements (lexemesOf result) = statements (lexemesOf code) ∧
      checkSyntax result = .ok () ∧ ∀ l ∈ lexemesOf result, l.kind ≠ .semicolon := by
  intro code result
  have hlegible : Legible (thinned code) :=
    ⟨⟨by decide +kernel, by decide +kernel⟩, by decide +kernel, by decide +kernel,
      by decide +kernel⟩
  have hresult : prettyPrint code 2 = result := by decide +kernel
  have hkeeps := @prettyPrint_keeps_statements code (by decide +kernel)
    (by decide +kernel) hlegible 2 (by decide)
  rw [hresult] at hkeeps
  exact ⟨hresult, hkeeps⟩

/-- The character literal of an escaped blank loses the blank, and takes the line feed for it: two
statements become one. -/
theorem prettyPrint_joins_statements :
    let code := "x = ?\\ ; y".toList
    checkSyntax code = .ok () ∧ thinned code = code ∧
      statements (lexemesOf (prettyPrint code 2)) ≠ statements (lexemesOf code) := by
  decide +kernel

/-! ## A second run -/

/-- Lines that keep their semicolons keep them under new margins. -/
lemma keepsSemicolons_outdented {indentCount height : Nat} {lines : List Line}
    (hwhole : ∀ line ∈ lines, line.Whole) (h : ∀ line ∈ lines, KeepsSemicolons line.text) :
    KeepsSemicolons (textIn (outdented indentCount height lines)) := by
  induction lines generalizing height with
  | nil => exact ⟨rfl, rfl⟩
  | cons line lines ih =>
      obtain ⟨⟨-, n, hterminator, -, hends⟩, hwholes⟩ := List.forall_mem_cons.1 hwhole
      obtain ⟨hline, hlines⟩ := List.forall_mem_cons.1 h
      have hlast : (line.outerMargin indentCount height ++ line.text).getLast? = some '\n' := by
        simp [Line.text, hterminator, List.getLast?_append, hends]
      have hmargin : ∀ c ∈ line.outerMargin indentCount height, c = ' ' :=
        fun c hc => List.eq_of_mem_replicate hc
      rw [outdented, textIn_cons, (withTerminator_behind_margin line _).2]
      exact (hline.behind_margin hmargin).append (ih hwholes hlines) hlast

/-- **A second run.**  A legible fragment in readable form stays as it is, if its statements keep
their semicolons at the ends of lines of their own. -/
theorem prettyPrint_prettyPrint {code : Text} (haccepted : checkSyntax (thinned code) = .ok ())
    (hlegible : Legible (thinned code))
    (hkeeps : ∀ line ∈ fragmentLines (thinned code), KeepsSemicolons line.broken.text)
    {indentCount : Nat} (hcount : 0 < indentCount) :
    prettyPrint (prettyPrint code indentCount) indentCount = prettyPrint code indentCount := by
  obtain ⟨settled, hsettles, hrereads⟩ := hlegible.exists_settles
  have hwhole := @whole_of_mem_outdented indentCount 1 settled hsettles.whole_of_mem
  have htext := prettyPrint_append_feed_of_settles hlegible haccepted hcount hsettles
  have hthinned : thinned (prettyPrint code indentCount) = prettyPrint code indentCount := by
    have hkept : KeepsSemicolons (prettyPrint code indentCount ++ ['\n']) := by
      rw [htext]
      refine keepsSemicolons_outdented hsettles.whole_of_mem fun line hline => ?_
      obtain ⟨l, hl, rfl⟩ := hsettles.exists_eq_broken line hline
      exact hkeeps l hl
    exact hkept.of_append_feed.thinned_eq
  have hclosed := (closed_prettyPrint hlegible haccepted hcount hsettles hrereads).1
  have haccepted' := checkSyntax_prettyPrint hlegible haccepted hcount hsettles hrereads
  have hsame := fragmentLines_prettyPrint hlegible haccepted hcount hsettles hrereads
  rw [← hthinned] at hclosed haccepted' hsame
  have hsecond := prettyPrint_append_feed hclosed haccepted' hsame.symm (.of_whole hwhole) hcount
  rw [outdented_outdented _ _ fun line hline =>
    (hsettles.whole_of_mem line hline).neutral.blanksNeutral, ← htext] at hsecond
  exact List.append_cancel_right hsecond

/-- A bracket over two lines in a block. -/
theorem prettyPrint_prettyPrint_brackets :
    let code := "if a; [b,\nc]; end".toList
    let result := "if a\n  [b,\n    c]\nend".toList
    prettyPrint code 2 = result ∧ prettyPrint result 2 = result := by
  intro code result
  have hlegible : Legible (thinned code) :=
    ⟨⟨by decide +kernel, by decide +kernel⟩, by decide +kernel, by decide +kernel,
      by decide +kernel⟩
  have hresult : prettyPrint code 2 = result := by decide +kernel
  have htwice := @prettyPrint_prettyPrint code (by decide +kernel) hlegible (by decide +kernel) 2
    (by decide)
  rw [hresult] at htwice
  exact ⟨hresult, htwice⟩

/-- A statement after the opener of a heredoc becomes part of its body, and
opens no block in a second run. -/
theorem prettyPrint_twice :
    let code := "x = <<E; if y\nbody\nE\nz\nend\n".toList
    checkSyntax code = .ok () ∧ thinned code = code ∧
      prettyPrint (prettyPrint code 2) 2 ≠ prettyPrint code 2 := by
  decide +kernel

end ConverterAssembly.Ruby
