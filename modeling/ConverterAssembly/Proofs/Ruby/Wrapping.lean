import ConverterAssembly.Proofs.Ruby.Thinning
import ConverterAssembly.Proofs.Ruby.Unwrapping

/-!
# A fragment in its wrapper

A fragment with a line feed at its end is read in the wrapper as it is read alone, and its tokens
have the roles that they have alone.  So its lines stand between those of the wrapper, and
`prettyPrint` comes down to what becomes of these lines (`prettyPrint_append_feed`).

**Lines.**  `statementLines` cuts tokens into statements, and `fragmentLines` are the lines of a
fragment alone.

**Tokens.**  `Closed` says that the line feed after a fragment is a token of its own, so that
nothing in the fragment reaches into the wrapper.

**Roles.**  Only `def` looks ahead, and `framesAfter` has counted all brackets that it would look
for (`parts_fragment`).
-/

namespace ConverterAssembly.Ruby

open Text

/-! ## Lines -/

/-- The lines of tokens where statements are broken. -/
def statementLines (tokens : List (Token × Role)) : List Line :=
  ({ breaksStatements := true } : Layout).splitLines tokens

lemma splitLines_wrappedLayout (indentCount : Nat) (tokens : List (Token × Role)) :
    (wrappedLayout indentCount).splitLines tokens = statementLines tokens := by
  rw [statementLines]
  induction tokens with
  | nil => rfl
  | cons t tokens ih =>
      have hbreaks : (wrappedLayout indentCount).breaksAt t.1 =
          ({ breaksStatements := true } : Layout).breaksAt t.1 := rfl
      rw [Layout.splitLines, Layout.splitLines, hbreaks, ih]

section

variable {tokens : List (Token × Role)} {n : Token × Role}

lemma statementLines_append_break (h : ∀ t ∈ tokens, t.1.isBreak = false) (hn : n.1.isBreak = true)
    (rest : List (Token × Role)) :
    statementLines (tokens ++ n :: rest) = ⟨tokens, some n.1⟩ :: statementLines rest :=
  @Layout.splitLines_append_break { breaksStatements := true } tokens h n hn rest

/-- Lines can be cut behind each break. -/
lemma statementLines_append (hn : n.1.isBreak = true) (rest : List (Token × Role)) :
    statementLines (tokens ++ n :: rest) =
      statementLines (tokens ++ [n]) ++ statementLines rest := by
  induction tokens using break_induction (fun t : Token × Role => t.1.isBreak) with
  | last tokens hlast =>
      rw [statementLines_append_break hlast hn, statementLines_append_break hlast hn]
      rfl
  | line tokens m more hline hm ih =>
      rw [List.append_assoc, List.append_assoc, List.cons_append, List.cons_append,
        statementLines_append_break hline hm, statementLines_append_break hline hm, ih,
        List.cons_append]

/-- No token of a line but the last is a break, and the last line ends like the others. -/
lemma of_mem_statementLines (hn : n.1.isBreak = true) :
    ∀ line ∈ statementLines (tokens ++ [n]),
      (∀ t ∈ line.tokens, t.1.isBreak = false) ∧
        ∃ m, line.terminator = some m ∧ m.isBreak = true := by
  induction tokens using break_induction (fun t : Token × Role => t.1.isBreak) with
  | last tokens hlast =>
      rw [statementLines_append_break hlast hn]
      exact List.forall_mem_cons.2 ⟨⟨hlast, _, rfl, hn⟩,
        by simp [statementLines, Layout.splitLines]⟩
  | line tokens m more hline hm ih =>
      rw [List.append_assoc, List.cons_append, statementLines_append_break hline hm]
      exact List.forall_mem_cons.2 ⟨⟨hline, _, rfl, hm⟩, ih⟩

lemma lastTerminator_statementLines (hn : n.1.isBreak = true) :
    lastTerminator (statementLines (tokens ++ [n])) = some n.1 := by
  induction tokens using break_induction (fun t : Token × Role => t.1.isBreak) with
  | last tokens hlast =>
      rw [statementLines_append_break hlast hn]
      rfl
  | line tokens m more hline hm ih =>
      rw [List.append_assoc, List.cons_append, statementLines_append_break hline hm,
        lastTerminator_cons _ (ne_nil_of_lastTerminator ih), ih]

/-- The lines hold all tokens. -/
lemma tokensIn_statementLines (h : ∀ t ∈ tokens, t.1.isBreak = true → t.2 = .neutral) :
    tokensIn (statementLines tokens) = tokens := by
  induction tokens using break_induction (fun t : Token × Role => t.1.isBreak) with
  | last tokens hlast =>
      by_cases hnil : tokens = []
      · rw [hnil]
        rfl
      · rw [statementLines, @Layout.splitLines_of_no_break { breaksStatements := true } tokens hnil
          hlast]
        simp [Line.withTerminator]
  | line tokens n rest hline hn ih =>
      have hneutral : n.2 = .neutral := h n (by simp) hn
      rw [statementLines_append_break hline hn, tokensIn_cons, ih fun t ht => h t (by simp [ht]),
        Line.withTerminator]
      simp [← hneutral]

/-- Whole lines are the lines of their tokens. -/
lemma statementLines_tokensIn {lines : List Line} (h : ∀ line ∈ lines, line.Whole) :
    statementLines (tokensIn lines) = lines := by
  induction lines with
  | nil => rfl
  | cons line lines ih =>
      obtain ⟨⟨hsound, n, hterminator, hkind, -⟩, hlines⟩ := List.forall_mem_cons.1 h
      have hn : n.isBreak = true := by simp [Lexeme.isBreak, hkind]
      have hcut : line.withTerminator = line.tokens ++ [(n, .neutral)] := by
        simp [Line.withTerminator, hterminator]
      have hline : statementLines (line.tokens ++ (n, .neutral) :: tokensIn lines) =
          ⟨line.tokens, some n⟩ :: statementLines (tokensIn lines) :=
        statementLines_append_break hsound.unbroken hn _
      rw [tokensIn_cons, hcut, List.append_assoc, List.singleton_append, hline, ih hlines,
        ← hterminator]

end

/-! ## Places -/

/-- A lexeme with its role, as a token without a place. -/
def unplace (p : Lexeme × Role) : Token × Role :=
  (⟨p.1, 0, 0⟩, p.2)

lemma unplaced_eq (ls : List Lexeme) : unplaced ls = (parts none false ls).map unplace := by
  rw [unplaced, parts, List.zip_map_left]
  rfl

lemma map_stripped_eq (tokens : List (Token × Role)) :
    tokens.map stripped = (tokens.map part).map unplace := by
  rw [List.map_map]
  rfl

/-- Places do not matter to what is written. -/
lemma writeLines_map_strip (layout : Layout) (pending : Bool) (height : Nat) (lines : List Line) :
    layout.writeLines pending height (lines.map Line.strip) =
      layout.writeLines pending height lines := by
  induction lines generalizing pending height with
  | nil => rfl
  | cons line lines ih =>
      have hbody : line.strip.body = line.body := by
        rw [Line.body, line.visible_strip, flatMap_map_stripped, Line.body]
      rw [List.map_cons, Layout.writeLines, Layout.writeLines, line.isBlank_strip,
        line.indentation_strip, line.heightAfter_strip, hbody, Line.strip]
      cases line.terminator with
      | none => simp only [Option.map_none, ih]
      | some token =>
          have hkind : token.strip.kind = token.kind := rfl
          have htext : token.strip.text = token.text := rfl
          simp only [Option.map_some, hkind, htext, ih]

lemma map_snd_tokensIn_strip (lines : List Line) :
    (tokensIn (lines.map Line.strip)).map (·.2) = (tokensIn lines).map (·.2) := by
  induction lines with
  | nil => rfl
  | cons line lines ih =>
      have hline : line.strip.withTerminator.map (·.2) = line.withTerminator.map (·.2) := by
        cases hterminator : line.terminator <;>
          simp [Line.withTerminator, Line.strip, hterminator, stripped]
      rw [List.map_cons, tokensIn_cons, tokensIn_cons, List.map_append, List.map_append, hline, ih]

lemma lastTerminator_map_strip (lines : List Line) :
    lastTerminator (lines.map Line.strip) = (lastTerminator lines).map Token.strip := by
  rw [lastTerminator, lastTerminator, List.getLast?_map]
  cases lines.getLast? <;> rfl

/-! ## Tokens -/

/-- A text after which a line feed is a token of its own. -/
structure Closed (text : Text) : Prop where
  complete : (tokenize (text ++ ['\n'])).error = none
  feed : lexemesOf (text ++ ['\n']) = lexemesOf text ++ [lineFeed]

/-- What is read in front of a line feed is read in the same way at the end. -/
lemma Reads.at_end {r text : Text} {ctx ctx' : Context} {ls : List Lexeme}
    (h : Reads ('\n' :: r) ctx text ls ctx') : Reads [] ctx text ls ctx' := by
  induction h with
  | nil ctx => exact .nil ctx
  | @cons ctx ctx' c p text lexemes scan read size complete tail ih =>
      refine .cons ?_ size complete ih
      rw [← List.append_assoc] at read ⊢
      rw [List.append_nil, ← read]
      refine (ctx.scan_append_stops 0 (stops_cons.mpr (by decide)) (fun _ _ => rfl)
        (.inl ⟨by simp, ?_⟩)).symm
      rw [read, size, List.length_append]
      exact Nat.le_add_right _ _

/-- A text that is read with a line feed at its end is closed. -/
lemma Reads.closed {text : Text} {ls : List Lexeme} {ctx : Context}
    (h : Reads [] {} (text ++ ['\n']) (ls ++ [lineFeed]) ctx) :
    Closed text ∧ (tokenize text).error = none ∧ lexemesOf text = ls := by
  obtain ⟨x, y, ctx₁, hxy, hx, hy⟩ := h.split
  obtain rfl : y = ['\n'] := hy.text_eq
  obtain rfl : text = x := List.append_cancel_right hxy
  obtain ⟨hheredocs, hstarts, -⟩ := hy.of_feed
  obtain ⟨herror, hlexemes⟩ := hx.at_end.tokenize_eq hheredocs
  obtain ⟨herror', hlexemes'⟩ := h.tokenize_eq hstarts.heredocs
  exact ⟨⟨herror', hlexemes'.trans (by rw [hlexemes])⟩, herror, hlexemes⟩

namespace Closed

variable {text : Text}

/-- A closed text has no problem. -/
lemma exists_reads_alone (h : Closed text) :
    ∃ ctx, Reads [] {} (text ++ ['\n']) (lexemesOf text ++ [lineFeed]) ctx := by
  obtain ⟨ctx, hreads, -⟩ := exists_reads_of_tokensFrom h.complete
  exact ⟨ctx, h.feed ▸ hreads⟩

/-- A closed text is read in the same way at the start of any line without assignments before. -/
lemma exists_reads (h : Closed text) {ctx : Context} (hctx : ctx.StartsLine)
    (hlocals : ctx.locals = []) (rest : Text) :
    ∃ ctx', Reads rest ctx (text ++ ['\n']) (lexemesOf text ++ [lineFeed]) ctx' ∧
      ctx'.StartsLine := by
  obtain ⟨_, halone⟩ := h.exists_reads_alone
  obtain ⟨x, y, a₁, hxy, hx, hy⟩ := halone.split
  obtain rfl : y = ['\n'] := hy.text_eq
  obtain rfl : text = x := List.append_cancel_right hxy
  have halike : Context.Alike {} ctx :=
    .inr ⟨(startsLine_initial []).toStartsStatement, hctx.toStartsStatement, hlocals.symm⟩
  obtain ⟨b₁, hinside, halike', -⟩ := hx.alike halike (.inl hctx.atLineStart.symm)
  obtain ⟨b₂, hfeed, hstarts, -⟩ := reads_feed (halike'.heredocs_eq.symm.trans hy.of_feed.1) rest
  have hinside' : Reads (['\n'] ++ rest) ctx text (lexemesOf text) b₁ :=
    hinside.before_line (d := []) rest
  exact ⟨b₂, hinside'.append hfeed, hstarts⟩

end Closed

lemma reads_wrapperOpening (rest : Text) :
    ∃ ctx, Reads rest {} wrapperOpening (lexemesOf wrapperOpening) ctx ∧ ctx.StartsLine ∧
      ctx.locals = [] := by
  obtain ⟨ctx₀, hwords, hheredocs, hlocals₀⟩ : ∃ ctx, Reads ('\n' :: rest) {} "module M_".toList
      [⟨.keyword, "module".toList⟩, ⟨.space, [' ']⟩, ⟨.ident, "M_".toList⟩] ctx ∧
        ctx.heredocs = [] ∧ ctx.locals = [] :=
    ⟨_, .cons (p := "odule".toList) rfl rfl rfl (.cons (p := []) rfl rfl rfl
      (.cons (p := ['_']) rfl rfl rfl (.nil _))), rfl, rfl⟩
  obtain ⟨ctx, hfeed, hstarts, hlocals⟩ := reads_feed hheredocs rest
  exact ⟨ctx, hwords.append hfeed, hstarts, hlocals.trans hlocals₀⟩

/-- The tokens of a fragment in the wrapper. -/
lemma Closed.lexemesOf_wrapped {text : Text} (h : Closed text) :
    lexemesOf (wrapperOpening ++ (text ++ wrapperClosing)) =
      lexemesOf wrapperOpening ++
        (lexemesOf text ++ lineFeed :: ⟨.keyword, "end".toList⟩ :: [lineFeed]) := by
  have hclosing : Passage "end\n".toList [⟨.keyword, "end".toList⟩, lineFeed] :=
    passage_of_isPassage (by decide)
  obtain ⟨ctx, hopening, hctx, hlocals⟩ :=
    reads_wrapperOpening ((text ++ ['\n']) ++ ("end\n".toList ++ []))
  obtain ⟨ctx₁, htext, hctx₁⟩ := h.exists_reads hctx hlocals ("end\n".toList ++ [])
  obtain ⟨ctx₂, hend, hctx₂⟩ := hclosing [] ctx₁ hctx₁
  have hall : wrapperOpening ++ (text ++ wrapperClosing) =
      wrapperOpening ++ ((text ++ ['\n']) ++ ("end\n".toList ++ [])) := by
    rw [List.append_nil, List.append_assoc]
    rfl
  rw [hall, Context.lexemes_tokenize, (Context.lexemes_of_reads hopening).1,
    (Context.lexemes_of_reads htext).1, (Context.lexemes_of_reads hend).1, Context.lexemes_nil]
  simp only [List.append_assoc, List.append_nil, List.singleton_append]

/-! ## Roles -/

/-- What comes after accepted lexemes, a line feed and a token that ends definitions does not matter
to the roles before. -/
lemma parts_fragment {prev : Option Lexeme} {inHeader : Bool} {frames : List Frame}
    {ls : List Lexeme} (h : framesAfter prev inHeader frames ls = some []) {l : Lexeme}
    (hl : l.endsDefinition = true)
    (following : List Lexeme) :
    parts prev inHeader (ls ++ lineFeed :: l :: following) =
      parts prev inHeader ls ++ (lineFeed, .neutral) :: parts none false (l :: following) := by
  induction ls generalizing prev inHeader frames with
  | nil => exact parts_cons_of_isBreak (.inl rfl) prev inHeader _
  | cons l' ls ih =>
      rw [framesAfter] at h
      cases happly : (roleOf prev inHeader l' ls).apply frames with
      | error problem => simp [happly] at h
      | ok frames' =>
          rw [happly] at h
          rw [List.cons_append, parts_cons, parts_cons, roleOf_append_feed h hl, ih h,
            List.cons_append]

/-- The parts of a fragment with a line feed at its end. -/
def fragmentParts (text : Text) : List (Lexeme × Role) :=
  parts none false (lexemesOf text) ++ [(lineFeed, .neutral)]

/-- The lines of a fragment with a line feed at its end. -/
def fragmentLines (text : Text) : List Line :=
  statementLines ((fragmentParts text).map unplace)

lemma inert_fragmentParts (text : Text) : Inert (fragmentParts text) := by
  intro p hp hacts
  rcases List.mem_append.1 hp with hp | hp
  · exact inert_parts none false _ p hp hacts
  · rw [List.mem_singleton.1 hp]

lemma tokensIn_fragmentLines (text : Text) :
    tokensIn (fragmentLines text) = (fragmentParts text).map unplace := by
  refine tokensIn_statementLines fun t ht hbreak => ?_
  obtain ⟨p, hp, rfl⟩ := List.mem_map.1 ht
  have hacts : p.1.acts = false := by
    rw [Lexeme.acts, show p.1.isBreak = true from hbreak, Bool.not_true, Bool.and_false]
  exact inert_fragmentParts text p hp hacts

lemma map_snd_tokensIn_fragmentLines (text : Text) :
    (tokensIn (fragmentLines text)).map (·.2) = roles (lexemesOf text) ++ [.neutral] := by
  have hroles : (fragmentParts text).map (·.2) = roles (lexemesOf text) ++ [.neutral] := by
    rw [fragmentParts, List.map_append, map_snd_parts]
    rfl
  rw [tokensIn_fragmentLines, List.map_map, ← hroles]
  rfl

lemma lexemesIn_fragmentLines (text : Text) :
    lexemesIn (tokensIn (fragmentLines text)) = lexemesOf text ++ [lineFeed] := by
  have hlexemes : (fragmentParts text).map (·.1) = lexemesOf text ++ [lineFeed] := by
    rw [fragmentParts, List.map_append, map_fst_parts]
    rfl
  rw [tokensIn_fragmentLines, lexemesIn, List.map_map, ← hlexemes]
  rfl

lemma lastTerminator_fragmentLines (text : Text) :
    lastTerminator (fragmentLines text) = some Line.feed := by
  rw [fragmentLines, fragmentParts, List.map_append]
  exact lastTerminator_statementLines rfl

/-- The lines of a fragment stand between those of the wrapper. -/
lemma Closed.statementLines_wrapped {text : Text} (h : Closed text)
    (haccepted : checkSyntax text = .ok ()) :
    statementLines (unplaced (lexemesOf (wrapperOpening ++ (text ++ wrapperClosing)))) =
      openingLine :: (fragmentLines text ++ [closingLine]) := by
  obtain ⟨-, hframes⟩ := (checkSyntax_eq_ok_iff text).mp haccepted
  have hopening : lexemesOf wrapperOpening = [⟨.keyword, "module".toList⟩, ⟨.space, [' ']⟩,
      ⟨.ident, "M_".toList⟩, lineFeed] := by decide
  have hparts :
      (parts none false (lexemesOf (wrapperOpening ++ (text ++ wrapperClosing)))).map unplace =
      openingLine.tokens ++ (Line.feed, .neutral) :: ((fragmentParts text).map unplace ++
        closingLine.withTerminator) := by
    have hfragment := parts_fragment hframes (l := ⟨.keyword, "end".toList⟩) rfl [lineFeed]
    rw [h.lexemesOf_wrapped, hopening, fragmentParts]
    simp only [List.cons_append, List.nil_append]
    rw [parts_cons, parts_cons, parts_cons, parts_cons_of_isBreak (.inl rfl), hfragment]
    simp only [List.map_append, List.map_cons, List.append_assoc, List.cons_append]
    rfl
  have hfragment : statementLines ((fragmentParts text).map unplace ++ closingLine.withTerminator) =
      fragmentLines text ++ [closingLine] := by
    rw [fragmentLines, fragmentParts, List.map_append, List.append_assoc]
    exact statementLines_append rfl _
  rw [unplaced_eq, hparts, statementLines_append_break (by decide) rfl, hfragment]
  rfl

/-- A fragment without semicolons at the ends of its lines is the text of its settled lines under
their margins, but for the last line feed. -/
theorem prettyPrint_append_feed {code : Text} (hclosed : Closed (thinned code))
    (haccepted : checkSyntax (thinned code) = .ok ()) {lines settled : List Line}
    (hlines : lines.map Line.strip = fragmentLines (thinned code)) (h : Settles false lines settled)
    {indentCount : Nat} (hcount : 0 < indentCount) :
    prettyPrint code indentCount ++ ['\n'] = textIn (outdented indentCount 1 settled) := by
  obtain ⟨n, hlast, hn⟩ : ∃ n, lastTerminator lines = some n ∧ n.toLexeme = lineFeed := by
    have hstrip := lastTerminator_map_strip lines
    rw [hlines, lastTerminator_fragmentLines] at hstrip
    obtain ⟨n, hn, hfeed⟩ := Option.map_eq_some_iff.1 hstrip.symm
    exact ⟨n, hn, congrArg (·.toLexeme) hfeed⟩
  have hrun : runRoles [] ((tokensIn lines).map (·.2)) = .ok [] := by
    rw [← map_snd_tokensIn_strip, hlines, map_snd_tokensIn_fragmentLines]
    exact runRoles_append_eq_ok_iff.2 ⟨[], ((checkSyntax_eq_ok_iff_runRoles _).1 haccepted).2, rfl⟩
  have hformat : (wrappedLayout indentCount).format (wrapFragment code) =
      (wrappedLayout indentCount).writeLines false 0 (openingLine :: (lines ++ [closingLine])) := by
    have hstrip : (openingLine :: (lines ++ [closingLine])).map Line.strip =
        openingLine :: (fragmentLines (thinned code) ++ [closingLine]) := by
      rw [← hlines, List.map_cons, List.map_append]
      rfl
    rw [Layout.format, ← writeLines_map_strip, ← splitLines_map_stripped, map_stripped_withRoles_eq,
      ← lexemesOf, wrapFragment_eq, splitLines_wrappedLayout,
      hclosed.statementLines_wrapped haccepted, ← hstrip, writeLines_map_strip]
  rw [prettyPrint, hformat]
  exact unwrapFragment_lines hcount h hlast hn hrun

end ConverterAssembly.Ruby
