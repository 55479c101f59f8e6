import ConverterAssembly.Proofs.Ruby.Statements

/-!
# Reading one statement a line

A semicolon can be read as a line feed where three things hold of the statement before it: no
heredoc waits for its body there, the line feed makes no directive of its last word, and no
backslash hides it. `Line.staysLegible` says so, and that the statement is no directive at the start
of its own line.

**Tokens.**  `Reads.before_stop` puts a line feed in the place of a blank or a semicolon.

**Lines.**  `Reads.keep_line` and `Reads.break_line` read a line at the start of another one, behind
a new margin.

**Sources.**  `exists_settles` goes through all lines: they settle, and the settled lines are read
as their tokens, whatever their margins.
-/

namespace ConverterAssembly.Ruby

open Text

/-! ## Tokens -/

/-- A complete token in front of a stop is read in the same way in front of a line feed, unless the
line feed makes it a directive or is hidden. -/
theorem Context.scan_before_stop (ctx : Context) (line : Nat) {c : Char} {p q : Text} (hq : Stops q)
    (hne : q ≠ []) (hsize : (ctx.scan line c (p ++ q)).extent.size ≤ p.length)
    (hcomplete : (ctx.scan line c (p ++ q)).extent.error = none)
    (hdir : ctx.atLineStart = true → c :: p ≠ "=begin".toList ∧ c :: p ≠ "__END__".toList)
    (hback : c :: p ≠ ['\\']) (hquestion : c :: p ≠ ['?', '\\']) (r : Text) :
    ctx.scan line c (p ++ '\n' :: r) = ctx.scan line c (p ++ q) := by
  have halone : ctx.scan line c (p ++ q) = ctx.scan line c p := by
    refine ctx.scan_append_stops line hq (fun hstart hword => ?_) (.inl ⟨hne, hsize⟩)
    rcases hword with hword | hword
    · exact absurd hword (hdir hstart).1
    · exact absurd hword (hdir hstart).2
  exact ctx.scan_append_feed line hne halone hsize hcomplete hback hquestion r

/-- A part in front of a stop is read in the same way in front of a line feed. -/
lemma Reads.before_stop {q text : Text} {ctx ctx' : Context} {ls : List Lexeme}
    (h : Reads q ctx text ls ctx') (hq : Stops q) (hne : q ≠ [])
    (hstart : ctx.atLineStart = true → text ≠ "=begin".toList ∧ text ≠ "__END__".toList)
    (hinner : ¬ "\n=begin".toList <:+ text ∧ ¬ "\n__END__".toList <:+ text)
    (hback : ∀ l ∈ ls.getLast?, l.text ≠ ['\\'] ∧ l.text ≠ ['?', '\\']) (r : Text) :
    Reads ('\n' :: r) ctx text ls ctx' := by
  induction h with
  | nil ctx => exact .nil ctx
  | @cons ctx ctx' c p text lexemes scan read size complete tail ih =>
      have hback' : ∀ l ∈ lexemes.getLast?, l.text ≠ ['\\'] ∧ l.text ≠ ['?', '\\'] := by
        intro l hl
        refine hback l ?_
        rw [Option.mem_def] at hl
        rw [List.getLast?_cons, hl]
        rfl
      -- a directive after a line feed in the token would be one after the line feed in the text
      have hnext : ∀ word : Text, ¬ '\n' :: word <:+ c :: p ++ text →
          (c :: p).getLast? = some '\n' → text ≠ word := by
        rintro word hword hlast rfl
        obtain ⟨init, hinit⟩ := List.getLast?_eq_some_iff.1 hlast
        exact hword ⟨init, by rw [hinit]; simp⟩
      have htail : ∀ word : Text, ¬ word <:+ c :: p ++ text → ¬ word <:+ text :=
        fun word hword hsuffix => hword (hsuffix.trans (List.suffix_append _ _))
      refine .cons ?_ size complete
        (ih (fun hatStart => ?_) ⟨htail _ hinner.1, htail _ hinner.2⟩ hback')
      · rw [← List.append_assoc] at read ⊢
        rw [← read]
        refine ctx.scan_before_stop 0 (p := p ++ text) hq hne ?_
          (by rw [read]; exact complete) hstart ?_ ?_ r
        · rw [read, size, List.length_append]
          exact Nat.le_add_right _ _
        · cases text with
          | nil =>
              cases tail
              rw [List.append_nil]
              exact (hback _ rfl).1
          | cons d text => simp
        · cases text with
          | nil =>
              cases tail
              rw [List.append_nil]
              exact (hback _ rfl).2
          | cons d text =>
              intro hquestion
              obtain ⟨rfl, rfl, rfl, rfl⟩ : c = '?' ∧ p = [] ∧ d = '\\' ∧ text = [] := by
                cases p <;> simp_all
              obtain ⟨kind, rfl⟩ := tail.eq_singleton
              exact (hback' _ rfl).1 rfl
      · have hlast : (c :: p).getLast? = some '\n' := by simpa [Context.after] using hatStart
        exact ⟨hnext _ hinner.1 hlast, hnext _ hinner.2 hlast⟩

/-- The first token of a part is read where the part begins. -/
lemma Reads.exists_scan {rest text : Text} {ctx ctx' : Context} {l : Lexeme} {ls : List Lexeme}
    (h : Reads rest ctx text (l :: ls) ctx') :
    ∃ c p, text = c :: p ∧ (ctx.scan 0 c (p ++ rest)).kind = l.kind := by
  cases h with
  | @cons _ _ c p text _ scan read size complete tail =>
      refine ⟨c, p ++ text, rfl, ?_⟩
      rw [List.append_assoc, read]

lemma Reads.getLast?_of_atLineStart {rest text : Text} {ctx ctx' : Context} {l : Lexeme}
    (h : Reads rest ctx text [l] ctx') (hstart : ctx'.atLineStart = true) :
    l.text.getLast? = some '\n' := by
  cases h with
  | @cons _ _ c p text _ scan read size complete tail =>
      cases tail
      simpa [Context.after] using hstart

/-- Whether a lexeme opens a heredoc. -/
def Lexeme.opensHeredoc (l : Lexeme) : Bool :=
  l.kind = .literal && startsWith l.text ['<', '<']

/-- Only an opener leaves a heredoc to come. -/
lemma Context.scan_heredocs (ctx : Context) (line : Nat) (c : Char) (cs : Text)
    (h : ctx.heredocs = []) :
    (ctx.scan line c cs).heredocs = [] ∨ (⟨(ctx.scan line c cs).kind,
      c :: cs.take (ctx.scan line c cs).extent.size⟩ : Lexeme).opensHeredoc = true := by
  apply ctx.scan_cases (motive := fun s => s.heredocs = [] ∨
    (⟨s.kind, c :: cs.take s.extent.size⟩ : Lexeme).opensHeredoc = true) line c cs
  case newline =>
    intro _
    left
    rw [scanNewline]
    split_ifs
    · exact h
    · rfl
  case heredoc =>
    rintro size heredoc rfl hnext hsize -
    right
    cases cs with
    | nil => simp at hnext
    | cons d cs =>
        obtain rfl : d = '<' := by simpa using hnext
        simp [Lexeme.opensHeredoc, plain, startsWith, dropStart?]
  all_goals
    intros
    exact .inl h

section

variable {rest text : Text} {ctx ctx' : Context} {ls : List Lexeme}

lemma Reads.heredocs (h : Reads rest ctx text ls ctx') (hnone : ∀ l ∈ ls, l.opensHeredoc = false)
    (hctx : ctx.heredocs = []) : ctx'.heredocs = [] := by
  induction h with
  | nil => exact hctx
  | @cons ctx ctx' c p text lexemes scan read size complete tail ih =>
      obtain ⟨hl, htail⟩ := List.forall_mem_cons.1 hnone
      refine ih htail ?_
      rcases ctx.scan_heredocs 0 c (p ++ (text ++ rest)) hctx with hscan | hopens
      · rw [read] at hscan
        exact hscan
      · rw [read, size, List.take_left, hl] at hopens
        cases hopens

/-- Blanks keep the names assigned before them. -/
lemma Reads.locals_of_blanks (h : Reads rest ctx text ls ctx')
    (hspace : ∀ l ∈ ls, l.kind = .space) :
    ctx'.locals = ctx.locals := by
  induction h with
  | nil => rfl
  | @cons ctx ctx' c p text lexemes scan read size complete tail ih =>
      obtain ⟨hkind, htail⟩ := List.forall_mem_cons.1 hspace
      replace hkind : scan.kind = .space := hkind
      refine (ih htail).trans ?_
      cases hlast : ctx.last <;>
        simp [Context.after, Context.localsAfter, Lexeme.isOperator, hkind, hlast]

/-- Blanks in front of a stop begin with one, if none of them hides a line feed. -/
lemma Reads.stops_of_blanks (h : Reads rest ctx text ls ctx') (hspace : ∀ l ∈ ls, l.kind = .space)
    (hblank : ∀ c ∈ text, isBlank c = true) (hrest : Stops rest) : Stops (text ++ rest) := by
  cases h with
  | nil => exact hrest
  | @cons _ _ c p text _ scan read size complete tail =>
      have hkind : scan.kind = .space := hspace _ List.mem_cons_self
      rw [← read] at hkind
      refine stops_cons.mpr ?_
      rcases ctx.of_scan_space 0 hkind with hgap | ⟨rfl, -⟩
      · simp [isStop, hgap]
      · exact absurd (hblank '\\' List.mem_cons_self) (by decide)

/-- After a semicolon a statement begins, with the names assigned before. -/
lemma Reads.semicolon {n : Lexeme} (h : Reads rest ctx text [n] ctx') (hn : n.kind = .semicolon)
    (hheredocs : ctx.heredocs = []) :
    text = [';'] ∧ ctx'.StartsStatement ∧ ctx'.atLineStart = false ∧ ctx'.locals = ctx.locals := by
  cases h with
  | @cons _ _ c p text _ scan read size complete tail =>
      cases tail
      obtain rfl : c = ';' := ctx.of_scan_semicolon 0 (by rw [read]; exact hn)
      rw [Context.scan_semicolon] at read
      subst read
      obtain rfl : p = [] := List.length_eq_zero_iff.1 size.symm
      refine ⟨rfl, ⟨?_, ?_, ?_⟩, rfl, ?_⟩
      · simp [Context.after, Context.plain]
      · simp [Context.after, Context.plain, hheredocs]
      · simp [Context.after, Context.plain, Lexeme.isTrivia]
      · cases hlast : ctx.last <;>
          simp [Context.after, Context.localsAfter, Context.plain, Lexeme.isOperator, hlast]

/-- Where no heredoc waits for its body, a line feed stands alone. -/
lemma Reads.lone_feed {n : Lexeme} (h : Reads rest ctx text [n] ctx') (hn : n.kind = .newline)
    (hheredocs : ctx.heredocs = []) :
    n = lineFeed ∧ ctx'.StartsLine ∧ ctx'.locals = ctx.locals := by
  have hread := h
  cases h with
  | @cons _ _ c p text _ scan read size complete tail =>
      cases tail
      obtain rfl : c = '\n' := ctx.of_scan_newline 0 (by rw [read]; exact hn)
      rw [Context.scan_feed, Context.scanNewline, hheredocs, List.isEmpty_nil, if_pos rfl] at read
      subst read
      obtain rfl : p = [] := List.length_eq_zero_iff.1 size.symm
      exact ⟨rfl, hread.of_feed.2⟩

end

/-! ## Lines -/

/-- Whether the first column would make a directive of a line that begins with none. -/
def Line.feignsDirective (line : Line) : Bool :=
  !line.isUnindented &&
    (isDirective "=begin".toList line.text || isDirective "__END__".toList line.text)

/-- Whether a line feed can stand for the semicolon that ends a line, and for the blanks before. -/
def Line.endsFreely (line : Line) : Bool :=
  trimEnd line.body = line.broken.body &&
    (line.tokens.all fun t => !t.1.opensHeredoc) &&
    !"\n=begin".toList.isSuffixOf ('\n' :: line.broken.body) &&
    !"\n__END__".toList.isSuffixOf ('\n' :: line.broken.body) &&
    line.broken.tokens.getLast?.all fun t => t.1.text ≠ ['\\'] && t.1.text ≠ ['?', '\\']

/-- Whether a line is read as before when it stands alone: it is no directive that it was not
before, only its own blanks stand before an embedded document, and a line feed can end it. -/
def Line.staysLegible (line : Line) : Bool :=
  !line.feignsDirective && !(line.isUnindented && line.tokens.head?.any (·.1.kind = .space)) &&
    (!line.endsStatement || line.isBlank || line.endsFreely)

/-- What a token that ends a statement begins with ends every directive. -/
lemma isDirective_append_stop {d : Text} (hd : d.all (fun c => !isStop c) = true) {s : Char}
    (hs : isStop s = true) (a q : Text) :
    isDirective d (a ++ s :: q) = isDirective d (a ++ [s]) := by
  by_cases ha : a = d
  · subst ha
    have hdrop : ∀ q, dropStart? a (a ++ q) = some q := fun q => dropStart?_eq_some_iff.2 rfl
    rw [isDirective, isDirective, hdrop, hdrop]
    rfl
  · rw [Context.isDirective_append_stops (stopless_of_all hd) a (stops_cons.mpr hs)
        fun h => absurd h ha,
      Context.isDirective_append_stops (stopless_of_all hd) a (stops_cons.mpr hs)
        fun h => absurd h ha]

/-- What is trimmed from the end of a text is blank. -/
lemma isBlank_of_trimEnd {a b : Text} (h : trimEnd (a ++ b) = a) : ∀ c ∈ b, isBlank c = true := by
  set blanks := ((a ++ b).reverse.takeWhile isBlank).reverse with hblanks
  have hsplit : trimEnd (a ++ b) ++ blanks = a ++ b := by
    rw [trimEnd, hblanks, ← List.reverse_append, List.takeWhile_append_dropWhile,
      List.reverse_reverse]
  rw [h] at hsplit
  intro c hc
  rw [← List.append_cancel_left hsplit, hblanks, List.mem_reverse] at hc
  exact List.mem_takeWhile_imp hc

lemma of_endsFreely {line : Line} (h : line.endsFreely = true) :
    trimEnd line.body = line.broken.body ∧ (∀ t ∈ line.tokens, t.1.opensHeredoc = false) ∧
      ((line.broken.body ≠ "=begin".toList ∧ line.broken.body ≠ "__END__".toList) ∧
        ¬ "\n=begin".toList <:+ line.broken.body ∧ ¬ "\n__END__".toList <:+ line.broken.body) ∧
      ∀ l ∈ (lexemesIn line.broken.tokens).getLast?, l.text ≠ ['\\'] ∧ l.text ≠ ['?', '\\'] := by
  simp only [Line.endsFreely, Bool.and_eq_true, decide_eq_true_eq, Bool.not_eq_true',
    List.all_eq_true] at h
  obtain ⟨⟨⟨⟨htrimmed, hopeners⟩, hbegin⟩, hend⟩, hlast⟩ := h
  have hsuffix : ∀ word : Text, ('\n' :: word).isSuffixOf ('\n' :: line.broken.body) = false →
      line.broken.body ≠ word ∧ ¬ '\n' :: word <:+ line.broken.body := by
    intro word hword
    have hnot : ¬ '\n' :: word <:+ '\n' :: line.broken.body := by
      rw [← List.isSuffixOf_iff_suffix, hword]
      exact Bool.false_ne_true
    exact ⟨fun heq => hnot (heq ▸ List.suffix_rfl), fun h => hnot (h.trans (List.suffix_cons _ _))⟩
  obtain ⟨hbegin, hbegin'⟩ := hsuffix _ hbegin
  obtain ⟨hend, hend'⟩ := hsuffix _ hend
  refine ⟨htrimmed, hopeners, ⟨⟨hbegin, hend⟩, hbegin', hend'⟩, fun l hl => ?_⟩
  rw [lexemesIn, List.getLast?_map, Option.mem_def, Option.map_eq_some_iff] at hl
  obtain ⟨t, ht, rfl⟩ := hl
  simpa [ht] using hlast

/-- The names assigned are the same in contexts that are alike. -/
lemma Context.Alike.locals_eq {a b : Context} (h : a.Alike b) : a.locals = b.locals := by
  rcases h with rfl | ⟨-, -, hlocals⟩
  · rfl
  · exact hlocals

/-- The parts of a line are read one after another. -/
lemma Reads.split_line {rest text : Text} {a a' : Context} {line : Line} {n : Token}
    (h : Reads rest a text (lexemesIn line.withTerminator) a') (hn : line.terminator = some n) :
    ∃ lead stop a₁ a₂, text = lead ++ (line.body ++ stop) ∧
      Reads (line.body ++ stop ++ rest) a lead (lexemesIn line.lead) a₁ ∧
      Reads (stop ++ rest) a₁ line.body (lexemesIn line.visible) a₂ ∧
      Reads rest a₂ stop [n.toLexeme] a' ∧ line.text = line.body ++ stop := by
  have hrest : lexemesIn line.rest = lexemesIn line.visible ++ [n.toLexeme] := by
    simp [lexemesIn, Line.rest, hn]
  rw [line.withTerminator_eq, lexemesIn_append, hrest] at h
  obtain ⟨lead, z, a₁, rfl, hlead, hz⟩ := h.split
  obtain ⟨body, stop, a₂, rfl, hbody, hstop⟩ := hz.split
  have hbodyText : line.body = body := by
    rw [hbody.text_eq, lexemesIn, List.flatMap_map]
    rfl
  subst hbodyText
  refine ⟨lead, stop, a₁, a₂, rfl, hlead, hbody, hstop, ?_⟩
  rw [hstop.text_eq, Line.text, hn]
  simp

section

variable {rest text : Text} {a a' b : Context} {line : Line} {n : Token}
  (h : Reads rest a text (lexemesIn line.withTerminator) a') (hn : line.terminator = some n)
  (ha : a.StartsStatement)
include h hn

/-- An embedded document begins at the start of a line. -/
lemma Reads.atLineStart_of_isUnindented (hlegible : line.staysLegible = true)
    (hunindented : line.isUnindented = true) : a.atLineStart = true := by
  obtain ⟨lead, stop, a₁, a₂, -, hlead, hbody, -⟩ := h.split_line hn
  have hnone : line.lead = [] := by
    simp only [Line.staysLegible, hunindented, Bool.true_and, Bool.and_eq_true, Bool.not_eq_true']
      at hlegible
    cases htokens : line.tokens with
    | nil => simp [Line.lead, htokens]
    | cons t tokens =>
        have ht : ¬ t.1.kind = .space := by simpa [htokens] using hlegible.1.2
        simp [Line.lead, htokens, ht]
  rw [hnone] at hlead
  cases hlead
  cases hvisible : line.visible with
  | nil => simp [Line.isUnindented, hvisible] at hunindented
  | cons t visible =>
      rw [hvisible, lexemesIn, List.map_cons] at hbody
      obtain ⟨c, p, -, hkind⟩ := hbody.exists_scan
      refine @Context.atLineStart_of_scan a 0 c (p ++ (stop ++ rest)) ?_
      rw [hkind]
      simpa [Line.isUnindented, hvisible] using hunindented

include ha

/-- A line without tokens leaves nothing but its terminator to read. -/
lemma Reads.exists_of_isBlank (hblank : line.isBlank = true) :
    ∃ stop a₁, Reads rest a₁ stop [n.toLexeme] a' ∧ a₁.StartsStatement ∧ a₁.locals = a.locals := by
  obtain ⟨lead, stop, a₁, a₂, -, hlead, hbody, hstop, -⟩ := h.split_line hn
  obtain ⟨hstarts, hlocals⟩ := hlead.startsStatement kind_of_mem_lead ha
  rw [Line.visible_of_isBlank hblank] at hbody
  generalize line.body = body at hbody
  cases hbody
  exact ⟨stop, a₁, hstop, hstarts, hlocals⟩

/-- An empty statement. -/
lemma Reads.blank_semicolon (hblank : line.isBlank = true) (hkind : n.kind = .semicolon) :
    a'.StartsStatement ∧ a'.atLineStart = false ∧ a'.locals = a.locals := by
  obtain ⟨stop, a₁, hstop, hstarts, hlocals⟩ := h.exists_of_isBlank hn ha hblank
  obtain ⟨-, hstarts', hstart, hlocals'⟩ := hstop.semicolon hkind hstarts.heredocs
  exact ⟨hstarts', hstart, hlocals'.trans hlocals⟩

/-- Nothing before a line feed. -/
lemma Reads.blank_feed (hblank : line.isBlank = true) (hkind : n.kind = .newline) :
    n.toLexeme = lineFeed ∧ a'.StartsLine ∧ a'.locals = a.locals := by
  obtain ⟨stop, a₁, hstop, hstarts, hlocals⟩ := h.exists_of_isBlank hn ha hblank
  obtain ⟨hfeed, hstarts', hlocals'⟩ := hstop.lone_feed hkind hstarts.heredocs
  exact ⟨hfeed, hstarts', hlocals'.trans hlocals⟩

variable (hlegible : line.staysLegible = true) (hb : b.StartsLine) (hlocals : a.locals = b.locals)
  {margin : Text} (hgap : ∀ c ∈ margin, isGap c = true)
  (hmargin : line.isUnindented = true → margin = [])
include hlegible hb hlocals hgap hmargin

/-- Behind its margin a line is read from a context like the one that it had. -/
lemma Reads.exists_margin (hbreak : n.kind = .newline ∨ n.kind = .semicolon) :
    ∃ lead stop a₁ a₂ b₁, text = lead ++ (line.body ++ stop) ∧
      Reads (stop ++ rest) a₁ line.body (lexemesIn line.visible) a₂ ∧
      Reads rest a₂ stop [n.toLexeme] a' ∧ line.text = line.body ++ stop ∧
      (∀ rest', rest'.head?.any isGap = false → Reads rest' b margin (marginLexemes margin) b₁) ∧
      (line.body ++ stop).head?.any isGap = false ∧ a₁.Alike b₁ ∧ a₁.heredocs = [] ∧
      (a₁.atLineStart = b₁.atLineStart ∨
        (isDirective "=begin".toList (line.body ++ (stop ++ rest)) = false ∧
          isDirective "__END__".toList (line.body ++ (stop ++ rest)) = false)) := by
  obtain ⟨lead, stop, a₁, a₂, htext, hlead, hbody, hstop, hlineText⟩ := h.split_line hn
  -- a directive does not reach over the end of the line
  obtain ⟨s, p, rfl, hs⟩ : ∃ s p, stop = s :: p ∧ isStop s = true := by
    obtain ⟨c, p, rfl, hkind⟩ := hstop.exists_scan
    refine ⟨c, p, rfl, ?_⟩
    rcases hbreak with hn | hn
    · rw [a₂.of_scan_newline 0 (hkind.trans hn)]
      decide
    · rw [a₂.of_scan_semicolon 0 (hkind.trans hn)]
      decide
  have hdirective : ∀ d : Text, d.all (fun c => !isStop c) = true →
      isDirective d (line.body ++ (s :: p ++ rest)) = isDirective d line.text := by
    intro d hd
    rw [hlineText, List.cons_append, isDirective_append_stop hd hs,
      ← isDirective_append_stop hd hs line.body p]
  obtain ⟨hstarts, -⟩ := hlead.startsStatement kind_of_mem_lead ha
  have hrest : lexemesIn line.rest = lexemesIn line.visible ++ [n.toLexeme] := by
    simp [lexemesIn, Line.rest, hn]
  obtain ⟨l, tail, hcons⟩ : ∃ l tail, lexemesIn line.rest = l :: tail := by
    rw [hrest]
    cases lexemesIn line.visible with
    | nil => exact ⟨_, _, rfl⟩
    | cons l tail => exact ⟨_, _, rfl⟩
  obtain ⟨hl, hflush⟩ := of_rest_eq_cons (by simpa [hn] using hbreak) hcons
  have hlexemes : a₁.lexemes (line.body ++ s :: p ++ rest) = l :: (tail ++ a'.lexemes rest) := by
    rw [List.append_assoc, (Context.lexemes_of_reads hbody).1, (Context.lexemes_of_reads hstop).1,
      ← List.append_assoc, ← hrest, hcons, List.cons_append]
  simp only [Line.staysLegible, Bool.and_eq_true, Bool.not_eq_true'] at hlegible
  obtain ⟨hhead, b₁, hreads, halike, hdir⟩ := exists_reads_lead ha hb hlocals hlead kind_of_mem_lead
    hlexemes hl hgap (fun hkind => hmargin (hflush.1 hkind)) (fun _ hkind => by
      rw [List.append_assoc, hdirective _ (by decide), hdirective _ (by decide)]
      have hflushed : line.isUnindented = false := by simpa [hflush] using hkind
      simpa [Line.feignsDirective, hflushed] using hlegible.1.1)
  rw [List.append_assoc] at hdir
  refine ⟨lead, s :: p, a₁, a₂, b₁, htext, hbody, hstop, hlineText, hreads, ?_, halike,
    hstarts.heredocs, hdir⟩
  cases hb : line.body <;> simpa [hb] using hhead

/-- A line with its line feed, behind a new margin. -/
lemma Reads.keep_line (hkind : n.kind = .newline) (hrest : rest ≠ []) (rest' : Text) :
    ∃ b', Reads rest' b (margin ++ line.text) (marginLexemes margin ++ lexemesIn line.rest) b' ∧
      b'.StartsLine ∧ a'.locals = b'.locals := by
  obtain ⟨lead, stop, a₁, a₂, b₁, -, hbody, hstop, hlineText, hreads, hhead, halike, -, hdir⟩ :=
    h.exists_margin hn ha hlegible hb hlocals hgap hmargin (.inl hkind)
  obtain ⟨b₂, hbody', halike', -⟩ := hbody.alike halike hdir
  obtain ⟨⟨p, rfl⟩, -, hnewline⟩ := hstop.newline hkind hrest halike'
  obtain ⟨b', hfeed, hb', hlocals'⟩ := hnewline rest'
  have hbody'' : Reads ('\n' :: p ++ rest') b₁ line.body (lexemesIn line.visible) b₂ :=
    hbody'.before_line (d := []) (p ++ rest')
  have hhead' : (line.body ++ '\n' :: p ++ rest').head?.any isGap = false := by
    cases hb : line.body <;> simpa [hb] using hhead
  have hsplit : lexemesIn line.rest = lexemesIn line.visible ++ [n.toLexeme] := by
    simp [lexemesIn, Line.rest, hn]
  refine ⟨b', ?_, hb', hlocals'⟩
  rw [hlineText, hsplit]
  exact (hreads _ hhead').append (hbody''.append hfeed)

/-- A line with a line feed for its semicolon, behind a new margin. -/
lemma Reads.break_line (hkind : n.kind = .semicolon) (hvisible : line.isBlank = false)
    (hends : line.endsFreely = true) (rest' : Text) :
    ∃ b', Reads rest' b (margin ++ line.broken.text)
      (marginLexemes margin ++ lexemesIn line.broken.rest) b' ∧
      b'.StartsLine ∧ a'.locals = b'.locals := by
  obtain ⟨lead, stop, a₁, a₂, b₁, -, hbody, hstop, -, hreads, hhead, halike, hheredocs, hdir⟩ :=
    h.exists_margin hn ha hlegible hb hlocals hgap hmargin (.inr hkind)
  obtain ⟨htrimmed, hopeners, hwords, hback⟩ := of_endsFreely hends
  obtain ⟨blanks, htokens, hblanks⟩ := line.exists_blanks
  obtain ⟨hsplit, hne, -⟩ := Line.visible_broken hvisible htokens hblanks
  -- the statement and the blanks behind it
  rw [hsplit, lexemesIn_append] at hbody
  obtain ⟨inner, trail, a₃, hcut, hinner, htrail⟩ := hbody.split
  obtain rfl : inner = line.broken.body := by
    rw [hinner.text_eq, lexemesIn, List.flatMap_map]
    rfl
  have hopens : ∀ l ∈ lexemesIn line.broken.visible, l.opensHeredoc = false := by
    intro l hl
    obtain ⟨t, ht, rfl⟩ := List.mem_map.1 hl
    refine hopeners t ?_
    rw [htokens]
    exact List.mem_append_left _ ((List.dropWhile_suffix _).subset ht)
  have hspace := kind_of_mem_lexemesIn hblanks
  have hopensNot : ∀ l ∈ lexemesIn blanks, l.opensHeredoc = false := by
    intro l hl
    simp [Lexeme.opensHeredoc, hspace l hl]
  -- the semicolon and the blanks make room for a line feed
  rw [hcut, List.append_assoc] at hdir
  obtain ⟨b₂, hinner', halike', -⟩ := hinner.alike halike hdir
  have hnone : b₂.heredocs = [] :=
    hinner'.heredocs hopens (halike.heredocs_eq.symm.trans hheredocs)
  have hnone' : a₂.heredocs = [] := htrail.heredocs hopensNot (halike'.heredocs_eq.trans hnone)
  obtain ⟨rfl, -, -, hlocals₁⟩ := hstop.semicolon hkind hnone'
  have hstops : Stops (trail ++ ([';'] ++ rest)) := by
    refine htrail.stops_of_blanks hspace ?_ (stops_cons.mpr (by decide))
    exact isBlank_of_trimEnd (hcut ▸ htrimmed)
  have hbefore : Reads ('\n' :: rest') b₁ line.broken.body (lexemesIn line.broken.visible) b₂ := by
    refine hinner'.before_stop hstops (by simp) (fun _ => hwords.1) hwords.2 ?_ rest'
    intro l hl
    refine hback l ?_
    have hlast : (lexemesIn line.broken.tokens).getLast? =
        (lexemesIn line.broken.visible).getLast? := by
      have hall : line.broken.tokens = line.broken.lead ++ line.broken.visible :=
        List.takeWhile_append_dropWhile.symm
      rw [hall, lexemesIn_append, List.getLast?_append_of_ne_nil]
      simpa [lexemesIn] using hne
    rw [hlast]
    exact hl
  obtain ⟨b', hfeed, hb', hlocals₂⟩ := reads_feed hnone rest'
  have hlocals' : a'.locals = b'.locals := by
    rw [hlocals₁, htrail.locals_of_blanks hspace, halike'.locals_eq, hlocals₂]
  have hhead' : (line.broken.body ++ ['\n'] ++ rest').head?.any isGap = false := by
    rw [hcut] at hhead
    cases hb : line.broken.body with
    | nil =>
        rw [hb] at hinner
        generalize hls : lexemesIn line.broken.visible = ls at hinner
        cases hinner
        exact absurd (List.map_eq_nil_iff.1 hls) hne
    | cons c p => simpa [hb] using hhead
  refine ⟨b', ?_, hb', hlocals'⟩
  rw [Line.text, Line.rest, Line.terminator_broken hn hkind, lexemesIn_append]
  exact (hreads _ hhead').append (hbefore.append hfeed)

end

/-! ## Sources -/

section

variable {rest text : Text} {a a' : Context} {line : Line} {n : Token}
  (h : Reads rest a text (lexemesIn line.withTerminator) a') (hn : line.terminator = some n)
include h hn

/-- A line ends with the line feed of its token, and another one starts. -/
lemma Reads.startsLine_of_newline_line (hkind : n.kind = .newline) (hrest : rest ≠ []) :
    a'.StartsLine ∧ n.text.getLast? = some '\n' := by
  obtain ⟨lead, stop, a₁, a₂, -, -, -, hstop, -⟩ := h.split_line hn
  obtain ⟨-, hstarts, -⟩ := hstop.newline hkind hrest (.refl _)
  exact ⟨hstarts, hstop.getLast?_of_atLineStart hstarts.atLineStart⟩

/-- After a semicolon a statement begins on the same line. -/
lemma Reads.startsStatement_of_semicolon_line (ha : a.StartsStatement) (hkind : n.kind = .semicolon)
    (hopeners : ∀ t ∈ line.tokens, t.1.opensHeredoc = false) :
    a'.StartsStatement ∧ a'.atLineStart = false := by
  obtain ⟨lead, stop, a₁, a₂, -, hlead, hbody, hstop, -⟩ := h.split_line hn
  obtain ⟨hstarts, -⟩ := hlead.startsStatement kind_of_mem_lead ha
  have hnone : a₂.heredocs = [] := by
    refine hbody.heredocs (fun l hl => ?_) hstarts.heredocs
    obtain ⟨t, ht, rfl⟩ := List.mem_map.1 hl
    exact hopeners t ((List.dropWhile_suffix _).subset ht)
  obtain ⟨-, hstarts', hstart, -⟩ := hstop.semicolon hkind hnone
  exact ⟨hstarts', hstart⟩

end

/-- A line that ends a statement in each of its lines. -/
structure Line.Ends (line : Line) : Prop where
  sound : line.Sound
  legible : line.staysLegible = true
  terminated : ∃ n, line.terminator = some n ∧ (n.kind = .newline ∨ n.kind = .semicolon)

/-- Wherever a line starts after the same assignments, the lines are read as their tokens, whatever
their margins, and a line starts after them. -/
def Rereads (a : Context) (lines : List Line) : Prop :=
  ∀ (indentCount height : Nat) (b : Context), b.StartsLine → a.locals = b.locals →
    ∀ rest, ∃ b', Reads rest b (textIn (outdented indentCount height lines))
      (lexemesIn (tokensIn (outdented indentCount height lines))) b' ∧ b'.StartsLine

lemma Rereads.nil (a : Context) : Rereads a [] :=
  fun _ _ b hb _ _ => ⟨b, .nil b, hb⟩

lemma Rereads.of_locals {a a' : Context} {lines : List Line} (h : Rereads a' lines)
    (hlocals : a'.locals = a.locals) : Rereads a lines :=
  fun indentCount height b hb hb' => h indentCount height b hb (hlocals.trans hb')

/-- A line in front of others. -/
lemma Rereads.cons {a a' : Context} {line : Line} {lines : List Line} (h : Rereads a' lines)
    (hline : ∀ (margin : Text) (b : Context), (∀ c ∈ margin, isGap c = true) →
      (line.isUnindented = true → margin = []) → b.StartsLine → a.locals = b.locals →
      ∀ rest, ∃ b', Reads rest b (margin ++ line.text)
        (marginLexemes margin ++ lexemesIn line.rest) b' ∧ b'.StartsLine ∧ a'.locals = b'.locals) :
    Rereads a (line :: lines) := by
  intro indentCount height b hb hlocals rest
  obtain ⟨b₁, hfirst, hb₁, hlocals₁⟩ := hline (line.outerMargin indentCount height) b
    (line.isGap_of_mem_outerMargin indentCount height)
    (fun h => Line.outerMargin_of_steps indentCount height (.inr h)) hb hlocals
    (textIn (outdented indentCount (heightAfter height line.tokens) lines) ++ rest)
  obtain ⟨b', hlater, hb'⟩ := h indentCount (heightAfter height line.tokens) b₁ hb₁ hlocals₁ rest
  obtain ⟨hlexemes, htext⟩ :=
    withTerminator_behind_margin line (line.outerMargin indentCount height)
  refine ⟨b', ?_, hb'⟩
  rw [outdented, textIn_cons, tokensIn_cons, lexemesIn_append, hlexemes, htext]
  exact hfirst.append hlater

/-- The lines of a text settle, and the settled lines are read as their tokens. -/
theorem exists_settles {lines : List Line} (hlines : ∀ line ∈ lines, line.Ends)
    (hlast : ∀ line ∈ lines.getLast?, ∃ n, line.terminator = some n ∧ n.kind = .newline)
    {pending : Bool} (hmore : pending = true → lines ≠ []) {rest text : Text} (hrest : rest ≠ [])
    {a a' : Context} (ha : a.StartsStatement) (hstart : pending = true → a.atLineStart = false)
    (h : Reads rest a text (lexemesIn (tokensIn lines)) a') :
    ∃ settled, Settles pending lines settled ∧ Rereads a settled := by
  induction lines generalizing pending a text with
  | nil =>
      cases pending with
      | true => exact absurd rfl (hmore rfl)
      | false => exact ⟨[], .nil, .nil a⟩
  | cons line lines ih =>
      obtain ⟨⟨hsound, hlegible, n, hn, hbreak⟩, hlines⟩ := List.forall_mem_cons.1 hlines
      have hlast' : ∀ line ∈ lines.getLast?, ∃ n, line.terminator = some n ∧ n.kind = .newline := by
        intro line' hline'
        refine hlast line' ?_
        rw [Option.mem_def] at hline'
        rw [List.getLast?_cons, hline']
        rfl
      have hmore' : n.kind = .semicolon → lines ≠ [] := by
        rintro hkind rfl
        obtain ⟨n', hn', hkind'⟩ := hlast line rfl
        rw [hn, Option.some.injEq] at hn'
        rw [hn', hkind'] at hkind
        cases hkind
      rw [tokensIn_cons, lexemesIn_append] at h
      obtain ⟨x, y, a₁, rfl, hx, hy⟩ := h.split
      have hyne : y ++ rest ≠ [] := by simp [hrest]
      have hindented : pending = true → line.isUnindented = false := by
        intro hpending
        by_contra hne
        have hfirst := hx.atLineStart_of_isUnindented hn hlegible (by simpa using hne)
        rw [hstart hpending] at hfirst
        cases hfirst
      rcases hbreak with hkind | hkind
      · by_cases hswallowed : pending = true ∧ line.isBlank = true
        · -- the line feed after a semicolon
          obtain ⟨rfl, hblank⟩ := hswallowed
          obtain ⟨hfeed, hstarts, hlocals⟩ := hx.blank_feed hn ha hblank hkind
          obtain ⟨settled, hsettles, hreads⟩ :=
            ih hlines hlast' (show false = true → lines ≠ [] by simp) hstarts.toStartsStatement
              (by simp) hy
          exact ⟨settled, .swallowed hsound hblank hn hfeed hsettles, hreads.of_locals hlocals⟩
        · -- a line with its line feed
          obtain ⟨hstarts, hends⟩ := hx.startsLine_of_newline_line hn hkind hyne
          obtain ⟨settled, hsettles, hreads⟩ :=
            ih hlines hlast' (show false = true → lines ≠ [] by simp) hstarts.toStartsStatement
              (by simp) hy
          refine ⟨line :: settled, .kept hsound (fun hpending => ⟨?_, hindented hpending⟩) hn hkind
            hends hsettles, hreads.cons fun margin b hgap hmargin hb hlocals rest' => ?_⟩
          · simpa [hpending] using hswallowed
          · exact hx.keep_line hn ha hlegible hb hlocals hgap hmargin hkind hyne rest'
      · by_cases hblank : line.isBlank = true
        · -- an empty statement
          obtain ⟨hstarts, hat, hlocals⟩ := hx.blank_semicolon hn ha hblank hkind
          obtain ⟨settled, hsettles, hreads⟩ :=
            ih hlines hlast' (fun _ => hmore' hkind) hstarts (fun _ => hat) hy
          exact ⟨settled, .empty hsound hblank hn hkind hsettles, hreads.of_locals hlocals⟩
        · -- a statement with a semicolon
          have hvisible : line.isBlank = false := by simpa using hblank
          have hends : line.endsFreely = true := by
            have hsemicolon : line.endsStatement = true := by simp [Line.endsStatement, hn, hkind]
            simp only [Line.staysLegible, hsemicolon, hvisible, Bool.not_true, Bool.false_or,
              Bool.and_eq_true] at hlegible
            exact hlegible.2
          obtain ⟨htrimmed, hopeners, -, -⟩ := of_endsFreely hends
          obtain ⟨hstarts, hat⟩ := hx.startsStatement_of_semicolon_line hn ha hkind hopeners
          obtain ⟨settled, hsettles, hreads⟩ :=
            ih hlines hlast' (show true = true → lines ≠ [] from fun _ => hmore' hkind) hstarts
              (fun _ => hat) hy
          refine ⟨line.broken :: settled, .broken hsound hvisible hindented hn hkind htrimmed
            hsettles, hreads.cons fun margin b hgap hmargin hb hlocals rest' => ?_⟩
          rw [Line.isUnindented_broken hvisible] at hmargin
          exact hx.break_line hn ha hlegible hb hlocals hgap hmargin hkind hvisible hends rest'

end ConverterAssembly.Ruby
