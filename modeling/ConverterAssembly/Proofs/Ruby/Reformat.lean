import ConverterAssembly.Proofs.Ruby.Balance
import ConverterAssembly.Proofs.Ruby.Cuts
import ConverterAssembly.Proofs.Ruby.Margins

/-!
# Laying out changes only margins

Where statements are not broken, `Layout.format` gives every logical line a new margin and nothing
else.  A line is therefore read twice: in the source, after the blanks it had, and in the result,
after its margin.

* **Margins** — blanks leave a statement to begin, so two contexts after different blanks are alike.
  Only a directive such as `=begin` tells them apart, and `Line.hidesDirective` names the lines
  where that matters.
* **Line feeds** — a line feed with its heredoc bodies brings alike contexts to the start of a line,
  with the same names assigned.
* **Lines** and **texts** — `lexemes_laidOut` joins the two line by line: the tokens of the result
  are those of the source with their new margins, and the first problem is the same.
* **The nesting check** — the roles of the tokens do not depend on blanks, so the verdict is the
  same and the margins come out the same a second time.
-/

namespace ConverterAssembly.Ruby

open Text

/-! ## Margins -/

/-- The text of a line from its first visible token, with what ends it. -/
def Line.text (line : Line) : Text :=
  line.body ++ line.terminator.toList.flatMap (·.text)

/-- Whether blanks at the start of a line hide a directive: without them it would be one. -/
def Line.hidesDirective (line : Line) : Bool :=
  line.tokens.head?.any (·.1.kind = .space) && !line.isUnindented &&
    (isDirective "=begin".toList line.text || isDirective "__END__".toList line.text)

/-- Blanks leave a statement to begin after them. -/
lemma Reads.startsStatement {rest text : Text} {ctx ctx' : Context} {ls : List Lexeme}
    (h : Reads rest ctx text ls ctx') (hspace : ∀ l ∈ ls, l.kind = .space)
    (hctx : ctx.StartsStatement) : ctx'.StartsStatement ∧ ctx'.locals = ctx.locals := by
  induction h with
  | nil => exact ⟨hctx, rfl⟩
  | @cons ctx ctx' c p text lexemes scan read size complete tail ih =>
      obtain ⟨hkind, htail⟩ := List.forall_mem_cons.1 hspace
      have htrivia : (⟨scan.kind, c :: p⟩ : Lexeme).isTrivia = true := by
        simp [Lexeme.isTrivia, show scan.kind = .space from hkind]
      obtain ⟨hnaming, hheredocs⟩ : scan.naming = false ∧ scan.heredocs = ctx.heredocs := by
        rw [← read] at htrivia ⊢
        exact ctx.scan_trivia 0 htrivia
      obtain ⟨hstarts, hlocals⟩ := hctx.after_trivia htrivia hnaming hheredocs
      obtain ⟨hstarts', hlocals'⟩ := ih htail hstarts
      exact ⟨hstarts', hlocals'.trans hlocals⟩

/-- The lexemes of a margin. -/
def marginLexemes (margin : Text) : List Lexeme :=
  (blankTokens margin).map (·.1.toLexeme)

/-- A margin is read as such before anything that is not a blank. -/
lemma exists_reads_margin {ctx : Context} (h : ctx.StartsLine) {margin : Text}
    (hgap : ∀ c ∈ margin, isGap c = true) :
    ∃ ctx', (∀ rest, rest.head?.any isGap = false →
        Reads rest ctx margin (marginLexemes margin) ctx') ∧
      ctx'.StartsStatement ∧ ctx'.locals = ctx.locals ∧ (margin = [] → ctx' = ctx) := by
  cases margin with
  | nil => exact ⟨ctx, fun _ _ => .nil ctx, h.toStartsStatement, rfl, fun _ => rfl⟩
  | cons c p =>
      have hreads : ∀ rest, rest.head?.any isGap = false →
          Reads rest ctx (c :: p) (marginLexemes (c :: p))
            (ctx.after (ctx.plain 0 .space p.length) (c :: p)) := by
        intro rest hrest
        have hmargin : marginLexemes (c :: p) = [⟨.space, c :: p⟩] := by
          simp [marginLexemes, blankTokens]
        rw [hmargin]
        exact reads_gap_after hgap hrest
      obtain ⟨hstarts, hlocals⟩ := (hreads [] rfl).startsStatement
        (by simp [marginLexemes, blankTokens]) h.toStartsStatement
      exact ⟨_, hreads, hstarts, hlocals, by simp⟩

/-- What stands before the first token of a line does not matter to it: neither the blanks there
were before, nor the margin there is now.  Only a directive minds, and it keeps its place. -/
lemma exists_reads_lead {a a' b : Context} {lead rest margin : Text} {blanks tail : List Lexeme}
    {l : Lexeme} (ha : a.StartsStatement) (hb : b.StartsLine) (hlocals : a.locals = b.locals)
    (hlead : Reads rest a lead blanks a') (hblanks : ∀ l ∈ blanks, l.kind = .space)
    (hrest : a'.lexemes rest = l :: tail) (hl : l.kind ≠ .space)
    (hgap : ∀ c ∈ margin, isGap c = true)
    (hmargin : l.kind = .document ∨ l.kind = .data → margin = [])
    (hdir : blanks ≠ [] ∨ a.atLineStart = false → ¬ (l.kind = .document ∨ l.kind = .data) →
      isDirective "=begin".toList rest = false ∧ isDirective "__END__".toList rest = false) :
    rest.head?.any isGap = false ∧
      ∃ b', (∀ rest', rest'.head?.any isGap = false →
          Reads rest' b margin (marginLexemes margin) b') ∧
        a'.Alike b' ∧ (a'.atLineStart = b'.atLineStart ∨
          (isDirective "=begin".toList rest = false ∧
            isDirective "__END__".toList rest = false)) := by
  obtain ⟨hstarts, hsame⟩ := hlead.startsStatement hblanks ha
  obtain ⟨b', hreads, hstarts', hsame', hnil⟩ := exists_reads_margin hb hgap
  cases rest with
  | nil => simp [Context.lexemes_nil] at hrest
  | cons c cs =>
      rw [Context.lexemes_cons, List.cons.injEq] at hrest
      have hkind : (a'.scan 0 c cs).kind = l.kind := by rw [← hrest.1]
      have hc : isGap c = false := by
        by_contra hc
        rw [a'.scan_gap 0 (by simpa using hc)] at hkind
        exact hl hkind.symm
      refine ⟨by simpa using hc, b', hreads, .inr ⟨hstarts, hstarts', ?_⟩, ?_⟩
      · rw [hsame, hsame', hlocals]
      · by_cases hunindented : l.kind = .document ∨ l.kind = .data
        · left
          rw [hnil (hmargin hunindented), hb.atLineStart]
          exact a'.atLineStart_of_scan 0 (hkind ▸ hunindented)
        · right
          by_cases hnone : blanks = [] ∧ a.atLineStart = true
          · obtain ⟨rfl, hstart⟩ := hnone
            cases hlead
            obtain ⟨hbegin, hend⟩ := @Context.scan_directive a 0 c cs hstart ha.naming
            rw [hkind] at hbegin hend
            simp only [not_or] at hunindented
            exact ⟨by simpa using mt hbegin hunindented.1, by simpa using mt hend hunindented.2⟩
          · refine hdir ?_ hunindented
            simpa [imp_iff_not_or] using hnone

/-! ## Line feeds -/

/-- A line feed and its heredoc bodies in front of further text are read in
the same way in front of any other. -/
lemma Context.scan_feed_append {ctx : Context} {p rest : Text} (hrest : rest ≠ [])
    (hsize : (ctx.scan 0 '\n' (p ++ rest)).extent.size = p.length)
    (herror : (ctx.scan 0 '\n' (p ++ rest)).extent.error = none) (rest' : Text) :
    ctx.scan 0 '\n' (p ++ rest') = ctx.scan 0 '\n' (p ++ rest) ∧ EndsLine p := by
  simp only [scan_feed, scanNewline] at hsize herror ⊢
  split_ifs at hsize herror ⊢ with hnone
  · have hp : p = [] := List.length_eq_zero_iff.1 hsize.symm
    exact ⟨rfl, by simp [hp, EndsLine]⟩
  · have hends : EndsLine p := endsLine_of_readBodies hrest p 1 1 ctx.heredocs hsize
    have hbare := readBodies_append p (0 + 1) (0 + 1) ctx.heredocs (.inl ⟨hrest, hsize.le⟩)
    have hother := @readBodies_append rest' p (0 + 1) (0 + 1) ctx.heredocs (.inr (by
      rw [← hbare]
      refine ⟨herror, ?_⟩
      rw [show (readBodies (0 + 1) (0 + 1) ctx.heredocs (lines (p ++ rest))).size = p.length
        from hsize, List.take_length]
      exact hends))
    exact ⟨by rw [hother, hbare], hends⟩

/-- A directive does not reach over a line feed. -/
lemma isDirective_append_feed {d : Text} (hd : d.all (fun c => !isStop c) = true) (text r : Text) :
    isDirective d (text ++ '\n' :: r) = isDirective d text :=
  Context.isDirective_append_stops (stopless_of_all hd) text (stops_cons.mpr (by decide))
    fun _ => rfl

/-- After a line feed with its heredoc bodies a line starts, with the names assigned before. -/
lemma Context.after_feed {ctx : Context} {p cs : Text} (hends : EndsLine p) :
    (ctx.after (ctx.scan 0 '\n' cs) ('\n' :: p)).StartsLine ∧
      (ctx.after (ctx.scan 0 '\n' cs) ('\n' :: p)).locals = ctx.locals := by
  obtain ⟨hkind, hnaming, hheredocs⟩ : (ctx.scan 0 '\n' cs).kind = .newline ∧
      (ctx.scan 0 '\n' cs).naming = false ∧ (ctx.scan 0 '\n' cs).heredocs = [] := by
    rw [scan_feed, scanNewline]
    split_ifs with hnone
    · exact ⟨rfl, rfl, List.isEmpty_iff.1 hnone⟩
    · exact ⟨rfl, rfl, rfl⟩
  have hlast : ('\n' :: p).getLast? = some '\n' := by
    cases hp : p.getLast? with
    | none => simp [List.getLast?_cons, hp]
    | some c => simp [List.getLast?_cons, hp, hends c hp]
  refine ⟨⟨⟨?_, hheredocs, ?_⟩, ?_⟩, ?_⟩
  · simp [Context.after, hnaming, hkind]
  · simp [Context.after, hkind, Lexeme.isTrivia]
  · simp only [Context.after, hlast, decide_true]
  · cases hl : ctx.last <;> simp [Context.after, localsAfter, hkind, Lexeme.isOperator, hl]

/-- A line feed with its heredoc bodies is read in the same way from contexts that are alike, in
front of any text. -/
lemma Reads.newline {a a' b : Context} {text rest : Text} {n : Lexeme}
    (h : Reads rest a text [n] a') (hn : n.kind = .newline) (hrest : rest ≠ []) (hab : a.Alike b) :
    (∃ p, text = '\n' :: p) ∧ a'.StartsLine ∧
      ∀ rest', ∃ b', Reads rest' b text [n] b' ∧ b'.StartsLine ∧ a'.locals = b'.locals := by
  obtain ⟨hheredocs, hlocals⟩ : a.heredocs = b.heredocs ∧ a.locals = b.locals := by
    rcases hab with rfl | ⟨ha, hb, hlocals⟩
    · exact ⟨rfl, rfl⟩
    · exact ⟨by rw [ha.heredocs, hb.heredocs], hlocals⟩
  cases h with
  | @cons _ _ c p text _ scan read size complete tail =>
      cases tail
      obtain rfl : c = '\n' := a.of_scan_newline 0 (by rw [read]; exact hn)
      rw [List.nil_append] at read
      rw [← read] at size complete
      obtain ⟨-, hends⟩ := Context.scan_feed_append hrest size complete rest
      obtain ⟨hstarts, hnames⟩ := @Context.after_feed a p (p ++ rest) hends
      rw [List.append_nil]
      refine ⟨⟨p, rfl⟩, read ▸ hstarts, fun rest' => ?_⟩
      obtain ⟨hscan, -⟩ := Context.scan_feed_append hrest size complete rest'
      have hb : b.scan 0 '\n' (p ++ ([] ++ rest')) = scan := by
        rw [List.nil_append, ← read, ← hscan]
        simp only [Context.scan_feed, Context.scanNewline, Context.plain, hheredocs]
      obtain ⟨hstarts', hnames'⟩ := @Context.after_feed b p (p ++ ([] ++ rest')) hends
      rw [hb] at hstarts' hnames'
      rw [read] at size complete hnames
      have hreads : Reads rest' b ('\n' :: p ++ []) [⟨scan.kind, '\n' :: p⟩] _ :=
        .cons hb size complete (.nil _)
      rw [List.append_nil] at hreads
      exact ⟨_, hreads, hstarts', by rw [hnames, hnames', hlocals]⟩

/-! ## Lines -/

/-- The lexemes of tokens with their roles. -/
def lexemesIn (tokens : List (Token × Role)) : List Lexeme :=
  tokens.map (·.1.toLexeme)

@[simp]
lemma lexemesIn_append (a b : List (Token × Role)) :
    lexemesIn (a ++ b) = lexemesIn a ++ lexemesIn b :=
  List.map_append

/-- The blanks at the start of a line. -/
def Line.lead (line : Line) : List (Token × Role) :=
  line.tokens.takeWhile (·.1.kind = .space)

/-- The visible tokens of a line and what ends it. -/
def Line.rest (line : Line) : List (Token × Role) :=
  line.visible ++ line.terminator.toList.map (·, Role.neutral)

section

variable {layout : Layout} {line : Line} {height : Nat}

lemma lexemesIn_line :
    line.allTokens.map (·.toLexeme) = lexemesIn line.lead ++ lexemesIn line.rest := by
  simp only [lexemesIn, Line.rest, ← List.map_append, ← List.append_assoc, Line.lead, Line.visible,
    List.takeWhile_append_dropWhile, Line.allTokens]
  simp [Function.comp_def]

lemma text_rest : (lexemesIn line.rest).flatMap (·.text) = line.text := by
  simp [lexemesIn, Line.rest, Line.text, Line.body, List.flatMap_map]

/-- A line under a new margin is the margin and the line from its first visible token. -/
lemma laidOutLine_eq : lexemesIn (layout.laidOutLine height line) =
      marginLexemes (layout.margin line height) ++ lexemesIn line.rest ∧
    (layout.laidOutLine height line).flatMap (·.1.text) =
      layout.margin line height ++ line.text := by
  rw [Layout.laidOutLine, List.append_assoc, ← Line.rest]
  constructor
  · rw [lexemesIn, List.map_append, marginLexemes, lexemesIn]
  · rw [List.flatMap_append, flatMap_blankTokens, ← text_rest, lexemesIn, List.flatMap_map]

lemma kind_of_mem_lead : ∀ l ∈ lexemesIn line.lead, l.kind = .space := by
  intro l hl
  obtain ⟨t, ht, rfl⟩ := List.mem_map.1 hl
  simpa using List.mem_takeWhile_imp ht

/-- A margin is made of the characters of the indentation. -/
lemma isGap_of_mem_margin (h : isGap layout.indentChar = true) :
    ∀ c ∈ layout.margin line height, isGap c = true := by
  intro c hc
  rw [Layout.margin] at hc
  split_ifs at hc
  · cases hc
  · rw [layout.eq_indentChar_of_mem_indentation hc]
    exact h

lemma margin_of_isUnindented (h : line.isUnindented = true) : layout.margin line height = [] := by
  unfold Layout.margin Layout.indentation
  rw [if_pos h, ite_self]

/-- The first token that is not a blank says whether the line must stand in the first column. -/
lemma of_rest_eq_cons (hkind : ∀ n ∈ line.terminator, n.kind = .newline ∨ n.kind = .semicolon)
    {l : Lexeme} {tail : List Lexeme} (h : lexemesIn line.rest = l :: tail) :
    l.kind ≠ .space ∧ (l.kind = .document ∨ l.kind = .data ↔ line.isUnindented = true) := by
  cases hvisible : line.visible with
  | nil =>
      cases hterm : line.terminator with
      | none => simp [lexemesIn, Line.rest, hvisible, hterm] at h
      | some n =>
          have hl : n.toLexeme = l := by
            simp only [lexemesIn, Line.rest, hvisible, hterm, List.nil_append, Option.toList_some,
              List.map_cons, List.cons.injEq] at h
            exact h.1
          rcases hkind n hterm with hn | hn <;> simp [← hl, hn, Line.isUnindented, hvisible]
  | cons t visible =>
      have hl : t.1.toLexeme = l := by
        simp only [lexemesIn, Line.rest, hvisible, List.cons_append, List.map_cons,
          List.cons.injEq] at h
        exact h.1
      subst hl
      constructor
      · have hhead := List.head?_dropWhile_not
          (fun t : Token × Role => t.1.kind = .space) line.tokens
        rw [show line.tokens.dropWhile (fun t => t.1.kind = .space) = t :: visible from hvisible]
          at hhead
        simpa using hhead
      · simp [Line.isUnindented, hvisible]

/-- A line whose blanks hide no directive does not begin with one after blanks. -/
lemma isDirective_of_lead_ne_nil (hhide : line.hidesDirective = false)
    (hlead : lexemesIn line.lead ≠ []) (hflush : line.isUnindented = false) :
    isDirective "=begin".toList line.text = false ∧
      isDirective "__END__".toList line.text = false := by
  have hspace : line.tokens.head?.any (·.1.kind = .space) = true := by
    cases htokens : line.tokens with
    | nil => simp [lexemesIn, Line.lead, htokens] at hlead
    | cons t tokens =>
        by_contra hne
        have hne' : ¬ t.1.kind = .space := by simpa using hne
        simp [lexemesIn, Line.lead, htokens, hne'] at hlead
  simpa [Line.hidesDirective, hspace, hflush] using hhide

/-- The last line of a text, with its new margin. -/
lemma lexemes_laidOutLine (hgap : isGap layout.indentChar = true)
    (hkind : ∀ n ∈ line.terminator, n.kind = .newline) (hhide : line.hidesDirective = false)
    {a b : Context} (ha : a.StartsLine) (hb : b.StartsLine) (hlocals : a.locals = b.locals)
    {text : Text} (htext : a.lexemes text = line.allTokens.map (·.toLexeme)) :
    b.lexemes ((layout.laidOutLine height line).flatMap (·.1.text)) =
        lexemesIn (layout.laidOutLine height line) ∧
      b.problem? ((layout.laidOutLine height line).flatMap (·.1.text)) = a.problem? text := by
  rw [lexemesIn_line] at htext
  obtain ⟨lead, rest, a', rfl, hlead, hrest⟩ := exists_reads_of_append htext (.inl kind_of_mem_lead)
  obtain ⟨hstarts, -⟩ := hlead.startsStatement kind_of_mem_lead ha.toStartsStatement
  have hrestText : line.text = rest := by
    rw [← text_rest, ← hrest, Context.flatMap_lexemes]
  rw [(Context.lexemes_of_reads hlead).2, laidOutLine_eq.1, laidOutLine_eq.2, hrestText]
  cases hcons : lexemesIn line.rest with
  | nil =>
      have hblank : line.isBlank = true := by
        have hvisible : line.visible = [] :=
          (List.append_eq_nil_iff.1 (List.map_eq_nil_iff.1 hcons)).1
        simp [Line.isBlank, hvisible]
      have hnone : rest = [] := by
        rw [← hrestText, ← text_rest, hcons]
        rfl
      have hmargin : layout.margin line height = [] := by rw [Layout.margin, if_pos hblank]
      rw [hmargin, hnone, List.append_nil, Context.problem?_nil, Context.problem?_nil,
        hstarts.heredocs, hb.heredocs]
      exact ⟨rfl, rfl⟩
  | cons l tail =>
      obtain ⟨hl, hflush⟩ := of_rest_eq_cons (fun n hn => .inl (hkind n hn)) hcons
      obtain ⟨hhead, b', hmargin, halike, hdir⟩ := exists_reads_lead ha.toStartsStatement hb
        hlocals hlead kind_of_mem_lead (hrest.trans hcons) hl (isGap_of_mem_margin hgap)
        (fun h => @margin_of_isUnindented layout line height (hflush.1 h))
        (fun hne h => hrestText ▸ isDirective_of_lead_ne_nil hhide
          (hne.resolve_right (by simp [ha.atLineStart])) (by simpa [hflush] using h))
      obtain ⟨hlexemes, hproblem⟩ := halike.lexemes_eq hdir
      obtain ⟨hboth, hsame⟩ := Context.lexemes_of_reads (hmargin rest hhead)
      rw [hboth, hsame, ← hlexemes, ← hproblem, hrest, hcons]
      exact ⟨rfl, rfl⟩

/-- A line before others, with its new margin: after it another line starts on both sides. -/
lemma exists_reads_laidOutLine (hgap : isGap layout.indentChar = true)
    {tokens : List (Token × Role)} {n : Token} (hn : n.kind = .newline)
    (hline : line = ⟨tokens, some n⟩) (hhide : line.hidesDirective = false)
    {a b : Context} (ha : a.StartsLine) (hb : b.StartsLine) (hlocals : a.locals = b.locals)
    {text : Text} {later : List Lexeme} (hlater : later ≠ [])
    (htext : a.lexemes text = line.allTokens.map (·.toLexeme) ++ later) :
    ∃ (a' : Context) (text' : Text), a'.StartsLine ∧ a'.lexemes text' = later ∧
      a'.problem? text' = a.problem? text ∧ ∀ rest, ∃ b' : Context,
        Reads rest b ((layout.laidOutLine height line).flatMap (·.1.text))
          (lexemesIn (layout.laidOutLine height line)) b' ∧ b'.StartsLine ∧
          a'.locals = b'.locals := by
  rw [lexemesIn_line] at htext
  obtain ⟨x, text', a', rfl, hx, htext'⟩ := exists_reads_of_append htext (.inr hlater)
  obtain ⟨lead, rest, a₁, rfl, hlead, hrest⟩ := hx.split
  have hsplit : lexemesIn line.rest = lexemesIn line.visible ++ [n.toLexeme] := by
    simp [lexemesIn, Line.rest, hline]
  have hlexemes := (Context.lexemes_of_reads hrest).1
  have hlineText : line.text = rest := by rw [← text_rest, hrest.text_eq]
  rw [hsplit] at hrest
  obtain ⟨body, feed, a₂, rfl, hbody, hfeed⟩ := hrest.split
  have hne : text' ≠ [] := by
    rintro rfl
    exact hlater htext'.symm
  obtain ⟨⟨p, rfl⟩, hstarts, -⟩ := hfeed.newline hn hne (.refl _)
  -- a directive does not reach over the line feed
  have hdirective : ∀ d : Text, d.all (fun c => !isStop c) = true →
      isDirective d (body ++ '\n' :: p ++ text') = isDirective d line.text := by
    intro d hd
    rw [hlineText, List.append_assoc, List.cons_append, isDirective_append_feed hd,
      isDirective_append_feed hd]
  obtain ⟨l, tail, hcons⟩ : ∃ l tail, lexemesIn line.rest = l :: tail := by
    cases h : lexemesIn line.rest with
    | nil => simp [hsplit] at h
    | cons l tail => exact ⟨l, tail, rfl⟩
  obtain ⟨hl, hflush⟩ := of_rest_eq_cons (by simp [hline, hn]) hcons
  rw [hcons, List.cons_append] at hlexemes
  obtain ⟨hhead, b₁, hmargin, halike, hdir⟩ := exists_reads_lead ha.toStartsStatement hb hlocals
    hlead kind_of_mem_lead hlexemes hl (isGap_of_mem_margin hgap)
    (fun h => @margin_of_isUnindented layout line height (hflush.1 h))
    (fun hne h => by
      rw [hdirective _ (by decide), hdirective _ (by decide)]
      exact isDirective_of_lead_ne_nil hhide (hne.resolve_right (by simp [ha.atLineStart]))
        (by simpa [hflush] using h))
  rw [List.append_assoc] at hdir
  obtain ⟨b₂, hbody', halike', -⟩ := hbody.alike halike hdir
  refine ⟨a', text', hstarts, htext', ?_, fun rest' => ?_⟩
  · exact (Context.lexemes_of_reads hx).2.symm
  · obtain ⟨-, -, hnewline⟩ := hfeed.newline hn hne halike'
    obtain ⟨b', hfeed', hb', hlocals'⟩ := hnewline rest'
    have hbody'' : Reads ('\n' :: p ++ rest') b₁ body (lexemesIn line.visible) b₂ :=
      hbody'.before_line (d := []) (p ++ rest')
    have hhead' : (body ++ '\n' :: p ++ rest').head?.any isGap = false := by
      cases body <;> simpa using hhead
    refine ⟨b', ?_, hb', hlocals'⟩
    rw [laidOutLine_eq.1, laidOutLine_eq.2, hlineText, hsplit]
    exact (hmargin _ hhead').append (hbody''.append hfeed')

end

/-! ## Texts -/

/-- Under new margins a text is read as the same tokens with these margins,
and has the same problem. -/
theorem lexemes_laidOut {layout : Layout} (hbreaks : layout.breaksStatements = false)
    (hgap : isGap layout.indentChar = true) {tokens : List (Token × Role)}
    (hhide : ∀ line ∈ layout.splitLines tokens, line.hidesDirective = false) (height : Nat)
    {a b : Context} (ha : a.StartsLine) (hb : b.StartsLine) (hlocals : a.locals = b.locals)
    {text : Text} (htext : a.lexemes text = lexemesIn tokens) :
    b.lexemes ((layout.laidOut height (layout.splitLines tokens)).flatMap (·.1.text)) =
        lexemesIn (layout.laidOut height (layout.splitLines tokens)) ∧
      b.problem? ((layout.laidOut height (layout.splitLines tokens)).flatMap (·.1.text)) =
        a.problem? text := by
  induction tokens using break_induction (fun t : Token × Role => layout.breaksAt t.1)
      generalizing height a b text with
  | last tokens hlast =>
      by_cases hnil : tokens = []
      · subst hnil
        have hnone : text = [] := by
          rw [← a.flatMap_lexemes text, htext]
          rfl
        subst hnone
        refine ⟨rfl, ?_⟩
        rw [a.problem?_nil, ha.heredocs]
        change b.problem? [] = _
        rw [b.problem?_nil, hb.heredocs]
      · rw [Layout.splitLines_of_no_break hnil hlast] at hhide ⊢
        rw [Layout.laidOut, Layout.laidOut, List.append_nil]
        refine @lexemes_laidOutLine layout ⟨tokens, none⟩ height hgap (by simp)
          (hhide _ List.mem_cons_self) a b ha hb hlocals text ?_
        simpa [Line.allTokens, lexemesIn, Function.comp_def] using htext
  | line tokens n rest hline hn ih =>
      have hkind : n.1.kind = .newline := by simpa [Layout.breaksAt_eq hbreaks] using hn
      rw [Layout.splitLines_append_break hline hn] at hhide ⊢
      obtain ⟨hhideLine, hhideRest⟩ := List.forall_mem_cons.1 hhide
      have hsplit : a.lexemes text =
          (Line.allTokens ⟨tokens, some n.1⟩).map (·.toLexeme) ++ lexemesIn rest := by
        rw [htext]
        simp [Line.allTokens, lexemesIn, Function.comp_def]
      by_cases hrest : rest = []
      · subst hrest
        rw [lexemesIn, List.map_nil, List.append_nil] at hsplit
        rw [Layout.splitLines, Layout.laidOut, Layout.laidOut, List.append_nil]
        exact @lexemes_laidOutLine layout ⟨tokens, some n.1⟩ height hgap
          (by simp [hkind]) hhideLine a b ha hb hlocals text hsplit
      · obtain ⟨a', text', ha', htext', hproblem, hreads⟩ :=
          @exists_reads_laidOutLine layout ⟨tokens, some n.1⟩ height hgap tokens n.1 hkind rfl
            hhideLine a b ha hb hlocals text (lexemesIn rest)
            (by simpa [lexemesIn] using hrest) hsplit
        obtain ⟨b', hline', hb', hlocals'⟩ := hreads
          ((layout.laidOut (heightAfter height tokens) (layout.splitLines rest)).flatMap (·.1.text))
        obtain ⟨hlexemes, hsame⟩ := ih hhideRest (heightAfter height tokens) ha' hb' hlocals' htext'
        obtain ⟨hboth, hproblem'⟩ := Context.lexemes_of_reads hline'
        rw [Layout.laidOut, List.flatMap_append, lexemesIn_append, hboth, hproblem', hlexemes,
          hsame, hproblem]
        exact ⟨rfl, rfl⟩

/-! ## The nesting check -/

/-- The verdict of the nesting check, without the line where a problem was noticed. -/
lemma checkSyntax_mapError (source : Text) :
    (checkSyntax source).mapError (·.problem) =
      match ({} : Context).problem? source with
      | some problem => .error problem
      | none => closeFrames (runRoles [] (roles (({} : Context).lexemes source))) := by
  rw [← Context.problem?_tokenize, ← Context.lexemes_tokenize, checkSyntax]
  cases (tokenize source).error with
  | some error => rfl
  | none => exact (checkFrom_mapError [] 1 _).trans (by rw [map_snd_withRoles, lexemesOf]; rfl)

/-! ## Whole sources -/

lemma solid_lexemesIn (tokens : List (Token × Role)) :
    solid (lexemesIn tokens) = lexemesIn (tokens.filter isSolid) := by
  rw [solid, lexemesIn, List.filter_map, lexemesIn]
  rfl

lemma lexemesIn_withRoles (source : Text) :
    lexemesIn (withRoles (tokenize source).tokens) = lexemesOf source := by
  rw [lexemesIn, lexemesOf]
  conv_rhs => rw [← map_fst_withRoles (tokenize source).tokens, List.map_map]
  rfl

/-- The tokens of a source with their new margins. -/
def Layout.laidOutTokens (layout : Layout) (source : Text) : List (Token × Role) :=
  layout.laidOut 0 (layout.splitLines (withRoles (tokenize source).tokens))

section

variable {layout : Layout} (hbreaks : layout.breaksStatements = false)
include hbreaks

lemma Layout.format_eq_laidOutTokens (source : Text) :
    layout.format source = (layout.laidOutTokens source).flatMap (·.1.text) :=
  Layout.writeLines_eq_laidOut hbreaks 0 _

variable (hgap : isGap layout.indentChar = true) {source : Text}
  (hhide : ∀ line ∈ layout.splitLines (withRoles (tokenize source).tokens),
    line.hidesDirective = false)
include hgap hhide

/-- The result is read as the tokens of the source with their new margins. -/
lemma lexemes_format :
    lexemesOf (layout.format source) = lexemesIn (layout.laidOutTokens source) ∧
      ({} : Context).problem? (layout.format source) = ({} : Context).problem? source := by
  rw [Context.lexemes_tokenize, Layout.format_eq_laidOutTokens hbreaks]
  refine lexemes_laidOut hbreaks hgap hhide 0 (startsLine_initial []) (startsLine_initial []) rfl ?_
  rw [lexemesIn_withRoles, Context.lexemes_tokenize]

lemma solid_lexemes_format :
    solid (lexemesOf (layout.format source)) = solid (lexemesOf source) := by
  rw [(lexemes_format hbreaks hgap hhide).1, ← lexemesIn_withRoles, solid_lexemesIn,
    solid_lexemesIn, Layout.laidOutTokens, filter_laidOut_withRoles hbreaks]

lemma checkSyntax_format :
    (checkSyntax (layout.format source)).mapError (·.problem) =
      (checkSyntax source).mapError (·.problem) := by
  have hroles : ∀ source, runRoles [] (roles (({} : Context).lexemes source)) =
      runRoles [] (roles (solid (lexemesOf source))) := by
    intro source
    rw [← Context.lexemes_tokenize]
    exact (runRoles_rolesFrom_solid none false [] _).symm
  rw [checkSyntax_mapError, checkSyntax_mapError, (lexemes_format hbreaks hgap hhide).2, hroles,
    hroles, solid_lexemes_format hbreaks hgap hhide]

/-- The tokens of the result and the tokens with new margins differ only in their places. -/
lemma map_stripped_format :
    (withRoles (tokenize (layout.format source)).tokens).map stripped =
      (layout.laidOutTokens source).map stripped := by
  rw [Layout.laidOutTokens, withRoles_laidOut hbreaks]
  refine map_stripped_withRoles ?_
  rw [List.map_map]
  exact (lexemes_format hbreaks hgap hhide).1

lemma format_format : layout.format (layout.format source) = layout.format source := by
  have hneutral : BlanksNeutral (withRoles (tokenize source).tokens) := fun t ht hspace =>
    @role_withRolesFrom none false (tokenize source).tokens t ht (.inl hspace)
  calc layout.format (layout.format source)
      = (layout.laidOut 0 (layout.splitLines
          ((withRoles (tokenize (layout.format source)).tokens).map stripped))).flatMap
            (·.1.text) := by
        rw [Layout.format_eq_laidOutTokens hbreaks (layout.format source), Layout.laidOutTokens,
          laidOut_map_stripped, flatMap_map_stripped]
    _ = (layout.laidOut 0 (layout.splitLines (layout.laidOutTokens source))).flatMap
          (·.1.text) := by
        rw [map_stripped_format hbreaks hgap hhide, laidOut_map_stripped, flatMap_map_stripped]
    _ = layout.format source := by
        rw [Layout.format_eq_laidOutTokens hbreaks source, Layout.laidOutTokens,
          Layout.laidOut_splitLines_laidOut hbreaks 0 hneutral]

end

/-- Where statements are not broken, laying out a source changes only the margins of its lines: the
tokens that are not blanks stay, the nesting check comes to the same verdict, and laying out again
changes nothing.  The exception are lines whose blanks hide a directive. -/
theorem format_changes_only_margins {layout : Layout} (hbreaks : layout.breaksStatements = false)
    (hchar : layout.indentChar = ' ' ∨ layout.indentChar = '\t') {source : Text}
    (hhide : ∀ line ∈ layout.splitLines (withRoles (tokenize source).tokens),
      line.hidesDirective = false) :
    solid (lexemesOf (layout.format source)) = solid (lexemesOf source) ∧
      (checkSyntax (layout.format source)).mapError (·.problem) =
        (checkSyntax source).mapError (·.problem) ∧
      layout.format (layout.format source) = layout.format source := by
  have hgap : isGap layout.indentChar = true := by
    rcases hchar with h | h <;> rw [h] <;> decide
  exact ⟨solid_lexemes_format hbreaks hgap hhide, checkSyntax_format hbreaks hgap hhide,
    format_format hbreaks hgap hhide⟩

/-- A continuation before a statement is dropped, a heredoc body stays, and the open block is still
missing its end. -/
theorem format_changes_only_margins_heredoc :
    (∀ line ∈ ({} : Layout).splitLines
        (withRoles (tokenize "if a\n\\\n\tb <<E\n c\nE\n".toList).tokens),
        line.hidesDirective = false) ∧
      solid (lexemesOf (({} : Layout).format "if a\n\\\n\tb <<E\n c\nE\n".toList)) =
        solid (lexemesOf "if a\n\\\n\tb <<E\n c\nE\n".toList) ∧
      (checkSyntax (({} : Layout).format "if a\n\\\n\tb <<E\n c\nE\n".toList)).mapError
          (·.problem) =
        .error (.unfinished "end".toList) ∧
      ({} : Layout).format (({} : Layout).format "if a\n\\\n\tb <<E\n c\nE\n".toList) =
        "if a\n  b <<E\n c\nE\n".toList := by
  have hhide : ∀ line ∈ ({} : Layout).splitLines
      (withRoles (tokenize "if a\n\\\n\tb <<E\n c\nE\n".toList).tokens),
      line.hidesDirective = false := by decide
  obtain ⟨hsolid, hverdict, honce⟩ := format_changes_only_margins rfl (.inl rfl) hhide
  refine ⟨hhide, hsolid, hverdict.trans ?_, honce.trans ?_⟩
  · rfl
  · decide

end ConverterAssembly.Ruby
