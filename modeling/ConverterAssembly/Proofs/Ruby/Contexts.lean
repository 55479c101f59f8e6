import ConverterAssembly.Proofs.Ruby.Forms

/-!
# Contexts that read alike

The scanner asks a context only a few questions.  `Context.scan_congr` lists them: contexts that
answer them alike read the same token.  Two uses follow.

**Signs.**  `scanPlain_of_isSign` leads punctuation to its own rules, past those that come before.

**Statements.**  At the start of a statement (`StartsStatement`) nothing is left of the tokens
before but the names assigned so far, so any two such contexts read alike.

**Names.**  The names assigned so far are asked for only by a slash, a percent sign and `<<`.
-/

namespace ConverterAssembly.Ruby

/-! ## Signs -/

/-- The punctuation that is left to `Context.scanSign`. -/
def isSign (c : Char) : Bool :=
  isPunctuation c && !"\\;#\"'`@$_".toList.contains c

lemma isDirective_cons {d c : Char} {ds cs : Text} (h : c ≠ d) :
    isDirective (d :: ds) (c :: cs) = false := by
  have hne : d ≠ c := fun e => h e.symm
  simp [isDirective, Text.dropStart?, hne]

lemma eq_of_isDirective_cons {d c : Char} {ds cs : Text}
    (h : isDirective (d :: ds) (c :: cs) = true) : c = d := by
  by_contra hne
  rw [isDirective_cons hne] at h
  cases h

namespace Context

variable {a b : Context} (ctx : Context) (line : Nat) {c : Char} {cs : Text}

lemma scan_eq_scanPlain (h : ctx.naming = true → Text.findStart? operatorMethods (c :: cs) = none) :
    ctx.scan line c cs = ctx.scanPlain line c cs := by
  rw [scan]
  by_cases hnaming : ctx.naming = true
  · rw [if_pos hnaming, h hnaming]
  · rw [if_neg hnaming]

/-- No method name begins with a stop. -/
lemma scan_of_isStop (hc : isStop c = true) : ctx.scan line c cs = ctx.scanPlain line c cs := by
  refine ctx.scan_eq_scanPlain line fun _ => ?_
  have hstops : Stops (c :: cs) := stops_cons.mpr hc
  rw [← List.nil_append (c :: cs), findStart?_append_stops stopless_operatorMethods [] hstops]
  decide

lemma scan_feed (cs : Text) : ctx.scan line '\n' cs = ctx.scanNewline line cs := by
  rw [ctx.scan_of_isStop line (by decide), scanPlain, if_pos rfl]

lemma scan_semicolon (cs : Text) : ctx.scan line ';' cs = ctx.plain line .semicolon 0 := by
  rw [ctx.scan_of_isStop line (by decide), scanPlain]
  rfl

lemma scan_gap (hc : isGap c = true) :
    ctx.scan line c cs = ctx.plain line .space (cs.takeWhile isGap).length := by
  have hne : c ≠ '\n' ∧ c ≠ '\\' := by
    constructor <;> rintro rfl <;> exact absurd hc (by decide)
  rw [ctx.scan_of_isStop line (by simp [isStop, hc]), scanPlain, if_neg hne.1,
    if_neg (by simp [hne.2]), if_pos hc]

/-- A backslash hides the line feed after it. -/
lemma scan_continuation (cs : Text) :
    ctx.scan line '\\' ('\n' :: cs) = ctx.plain (line + 1) .space 1 := by
  have hfind : Text.findStart? operatorMethods ('\\' :: '\n' :: cs) = none :=
    (findStart?_operatorMethods_append_feed ['\\'] cs).trans (by decide)
  rw [ctx.scan_eq_scanPlain line fun _ => hfind, scanPlain, if_neg (by decide),
    if_pos (by simp)]

/-- A sign is read by the rules for signs, unless an operator can be a name or a document begins. -/
lemma scanPlain_of_isSign (hc : isSign c = true) (hdir : ctx.atLineStart = true → c ≠ '=') :
    ctx.scanPlain line c cs = ctx.scanSign line c cs := by
  have hcases : isGap c = false ∧ isDigit c = false ∧ isNameStart c = false := by
    have hc' := hc
    simp only [isSign, isPunctuation, Bool.and_eq_true, decide_eq_true_eq, Bool.not_eq_true'] at hc'
    obtain ⟨⟨⟨⟨-, htilde⟩, hletter⟩, hdigit⟩, -⟩ := hc'
    refine ⟨?_, hdigit, ?_⟩
    · by_contra hgap
      simp only [Bool.not_eq_false, isGap, Bool.or_eq_true, decide_eq_true_eq, or_assoc] at hgap
      rcases hgap with rfl | rfl | rfl | rfl | rfl <;> exact absurd hc (by decide)
    · have hunder : c ≠ '_' := by
        rintro rfl
        exact absurd hc (by decide)
      have hwide : ¬ 0x80 ≤ c.toNat := by
        have : c.toNat ≤ '~'.toNat := htilde
        have htoNat : '~'.toNat = 126 := rfl
        omega
      simp [isNameStart, hletter, hunder, isWide, hwide]
  have hne : c ≠ '\n' ∧ c ≠ '\\' ∧ c ≠ ';' ∧ c ≠ '#' ∧ c ≠ '"' ∧ c ≠ '\x60' ∧ c ≠ '\x27' ∧ c ≠ '@' ∧
      c ≠ '$' ∧ c ≠ '_' := by
    refine ⟨?_, ?_, ?_, ?_, ?_, ?_, ?_, ?_, ?_, ?_⟩ <;> rintro rfl <;> exact absurd hc (by decide)
  obtain ⟨hfeed, hback, hsemi, hhash, hdouble, htick, hsingle, hat, hdollar, hunder⟩ := hne
  have hend : isDirective "__END__".toList (c :: cs) = false := isDirective_cons hunder
  have hbegin : (ctx.atLineStart && isDirective "=begin".toList (c :: cs)) = false := by
    cases hstart : ctx.atLineStart with
    | false => rfl
    | true => exact isDirective_cons (hdir hstart)
  simp only [scanPlain, hfeed, hback, hsemi, hhash, hdouble, htick, hsingle, hat, hdollar, hcases,
    hend, hbegin, if_false, decide_false, Bool.false_and, Bool.and_false, Bool.or_false,
    Bool.false_eq_true]

/-! ## Questions -/

/-- Contexts that answer the questions of the scanner alike read the same token. -/
theorem scan_congr (hnaming : a.naming = b.naming) (hheredocs : a.heredocs = b.heredocs)
    (hoperand : a.expectsOperand = b.expectsOperand)
    (hclass : (a.last.any fun l => l.isKeyword "class".toList) =
      b.last.any fun l => l.isKeyword "class".toList)
    (hargument : c = '/' ∨ c = '%' ∨ (c = '<' ∧ cs.head? = some '<') →
      a.beginsArgument cs.head? = b.beginsArgument cs.head?)
    (hbegin : (a.atLineStart && isDirective "=begin".toList (c :: cs)) =
      (b.atLineStart && isDirective "=begin".toList (c :: cs)))
    (hend : (a.atLineStart && isDirective "__END__".toList (c :: cs)) =
      (b.atLineStart && isDirective "__END__".toList (c :: cs))) :
    a.scan line c cs = b.scan line c cs := by
  have hplain : a.plain = b.plain := by
    funext line kind size
    rw [plain, plain, hheredocs]
  have hliteral : a.literal = b.literal := by
    funext extent
    rw [literal, literal, hheredocs]
  have hquoted : a.scanQuoted = b.scanQuoted := by
    funext line rules lead text
    rw [scanQuoted, scanQuoted, hliteral]
  have hflagged : a.scanFlagged = b.scanFlagged := by
    funext line rules lead text
    simp only [scanFlagged, hliteral]
  have hop : a.scanOperator = b.scanOperator := by
    funext line c cs
    simp only [scanOperator, hplain]
  have hword : a.scanWord = b.scanWord := by
    funext line c cs
    simp only [scanWord, hplain, hnaming]
  have hcolon : a.scanColon = b.scanColon := by
    funext line cs
    cases cs <;> simp only [scanColon, hplain, hquoted, hoperand]
  have hquestion : a.scanQuestion = b.scanQuestion := by
    funext line cs
    simp only [scanQuestion, hplain, hoperand]
  have hsign : a.scanSign line c cs = b.scanSign line c cs := by
    by_cases hasks : c = '/' ∨ c = '%' ∨ (c = '<' ∧ cs.head? = some '<')
    · have hadmits : a.admitsLiteral cs.head? = b.admitsLiteral cs.head? := by
        rw [admitsLiteral, admitsLiteral, hoperand, hargument hasks]
      simp only [scanSign, scanPercent?, scanHeredoc?, hcolon, hquestion, hflagged, hquoted, hop,
        hplain, hadmits, hclass, hheredocs]
    · simp only [not_or, not_and] at hasks
      obtain ⟨hslash, hpercent, hless⟩ := hasks
      have hnone : ∀ ctx : Context, c = '<' → ctx.scanHeredoc? line cs = none := by
        intro ctx hc
        simp [scanHeredoc?, hless hc]
      simp only [scanSign, hslash, hpercent, decide_false, Bool.false_and, Bool.false_eq_true,
        if_false, hcolon, hquestion, hop, hplain]
      by_cases hc : c = '<'
      · rw [hnone a hc, hnone b hc]
      · simp only [hc, if_false]
  simp only [scan, scanPlain, hnaming, hplain, hbegin, hend, hquoted, hword, hsign, scanNewline,
    scanDocument, scanData, hheredocs]

/-! ## Statements -/

/-- A statement begins here: nothing is open on its line, and the last token is a separator. -/
structure StartsStatement (ctx : Context) : Prop where
  naming : ctx.naming = false
  heredocs : ctx.heredocs = []
  last : ∀ l ∈ ctx.last, (l.kind = .newline ∨ l.kind = .semicolon) ∧ l.text ≠ ['.'] ∧
    l.text ≠ ['&', '.']

namespace StartsStatement

variable (h : a.StartsStatement)
include h

/-- No token came before, or a separator. -/
lemma last_cases : a.last = none ∨ ∃ l, a.last = some l ∧
    (l.kind = .newline ∨ l.kind = .semicolon) := by
  cases hl : a.last with
  | none => exact .inl rfl
  | some l => exact .inr ⟨l, rfl, (h.last l hl).1⟩

lemma expectsOperand : a.expectsOperand = true := by
  rcases h.last_cases with hl | ⟨l, hl, hk | hk⟩ <;> simp [Context.expectsOperand, *]

lemma beginsArgument (next : Option Char) : a.beginsArgument next = false := by
  rcases h.last_cases with hl | ⟨l, hl, hk | hk⟩ <;> simp [Context.beginsArgument, *]

lemma not_class : (a.last.any fun l => l.isKeyword "class".toList) = false := by
  rcases h.last_cases with hl | ⟨l, hl, hk | hk⟩ <;> simp [Lexeme.isKeyword, *]

lemma localsAfter (token : Lexeme) : a.localsAfter token = a.locals := by
  rcases h.last_cases with hl | ⟨l, hl, hk | hk⟩ <;> simp [Context.localsAfter, *]

lemma not_afterDot : (a.last.any fun l => l.text = ['.'] || l.text = ['&', '.']) = false := by
  cases hl : a.last with
  | none => rfl
  | some l =>
      obtain ⟨-, hdot, hsafe⟩ := h.last l hl
      simp [hdot, hsafe]

end StartsStatement

/-- Two contexts read alike from here on: they are the same, or statements begin in both, after the
same assignments. -/
def Alike (a b : Context) : Prop :=
  a = b ∨ (a.StartsStatement ∧ b.StartsStatement ∧ a.locals = b.locals)

lemma Alike.refl (a : Context) : a.Alike a :=
  .inl rfl

lemma Alike.trans {d : Context} (h : a.Alike b) (h' : b.Alike d) : a.Alike d := by
  rcases h with rfl | ⟨ha, hb, hlocals⟩
  · exact h'
  · rcases h' with rfl | ⟨-, hd, hlocals'⟩
    · exact .inr ⟨ha, hb, hlocals⟩
    · exact .inr ⟨ha, hd, hlocals.trans hlocals'⟩

lemma Alike.heredocs_eq (h : a.Alike b) : a.heredocs = b.heredocs := by
  rcases h with rfl | ⟨ha, hb, -⟩
  · rfl
  · rw [ha.heredocs, hb.heredocs]

/-- Contexts that are alike read the same token, unless it is a directive at the start of a line. -/
lemma Alike.scan_eq (h : a.Alike b)
    (hdirective : a.atLineStart = b.atLineStart ∨
      (isDirective "=begin".toList (c :: cs) = false ∧
        isDirective "__END__".toList (c :: cs) = false)) :
    a.scan line c cs = b.scan line c cs := by
  rcases h with rfl | ⟨ha, hb, -⟩
  · rfl
  · refine scan_congr line ?_ ?_ ?_ ?_ ?_ ?_ ?_
    · rw [ha.naming, hb.naming]
    · rw [ha.heredocs, hb.heredocs]
    · rw [ha.expectsOperand, hb.expectsOperand]
    · rw [ha.not_class, hb.not_class]
    · intro _
      rw [ha.beginsArgument, hb.beginsArgument]
    · rcases hdirective with h | ⟨h, -⟩
      · rw [h]
      · rw [h, Bool.and_false, Bool.and_false]
    · rcases hdirective with h | ⟨-, h⟩
      · rw [h]
      · rw [h, Bool.and_false, Bool.and_false]

/-- Trivia leave nothing behind. -/
lemma scan_trivia (ctx : Context) {text : Text} :
    (⟨(ctx.scan line c cs).kind, text⟩ : Lexeme).isTrivia = true →
      (ctx.scan line c cs).naming = false ∧ (ctx.scan line c cs).heredocs = ctx.heredocs := by
  apply ctx.scan_cases (motive := fun s => (⟨s.kind, text⟩ : Lexeme).isTrivia = true →
    s.naming = false ∧ s.heredocs = ctx.heredocs) line c cs
  case newline =>
    intro _ h
    rw [scanNewline] at h
    split_ifs at h <;> simp [Lexeme.isTrivia, plain] at h
  case word =>
    intro kind size naming hkind _ _ h
    cases kind <;> simp_all [Lexeme.isTrivia, word, plain, Kind.isLayout]
  case quoted => simp [Lexeme.isTrivia, scanQuoted, literal]
  case flagged => simp [Lexeme.isTrivia, scanFlagged, literal]
  case heredoc => simp [Lexeme.isTrivia, plain]
  all_goals
    intros
    exact ⟨rfl, rfl⟩

/-- Trivia before a statement change nothing but where it stands. -/
lemma StartsStatement.after_trivia (h : a.StartsStatement) {scan : Scan} {text : Text}
    (htrivia : (⟨scan.kind, text⟩ : Lexeme).isTrivia = true) (hnaming : scan.naming = false)
    (hheredocs : scan.heredocs = a.heredocs) :
    (a.after scan text).StartsStatement ∧ (a.after scan text).locals = a.locals := by
  refine ⟨⟨?_, ?_, ?_⟩, h.localsAfter _⟩
  · simp [Context.after, hnaming, h.naming]
  · rw [← h.heredocs, ← hheredocs]
    rfl
  · simpa [Context.after, htrivia] using h.last

/-- Contexts stay alike after a token. -/
lemma Alike.after_scan (h : a.Alike b) (text : Text) :
    (a.after (a.scan line c cs) text).Alike (b.after (a.scan line c cs) text) := by
  rcases h with rfl | ⟨ha, hb, hlocals⟩
  · exact .inl rfl
  · have htrivia : (⟨(a.scan line c cs).kind, text⟩ : Lexeme).isTrivia = true →
        (a.scan line c cs).naming = false ∧ (a.scan line c cs).heredocs = a.heredocs :=
      a.scan_trivia line
    generalize a.scan line c cs = scan at htrivia ⊢
    by_cases ht : (⟨scan.kind, text⟩ : Lexeme).isTrivia = true
    · obtain ⟨hnaming, hheredocs⟩ := htrivia ht
      obtain ⟨ha', hlocals'⟩ := ha.after_trivia ht hnaming hheredocs
      obtain ⟨hb', hlocals''⟩ := hb.after_trivia ht hnaming
        (by rw [hheredocs, ha.heredocs, hb.heredocs])
      exact .inr ⟨ha', hb', by rw [hlocals', hlocals'', hlocals]⟩
    · left
      simp only [Context.after, ha.localsAfter, hb.localsAfter, hlocals, ha.naming, hb.naming, ht,
        ha.not_afterDot, hb.not_afterDot, Bool.false_and, Bool.or_false, Bool.false_eq_true,
        if_false]

/-- The line `__END__` begins the data section, even where a method name is expected. -/
lemma scan_data (hstart : ctx.atLineStart = true)
    (hdir : isDirective "__END__".toList (c :: cs) = true) :
    ctx.scan line c cs = ctx.scanData line cs := by
  obtain rfl : c = '_' := eq_of_isDirective_cons hdir
  have hbegin : isDirective "=begin".toList ('_' :: cs) = false := isDirective_cons (by decide)
  rw [ctx.scan_eq_scanPlain line fun _ => by
    simp [Text.findStart?, operatorMethods, Text.startsWith, Text.dropStart?]]
  rw [scanPlain, if_neg (by decide), if_neg (by simp), if_neg (by decide), if_neg (by decide),
    if_neg (by decide), if_neg (by rw [hbegin, Bool.and_false]; decide),
    if_pos (by rw [hstart, hdir]; rfl)]

/-- A directive at the start of a line is read as one. -/
lemma scan_directive (hstart : ctx.atLineStart = true) (hnaming : ctx.naming = false) :
    (isDirective "=begin".toList (c :: cs) = true → (ctx.scan line c cs).kind = .document) ∧
      (isDirective "__END__".toList (c :: cs) = true → (ctx.scan line c cs).kind = .data) := by
  constructor
  · intro hdir
    obtain rfl : c = '=' := eq_of_isDirective_cons hdir
    rw [ctx.scan_eq_scanPlain line fun h => by simp [hnaming] at h]
    rw [scanPlain, if_neg (by decide), if_neg (by simp), if_neg (by decide), if_neg (by decide),
      if_neg (by decide), if_pos (by rw [hstart, hdir]; rfl)]
    rfl
  · intro hdir
    rw [ctx.scan_data line hstart hdir]
    rfl

/-- What the kind of a token says about its beginning: blanks and separators are known by their
first character, documents and the data section by their directive. -/
def BeginsAs (ctx : Context) (c : Char) (cs : Text) : Kind → Prop
  | .space => isGap c = true ∨ (c = '\\' ∧ cs.head? = some '\n')
  | .newline => c = '\n'
  | .semicolon => c = ';'
  | .document => ctx.atLineStart = true ∧ isDirective "=begin".toList (c :: cs) = true
  | .data => ctx.atLineStart = true ∧ isDirective "__END__".toList (c :: cs) = true
  | _ => True

lemma beginsAs_of_scan {kind : Kind} (h : (ctx.scan line c cs).kind = kind) :
    ctx.BeginsAs c cs kind := by
  subst h
  apply ctx.scan_cases (motive := fun s => ctx.BeginsAs c cs s.kind) line c cs
  case newline =>
    intro hc
    rw [scanNewline]
    split_ifs <;> exact hc
  case continuation => exact fun hc hcs => .inr ⟨hc, hcs⟩
  case gap => exact fun hc => .inl hc
  case semicolon => exact fun hc => hc
  case document => exact fun hstart hdir => ⟨hstart, hdir⟩
  case data => exact fun hstart hdir => ⟨hstart, hdir⟩
  case word =>
    intro kind size naming hkind _ _
    cases kind <;> first | exact trivial | cases hkind
  all_goals exact fun _ => by intros; trivial

/-- A blank is a run of gaps, or a backslash that hides a line feed. -/
lemma of_scan_space (h : (ctx.scan line c cs).kind = .space) :
    isGap c = true ∨ (c = '\\' ∧ cs.head? = some '\n') :=
  ctx.beginsAs_of_scan line h

/-- A line feed token begins with its line feed. -/
lemma of_scan_newline (h : (ctx.scan line c cs).kind = .newline) : c = '\n' :=
  ctx.beginsAs_of_scan line h

/-- A semicolon token begins with its semicolon. -/
lemma of_scan_semicolon (h : (ctx.scan line c cs).kind = .semicolon) : c = ';' :=
  ctx.beginsAs_of_scan line h

/-- The data section begins with its directive, at the start of a line. -/
lemma of_scan_data (h : (ctx.scan line c cs).kind = .data) :
    ctx.atLineStart = true ∧ isDirective "__END__".toList (c :: cs) = true :=
  ctx.beginsAs_of_scan line h

/-- Embedded documents and the data section begin at the start of a line. -/
lemma atLineStart_of_scan
    (h : (ctx.scan line c cs).kind = .document ∨ (ctx.scan line c cs).kind = .data) :
    ctx.atLineStart = true := by
  rcases h with h | h
  all_goals exact (ctx.beginsAs_of_scan line h).1

/-- A blank without a line feed is the run of all gaps in its place. -/
lemma of_scan_gap {p rest : Text} (hkind : (ctx.scan line c (p ++ rest)).kind = .space)
    (hsize : (ctx.scan line c (p ++ rest)).extent.size = p.length) (hfeed : '\n' ∉ c :: p) :
    (∀ d ∈ c :: p, isGap d = true) ∧ rest.head?.any isGap = false := by
  have hc : isGap c = true := by
    rcases ctx.of_scan_space line hkind with hc | ⟨rfl, hhead⟩
    · exact hc
    · exfalso
      cases hpr : p ++ rest with
      | nil => simp [hpr] at hhead
      | cons d ds =>
          obtain rfl : d = '\n' := by simpa [hpr] using hhead
          rw [hpr, scan_continuation] at hsize
          obtain ⟨e, rfl⟩ : ∃ e, p = [e] := List.length_eq_one_iff.mp hsize.symm
          obtain rfl : e = '\n' := by simpa using congrArg List.head? hpr
          simp at hfeed
  rw [ctx.scan_gap line hc] at hsize
  have hrun : (p ++ rest).takeWhile isGap = p := by
    have hprefix := List.prefix_iff_eq_take.mp (List.takeWhile_prefix isGap (l := p ++ rest))
    have hlength : ((p ++ rest).takeWhile isGap).length = p.length := hsize
    rwa [hlength, List.take_left] at hprefix
  have hp : ∀ d ∈ p, isGap d = true := by
    intro d hd
    rw [← hrun] at hd
    exact List.mem_takeWhile_imp hd
  refine ⟨List.forall_mem_cons.mpr ⟨hc, hp⟩, ?_⟩
  rw [List.takeWhile_append_of_pos hp, List.append_right_eq_self] at hrun
  cases rest with
  | nil => rfl
  | cons d rest => simpa [List.takeWhile_cons] using hrun

end Context

end ConverterAssembly.Ruby
