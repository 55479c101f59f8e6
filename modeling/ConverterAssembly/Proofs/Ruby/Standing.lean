import ConverterAssembly.Proofs.Ruby.Passages
import ConverterAssembly.Proofs.Ruby.Literals

/-!
# Tokens that stand anywhere

Most tokens of a generated line mean the same in every context.  `Stands naming l rest naming'` says
so of one lexeme in front of `rest`; only whether a method name is expected before it, and after it,
is told.  `Standing` is the same for a list of lexemes, and `passage_line` makes a line of it.
-/

namespace ConverterAssembly.Ruby

open Text

/-- The lexeme is read as such in front of `rest` in every context that expects a method name, or
does not, as `naming` says; `naming'` says whether the next word names a method. -/
def Stands (naming : Bool) (l : Lexeme) (rest : Text) (naming' : Bool) : Prop :=
  ∀ ctx : Context, ctx.naming = naming → ctx.heredocs = [] →
    (ctx.atLineStart = true → l.text.head? ≠ some '=' ∧ l.text.head? ≠ some '_') →
    ∃ ctx', Reads rest ctx l.text [l] ctx' ∧ ctx'.naming = naming' ∧ ctx'.heredocs = [] ∧
      ctx'.atLineStart = false

/-- Lexemes that stand one after the other in front of `rest`. -/
inductive Standing (rest : Text) : (naming : Bool) → List Lexeme → (naming' : Bool) → Prop
  | nil (naming : Bool) : Standing rest naming [] naming
  | cons {naming naming₁ naming' : Bool} {l : Lexeme} {ls : List Lexeme}
      (head : Stands naming l (ls.flatMap (·.text) ++ rest) naming₁)
      (tail : Standing rest naming₁ ls naming') : Standing rest naming (l :: ls) naming'

namespace Standing

variable {naming naming₁ naming' : Bool} {ls la lb : List Lexeme} {rest : Text}

lemma append (ha : Standing (lb.flatMap (·.text) ++ rest) naming la naming₁)
    (hb : Standing rest naming₁ lb naming') : Standing rest naming (la ++ lb) naming' := by
  induction ha with
  | nil => exact hb
  | cons head tail ih =>
      rw [List.cons_append]
      refine .cons ?_ (ih hb)
      rw [List.flatMap_append, List.append_assoc]
      exact head

lemma reads (h : Standing rest naming ls naming') {ctx : Context} (hnaming : ctx.naming = naming)
    (hheredocs : ctx.heredocs = [])
    (hdir : ctx.atLineStart = true →
      (ls.flatMap (·.text)).head? ≠ some '=' ∧ (ls.flatMap (·.text)).head? ≠ some '_') :
    ∃ ctx', Reads rest ctx (ls.flatMap (·.text)) ls ctx' ∧ ctx'.naming = naming' ∧
      ctx'.heredocs = [] := by
  induction h generalizing ctx with
  | nil => exact ⟨ctx, .nil ctx, hnaming, hheredocs⟩
  | @cons _ _ _ l ls head tail ih =>
      have hdir' : ctx.atLineStart = true → l.text.head? ≠ some '=' ∧ l.text.head? ≠ some '_' := by
        intro hstart
        have := hdir hstart
        cases ht : l.text with
        | nil => simp
        | cons c p => simpa [ht] using this
      obtain ⟨ctx₁, hreads₁, hnaming₁, hheredocs₁, hstart₁⟩ := head ctx hnaming hheredocs hdir'
      obtain ⟨ctx₂, hreads₂, hnaming₂, hheredocs₂⟩ := ih hnaming₁ hheredocs₁ (by simp [hstart₁])
      exact ⟨ctx₂, hreads₁.append hreads₂, hnaming₂, hheredocs₂⟩

end Standing

/-- Lexemes that stand before a line feed, whatever follows, make a passage of one line. -/
lemma passage_line {ls : List Lexeme} (h : ∀ rest, ∃ naming',
    Standing ('\n' :: rest) false ls naming')
    (hdir : (ls.flatMap (·.text)).head?.any "=_".toList.contains = false) :
    Passage (ls.flatMap (·.text) ++ ['\n']) (ls ++ [lineFeed]) := by
  intro rest ctx hctx
  have hhead : (ls.flatMap (·.text)).head? ≠ some '=' ∧ (ls.flatMap (·.text)).head? ≠ some '_' := by
    constructor <;> intro h <;> simp [h] at hdir
  obtain ⟨naming', hstanding⟩ := h rest
  obtain ⟨ctx₁, hreads₁, -, hheredocs₁⟩ := hstanding.reads hctx.naming hctx.heredocs fun _ => hhead
  obtain ⟨ctx₂, hreads₂, hctx₂, -⟩ := reads_feed hheredocs₁ rest
  exact ⟨ctx₂, hreads₁.append hreads₂, hctx₂⟩

/-- One token is a reading. -/
lemma stands_of_scan {naming naming' : Bool} {kind : Kind} {c : Char} {p rest : Text}
    (hlast : (c :: p).getLast? ≠ some '\n')
    (h : ∀ ctx : Context, ctx.naming = naming → ctx.heredocs = [] →
      (ctx.atLineStart = true → c ≠ '=' ∧ c ≠ '_') →
      ∃ named, ctx.scan 0 c (p ++ rest) = ⟨kind, ⟨p.length, 0, none⟩, named, []⟩ ∧
        (named || (naming && (kind = .space || kind = .comment))) = naming') :
    Stands naming ⟨kind, c :: p⟩ rest naming' := by
  intro ctx hnaming hheredocs hdir
  obtain ⟨named, hscan, hnamed⟩ := h ctx hnaming hheredocs (by simpa using hdir)
  have hreads : Reads rest ctx (c :: p ++ []) _ _ :=
    .cons (by simpa using hscan) rfl rfl (.nil (ctx.after _ (c :: p)))
  refine ⟨_, by simpa using hreads, ?_, rfl, ?_⟩
  · simp [Context.after, hnaming, hnamed]
  · simpa [Context.after] using hlast

/-! ## Words -/

/-- Whether a text is a name: a character that a name may begin with, and
characters that it may go on with. -/
def isName : Text → Bool
  | [] => false
  | c :: p => isNameStart c && p.all isNameChar

lemma exists_of_isName {name : Text} (h : isName name = true) :
    ∃ c p, name = c :: p ∧ isNameStart c = true ∧ ∀ d ∈ p, isNameChar d = true := by
  cases name with
  | nil => simp [isName] at h
  | cons c p => exact ⟨c, p, rfl, by simpa [isName] using h⟩

/-- A name holds none but the characters of names. -/
lemma not_mem_of_isName {name : Text} (h : isName name = true) {c : Char}
    (hc : isNameChar c = false) : c ∉ name := by
  obtain ⟨d, p, rfl, hd, hp⟩ := exists_of_isName h
  intro hmem
  have hname : isNameChar c = true := by
    rcases List.mem_cons.1 hmem with rfl | hmem
    · rw [isNameChar, hd, Bool.true_or]
    · exact hp c hmem
  exact absurd (hc.symm.trans hname) (by decide)

/-- What can follow a word without being a part of it or changing it. -/
def endsWord (rest : Text) : Bool :=
  rest.head?.all (fun d => !isNameChar d && !"?!=".toList.contains d) &&
    !(rest.head? = some ':' && (rest.drop 1).head? ≠ some ':')

/-- The lexeme of a word. -/
def wordLexeme (naming : Bool) (name : Text) : Lexeme :=
  ⟨if !naming && keywords.contains name then .keyword else .ident, name⟩

/-- No operator is found where none begins with the character. -/
lemma findStart?_operatorMethods_head {c : Char}
    (hc : ∀ name ∈ operatorMethods, name.head? ≠ some c) (cs : Text) :
    Text.findStart? operatorMethods (c :: cs) = none := by
  refine List.find?_eq_none.mpr ?_
  intro name hname hstart
  obtain ⟨rest, hrest⟩ := Text.startsWith_iff.mp hstart
  cases name with
  | nil => exact absurd hname (by decide)
  | cons d ds =>
      refine hc _ hname ?_
      simpa using congrArg List.head? hrest

lemma findStart?_operatorMethods_name {c : Char} (hc : isNameStart c = true) (cs : Text) :
    Text.findStart? operatorMethods (c :: cs) = none := by
  have hnone : ∀ name ∈ operatorMethods, name.head?.any isNameStart = false := by decide
  refine findStart?_operatorMethods_head ?_ cs
  intro name hname hhead
  simpa [hhead, hc] using hnone name hname

lemma isDigit_of_isNameStart {c : Char} (hc : isNameStart c = true) : isDigit c = false := by
  by_contra hdigit
  simp only [isDigit, Bool.not_eq_false, Bool.and_eq_true, decide_eq_true_eq] at hdigit
  have hlow : '0'.toNat ≤ c.toNat := hdigit.1
  have hhigh : c.toNat ≤ '9'.toNat := hdigit.2
  simp only [isNameStart, isAsciiLetter, isWide, Bool.or_eq_true, Bool.and_eq_true,
    decide_eq_true_eq] at hc
  rcases hc with ((⟨h, -⟩ | ⟨h, -⟩) | rfl) | h
  · have : 'a'.toNat ≤ c.toNat := h
    exact absurd (this.trans hhigh) (by decide)
  · have : 'A'.toNat ≤ c.toNat := h
    exact absurd (this.trans hhigh) (by decide)
  · exact absurd hhigh (by decide)
  · exact absurd (h.trans hhigh) (by decide)

/-- A word is read as a word, unless it is the word of a directive. -/
lemma Context.scan_name {ctx : Context} {line : Nat} {c : Char} {cs : Text}
    (hc : isNameStart c = true) (hdir : ctx.atLineStart = true → c ≠ '_') :
    ctx.scan line c cs = ctx.scanWord line c cs := by
  have hgap : isGap c = false := by
    by_contra hgap
    simp only [Bool.not_eq_false, isGap, Bool.or_eq_true, decide_eq_true_eq, or_assoc] at hgap
    rcases hgap with rfl | rfl | rfl | rfl | rfl <;> exact absurd hc (by decide)
  have hne : c ≠ '\n' ∧ c ≠ '\\' ∧ c ≠ ';' ∧ c ≠ '#' ∧ c ≠ '=' ∧ c ≠ '"' ∧ c ≠ '\x60' ∧
      c ≠ '\x27' ∧ c ≠ '@' ∧ c ≠ '$' := by
    refine ⟨?_, ?_, ?_, ?_, ?_, ?_, ?_, ?_, ?_, ?_⟩ <;> rintro rfl <;> exact absurd hc (by decide)
  obtain ⟨hfeed, hback, hsemi, hhash, heq, hdouble, htick, hsingle, hat, hdollar⟩ := hne
  have hbegin : isDirective "=begin".toList (c :: cs) = false := isDirective_cons heq
  have hend : (ctx.atLineStart && isDirective "__END__".toList (c :: cs)) = false := by
    cases hstart : ctx.atLineStart with
    | false => rfl
    | true => exact isDirective_cons (hdir hstart)
  rw [ctx.scan_eq_scanPlain line fun _ => findStart?_operatorMethods_name hc cs]
  simp only [Context.scanPlain, hfeed, hback, hsemi, hhash, hdouble, htick, hsingle, hat, hdollar,
    hgap, isDigit_of_isNameStart hc, hbegin, hend, hc, if_false, if_true, decide_false,
    Bool.false_and, Bool.and_false, Bool.or_false, Bool.false_eq_true]

lemma nameSize_append {p rest : Text} (hp : ∀ d ∈ p, isNameChar d = true)
    (hrest : rest.head?.any isNameChar = false) : nameSize (p ++ rest) = p.length := by
  rw [nameSize, List.takeWhile_append_of_pos hp]
  cases rest with
  | nil => simp
  | cons d rest =>
      have hd : isNameChar d = false := by simpa using hrest
      simp [hd]

/-- A word is read to its end, as a keyword or as a name. -/
lemma Context.scan_word {ctx : Context} {line : Nat} {c : Char} {p rest : Text}
    (h : isName (c :: p) = true) (hrest : endsWord rest = true)
    (hdir : ctx.atLineStart = true → c ≠ '_') :
    ctx.scan line c (p ++ rest) =
      ⟨(wordLexeme ctx.naming (c :: p)).kind, ⟨p.length, line, none⟩,
        !ctx.naming && c :: p = "def".toList, ctx.heredocs⟩ := by
  simp only [isName, Bool.and_eq_true, List.all_eq_true] at h
  obtain ⟨hc, hp⟩ := h
  simp only [endsWord, Bool.and_eq_true, Bool.not_eq_true'] at hrest
  obtain ⟨hhead, hlabel⟩ := hrest
  have hsize : nameSize (p ++ rest) = p.length := by
    refine nameSize_append hp ?_
    cases rest with
    | nil => rfl
    | cons d rest =>
        simp only [List.head?_cons, Option.all_some, Bool.and_eq_true, Bool.not_eq_true'] at hhead
        simpa using hhead.1
  have hmark : endsInMark rest = false := by
    cases rest with
    | nil => rfl
    | cons d rest =>
        have hd : d ≠ '?' ∧ d ≠ '!' := by
          constructor <;> rintro rfl <;> simp at hhead
        simp [endsInMark, hd]
  have hwriter : Text.startsWith rest ['=', '('] = false := by
    cases rest with
    | nil => rfl
    | cons d rest =>
        have hd : '=' ≠ d := by
          rintro rfl
          simp at hhead
        simp [Text.startsWith, Text.dropStart?, hd]
  rw [Context.scan_name hc hdir]
  simp only [Context.scanWord, hsize, List.drop_left, List.take_left, hmark, hwriter, hlabel,
    Context.plain, Bool.false_eq_true, if_false, wordLexeme]
  cases hnaming : ctx.naming with
  | true => rfl
  | false =>
      cases hkeyword : keywords.contains (c :: p) with
      | true => rfl
      | false =>
          have hdef : c :: p ≠ "def".toList := by
            intro h
            rw [h] at hkeyword
            exact absurd hkeyword (by decide)
          simp only [Bool.false_eq_true, if_false, Bool.not_false, Bool.true_and,
            decide_eq_false hdef]

lemma stands_word {name : Text} (h : isName name = true) {rest : Text}
    (hrest : endsWord rest = true) (naming : Bool) :
    Stands naming (wordLexeme naming name) rest (!naming && name = "def".toList) := by
  have hfeed : name.getLast? ≠ some '\n' :=
    fun hlast => not_mem_of_isName h (by decide) (List.mem_of_getLast? hlast)
  obtain ⟨c, p, rfl, hc, hp⟩ := exists_of_isName h
  refine stands_of_scan hfeed ?_
  intro ctx hnaming hheredocs hdir
  rw [Context.scan_word h hrest fun hstart => (hdir hstart).2, hnaming, hheredocs]
  refine ⟨_, rfl, ?_⟩
  split_ifs <;> simp

/-! ## Blanks, signs and literals -/

/-- Spaces before something else. -/
lemma stands_space {n : Nat} {rest : Text} (hrest : rest.head?.any isGap = false) (naming : Bool) :
    Stands naming ⟨.space, ' ' :: List.replicate n ' '⟩ rest naming := by
  have hlast : (' ' :: List.replicate n ' ').getLast? ≠ some '\n' := by
    intro hl
    have := List.mem_of_getLast? hl
    simp at this
  refine stands_of_scan hlast ?_
  intro ctx _ hheredocs _
  refine ⟨false, ?_, by simp⟩
  have hrun : (List.replicate n ' ' ++ rest).takeWhile isGap = List.replicate n ' ' := by
    rw [List.takeWhile_append_of_pos (by simp [isGap])]
    cases rest with
    | nil => simp
    | cons d rest =>
        have hd : isGap d = false := by simpa using hrest
        simp [hd]
  rw [ctx.scan_gap 0 (by decide), hrun, Context.plain, hheredocs]

lemma stands_semicolon (rest : Text) : Stands false ⟨.semicolon, [';']⟩ rest false := by
  refine stands_of_scan (by simp) ?_
  intro ctx hnaming hheredocs _
  refine ⟨false, ?_, by simp⟩
  rw [ctx.scan_eq_scanPlain 0 fun h => by simp [hnaming] at h]
  simp [Context.scanPlain, Context.plain, hheredocs, show isGap ';' = false by decide]

/-- A sign is a reading where it is one by the rules for signs, unless it can be a method name. -/
lemma stands_of_scanSign {naming : Bool} {kind : Kind} {c : Char} {p rest : Text} (named : Bool)
    (hlast : (c :: p).getLast? ≠ some '\n') (hsign : isSign c = true) (hspace : kind ≠ .space)
    (hcomment : kind ≠ .comment)
    (hname : naming = true → Text.findStart? operatorMethods (c :: (p ++ rest)) = none)
    (h : ∀ ctx : Context, ctx.heredocs = [] →
      ctx.scanSign 0 c (p ++ rest) = ⟨kind, ⟨p.length, 0, none⟩, named, []⟩) :
    Stands naming ⟨kind, c :: p⟩ rest named := by
  refine stands_of_scan hlast ?_
  intro ctx hnaming hheredocs hdir
  refine ⟨named, ?_, by simp [hspace, hcomment]⟩
  rw [ctx.scan_eq_scanPlain 0 fun htrue => hname (hnaming.symm.trans htrue),
    ctx.scanPlain_of_isSign 0 hsign fun hstart => (hdir hstart).1, h ctx hheredocs]

/-- A bracket or a comma. -/
lemma stands_bracket {c : Char} {kind : Kind} (hc : Context.bracketKind? c = some kind)
    (rest : Text) : Stands false ⟨kind, [c]⟩ rest false := by
  have hcases : c = '(' ∨ c = '[' ∨ c = '\x7b' ∨ c = ')' ∨ c = ']' ∨ c = '\x7d' ∨ c = ',' := by
    by_contra hne
    simp only [not_or] at hne
    simp [Context.bracketKind?, hne] at hc
  have hkind : kind ≠ .space ∧ kind ≠ .comment := by
    unfold Context.bracketKind? at hc
    split_ifs at hc <;> obtain rfl := Option.some.inj hc <;> decide
  have hsign : isSign c = true ∧ c ≠ ':' ∧ c ≠ '?' ∧ c ≠ '/' ∧ c ≠ '%' ∧ c ≠ '<' ∧ c ≠ '\n' := by
    rcases hcases with rfl | rfl | rfl | rfl | rfl | rfl | rfl <;> decide
  obtain ⟨hsign, hcolon, hquestion, hslash, hpercent, hless, hfeed⟩ := hsign
  refine stands_of_scanSign false (by simpa using hfeed) hsign hkind.1 hkind.2 (by simp) ?_
  intro ctx hheredocs
  simp [Context.scanSign, hcolon, hquestion, hslash, hpercent, hless, hc, Context.plain, hheredocs]

/-- The operators of generated lines, before a blank. -/
lemma stands_operator {c : Char} {p : Text}
    (h : c :: p ∈ ["=".toList, "||".toList, "<".toList]) {rest : Text} (hrest : Stops rest) :
    Stands false ⟨.operator, c :: p⟩ rest false := by
  have hscan : ∀ ctx : Context, ctx.scanOperator 0 c (p ++ rest) =
      ctx.plain 0 .operator p.length := by
    intro ctx
    rw [ctx.scanOperator_append_stops 0 c p hrest, Context.scanOperator]
    simp only [List.mem_cons, List.not_mem_nil, or_false] at h
    rcases h with h | h | h <;> obtain ⟨rfl, rfl⟩ := List.cons.inj h <;> rfl
  have hheredoc : ∀ ctx : Context, c = '<' → ctx.scanHeredoc? 0 (p ++ rest) = none := by
    rintro ctx rfl
    obtain rfl : p = [] := by simpa using h
    have hhead : rest.head? ≠ some '<' := fun hl => absurd (hrest _ hl) (by decide)
    simp [Context.scanHeredoc?, hhead]
  have hc : isSign c = true ∧ c ≠ ':' ∧ c ≠ '?' ∧ c ≠ '/' ∧ c ≠ '%' ∧ c ≠ '.' ∧ c ≠ '&' ∧
      Context.bracketKind? c = none ∧ (c :: p).getLast? ≠ some '\n' := by
    simp only [List.mem_cons, List.not_mem_nil, or_false] at h
    rcases h with h | h | h <;> obtain ⟨rfl, rfl⟩ := List.cons.inj h <;> decide
  obtain ⟨hsign, hcolon, hquestion, hslash, hpercent, hdot, hand, hbracket, hlast⟩ := hc
  refine stands_of_scanSign false hlast hsign (by decide) (by decide) (by simp) ?_
  intro ctx hheredocs
  have hsign' : ctx.scanSign 0 c (p ++ rest) = ctx.scanOperator 0 c (p ++ rest) := by
    by_cases hless : c = '<'
    · simp [Context.scanSign, hless, hheredoc ctx hless]
    · simp [Context.scanSign, hcolon, hquestion, hslash, hpercent, hless, hbracket, hdot, hand]
  rw [hsign', hscan, Context.plain, hheredocs]

/-- The scope operator. -/
lemma stands_scope (naming : Bool) (rest : Text) :
    Stands naming ⟨.operator, [':', ':']⟩ rest false := by
  refine stands_of_scanSign false (by simp) (by decide) (by decide) (by decide)
    (fun _ => findStart?_operatorMethods_head (by decide) _) ?_
  intro ctx hheredocs
  simp [Context.scanSign, Context.scanColon, Context.plain, hheredocs]

/-- The dot before a method name. -/
lemma stands_dot {rest : Text} (hrest : rest.head? ≠ some '.') :
    Stands false ⟨.operator, ['.']⟩ rest true := by
  refine stands_of_scanSign true (by simp) (by decide) (by decide) (by decide) (by simp) ?_
  intro ctx hheredocs
  simp [Context.scanSign, hrest, Context.plain, hheredocs,
    show Context.bracketKind? '.' = none by decide]

/-- A written literal, whatever follows. -/
lemma stands_stringLiteral (value rest : Text) (naming : Bool) :
    Stands naming ⟨.literal, stringLiteral value⟩ rest false := by
  have hlast : (stringLiteral value).getLast? ≠ some '\n' := by
    intro hl
    exact feed_not_mem_stringLiteral value (List.mem_of_getLast? hl)
  refine stands_of_scan hlast ?_
  intro ctx _ hheredocs _
  refine ⟨false, ?_, by simp⟩
  have hread : (Quote.between '"' true).read 0 (escaped value ++ '"' :: rest) =
      ⟨(escaped value).length + 1, 0, none⟩ := read_escaped value rest 0 0
  rw [ctx.scan_eq_scanPlain 0 fun _ => findStart?_operatorMethods_head (by decide) _]
  simp [Context.scanPlain, Context.scanQuoted, Context.literal, hread, hheredocs, Extent.extend,
    isDirective_cons, show isGap '"' = false by decide, show isDigit '"' = false by decide]

/-! ## Symbols -/

/-- What follows a symbol in a generated line. -/
def endsSymbol (rest : Text) : Bool :=
  rest.head?.all ",]\n".toList.contains

lemma endsSymbol_cases {rest : Text} (h : endsSymbol rest = true) :
    rest = [] ∨ ∃ c r, rest = c :: r ∧ (c = ',' ∨ c = ']' ∨ c = '\n') := by
  cases rest with
  | nil => exact .inl rfl
  | cons c r => exact .inr ⟨c, r, rfl, by simpa [endsSymbol] using h⟩

/-- A colon token is one where it is the same in every context. -/
lemma stands_colon {p rest : Text} (naming : Bool) (hlast : (':' :: p).getLast? ≠ some '\n')
    (h : ∀ ctx : Context, ctx.heredocs = [] →
      ctx.scanColon 0 (p ++ rest) = ⟨.literal, ⟨p.length, 0, none⟩, false, []⟩) :
    Stands naming ⟨.literal, ':' :: p⟩ rest false := by
  refine stands_of_scanSign false hlast (by decide) (by decide) (by decide)
    (fun _ => findStart?_operatorMethods_head (by decide) _) ?_
  intro ctx hheredocs
  simp [Context.scanSign, h ctx hheredocs]

/-- A symbol with a plain name, which a mark may end. -/
lemma stands_symbol {name mark rest : Text} (hname : isName name = true)
    (hmark : mark = [] ∨ mark = ['?'] ∨ mark = ['!'] ∨ mark = ['='])
    (hrest : endsSymbol rest = true)
    (naming : Bool) : Stands naming ⟨.literal, ':' :: (name ++ mark)⟩ rest false := by
  have hfeed : '\n' ∉ name := not_mem_of_isName hname (by decide)
  obtain ⟨c, p, rfl, hc, hp⟩ := exists_of_isName hname
  have hcases := endsSymbol_cases hrest
  have hhead : (mark ++ rest).head?.any isNameChar = false := by
    rcases hmark with rfl | rfl | rfl | rfl
    · rcases hcases with rfl | ⟨d, r, rfl, rfl | rfl | rfl⟩ <;> rfl
    all_goals rfl
  have hend : symbolEndSize (mark ++ rest) = mark.length := by
    rcases hmark with rfl | rfl | rfl | rfl <;>
      rcases hcases with rfl | ⟨d, r, rfl, rfl | rfl | rfl⟩ <;> rfl
  refine stands_colon naming ?_ ?_
  · intro hlast
    have hmem := List.mem_of_getLast? hlast
    rw [List.mem_cons, List.mem_append] at hmem
    rcases hmem with h | h | h
    · exact absurd h (by decide)
    · exact hfeed h
    · rcases hmark with rfl | rfl | rfl | rfl <;> simp at h
  · intro ctx hheredocs
    have hne : c ≠ ':' ∧ c ≠ '"' ∧ c ≠ '\x27' := by
      refine ⟨?_, ?_, ?_⟩ <;> rintro rfl <;> exact absurd hc (by decide)
    have hsize := nameSize_append hp hhead
    simp only [List.cons_append, List.append_assoc, Context.scanColon, hne, if_false, hc, if_true,
      hsize, List.drop_left, hend, Context.plain, hheredocs]
    simp
    omega

/-- A symbol with the name of a variable. -/
lemma stands_variableSymbol {sigil name rest : Text} (hname : isName name = true)
    (hsigil : sigil = ['@', '@'] ∨ sigil = ['@'] ∨ sigil = ['$']) (hrest : endsSymbol rest = true)
    (naming : Bool) : Stands naming ⟨.literal, ':' :: (sigil ++ name)⟩ rest false := by
  have hfeed : '\n' ∉ name := not_mem_of_isName hname (by decide)
  obtain ⟨c, p, rfl, hc, hp⟩ := exists_of_isName hname
  have hhead : rest.head?.any isNameChar = false := by
    rcases endsSymbol_cases hrest with rfl | ⟨d, r, rfl, rfl | rfl | rfl⟩ <;> rfl
  have hsize := nameSize_append hp hhead
  have hat : c ≠ '@' := by
    rintro rfl
    exact absurd hc (by decide)
  refine stands_colon naming ?_ ?_
  · intro hlast
    have hmem := List.mem_of_getLast? hlast
    rw [List.mem_cons, List.mem_append] at hmem
    rcases hmem with h | h | h
    · exact absurd h (by decide)
    · rcases hsigil with rfl | rfl | rfl <;> simp at h
    · exact hfeed h
  · intro ctx hheredocs
    rcases hsigil with rfl | rfl | rfl <;>
      simp [Context.scanColon, variableSize, memberSize, globalSize, hat, hc, hsize, Context.plain,
        hheredocs, show isNameStart '@' = false by decide, show isNameStart '$' = false by decide]

/-! ## Written symbols -/

/-- What holds of the ASCII characters, and of all others, holds of every character. -/
lemma ascii_cases {P : Char → Prop} (ascii : ∀ n < 128, P (Char.ofNat n))
    (wide : ∀ c, isWide c = true → P c) (c : Char) : P c := by
  by_cases hwide : 0x80 ≤ c.toNat
  · exact wide c (decide_eq_true hwide)
  · have := ascii c.toNat (by omega)
    rwa [Char.ofNat_toNat] at this

lemma isNameStart_of_isLetter (c : Char) : isLetter c = true → isNameStart c = true := by
  refine ascii_cases (P := fun c => isLetter c = true → isNameStart c = true) ?_ ?_ c
  · decide +kernel
  · intro c hwide _
    simp [isNameStart, hwide]

lemma isNameChar_of_isLetterOrNumber (c : Char) :
    isLetterOrNumber c = true → isNameChar c = true := by
  refine ascii_cases (P := fun c => isLetterOrNumber c = true → isNameChar c = true) ?_ ?_ c
  · decide +kernel
  · intro c hwide _
    simp [isNameChar, isNameStart, hwide]

lemma isName_of_isPlainName {name : Text} (h : isPlainName name = true) : isName name = true := by
  cases name with
  | nil => simp [isPlainName] at h
  | cons c p =>
      simp only [isPlainName, Bool.and_eq_true, Bool.or_eq_true, decide_eq_true_eq,
        List.all_eq_true] at h
      rw [isName, Bool.and_eq_true, List.all_eq_true]
      constructor
      · rcases h.1 with hc | rfl
        · exact isNameStart_of_isLetter c hc
        · decide
      · intro d hd
        rcases h.2 d hd with hd | rfl
        · exact isNameChar_of_isLetterOrNumber d hd
        · decide

lemma eq_sigil_append {name body : Text} (h : afterSigil? name = some body) :
    ∃ sigil : Text, (sigil = ['@', '@'] ∨ sigil = ['@'] ∨ sigil = ['$']) ∧
      name = sigil ++ body := by
  match name with
  | [] => simp [afterSigil?] at h
  | [c] =>
      simp only [afterSigil?] at h
      split_ifs at h with hc
      obtain rfl : [] = body := Option.some.inj h
      simp only [Bool.or_eq_true, decide_eq_true_eq] at hc
      rcases hc with rfl | rfl <;> exact ⟨[_], by simp, rfl⟩
  | c :: d :: cs =>
      simp only [afterSigil?, Bool.and_eq_true, Bool.or_eq_true, decide_eq_true_eq] at h
      split_ifs at h with hdouble hsingle
      · obtain ⟨rfl, rfl⟩ := hdouble
        obtain rfl := Option.some.inj h
        exact ⟨['@', '@'], by simp, rfl⟩
      · obtain rfl := Option.some.inj h
        rcases hsingle with rfl | rfl <;> exact ⟨[_], by simp, rfl⟩

lemma eq_withoutMark_append (name : Text) :
    ∃ mark : Text, (mark = [] ∨ mark = ['?'] ∨ mark = ['!'] ∨ mark = ['=']) ∧
      name = withoutMark name ++ mark := by
  unfold withoutMark
  cases hlast : name.getLast? with
  | none => exact ⟨[], .inl rfl, by simp⟩
  | some c =>
      obtain ⟨init, rfl⟩ := List.getLast?_eq_some_iff.mp hlast
      dsimp only
      split_ifs with hc
      · simp only [Bool.or_eq_true, decide_eq_true_eq, or_assoc] at hc
        refine ⟨[c], ?_, by simp⟩
        rcases hc with rfl | rfl | rfl <;> simp
      · exact ⟨[], .inl rfl, by simp⟩

/-- A written symbol holds no line feed. -/
theorem feed_not_mem_symbolLiteral (name : Text) : '\n' ∉ symbolLiteral name := by
  have hops : ∀ op ∈ operatorSymbols, '\n' ∉ op := by decide
  rw [symbolLiteral, List.mem_cons, not_or]
  refine ⟨by decide, ?_⟩
  by_cases hplain : isPlainSymbol name = true
  · rw [if_pos hplain]
    simp only [isPlainSymbol, Bool.or_eq_true] at hplain
    rcases hplain with hop | hplain
    · exact hops _ (List.contains_iff_mem.mp hop)
    · cases hsigil : afterSigil? name with
      | some body =>
          rw [hsigil] at hplain
          obtain ⟨sigil, hcases, rfl⟩ := eq_sigil_append hsigil
          rw [List.mem_append, not_or]
          refine ⟨?_, not_mem_of_isName (isName_of_isPlainName hplain) (by decide)⟩
          rcases hcases with rfl | rfl | rfl <;> decide
      | none =>
          rw [hsigil] at hplain
          obtain ⟨mark, hcases, heq⟩ := eq_withoutMark_append name
          rw [heq, List.mem_append, not_or]
          refine ⟨not_mem_of_isName (isName_of_isPlainName hplain) (by decide), ?_⟩
          rcases hcases with rfl | rfl | rfl | rfl <;> decide
  · rw [if_neg hplain]
    exact feed_not_mem_stringLiteral name

/-- A written symbol, unless its name is that of an operator. -/
lemma stands_symbolLiteral {name rest : Text} (hname : name ∉ operatorMethods)
    (hrest : endsSymbol rest = true) (naming : Bool) :
    Stands naming ⟨.literal, symbolLiteral name⟩ rest false := by
  have hsub : ∀ op ∈ operatorSymbols, op ∈ operatorMethods := by decide
  rw [symbolLiteral]
  by_cases hplain : isPlainSymbol name = true
  · rw [if_pos hplain]
    simp only [isPlainSymbol, Bool.or_eq_true] at hplain
    rcases hplain with hop | hplain
    · exact absurd (hsub _ (List.contains_iff_mem.mp hop)) hname
    · cases hsigil : afterSigil? name with
      | some body =>
          rw [hsigil] at hplain
          obtain ⟨sigil, hcases, rfl⟩ := eq_sigil_append hsigil
          exact stands_variableSymbol (isName_of_isPlainName hplain) hcases hrest naming
      | none =>
          rw [hsigil] at hplain
          obtain ⟨mark, hcases, heq⟩ := eq_withoutMark_append name
          rw [heq]
          exact stands_symbol (isName_of_isPlainName hplain) hcases hrest naming
  · rw [if_neg hplain]
    have hlast : (':' :: stringLiteral name).getLast? ≠ some '\n' := by
      intro hl
      rcases List.mem_cons.mp (List.mem_of_getLast? hl) with h | h
      · exact absurd h (by decide)
      · exact feed_not_mem_stringLiteral name h
    refine stands_colon naming hlast ?_
    intro ctx hheredocs
    have hread : (Quote.between '"' true).read 0 (escaped name ++ '"' :: rest) =
        ⟨(escaped name).length + 1, 0, none⟩ := read_escaped name rest 0 0
    simp [stringLiteral, Context.scanColon, Context.scanQuoted, Context.literal, hread, hheredocs,
      Extent.extend]
    omega

end ConverterAssembly.Ruby
