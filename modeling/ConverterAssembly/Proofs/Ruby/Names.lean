import ConverterAssembly.Proofs.Ruby.Cuts

/-!
# The names that are assigned

`x =` makes `x` a local variable for all the rest of the source, whatever block or method it stands
in.  What this does to the tokens that follow is said here in terms of the tokens alone.

**Names.**  `assigned` finds the names among the lexemes.  After a part, these are known and what
was known before it (`Reads.locals_eq`), so nothing else that the part holds can matter in this way.

**Commands.**  A word in front of a regular expression, a percent literal or a heredoc is a command
with that argument; if the word were a local variable, an operator would stand there.  `commands`
finds such words, and `tokensFrom_withNames` says that names which are none of them change no token.
-/

namespace ConverterAssembly.Ruby

open Text

/-- The text of a lexeme that is a name. -/
def nameOf : Option Lexeme → List Text
  | some ⟨.ident, text⟩ => [text]
  | _ => []

lemma nameOf_of_ident {l : Lexeme} (h : l.kind = .ident) : nameOf (some l) = [l.text] := by
  obtain ⟨kind, text⟩ := l
  obtain rfl : kind = .ident := h
  rfl

lemma nameOf_of_ne {l : Lexeme} (h : l.kind ≠ .ident) : nameOf (some l) = [] := by
  obtain ⟨kind, text⟩ := l
  cases kind with
  | ident => exact absurd rfl h
  | _ => rfl

/-! ## Names -/

/-- The names that the lexemes assign, the last one first: those before a `=`, but not after a dot.
`last` is the lexeme before, trivia apart, and `afterDot` tells whether it comes after a dot. -/
def assigned (last : Option Lexeme) (afterDot : Bool) : List Lexeme → List Text
  | [] => []
  | l :: ls =>
    if l.isTrivia then assigned last afterDot ls
    else
      assigned (some l) (last.any fun dot => dot.text = ['.'] || dot.text = ['&', '.']) ls ++
        if l.isOperator ['='] && !afterDot then nameOf last else []

/-- The names that a source assigns. -/
def namesIn (source : Text) : List Text :=
  assigned none false (lexemesOf source)

lemma Context.localsAfter_eq (ctx : Context) (token : Lexeme) :
    ctx.localsAfter token =
      (if token.isOperator ['='] && !ctx.afterDot then nameOf ctx.last else []) ++ ctx.locals := by
  rw [localsAfter]
  cases ctx.last with
  | none => simp [nameOf]
  | some target =>
      by_cases hkind : target.kind = .ident
      · rw [nameOf_of_ident hkind]
        simp only [hkind, decide_true, Bool.and_true]
        split_ifs <;> rfl
      · rw [nameOf_of_ne hkind]
        simp [hkind]

/-- After a part, the names that it assigns are known and those known before it. -/
theorem Reads.locals_eq {rest text : Text} {ctx ctx' : Context} {ls : List Lexeme}
    (h : Reads rest ctx text ls ctx') :
    ctx'.locals = assigned ctx.last ctx.afterDot ls ++ ctx.locals := by
  induction h with
  | nil => rfl
  | @cons ctx ctx' c p text lexemes scan read size complete tail ih =>
      have hlocals : (ctx.after scan (c :: p)).locals = ctx.localsAfter ⟨scan.kind, c :: p⟩ := rfl
      rw [ih, hlocals, ctx.localsAfter_eq, assigned]
      by_cases htrivia : (⟨scan.kind, c :: p⟩ : Lexeme).isTrivia = true
      · have hoperator : (⟨scan.kind, c :: p⟩ : Lexeme).isOperator ['='] = false := by
          rw [Lexeme.isTrivia] at htrivia
          rw [Lexeme.isOperator]
          cases hkind : scan.kind <;> simp_all
        simp [Context.after, htrivia, hoperator]
      · simp [Context.after, htrivia]

/-! ## Commands -/

/-- Whether this is a literal that begins as an operator does: a regular expression, a percent
literal or the opener of a heredoc. -/
def Lexeme.beginsAsOperator (l : Lexeme) : Bool :=
  l.kind = .literal && l.text.head?.any "/%<".toList.contains

/-- The words that such a literal makes commands; `last` is the lexeme before, trivia apart. -/
def commands (last : Option Lexeme) : List Lexeme → List Text
  | [] => []
  | l :: ls =>
    if l.isTrivia then commands last ls
    else (if l.beginsAsOperator then nameOf last else []) ++ commands (some l) ls

/-- The words that a source uses as commands before such a literal. -/
def commandsIn (source : Text) : List Text :=
  commands none (lexemesOf source)

namespace Context

variable (ctx : Context) (names : List Text)

/-- The context where further names are known. -/
def withNames : Context :=
  { ctx with locals := ctx.locals ++ names }

/-- Further names only keep an argument from beginning, and only after a word
that is one of them. -/
lemma beginsArgument_withNames {next : Option Char}
    (h : (ctx.withNames names).beginsArgument next ≠ ctx.beginsArgument next) :
    (ctx.withNames names).admitsLiteral next = false ∧ ctx.admitsLiteral next = true ∧
      ∃ word, ctx.last = some word ∧ word.kind = .ident ∧ word.text ∈ names := by
  cases hlast : ctx.last with
  | none => simp [withNames, beginsArgument, hlast] at h
  | some word =>
      by_cases hkind : word.kind = .ident
      · have hnames : word.text ∈ names ∧ ctx.beginsArgument next = true := by
          simp only [withNames, beginsArgument, hlast, hkind, decide_true, Bool.true_and,
            List.contains_eq_mem, List.mem_append] at h ⊢
          by_cases hlocal : word.text ∈ ctx.locals <;> by_cases hname : word.text ∈ names <;>
            simp_all
        have hoperand : (ctx.withNames names).expectsOperand = false := by
          simp [withNames, expectsOperand, hlast, hkind]
        refine ⟨?_, by rw [admitsLiteral, hnames.2, Bool.or_true], word, rfl, hkind, hnames.1⟩
        rw [admitsLiteral, hoperand, Bool.false_or]
        simpa [hnames.2] using h
      · simp [withNames, beginsArgument, hlast, hkind] at h

/-- A slash, a percent sign and `<` are operators where no literal may begin, or where none does. -/
lemma scanSign_eq_scanOperator (line : Nat) {c : Char} {cs : Text}
    (hc : c = '/' ∨ c = '%' ∨ c = '<')
    (h : ctx.admitsLiteral cs.head? = false ∨ (ctx.scanSign line c cs).kind ≠ .literal) :
    ctx.scanSign line c cs = ctx.scanOperator line c cs := by
  have hpercent : ∀ s, ctx.scanPercent? line cs = some s →
      ctx.admitsLiteral cs.head? = true ∧ s.kind = .literal := by
    intro s hs
    refine ⟨?_, ctx.scanPercent?_cases (motive := fun s => s.kind = .literal) line hs
      (fun _ _ _ _ => rfl) fun _ _ _ _ => rfl⟩
    by_contra hadmits
    simp [scanPercent?, hadmits] at hs
    split at hs <;> simp at hs
  have hheredoc : ∀ s, ctx.scanHeredoc? line cs = some s →
      ctx.admitsLiteral cs.head? = true ∧ s.kind = .literal := by
    intro s hs
    refine ⟨?_, ctx.scanHeredoc?_cases (motive := fun s => s.kind = .literal) line hs
      fun _ _ _ _ _ => rfl⟩
    by_contra hadmits
    simp [scanHeredoc?, hadmits] at hs
  rcases hc with rfl | rfl | rfl
  · by_cases hadmits : ctx.admitsLiteral cs.head? = true
    · simp [scanSign, hadmits, scanFlagged, literal] at h
    · simp [scanSign, hadmits, bracketKind?]
  · cases hs : ctx.scanPercent? line cs with
    | none => simp [scanSign, hs]
    | some s => simp [scanSign, hs, hpercent s hs] at h
  · cases hs : ctx.scanHeredoc? line cs with
    | none => simp [scanSign, hs]
    | some s => simp [scanSign, hs, hheredoc s hs] at h

/-- Names matter to a token only if it is a literal after one of them. -/
theorem scan_withNames (line : Nat) (c : Char) (cs : Text)
    (h : ∀ text, (⟨(ctx.scan line c cs).kind, c :: text⟩ : Lexeme).beginsAsOperator = true →
      ∀ name ∈ nameOf ctx.last, name ∉ names) :
    (ctx.withNames names).scan line c cs = ctx.scan line c cs := by
  by_cases hask : c = '/' ∨ c = '%' ∨ (c = '<' ∧ cs.head? = some '<')
  · by_cases hargument : (ctx.withNames names).beginsArgument cs.head? = ctx.beginsArgument cs.head?
    · exact scan_congr line rfl rfl rfl rfl (fun _ => hargument) rfl rfl
    · obtain ⟨hadmits, -, word, hlast, hident, hname⟩ :=
        ctx.beginsArgument_withNames names hargument
      have hc : c = '/' ∨ c = '%' ∨ c = '<' := hask.imp_right fun hc => hc.imp_right And.left
      have hliteral : (ctx.scan line c cs).kind ≠ .literal := by
        intro hkind
        refine h [] ?_ word.text (by rw [hlast, nameOf_of_ident hident]; simp) hname
        rcases hc with rfl | rfl | rfl <;> simp [Lexeme.beginsAsOperator, hkind]
      have hsign : isSign c = true ∧ c ≠ '=' := by
        rcases hc with rfl | rfl | rfl <;> decide
      by_cases hplain : ctx.naming = true → findStart? operatorMethods (c :: cs) = none
      · have hscan : ∀ a : Context, a.naming = ctx.naming →
            a.scan line c cs = a.scanSign line c cs := by
          intro a hnaming
          rw [a.scan_eq_scanPlain line (by rwa [hnaming]),
            a.scanPlain_of_isSign line hsign.1 fun _ => hsign.2]
        rw [hscan ctx rfl] at hliteral
        rw [hscan ctx rfl, hscan (ctx.withNames names) rfl,
          (ctx.withNames names).scanSign_eq_scanOperator line hc (.inl hadmits),
          ctx.scanSign_eq_scanOperator line hc (.inr hliteral)]
        rfl
      · -- an operator that names a method is read as such whatever was assigned
        obtain ⟨hnaming, hfind⟩ := Classical.not_imp.1 hplain
        obtain ⟨name, hname⟩ := Option.ne_none_iff_exists'.1 hfind
        have hscan : ∀ a : Context, a.naming = true →
            a.scan line c cs = a.plain line .ident (name.length - 1) := by
          intro a ha
          rw [scan, ha, if_pos rfl, hname]
        rw [hscan ctx hnaming, hscan (ctx.withNames names) hnaming]
        rfl
  · exact scan_congr line rfl rfl rfl rfl (fun hc => absurd hc hask) rfl rfl

end Context

/-- Names that are no command of the text change no token of it. -/
theorem tokensFrom_withNames (ctx : Context) (names : List Text) (start line skip : Nat)
    (text : Text)
    (h : ∀ name ∈ commands ctx.last
      ((tokensFrom ctx start line skip text).tokens.map (·.toLexeme)), name ∉ names) :
    tokensFrom (ctx.withNames names) start line skip text =
      tokensFrom ctx start line skip text := by
  induction text generalizing ctx start line skip with
  | nil => cases skip <;> rfl
  | cons c cs ih =>
      cases skip with
      | succ skip => exact ih ctx start line skip h
      | zero =>
          rw [tokensFrom, List.map_cons, commands] at h
          set scan := ctx.scan line c cs with hscan
          set token := c :: cs.take scan.extent.size
          have htoken : (ctx.withNames names).scan line c cs = scan := by
            refine ctx.scan_withNames names line c cs fun text hbegins name hname => h name ?_
            have hkind : scan.kind = .literal := by
              simp only [Lexeme.beginsAsOperator, Bool.and_eq_true, decide_eq_true_eq] at hbegins
              exact hbegins.1
            have hbegins' : (⟨scan.kind, token⟩ : Lexeme).beginsAsOperator = true := hbegins
            rw [if_neg (by simp [Lexeme.isTrivia, hkind]), if_pos hbegins']
            exact List.mem_append_left _ hname
          have hlocals : (ctx.withNames names).localsAfter ⟨scan.kind, token⟩ =
              ctx.localsAfter ⟨scan.kind, token⟩ ++ names := by
            rw [Context.localsAfter_eq, Context.localsAfter_eq, List.append_assoc]
            rfl
          have hafter : (ctx.withNames names).after scan token =
              (ctx.after scan token).withNames names := by
            rw [Context.after, hlocals]
            rfl
          have hrest := ih (ctx.after scan token) (start + utf8Size token) scan.extent.line
            scan.extent.size fun name hname => h name ?_
          · rw [tokensFrom, tokensFrom, htoken, hafter, hrest]
          · by_cases htrivia : (⟨scan.kind, token⟩ : Lexeme).isTrivia = true
            · have hlast : (ctx.after scan token).last = ctx.last := by
                rw [Context.after, if_pos htrivia]
              rw [hlast] at hname
              rwa [if_pos htrivia]
            · have hlast : (ctx.after scan token).last = some ⟨scan.kind, token⟩ := by
                rw [Context.after, if_neg htrivia]
              rw [hlast] at hname
              rw [if_neg htrivia]
              exact List.mem_append_right _ hname

end ConverterAssembly.Ruby
