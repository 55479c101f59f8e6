import ConverterAssembly.Proofs.Converter.Parts
import ConverterAssembly.Proofs.Ruby.Cuts
import Mathlib.Tactic.TFAE

/-!
# How a registration is read

A converter registers by the command `register_for` with the backends as its arguments.  Every
backend is meant to be one literal token of the statement.

**Operators.**  A name or a symbol is read in the same way everywhere (`stands_id`), but for the
symbol of an operator: after a comma its colon begins a literal, and after the command, where no
operand is expected, it is an operator of its own (`Context.scan_operatorSymbol`).

**Statements.**  So a registration is read as intended exactly if it does not begin with the symbol
of an operator (`registration_tfae`), whatever its backends are and wherever a line begins.
-/

namespace ConverterAssembly

open Ruby

/-! ## Operators -/

/-- What follows an argument of a registration. -/
def endsArgument (rest : Text) : Prop :=
  ∀ c ∈ rest.head?, c = ',' ∨ c = '\n'

lemma endsSymbol_of_endsArgument {rest : Text} (h : endsArgument rest) :
    endsSymbol rest = true := by
  cases rest with
  | nil => rfl
  | cons c rest => rcases h c rfl with rfl | rfl <;> rfl

namespace Ruby

lemma Context.scan_colon (ctx : Context) (line : Nat) (cs : Text) :
    ctx.scan line ':' cs = ctx.scanColon line cs := by
  rw [ctx.scan_eq_scanPlain line fun _ => findStart?_operatorMethods_head (by decide) _,
    ctx.scanPlain_of_isSign line (by decide) fun _ => by decide]
  simp [Context.scanSign]

/-- The symbol of an operator is one token only where an operand is expected. -/
lemma Context.scan_operatorSymbol (ctx : Context) {name rest : Text}
    (hname : name ∈ operatorMethods) (hrest : endsArgument rest) :
    ctx.scan 0 ':' (name ++ rest) =
      if ctx.expectsOperand then ctx.plain 0 .literal name.length else ctx.plain 0 .operator 0 := by
  have hfind : Text.findStart? operatorMethods (name ++ rest) = some name := by
    have hnone : ∀ op ∈ operatorMethods, ',' ∉ op ∧ '\n' ∉ op := by decide
    have hself : ∀ op ∈ operatorMethods, Text.findStart? operatorMethods op = some op := by decide
    rw [findStart?_append_of_notMem _ name, hself name hname]
    intro op hop c hc
    rcases hrest c hc with rfl | rfl
    · exact (hnone op hop).1
    · exact (hnone op hop).2
  have hhead : ∀ op ∈ operatorMethods, op.head?.any (fun d => d ≠ ':' && d ≠ '"' && d ≠ '\x27' &&
      !isNameStart d && d ≠ '@' && d ≠ '$') = true := by decide
  have hhead := hhead name hname
  rw [ctx.scan_colon]
  cases name with
  | nil => simp at hhead
  | cons d ds =>
      simp only [List.head?_cons, Option.any_some, Bool.and_eq_true, decide_eq_true_eq, ne_eq,
        Bool.not_eq_true'] at hhead
      obtain ⟨⟨⟨⟨⟨hcolon, hdouble⟩, hsingle⟩, hname⟩, hat⟩, hdollar⟩ := hhead
      rw [List.cons_append] at hfind ⊢
      simp [scanColon, hcolon, hdouble, hsingle, hname, hat, hdollar, hfind]

/-- The last token that is not trivia is that of the part, if it has one. -/
lemma Reads.last_eq {rest text : Text} {ctx ctx' : Context} {ls : List Lexeme}
    (h : Reads rest ctx text ls ctx') :
    ctx'.last = (ls.filter (!·.isTrivia)).getLast?.or ctx.last := by
  induction h with
  | nil => simp
  | @cons ctx ctx' c p text lexemes scan read size complete tail ih =>
      rw [ih]
      by_cases htrivia : (⟨scan.kind, c :: p⟩ : Lexeme).isTrivia = true
      · simp [Context.after, htrivia]
      · cases hlast : (lexemes.filter (!·.isTrivia)).getLast? <;>
          simp [Context.after, htrivia, List.getLast?_cons, hlast]

end Ruby

/-! ## Arguments -/

/-- The backends that are not the same everywhere are the symbols of operators. -/
lemma exists_operator_of_not_isWritable {id : BackendId} (h : ¬id.isWritable = true) :
    ∃ name ∈ operatorMethods, id = .symbol name := by
  cases id with
  | name value => simp [BackendId.isWritable] at h
  | symbol value => exact ⟨value, by simpa [BackendId.isWritable] using h, rfl⟩

/-- The symbol of an operator is written without quotes. -/
lemma literal_operatorSymbol {name : Text} (hname : name ∈ operatorMethods) :
    BackendId.literal (.symbol name) = ':' :: name := by
  have hplain : ∀ op ∈ operatorMethods, isPlainSymbol op = true := by decide
  rw [BackendId.literal, symbolLiteral, if_pos (hplain name hname)]

/-- After an operator or a comma every backend is one token, and so is every other backend than the
symbol of an operator. -/
lemma exists_reads_id {id : BackendId} {ctx : Context} (hnaming : ctx.naming = false)
    (hheredocs : ctx.heredocs = []) (hplain : id.isWritable = true ∨ ctx.expectsOperand = true)
    (rest : Text) (hrest : endsArgument rest) :
    ∃ ctx', Reads rest ctx id.literal [idLexeme id] ctx' ∧ ctx'.naming = false ∧
      ctx'.heredocs = [] := by
  by_cases hid : id.isWritable = true
  · have hhead : id.literal.head? ≠ some '=' ∧ id.literal.head? ≠ some '_' := by
      cases id <;> simp [BackendId.literal, stringLiteral, symbolLiteral]
    obtain ⟨ctx', hreads, hnaming', hheredocs', -⟩ :=
      stands_id hid (endsSymbol_of_endsArgument hrest) ctx hnaming hheredocs fun _ => hhead
    exact ⟨ctx', hreads, hnaming', hheredocs'⟩
  · obtain ⟨name, hname, rfl⟩ := exists_operator_of_not_isWritable hid
    have hscan := ctx.scan_operatorSymbol hname hrest
    rw [if_pos (hplain.resolve_left hid)] at hscan
    have hreads : Reads rest ctx (':' :: name ++ []) _ _ :=
      .cons (by simpa using hscan) rfl rfl (.nil _)
    rw [List.append_nil, ← literal_operatorSymbol hname] at hreads
    exact ⟨_, hreads, by simp [Context.after, Context.plain, hnaming], hheredocs⟩

/-- A list of backends is read as its literals, if the first of them is one token. -/
lemma exists_reads_ids {ids : List BackendId} {ctx : Context} (hnaming : ctx.naming = false)
    (hheredocs : ctx.heredocs = [])
    (hplain : (∀ id ∈ ids.head?, id.isWritable = true) ∨ ctx.expectsOperand = true) (rest : Text) :
    ∃ ctx', Reads ('\n' :: rest) ctx ((separated (ids.map idLexeme)).flatMap (·.text))
      (separated (ids.map idLexeme)) ctx' ∧ ctx'.heredocs = [] := by
  induction ids generalizing ctx with
  | nil => exact ⟨ctx, .nil ctx, hheredocs⟩
  | cons id ids ih =>
      have hid : id.isWritable = true ∨ ctx.expectsOperand = true := hplain.imp_left (· id rfl)
      cases ids with
      | nil =>
          obtain ⟨ctx', hreads, -, hheredocs'⟩ :=
            exists_reads_id hnaming hheredocs hid ('\n' :: rest) (by simp [endsArgument])
          exact ⟨ctx', by simpa [separated, idLexeme] using hreads, hheredocs'⟩
      | cons id' ids =>
          set later := (separated ((id' :: ids).map idLexeme)).flatMap (·.text) ++ '\n' :: rest
            with hlater
          obtain ⟨ctx₁, hreads₁, hnaming₁, hheredocs₁⟩ := exists_reads_id hnaming hheredocs hid
            (',' :: ' ' :: later) (by simp [endsArgument])
          have hcomma : Standing later false [⟨.comma, [',']⟩, oneSpace] false :=
            .cons (stands_bracket rfl _) (.cons (stands_oneSpace (head?_separated id' ids _))
              (.nil _))
          obtain ⟨ctx₂, hreads₂, hnaming₂, hheredocs₂⟩ :=
            hcomma.reads hnaming₁ hheredocs₁ fun _ => by simp
          -- an operand is expected after the comma, so operators are as good as any other symbol
          have hoperand : ctx₂.expectsOperand = true := by
            rw [Context.expectsOperand, hreads₂.last_eq]
            rfl
          obtain ⟨ctx₃, hreads₃, hheredocs₃⟩ := ih hnaming₂ hheredocs₂ (.inr hoperand)
          exact ⟨ctx₃, hreads₁.append (hreads₂.append hreads₃), hheredocs₃⟩

/-! ## Statements -/

/-- The statement that registers for the backends, as it stands in the class. -/
def registrationLine (ids : List BackendId) : Text :=
  lineOf ["  register_for ".toList, Text.join ", ".toList (ids.map BackendId.literal)]

/-- The tokens that the statement is meant to have: the command, and one literal for each backend,
with a comma and a space between neighbours. -/
def argumentLexemes (ids : List BackendId) : List Lexeme :=
  [indentation 2, ⟨.ident, "register_for".toList⟩, oneSpace] ++ separated (ids.map idLexeme) ++
    [lineFeed]

lemma registrationLine_eq (ids : List BackendId) : registrationLine ids =
    "  register_for ".toList ++ (Text.join ", ".toList (ids.map BackendId.literal) ++ ['\n']) := by
  rw [registrationLine, lineOf]
  generalize "  register_for ".toList = command
  simp

/-- The initializer begins with the registration. -/
lemma exists_initializerPart_eq {config : ConverterConfig} (hne : config.registerFor ≠ []) :
    ∃ rest, initializerPart config = registrationLine config.registerFor ++ rest := by
  have hcommand : "  register_for ".toList = List.replicate 2 ' ' ++ "register_for ".toList := by
    decide
  have hfeed : '\n' ∉ "register_for ".toList ++
      Text.join ", ".toList (config.registerFor.map BackendId.literal) := by
    rw [List.mem_append, not_or]
    exact ⟨by decide, feed_not_mem_ids⟩
  have hempty : config.registerFor.isEmpty = false := by simpa using hne
  rw [initializerPart, registration?, hempty, registrationLine_eq, hcommand]
  have hstart : "register_for ".toList ≠ [] := by decide
  generalize "register_for ".toList = command at hfeed hstart ⊢
  generalize Text.join ", ".toList (config.registerFor.map BackendId.literal) = joined at hfeed ⊢
  have hline : ∀ more, lineOf [command, joined] ++ (['\n'] ++ more) =
      (command ++ joined) ++ '\n' :: ('\n' :: more) := by
    simp [lineOf]
  simp only [Bool.false_eq_true, if_false, Option.toList_some, List.cons_append, List.nil_append]
  rw [Text.join_cons _ _ (List.cons_ne_nil _ _), List.append_assoc, hline, Text.indent_append_feed,
    Text.indent_line hfeed (by simp [hstart]) 2]
  simp only [List.append_assoc]
  exact ⟨_, rfl⟩

/-- The command is read in front of anything that is not a blank. -/
lemma exists_reads_command {ctx : Context} (hctx : ctx.StartsLine) (rest : Text)
    (hrest : rest.head?.any isGap = false) :
    ∃ ctx', Reads rest ctx "  register_for ".toList
      [indentation 2, ⟨.ident, "register_for".toList⟩, oneSpace] ctx' ∧ ctx'.naming = false ∧
      ctx'.heredocs = [] ∧ ctx'.expectsOperand = false := by
  have hstanding :
      Standing rest false [indentation 2, plainWord "register_for".toList, oneSpace] false :=
    .cons (stands_indentation (by decide) rfl)
      (.cons (stands_plainWord (by decide) (by decide) rfl)
        (.cons (stands_oneSpace hrest) (.nil _)))
  obtain ⟨ctx', hreads, hnaming, hheredocs⟩ :=
    hstanding.reads hctx.naming hctx.heredocs fun _ => by decide
  refine ⟨ctx', hreads, hnaming, hheredocs, ?_⟩
  rw [Context.expectsOperand, hreads.last_eq]
  rfl

lemma head?_ids {ids : List BackendId} (hne : ids ≠ []) (rest : Text) :
    (Text.join ", ".toList (ids.map BackendId.literal) ++ rest).head?.any isGap = false := by
  obtain ⟨id, ids, rfl⟩ := List.exists_cons_of_ne_nil hne
  have := head?_separated id ids rest
  rwa [text_separated, List.map_map] at this

/-- A registration that does not begin with the symbol of an operator is read as intended wherever a
line begins. -/
theorem passage_registrationLine {ids : List BackendId} (hne : ids ≠ [])
    (h : ∀ id ∈ ids.head?, id.isWritable = true) :
    Passage (registrationLine ids) (argumentLexemes ids) := by
  intro rest ctx hctx
  obtain ⟨ctx₁, hreads₁, hnaming₁, hheredocs₁, -⟩ :=
    exists_reads_command hctx _ (head?_ids hne ('\n' :: rest))
  obtain ⟨ctx₂, hreads₂, hheredocs₂⟩ := exists_reads_ids hnaming₁ hheredocs₁ (.inl h) rest
  rw [text_separated, List.map_map] at hreads₂
  obtain ⟨ctx₃, hreads₃, hstarts, -⟩ := reads_feed hheredocs₂ rest
  rw [registrationLine_eq, ← List.append_assoc]
  exact ⟨ctx₃, (hreads₁.append hreads₂).append hreads₃, hstarts⟩

/-- After the command the colon of an operator's symbol is a token of its own. -/
theorem lexemesOf_registrationLine_ne {name : Text} (hname : name ∈ operatorMethods)
    (ids : List BackendId) :
    lexemesOf (registrationLine (.symbol name :: ids)) ≠ argumentLexemes (.symbol name :: ids) := by
  obtain ⟨more, hline, hmore⟩ : ∃ more, registrationLine (.symbol name :: ids) =
      "  register_for ".toList ++ ':' :: (name ++ more) ∧ endsArgument more := by
    rw [registrationLine_eq, List.map_cons, literal_operatorSymbol hname]
    generalize "  register_for ".toList = command
    cases ids with
    | nil => exact ⟨['\n'], by simp [Text.join], by simp [endsArgument]⟩
    | cons id ids =>
        rw [Text.join_cons _ _ (by simp)]
        generalize Text.join ", ".toList ((id :: ids).map BackendId.literal) = joined
        exact ⟨", ".toList ++ joined ++ ['\n'], by simp, by simp [endsArgument]⟩
  obtain ⟨ctx, hreads, -, -, hoperand⟩ :=
    exists_reads_command (startsLine_initial []) (':' :: (name ++ more)) rfl
  have hscan := ctx.scan_operatorSymbol hname hmore
  rw [hoperand, if_neg (by decide)] at hscan
  rw [hline, Context.lexemes_tokenize, (Context.lexemes_of_reads hreads).1, Context.lexemes_cons,
    hscan, argumentLexemes, List.append_assoc]
  intro heq
  have hkinds := congrArg (fun ls => ls.head?.map (·.kind)) (List.append_cancel_left heq)
  cases ids <;> cases hkinds

/-- A registration is read as the command and one literal for each backend exactly if it does not
begin with the symbol of an operator: alone, and wherever a line begins. -/
theorem registration_tfae (config : ConverterConfig) (hne : config.registerFor ≠ []) :
    ∃ rest, initializerPart config = registrationLine config.registerFor ++ rest ∧
      List.TFAE [
        ∀ id ∈ config.registerFor.head?, id.isWritable = true,
        Passage (registrationLine config.registerFor) (argumentLexemes config.registerFor),
        (tokenize (registrationLine config.registerFor)).error = none ∧
          lexemesOf (registrationLine config.registerFor) =
            argumentLexemes config.registerFor] := by
  obtain ⟨rest, hrest⟩ := exists_initializerPart_eq hne
  refine ⟨rest, hrest, ?_⟩
  tfae_have 1 → 2 := passage_registrationLine hne
  tfae_have 2 → 3 := fun hpassage => hpassage.tokenize
  tfae_have 3 → 1 := by
    rintro ⟨-, hlexemes⟩
    obtain ⟨id, ids, hids⟩ := List.exists_cons_of_ne_nil hne
    rw [hids] at hlexemes ⊢
    rintro _ ⟨rfl⟩
    by_contra hoperator
    obtain ⟨name, hname, rfl⟩ := exists_operator_of_not_isWritable hoperator
    exact lexemesOf_registrationLine_ne hname ids hlexemes
  tfae_finish

/-- Operators after the first place, a name with a quote, and a symbol that needs quotes. -/
theorem registration_tfae_mixed :
    let config : ConverterConfig :=
      { className := "C".toList
        registerFor := [.name "a\"b".toList, .symbol "[]".toList, .symbol "/".toList,
          .symbol "x-y".toList] }
    config.registerFor ≠ [] ∧ ∃ rest, initializerPart config =
      "  register_for \"a\\\"b\", :[], :/, :\"x-y\"\n".toList ++ rest ∧
      lexemesOf (registrationLine config.registerFor) = argumentLexemes config.registerFor := by
  intro config
  have hne : config.registerFor ≠ [] := by decide
  obtain ⟨rest, hrest, htfae⟩ := registration_tfae config hne
  have hlexemes := (htfae.out 0 2).1 (by decide)
  exact ⟨hne, rest, hrest, hlexemes.2⟩

/-- The symbol of division in the first place is read as two operators and a regular expression that
does not end. -/
theorem registration_divides :
    let ids := [BackendId.symbol "/".toList]
    registrationLine ids = "  register_for :/\n".toList ∧
      (tokenize (registrationLine ids)).error ≠ none ∧
      lexemesOf (registrationLine ids) ≠ argumentLexemes ids := by
  decide

end ConverterAssembly
