import ConverterAssembly.Proofs.Ruby.Passages

/-!
# Texts cut between tokens

Whatever has a token after it is complete, so a source can be cut after any token but the last
(`exists_reads_of_append`).

Where a text stands in its source shows only in the places of its tokens and in the lines of its
problems (`tokensFrom_place`).
-/

namespace ConverterAssembly.Ruby

open Text

/-! ## Texts without their place -/

/-- Where a text stands does not matter to its lexemes and its problem. -/
lemma tokensFrom_place (ctx : Context) (start line start' line' skip : Nat) (text : Text) :
    (tokensFrom ctx start line skip text).tokens.map (·.toLexeme) =
        (tokensFrom ctx start' line' skip text).tokens.map (·.toLexeme) ∧
      (tokensFrom ctx start line skip text).error.map (·.problem) =
        (tokensFrom ctx start' line' skip text).error.map (·.problem) := by
  induction text generalizing ctx start line start' line' skip with
  | nil => cases skip <;> simp [tokensFrom, Function.comp_def]
  | cons c cs ih =>
      cases skip with
      | succ skip => exact ih ctx start line start' line' skip
      | zero =>
          have hscan : ∀ line, ctx.scan line c cs = (ctx.scan 0 c cs).shift line := by
            intro line
            rw [← ctx.scan_shift, Nat.zero_add]
          rw [tokensFrom, tokensFrom, hscan line, hscan line']
          set scan := ctx.scan 0 c cs
          obtain ⟨hlexemes, hproblem⟩ := ih (ctx.after scan (c :: cs.take scan.extent.size))
            (start + utf8Size (c :: cs.take scan.extent.size)) (scan.shift line).extent.line
            (start' + utf8Size (c :: cs.take scan.extent.size)) (scan.shift line').extent.line
            scan.extent.size
          have hafter : ∀ k text, ctx.after (scan.shift k) text = ctx.after scan text :=
            fun _ _ => rfl
          have hsize : ∀ k, (scan.shift k).extent.size = scan.extent.size := fun _ => rfl
          have herror : ∀ k, (scan.shift k).extent.error.map (·.problem) =
              scan.extent.error.map (·.problem) := by
            intro k
            cases he : scan.extent.error <;> simp [Scan.shift, Extent.shift, he, SyntaxError.shift]
          constructor
          · simp only [hafter, hsize, List.map_cons, hlexemes]
            rfl
          · simp only [hafter, hsize, Option.map_or, herror, hproblem]

namespace Context

variable (ctx : Context)

/-- The lexemes of a text read from the context. -/
def lexemes (text : Text) : List Lexeme :=
  (tokensFrom ctx 0 0 0 text).tokens.map (·.toLexeme)

/-- What is wrong with a text read from the context. -/
def problem? (text : Text) : Option Problem :=
  (tokensFrom ctx 0 0 0 text).error.map (·.problem)

lemma lexemes_tokenize (source : Text) : lexemesOf source = ({} : Context).lexemes source :=
  (tokensFrom_place {} 0 1 0 0 0 source).1

lemma problem?_tokenize (source : Text) :
    (tokenize source).error.map (·.problem) = ({} : Context).problem? source :=
  (tokensFrom_place {} 0 1 0 0 0 source).2

lemma lexemes_nil : ctx.lexemes [] = [] := rfl

/-- At the end of the text only a heredoc can be missing. -/
lemma problem?_nil :
    ctx.problem? [] = ctx.heredocs.head?.map fun h => .unterminatedHeredoc h.terminator := by
  simp [problem?, tokensFrom, Function.comp_def]

lemma lexemes_cons (c : Char) (cs : Text) :
    ctx.lexemes (c :: cs) =
      ⟨(ctx.scan 0 c cs).kind, c :: cs.take (ctx.scan 0 c cs).extent.size⟩ ::
        (ctx.after (ctx.scan 0 c cs) (c :: cs.take (ctx.scan 0 c cs).extent.size)).lexemes
          (cs.drop (ctx.scan 0 c cs).extent.size) := by
  rw [lexemes, tokensFrom, List.map_cons, lexemes]
  congr 1
  rw [tokensFrom_drop]
  exact (tokensFrom_place _ _ _ 0 0 0 _).1

lemma problem?_cons (c : Char) (cs : Text) :
    ctx.problem? (c :: cs) =
      ((ctx.scan 0 c cs).extent.error.map (·.problem)).or
        ((ctx.after (ctx.scan 0 c cs) (c :: cs.take (ctx.scan 0 c cs).extent.size)).problem?
          (cs.drop (ctx.scan 0 c cs).extent.size)) := by
  rw [problem?, tokensFrom, Option.map_or, problem?]
  congr 1
  rw [tokensFrom_drop]
  exact (tokensFrom_place _ _ _ 0 0 0 _).2

/-- The lexemes cover the text. -/
lemma flatMap_lexemes (text : Text) : (ctx.lexemes text).flatMap (·.text) = text := by
  have h := sourceOf_tokensFrom ctx 0 0 0 text
  rw [sourceOf, List.drop_zero] at h
  rw [lexemes, List.flatMap_map]
  exact h

variable {ctx}

/-- A part is read first, and then the rest. -/
lemma lexemes_of_reads {rest text : Text} {ctx' : Context} {ls : List Lexeme}
    (h : Reads rest ctx text ls ctx') :
    ctx.lexemes (text ++ rest) = ls ++ ctx'.lexemes rest ∧
      ctx.problem? (text ++ rest) = ctx'.problem? rest := by
  obtain ⟨tokens, line, htokens, hrest, -⟩ := tokensFrom_append_of_reads h 0 0
  obtain ⟨hlexemes, hproblem⟩ := tokensFrom_place ctx' (0 + utf8Size text) line 0 0 0 rest
  constructor
  · rw [lexemes, hrest, List.map_append, htokens, hlexemes, lexemes]
  · rw [problem?, hrest, hproblem, problem?]

/-- Contexts that are alike give the same lexemes and the same problem, unless the text begins with
a directive. -/
lemma Alike.lexemes_eq {a b : Context} (h : a.Alike b) {text : Text}
    (hdir : a.atLineStart = b.atLineStart ∨ (isDirective "=begin".toList text = false ∧
      isDirective "__END__".toList text = false)) :
    a.lexemes text = b.lexemes text ∧ a.problem? text = b.problem? text := by
  cases text with
  | nil =>
      rw [problem?_nil, problem?_nil, h.heredocs_eq]
      exact ⟨rfl, rfl⟩
  | cons c cs =>
      have hscan : a.scan 0 c cs = b.scan 0 c cs := h.scan_eq 0 hdir
      have hafter := @Alike.after_scan a b 0 c cs h (c :: cs.take (b.scan 0 c cs).extent.size)
      rw [hscan] at hafter
      have hrest := tokensFrom_alike hafter rfl 0 0 0 (cs.drop (b.scan 0 c cs).extent.size)
      rw [lexemes_cons, lexemes_cons, problem?_cons, problem?_cons, hscan, lexemes, problem?, hrest]
      exact ⟨rfl, rfl⟩

end Context

/-! ## Cuts -/

/-- A text can be cut after blanks, and after any token that is not its last. -/
theorem exists_reads_of_append {ctx : Context} {text : Text} {la lb : List Lexeme}
    (h : ctx.lexemes text = la ++ lb) (hcut : (∀ l ∈ la, l.kind = .space) ∨ lb ≠ []) :
    ∃ x y ctx', text = x ++ y ∧ Reads y ctx x la ctx' ∧ ctx'.lexemes y = lb := by
  induction la generalizing ctx text with
  | nil => exact ⟨[], text, ctx, rfl, .nil ctx, h⟩
  | cons l la ih =>
      cases text with
      | nil => simp [Context.lexemes_nil] at h
      | cons c cs =>
          rw [Context.lexemes_cons, List.cons_append, List.cons.injEq] at h
          obtain ⟨rfl, htail⟩ := h
          set scan := ctx.scan 0 c cs with hscan
          have complete : scan.extent.error = none := by
            by_contra herror
            have hsize : scan.extent.size = cs.length := ctx.scan_size_of_error 0 c cs herror
            rw [hsize, List.drop_length, Context.lexemes_nil, eq_comm, List.append_eq_nil_iff]
              at htail
            rcases hcut with hspace | hne
            · exact herror (ctx.scan_error_of_space 0 (hspace _ List.mem_cons_self))
            · exact hne htail.2
          obtain ⟨x, y, ctx', hxy, hreads, hy⟩ := ih htail (hcut.imp_left fun hspace l hl =>
            hspace l (List.mem_cons_of_mem _ hl))
          refine ⟨c :: cs.take scan.extent.size ++ x, y, ctx', ?_, ?_, hy⟩
          · rw [List.append_assoc, ← hxy, List.cons_append, List.take_append_drop]
          · refine .cons ?_ ?_ complete hreads
            · rw [← hxy, List.take_append_drop]
            · rw [List.length_take, Nat.min_eq_left (ctx.scan_size_le 0 c cs)]

end ConverterAssembly.Ruby
