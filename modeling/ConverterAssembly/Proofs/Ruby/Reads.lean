import ConverterAssembly.Proofs.Ruby.Counting
import ConverterAssembly.Proofs.Ruby.Locality
import ConverterAssembly.Proofs.Ruby.Shift

/-!
# Reading a part of a text

`tokensFrom` reads to the end of the text.  To say how the parts of a text are read, `Reads rest ctx
text lexemes ctx'` follows it token by token through a part: from the context `ctx`, the part `text`
in front of `rest` is read as `lexemes`, each of them complete, and leaves the context `ctx'`.

**Parts.**  `Reads.append` and `Reads.split` put parts together and take them apart.

**Tokens.**  `tokensFrom_append_of_reads` and `exists_reads_of_tokensFrom` go from parts to
`tokensFrom` and back.

**What follows and what comes before.**  `Reads.before_feed` changes the text after the part,
`Reads.alike` and `Reads.with_locals` the context in front of it.
-/

namespace ConverterAssembly.Ruby

open Text

/-- From the context `ctx`, the text in front of `rest` is read as `lexemes`, without a problem, and
the context after them is the last argument. -/
inductive Reads (rest : Text) : Context → Text → List Lexeme → Context → Prop
  | nil (ctx : Context) : Reads rest ctx [] [] ctx
  | cons {ctx ctx' : Context} {c : Char} {p text : Text} {lexemes : List Lexeme} {scan : Scan}
      (read : ctx.scan 0 c (p ++ (text ++ rest)) = scan)
      (size : scan.extent.size = p.length)
      (complete : scan.extent.error = none)
      (tail : Reads rest (ctx.after scan (c :: p)) text lexemes ctx') :
      Reads rest ctx (c :: p ++ text) (⟨scan.kind, c :: p⟩ :: lexemes) ctx'

/-- Whether none of the characters is one that asks for the names assigned before. -/
def asksNoLocals : Text → Bool
  | [] => true
  | c :: cs =>
    c ≠ '/' && c ≠ '%' && !(c = '<' && cs.head?.all (· = '<')) && asksNoLocals cs

lemma asksNoLocals_append {a b : Text} (h : asksNoLocals (a ++ b) = true) :
    asksNoLocals b = true := by
  induction a with
  | nil => exact h
  | cons c a ih =>
      simp only [List.cons_append, asksNoLocals, Bool.and_eq_true] at h
      exact ih h.2

/-- A token that does not ask for the names assigned before is read without them. -/
lemma Context.scan_with_locals (ctx : Context) (line : Nat) {c : Char} {cs : Text}
    (h : asksNoLocals (c :: cs) = true) (locals : List Text) (rest : Text) :
    { ctx with locals := locals }.scan line c (cs ++ rest) = ctx.scan line c (cs ++ rest) := by
  refine Context.scan_congr line rfl rfl rfl rfl ?_ rfl rfl
  intro hc
  simp only [asksNoLocals, ne_eq, Bool.and_eq_true, decide_eq_true_eq, Bool.not_eq_true',
    Bool.and_eq_false_iff, decide_eq_false_iff_not] at h
  obtain ⟨⟨⟨hslash, hpercent⟩, hless⟩, -⟩ := h
  rcases hc with hc | hc | ⟨hc, hnext⟩
  · exact absurd hc hslash
  · exact absurd hc hpercent
  · exfalso
    rcases hless with hless | hless
    · exact hless hc
    · cases cs with
      | nil => simp at hless
      | cons d ds =>
          obtain rfl : d = '<' := by simpa using hnext
          simp at hless

namespace Reads

variable {rest a b text : Text} {ctx ctx₁ ctx₂ ctx' : Context} {ls la lb : List Lexeme}

/-- The line on which a token starts does not matter. -/
lemma cons_at {c : Char} {p : Text} {scan : Scan} (line : Nat)
    (read : ctx.scan line c (p ++ (text ++ rest)) = scan) (size : scan.extent.size = p.length)
    (complete : scan.extent.error = none)
    (tail : Reads rest (ctx.after scan (c :: p)) text ls ctx') :
    Reads rest ctx (c :: p ++ text) (⟨scan.kind, c :: p⟩ :: ls) ctx' := by
  have hshift := ctx.scan_shift line 0 c (p ++ (text ++ rest))
  rw [Nat.zero_add, read] at hshift
  subst hshift
  refine @Reads.cons _ _ _ _ _ _ _ (ctx.scan 0 c (p ++ (text ++ rest))) rfl size ?_ tail
  simpa [Scan.shift, Extent.shift] using complete

/-- Two parts one after the other are read one after the other. -/
lemma append (ha : Reads (b ++ rest) ctx a la ctx₁) (hb : Reads rest ctx₁ b lb ctx₂) :
    Reads rest ctx (a ++ b) (la ++ lb) ctx₂ := by
  induction ha with
  | nil => exact hb
  | @cons ctx ctx' c p text lexemes scan read size complete tail ih =>
      rw [List.append_assoc, List.cons_append]
      refine .cons (p := p) ?_ size complete (ih hb)
      rw [← read, List.append_assoc]

/-- A part can be cut after any of its tokens. -/
lemma split (h : Reads rest ctx text (la ++ lb) ctx₂) :
    ∃ a b ctx₁, text = a ++ b ∧ Reads (b ++ rest) ctx a la ctx₁ ∧ Reads rest ctx₁ b lb ctx₂ := by
  induction la generalizing ctx text with
  | nil => exact ⟨[], text, ctx, rfl, .nil ctx, h⟩
  | cons l la ih =>
      cases h with
      | @cons _ _ c p text _ scan read size complete tail =>
          obtain ⟨a, b, ctx₁, rfl, ha, hb⟩ := ih tail
          refine ⟨c :: p ++ a, b, ctx₁, by simp, ?_, hb⟩
          refine .cons (p := p) ?_ size complete ha
          rw [← read, List.append_assoc]

/-- The texts of the tokens are the part read. -/
lemma text_eq (h : Reads rest ctx text ls ctx') : text = ls.flatMap (·.text) := by
  induction h with
  | nil => rfl
  | cons _ _ _ _ ih => rw [ih, List.flatMap_cons]

/-- No token is empty, and a line feed token begins with its line feed. -/
lemma text_ne_nil (h : Reads rest ctx text ls ctx') :
    ∀ l ∈ ls, l.text ≠ [] ∧ (l.kind = .newline → '\n' ∈ l.text) := by
  induction h with
  | nil => simp
  | @cons ctx ctx' c p text lexemes scan read size complete tail ih =>
      refine List.forall_mem_cons.mpr ⟨⟨by simp, fun hkind => ?_⟩, ih⟩
      rw [← read] at hkind
      simp [ctx.of_scan_newline 0 hkind]

lemma eq_singleton {c : Char} (h : Reads rest ctx [c] ls ctx') : ∃ kind, ls = [⟨kind, [c]⟩] := by
  generalize ht : [c] = t at h
  cases h with
  | nil => simp at ht
  | @cons _ _ d p text lexemes scan read size complete tail =>
      obtain ⟨rfl, rfl, rfl⟩ : c = d ∧ p = [] ∧ text = [] := by simpa using ht
      cases tail
      exact ⟨_, rfl⟩

/-- What is read at the end of a text is read in the same way in front of a line feed, unless a
backslash would hide the line feed. -/
lemma before_feed (h : Reads [] ctx text ls ctx')
    (hdata : ∀ l ∈ ls, l.kind ≠ .data) (hfeeds : ∀ l ∈ ls, l.kind = .newline → EndsLine l.text)
    (hback : ∀ l ∈ ls.getLast?, l.text ≠ ['\\'] ∧ l.text ≠ ['?', '\\']) (r : Text) :
    Reads ('\n' :: r) ctx text ls ctx' := by
  induction h with
  | nil ctx => exact .nil ctx
  | @cons ctx ctx' c p text lexemes scan read size complete tail ih =>
      rw [List.append_nil] at read
      rw [List.forall_mem_cons] at hdata hfeeds
      have hback' : ∀ l ∈ lexemes.getLast?, l.text ≠ ['\\'] ∧ l.text ≠ ['?', '\\'] := by
        intro l hl
        refine hback l ?_
        rw [Option.mem_def] at hl
        rw [List.getLast?_cons, hl]
        rfl
      refine .cons ?_ size complete (ih hdata.2 hfeeds.2 hback')
      rw [← read, ← List.append_assoc]
      refine ctx.scan_append_stops 0 (stops_cons.mpr (by decide)) (fun _ _ => rfl) (.inr ?_)
      rw [read]
      refine ⟨rfl, complete, hdata.1, ?_, ?_⟩
      · intro hkind
        rw [size, List.take_left]
        exact endsLine_append (a := [c]) (hfeeds.1 hkind)
      · cases text with
        | nil =>
            cases tail
            simpa using hback
        | cons d text =>
            refine ⟨by simp, ?_⟩
            intro hq
            obtain ⟨rfl, rfl, rfl, rfl⟩ : c = '?' ∧ p = [] ∧ d = '\\' ∧ text = [] := by
              cases p <;> simp_all
            obtain ⟨kind, rfl⟩ := tail.eq_singleton
            exact (hback' _ rfl).1 rfl

/-- A part is read in the same way from contexts that are alike. -/
lemma alike (h : Reads rest ctx text ls ctx') {b : Context} (hb : ctx.Alike b)
    (hdir : ctx.atLineStart = b.atLineStart ∨
      (isDirective "=begin".toList (text ++ rest) = false ∧
        isDirective "__END__".toList (text ++ rest) = false)) :
    ∃ b', Reads rest b text ls b' ∧ ctx'.Alike b' ∧
      (text ≠ [] → ctx'.atLineStart = b'.atLineStart) := by
  induction h generalizing b with
  | nil ctx => exact ⟨b, .nil b, hb, fun h => absurd rfl h⟩
  | @cons ctx ctx' c p text lexemes scan read size complete tail ih =>
      have hscan : b.scan 0 c (p ++ (text ++ rest)) = scan := by
        rw [← read]
        refine (hb.scan_eq 0 ?_).symm
        simpa using hdir
      have hafter : (ctx.after scan (c :: p)).Alike (b.after scan (c :: p)) := by
        rw [← read]
        exact hb.after_scan 0 (c :: p)
      obtain ⟨b', hreads, hb', hstart⟩ := ih hafter (.inl rfl)
      refine ⟨b', .cons hscan size complete hreads, hb', fun _ => ?_⟩
      by_cases hnil : text = []
      · subst hnil
        cases tail
        cases hreads
        rfl
      · exact hstart hnil

/-- The names assigned before matter only to a slash, a percent sign and `<<`. -/
lemma with_locals (h : Reads rest ctx text ls ctx') (hasks : asksNoLocals text = true)
    (locals : List Text) :
    ∃ locals', Reads rest { ctx with locals := locals } text ls
      { ctx' with locals := locals' } := by
  induction h generalizing locals with
  | nil ctx => exact ⟨locals, .nil _⟩
  | @cons ctx ctx' c p text lexemes scan read size complete tail ih =>
      rw [List.cons_append] at hasks
      have hscan : { ctx with locals := locals }.scan 0 c (p ++ (text ++ rest)) = scan := by
        rw [← read, ← List.append_assoc]
        exact ctx.scan_with_locals 0 hasks locals rest
      have hrest : asksNoLocals text = true := by
        simp only [asksNoLocals, Bool.and_eq_true] at hasks
        exact asksNoLocals_append hasks.2
      obtain ⟨locals', hreads⟩ :=
        ih hrest ({ ctx with locals := locals }.localsAfter ⟨scan.kind, c :: p⟩)
      exact ⟨locals', .cons hscan size complete hreads⟩

end Reads

/-- The tokens to the end of a text are the same from contexts that are alike. -/
theorem tokensFrom_alike {a b : Context} (h : a.Alike b) (hstart : a.atLineStart = b.atLineStart)
    (start line skip : Nat) (text : Text) :
    tokensFrom a start line skip text = tokensFrom b start line skip text := by
  induction text generalizing a b start line skip with
  | nil => cases skip <;> simp only [tokensFrom, h.heredocs_eq]
  | cons c cs ih =>
      cases skip with
      | zero =>
          have hscan : a.scan line c cs = b.scan line c cs := h.scan_eq line (.inl hstart)
          rw [tokensFrom, tokensFrom, ← hscan]
          simp only [ih (h.after_scan line _) rfl]
      | succ skip => exact ih h hstart start line skip

/-- The tokens of a text that does not ask for the names assigned before. -/
theorem tokensFrom_with_locals {text : Text} (h : asksNoLocals text = true) (ctx : Context)
    (locals : List Text) (start line skip : Nat) :
    tokensFrom { ctx with locals := locals } start line skip text =
      tokensFrom ctx start line skip text := by
  induction text generalizing ctx locals start line skip with
  | nil => cases skip <;> rfl
  | cons c cs ih =>
      have htail : asksNoLocals cs = true := asksNoLocals_append (a := [c]) h
      cases skip with
      | succ skip => exact ih htail ctx locals start line skip
      | zero =>
          have hscan := ctx.scan_with_locals line h locals []
          rw [List.append_nil] at hscan
          rw [tokensFrom, tokensFrom, hscan]
          set scan := ctx.scan line c cs
          set token := c :: cs.take scan.extent.size
          have hrest := ih htail (ctx.after scan token)
            ({ ctx with locals := locals }.localsAfter ⟨scan.kind, token⟩) (start + utf8Size token)
            scan.extent.line scan.extent.size
          exact congrArg (fun rest : Tokenized =>
            (⟨⟨⟨scan.kind, token⟩, start, line⟩ :: rest.tokens,
              scan.extent.error.or rest.error⟩ : Tokenized)) hrest

/-- Lexemes with the lines on which they start, where all line feeds are counted. -/
def placed (line : Nat) : List Lexeme → List (Lexeme × Nat)
  | [] => []
  | l :: ls => (l, line) :: placed (line + l.text.count '\n') ls

/-- A lexeme without a line feed, or one that is nothing else. -/
def Lexeme.isFlat (l : Lexeme) : Bool :=
  '\n' ∉ l.text || l.text = ['\n']

lemma Lexeme.not_hidesFeed_of_isFlat {l : Lexeme} (h : l.isFlat = true) : ¬ l.HidesFeed := by
  simp only [isFlat, Bool.or_eq_true, decide_eq_true_eq] at h
  rcases h with hno | hfeed
  · exact not_hidesFeed hno
  · rintro ⟨-, habsurd⟩
    rw [hfeed] at habsurd
    exact absurd habsurd (by decide)

/-- Where a line feed stands alone, no heredoc waits for its body. -/
lemma Context.heredocs_of_scan_feed {ctx : Context} {line : Nat} {cs : Text}
    (hsize : (ctx.scan line '\n' cs).extent.size = 0)
    (herror : (ctx.scan line '\n' cs).extent.error = none) : ctx.heredocs = [] := by
  rw [scan_feed, scanNewline] at *
  cases hh : ctx.heredocs with
  | nil => rfl
  | cons h hs =>
      rw [hh] at hsize herror
      exfalso
      by_cases hcs : cs = []
      · simp [hcs, lines, readBodies] at herror
      · obtain ⟨l, ls, hl, hne⟩ := lines_ne_nil hcs
        simp only [hl, readBodies, List.isEmpty_cons, Bool.false_eq_true, if_false] at hsize
        split_ifs at hsize <;> simp at hsize <;> exact hne hsize.1

/-- The tokens of a text that begins with a part: those of the part, and then those of the rest.
Where no token of the part runs over lines, the lines are counted by the line feeds. -/
theorem tokensFrom_append_of_reads {rest text : Text} {ctx ctx' : Context} {ls : List Lexeme}
    (h : Reads rest ctx text ls ctx') (start line : Nat) :
    ∃ (tokens : List Token) (line' : Nat), tokens.map (·.toLexeme) = ls ∧
      tokensFrom ctx start line 0 (text ++ rest) =
        ⟨tokens ++ (tokensFrom ctx' (start + utf8Size text) line' 0 rest).tokens,
          (tokensFrom ctx' (start + utf8Size text) line' 0 rest).error⟩ ∧
      ((∀ l ∈ ls, l.isFlat = true) →
        tokens.map (fun t => (t.toLexeme, t.line)) = placed line ls ∧
          line' = line + text.count '\n') := by
  induction h generalizing start line with
  | nil ctx => exact ⟨[], line, rfl, by simp, fun _ => ⟨rfl, rfl⟩⟩
  | @cons ctx ctx' c p text lexemes scan read size complete tail ih =>
      have hscan : ctx.scan line c (p ++ (text ++ rest)) = scan.shift line := by
        rw [← read, ← ctx.scan_shift, Nat.zero_add]
      obtain ⟨tokens, line', htokens, hrest, hflat⟩ :=
        ih (start + utf8Size (c :: p)) (scan.shift line).extent.line
      have hafter : ctx.after (scan.shift line) (c :: p) = ctx.after scan (c :: p) := rfl
      have hsize : (scan.shift line).extent.size = p.length := size
      have herror : (scan.shift line).extent.error = none := by
        simp [Scan.shift, Extent.shift, complete]
      refine ⟨⟨⟨scan.kind, c :: p⟩, start, line⟩ :: tokens, line', by simp [htokens], ?_, ?_⟩
      · have htext : c :: p ++ text ++ rest = c :: (p ++ (text ++ rest)) := by simp
        rw [htext, tokensFrom]
        simp only [hscan, hsize, List.take_left, tokensFrom_drop _ _ _ p.length, List.drop_left,
          hafter, hrest, herror, Option.none_or, utf8Size_append, Nat.add_assoc]
        rfl
      · intro hall
        rw [List.forall_mem_cons] at hall
        have hline : (scan.shift line).extent.line = line + (c :: p).count '\n' := by
          have hcounts := (ctx.scan_line line c (p ++ (text ++ rest))).2
          rw [hscan, hsize, List.take_left] at hcounts
          exact hcounts (Lexeme.not_hidesFeed_of_isFlat hall.1)
        obtain ⟨hplaced, hline'⟩ := hflat hall.2
        rw [hline] at hplaced hline'
        refine ⟨by simp [placed, hplaced], ?_⟩
        rw [hline', List.count_append, Nat.add_assoc]

/-- A text without a problem is read whole, and no heredoc is left open. -/
theorem exists_reads_of_tokensFrom {text : Text} {ctx : Context} {start line : Nat}
    (h : (tokensFrom ctx start line 0 text).error = none) :
    ∃ ctx', Reads [] ctx text ((tokensFrom ctx start line 0 text).tokens.map (·.toLexeme)) ctx' ∧
      ctx'.heredocs = [] := by
  induction hn : text.length using Nat.strong_induction_on generalizing text ctx start line with
  | _ n ih =>
      cases text with
      | nil =>
          refine ⟨ctx, .nil ctx, ?_⟩
          simpa [tokensFrom] using h
      | cons c cs =>
          rw [tokensFrom, tokensFrom_drop] at h ⊢
          set scan := ctx.scan line c cs with hscan
          have hsize : scan.extent.size ≤ cs.length := ctx.scan_size_le line c cs
          simp only [Option.or_eq_none_iff] at h
          obtain ⟨ctx', hreads, hheredocs⟩ :=
            ih (cs.drop scan.extent.size).length (by simp [← hn]) h.2 rfl
          refine ⟨ctx', ?_, hheredocs⟩
          have hreads' := hreads.cons_at (c := c) (p := cs.take scan.extent.size) line
            (by simp [hscan]) (by rw [List.length_take, Nat.min_eq_left hsize]) h.1
          rwa [List.cons_append, List.take_append_drop] at hreads'

end ConverterAssembly.Ruby
