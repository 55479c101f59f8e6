import ConverterAssembly.Proofs.Ruby.Balance

/-!
# Line numbers

An error of the nesting check names the line of the token that does not fit.  Here is where that
token stands in the source, and when its line is the physical one.

**Closers.**  The problem that is reported spells the token as the source does: a closer is the one
character that closes its bracket (`Context.scan_closer`), and a keyword is itself
(`spelling?_roleOf`).

**Errors.**  `exists_of_checkFrom_eq_error` cuts the tokens at the one that does not fit.  With the
line counts of all tokens this gives `tokenize_numbers`.
-/

namespace ConverterAssembly.Ruby

open Text

/-! ## Closers -/

/-- The kinds of words and operators, which have no part in brackets. -/
def Kind.isWord : Kind → Bool
  | .keyword | .ident | .literal | .operator => true
  | _ => false

lemma isWord_variableSize (sigil : Char) (text : Text) :
    (variableSize sigil text).1.isWord = true := by
  rcases variableSize_kind sigil text with h | h <;> rw [h] <;> rfl

/-- If a token is a closer, it is the one character that closes its bracket. -/
def CloserFits (c : Char) (s : Scan) : Prop :=
  ∀ bracket, s.kind = .closer bracket → c = bracket.closer ∧ s.extent.size = 0

namespace Context

lemma eq_closer_of_bracketKind? {c : Char} {bracket : Bracket}
    (h : bracketKind? c = some (.closer bracket)) : c = bracket.closer := by
  unfold bracketKind? at h
  split_ifs at h with _ _ _ hc hc hc
  all_goals first | (obtain rfl : _ = bracket := by simpa using h); exact hc | simp at h

variable (ctx : Context) (line : Nat)

lemma isWord_scanOperator (c : Char) (cs : Text) :
    (ctx.scanOperator line c cs).kind.isWord = true := by
  rw [scanOperator]
  split <;> rfl

lemma isWord_scanWord (c : Char) (cs : Text) : (ctx.scanWord line c cs).kind.isWord = true := by
  simp only [scanWord]
  split_ifs <;> rfl

lemma isWord_scanColon (cs : Text) : (ctx.scanColon line cs).kind.isWord = true := by
  cases cs with
  | nil => rfl
  | cons d ds =>
      simp only [scanColon]
      split_ifs <;> first | rfl | (split <;> rfl)

lemma isWord_scanQuestion (cs : Text) : (ctx.scanQuestion line cs).kind.isWord = true := by
  simp only [scanQuestion]
  cases cs <;> dsimp only <;> split_ifs <;> rfl

lemma isWord_scanPercent? {cs : Text} : ∀ s ∈ ctx.scanPercent? line cs, s.kind.isWord = true := by
  intro s hs
  refine ctx.scanPercent?_cases line (motive := fun s => s.kind.isWord = true) hs ?_ ?_ <;>
    exact fun _ _ _ _ => rfl

lemma isWord_scanHeredoc? {cs : Text} : ∀ s ∈ ctx.scanHeredoc? line cs, s.kind.isWord = true := by
  intro s hs
  exact ctx.scanHeredoc?_cases line (motive := fun s => s.kind.isWord = true) hs
    fun _ _ _ _ _ => rfl

/-- A closer is the one character that closes its bracket. -/
theorem scan_closer (c : Char) (cs : Text) : CloserFits c (ctx.scan line c cs) := by
  -- all other rules give words, blanks or literals
  have hword : ∀ {s : Scan}, s.kind.isWord = true → CloserFits c s := by
    intro s hs bracket hkind
    rw [hkind] at hs
    cases hs
  have hlayout : ∀ {s : Scan}, s.kind.isLayout = true → CloserFits c s := by
    intro s hs bracket hkind
    rw [hkind] at hs
    cases hs
  have hgetD : ∀ {s? : Option Scan}, (∀ s ∈ s?, s.kind.isWord = true) →
      CloserFits c (s?.getD (ctx.scanOperator line c cs)) := by
    intro s? hs
    cases s? with
    | none => exact hword (ctx.isWord_scanOperator line c cs)
    | some s => exact hword (hs s rfl)
  have hnewline : (ctx.scanNewline line cs).kind = .newline := by
    rw [scanNewline]
    split_ifs <;> rfl
  rw [scan]
  split
  · exact hword rfl
  refine iteInduction (fun _ => hlayout (by rw [hnewline]; rfl)) fun _ => ?_
  refine iteInduction (fun _ => hlayout rfl) fun _ => ?_
  refine iteInduction (fun _ => hlayout rfl) fun _ => ?_
  refine iteInduction (fun _ => hlayout rfl) fun _ => ?_
  refine iteInduction (fun _ => hlayout rfl) fun _ => ?_
  refine iteInduction (fun _ => hlayout rfl) fun _ => ?_
  refine iteInduction (fun _ => hlayout rfl) fun _ => ?_
  refine iteInduction (fun _ => hword rfl) fun _ => iteInduction (fun _ => hword rfl) fun _ => ?_
  refine iteInduction (fun _ => hword rfl) fun _ => ?_
  refine iteInduction (fun _ => hword (isWord_variableSize c cs)) fun _ => ?_
  refine iteInduction (fun _ => hword (ctx.isWord_scanWord line c cs)) fun _ => ?_
  refine iteInduction (fun _ => hword (ctx.isWord_scanColon line cs)) fun _ => ?_
  refine iteInduction (fun _ => hword (ctx.isWord_scanQuestion line cs)) fun _ => ?_
  refine iteInduction (fun _ => hword rfl) fun _ => ?_
  refine iteInduction (fun _ => hgetD (ctx.isWord_scanPercent? line)) fun _ => ?_
  refine iteInduction (fun _ => hgetD (ctx.isWord_scanHeredoc? line)) fun _ => ?_
  cases hkind : bracketKind? c with
  | some kind =>
      rintro bracket rfl
      exact ⟨eq_closer_of_bracketKind? hkind, rfl⟩
  | none =>
      refine iteInduction (fun _ => hword rfl) fun _ => ?_
      refine iteInduction (fun _ => hword rfl) fun _ => ?_
      exact hword (ctx.isWord_scanOperator line c cs)

end Context

/-- A closer has the text of its bracket. -/
lemma text_of_closer (ctx : Context) (start line skip : Nat) (text : Text) :
    ∀ t ∈ (tokensFrom ctx start line skip text).tokens, ∀ bracket,
      t.kind = .closer bracket → t.text = [bracket.closer] := by
  induction text generalizing ctx start line skip with
  | nil => cases skip <;> simp [tokensFrom]
  | cons c cs ih =>
      cases skip with
      | succ skip => exact ih ctx start line skip
      | zero =>
          rw [tokensFrom, List.forall_mem_cons]
          refine ⟨fun bracket hkind => ?_, ih _ _ _ _⟩
          obtain ⟨hc, hsize⟩ := ctx.scan_closer line c cs bracket hkind
          change c :: cs.take _ = [bracket.closer]
          rw [hsize, hc, List.take_zero]

/-! ## Errors -/

/-- How a token with this role is spelled, if it can fail to fit. -/
def Role.spelling? : Role → Option Text
  | closesBracket bracket => some [bracket.closer]
  | closesBlock => some "end".toList
  | continues part => some part.spelling
  | opens _ | neutral => none

/-- A role that does not fit is reported by its spelling. -/
lemma Role.spelling?_of_apply {role : Role} {frames : List Frame} {problem : Problem}
    (h : role.apply frames = .error problem) :
    ∃ word, role.spelling? = some word ∧ problem = .unexpected word := by
  match role, frames with
  | closesBracket bracket, [] | closesBracket bracket, .block _ :: _ =>
      exact ⟨_, rfl, (Except.error.inj h).symm⟩
  | closesBracket bracket, .bracket opened :: _ =>
      simp only [apply] at h
      split_ifs at h
      exact ⟨_, rfl, (Except.error.inj h).symm⟩
  | closesBlock, [] | closesBlock, .bracket _ :: _ | continues _, [] =>
      exact ⟨_, rfl, (Except.error.inj h).symm⟩
  | continues part, frame :: _ =>
      simp only [apply] at h
      split_ifs at h
      exact ⟨_, rfl, (Except.error.inj h).symm⟩

lemma spelling?_keywordRole (prev : Option Lexeme) (inHeader : Bool) (word : Text)
    (following : List Lexeme) :
    ∀ w ∈ (keywordRole prev inHeader word following).spelling?, word = w := by
  have halways : ∀ part, alwaysContinues? word = some part → word = part.spelling := by
    intro part h
    unfold alwaysContinues? at h
    split_ifs at h with hword hword hword hword <;> obtain rfl := Option.some.inj h <;> exact hword
  have hleading : ∀ part, leadingContinues? word = some part → word = part.spelling := by
    intro part h
    unfold leadingContinues? at h
    split_ifs at h with hword hword <;> obtain rfl := Option.some.inj h <;> exact hword
  intro w hw
  unfold keywordRole at hw
  repeat' split at hw
  all_goals
    first
    | cases hw; done
    | exact Eq.trans ‹word = "end".toList› (Option.some.inj hw)
    | exact (halways _ ‹_›).trans (Option.some.inj hw)
    | exact (hleading _ ‹_›).trans (Option.some.inj hw)

/-- A token whose role can fail to fit is spelled like that role. -/
lemma spelling?_roleOf {prev : Option Lexeme} {inHeader : Bool} {l : Lexeme}
    {following : List Lexeme}
    (h : ∀ bracket, l.kind = .closer bracket → l.text = [bracket.closer]) :
    ∀ w ∈ (roleOf prev inHeader l following).spelling?, l.text = w := by
  intro w hw
  unfold roleOf at hw
  split at hw
  · cases hw
  · next bracket hkind => exact (h bracket hkind).trans (Option.some.inj hw)
  · exact spelling?_keywordRole prev inHeader l.text following w hw
  · cases hw

/-- A check that fails does so at the end of the source, or at the first token that does not fit. -/
lemma exists_of_checkFrom_eq_error {frames : List Frame} {line : Nat} {tokens : List (Token × Role)}
    {e : SyntaxError} (h : checkFrom frames line tokens = .error e) :
    (∃ missing, e.problem = .unfinished missing) ∨
      ∃ before t after frames', tokens = before ++ t :: after ∧
        runRoles frames (before.map (·.2)) = .ok frames' ∧ t.2.apply frames' = .error e.problem ∧
        e.line = t.1.line := by
  induction tokens generalizing frames line with
  | nil =>
      cases frames with
      | nil => cases h
      | cons frame frames =>
          obtain rfl := Except.error.inj h
          exact .inl ⟨_, rfl⟩
  | cons t tokens ih =>
      rw [checkFrom] at h
      cases happly : t.2.apply frames with
      | error problem =>
          rw [happly] at h
          obtain rfl := Except.error.inj h
          exact .inr ⟨[], t, tokens, frames, rfl, rfl, happly, rfl⟩
      | ok frames₁ =>
          rw [happly] at h
          refine (ih h).imp id ?_
          rintro ⟨before, u, after, frames', rfl, hrun, hfails, hline⟩
          refine ⟨t :: before, u, after, frames', rfl, ?_, hfails, hline⟩
          rw [List.map_cons, runRoles, happly]
          exact hrun

/-- The roles of the tokens of a source come from the tokens. -/
lemma exists_roleOf_of_mem {prev : Option Lexeme} {inHeader : Bool} {tokens : List Token}
    {t : Token × Role}
    (h : t ∈ tokens.zip (rolesFrom prev inHeader (tokens.map (·.toLexeme)))) :
    t.1 ∈ tokens ∧
      ∃ prev inHeader following, t.2 = roleOf prev inHeader t.1.toLexeme following := by
  induction tokens generalizing prev inHeader with
  | nil => simp at h
  | cons u tokens ih =>
      rw [List.map_cons, rolesFrom, List.zip_cons_cons, List.mem_cons] at h
      rcases h with rfl | h
      · exact ⟨List.mem_cons_self, _, _, _, rfl⟩
      · exact ⟨List.mem_cons_of_mem u (ih h).1, (ih h).2⟩

/-! ### Problems of the lexer -/

/-- The problems that the lexer reports: something that never ends. -/
def Problem.isUnterminated : Problem → Bool
  | unterminatedString | unterminatedHeredoc _ | unterminatedDocument => true
  | unexpected _ | unfinished _ => false

lemma isUnterminated_readEnclosed (skip : Bool) (line : Nat) (es : List Enclosure) (text : Text) :
    ∀ e ∈ (readEnclosed skip line es text).error, e.problem.isUnterminated = true := by
  fun_induction readEnclosed skip line es text with
  | case1 => simp
  | case2 =>
      rintro e ⟨⟩
      rfl
  | case3 _ _ _ _ _ ih => exact ih
  | case4 _ _ _ _ _ _ ih => exact ih

lemma isUnterminated_readBodies (line start : Nat) (hs : List Heredoc) (ls : List Text) :
    ∀ e ∈ (readBodies line start hs ls).error, e.problem.isUnterminated = true := by
  fun_induction readBodies line start hs ls with
  | case1 => simp
  | case2 =>
      rintro e ⟨⟩
      rfl
  | case3 _ _ _ _ _ _ _ _ ih => exact ih
  | case4 _ _ _ _ _ _ _ _ ih => exact ih

lemma isUnterminated_readDocument (line start : Nat) (ls : List Text) :
    ∀ e ∈ (readDocument line start ls).error, e.problem.isUnterminated = true := by
  fun_induction readDocument line start ls with
  | case1 =>
      rintro e ⟨⟩
      rfl
  | case2 => simp
  | case3 _ _ _ _ _ ih => exact ih

/-- The lexer reports nothing but what never ends. -/
lemma isUnterminated_scan (ctx : Context) (line : Nat) (c : Char) (cs : Text) :
    ∀ e ∈ (ctx.scan line c cs).extent.error, e.problem.isUnterminated = true := by
  have hread : ∀ (rules : Quote) (lead : Nat),
      ∀ e ∈ (rules.read line (cs.drop lead)).error, e.problem.isUnterminated = true :=
    fun rules lead => isUnterminated_readEnclosed _ _ _ _
  apply ctx.scan_cases (motive := fun s => ∀ e ∈ s.extent.error, e.problem.isUnterminated = true)
  case newline =>
    intro _
    rw [Context.scanNewline]
    split_ifs
    · simp [Context.plain]
    · exact isUnterminated_readBodies _ _ _ _
  case document => exact fun _ _ => isUnterminated_readDocument _ _ _
  case quoted => exact fun rules lead _ _ => hread rules lead
  case flagged => exact fun rules lead _ _ => hread rules lead
  all_goals
    intros
    contradiction

lemma isUnterminated_tokensFrom (ctx : Context) (start line skip : Nat) (text : Text) :
    ∀ e ∈ (tokensFrom ctx start line skip text).error, e.problem.isUnterminated = true := by
  induction text generalizing ctx start line skip with
  | nil =>
      intro e he
      rw [tokensFrom] at he
      obtain ⟨h, -, rfl⟩ := Option.map_eq_some_iff.mp he
      rfl
  | cons c cs ih =>
      cases skip with
      | succ skip => exact ih ctx start line skip
      | zero =>
          intro e he
          rw [tokensFrom] at he
          rcases Option.or_eq_some_iff.mp he with he | ⟨-, he⟩
          · exact isUnterminated_scan ctx line c cs e he
          · exact ih _ _ _ _ e he

/-! ### Sources -/

/-- The tokens of a source, cut at the token that an error of the nesting check speaks of. -/
structure Misfit (source : Text) (before : List Token) (t : Token) (after : List Token)
    (word : Text) : Prop where
  tokens : (tokenize source).tokens = before ++ t :: after
  text : t.text = word
  /-- The roles before that of the token fit, and its own does not. -/
  unfit : ∃ fitting role following frames,
    roles (lexemesOf source) = fitting ++ role :: following ∧ fitting.length = before.length ∧
      runRoles [] fitting = .ok frames ∧ role.apply frames = .error (.unexpected word)

lemma exists_misfit {source : Text} {line : Nat} {word : Text}
    (h : checkSyntax source = .error ⟨line, .unexpected word⟩) :
    ∃ before t after, Misfit source before t after word ∧ line = t.line := by
  rw [checkSyntax] at h
  cases hends : (tokenize source).error with
  | some error =>
      rw [hends] at h
      have hproblem := isUnterminated_tokensFrom {} 0 1 0 source error hends
      rw [Except.error.inj h] at hproblem
      cases hproblem
  | none =>
      rw [hends] at h
      obtain ⟨missing, hmissing⟩ | ⟨before, ⟨t, role⟩, after, frames, hcut, hrun, hfails, hline⟩ :=
        exists_of_checkFrom_eq_error h
      · cases hmissing
      have htokens : (tokenize source).tokens =
          before.map (·.1) ++ t :: after.map (·.1) := by
        rw [← map_fst_withRoles (tokenize source).tokens, hcut, List.map_append, List.map_cons]
      have hroles : roles (lexemesOf source) = before.map (·.2) ++ role :: after.map (·.2) := by
        rw [lexemesOf, ← map_snd_withRoles, hcut, List.map_append, List.map_cons]
      have hmem : (t, role) ∈ withRoles (tokenize source).tokens := by
        rw [hcut]
        simp
      obtain ⟨ht, prev, inHeader, following, hrole⟩ := exists_roleOf_of_mem hmem
      obtain ⟨w, hspelling, hword⟩ := Role.spelling?_of_apply hfails
      obtain rfl : word = w := by simpa using hword
      rw [hrole] at hspelling
      have htext := spelling?_roleOf (text_of_closer {} 0 1 0 source t ht) word hspelling
      exact ⟨before.map (·.1), t, after.map (·.1),
        ⟨htokens, htext, _, role, _, frames, hroles, by simp, hrun, hfails⟩, hline⟩

/-- Every token starts where the tokens before it stop.  Its line is never higher than the physical
one, and it is that one unless a token before it hides a line feed.  An error of the nesting check
names the line of the first token that does not fit. -/
theorem tokenize_numbers (source : Text) :
    (∀ before t after, (tokenize source).tokens = before ++ t :: after →
      source = sourceOf before ++ (t.text ++ sourceOf after) ∧
        t.start = utf8Size (sourceOf before) ∧ t.line ≤ 1 + (sourceOf before).count '\n' ∧
        ((∀ u ∈ before, ¬ u.HidesFeed) → t.line = 1 + (sourceOf before).count '\n')) ∧
      ∀ line word, checkSyntax source = .error ⟨line, .unexpected word⟩ →
        ∃ before t after, Misfit source before t after word ∧ line = t.line ∧
          ((∀ u ∈ before, ¬ u.HidesFeed) → line = 1 + (sourceOf before).count '\n') := by
  constructor
  · intro before t after h
    obtain ⟨hstart, hle, heq⟩ := tokensFrom_line {} 0 1 0 source h
    have hsource := sourceOf_tokensFrom {} 0 1 0 source
    refine ⟨?_, by rw [hstart, Nat.zero_add], hle, heq⟩
    rw [List.drop_zero, ← tokenize, h] at hsource
    simpa [sourceOf] using hsource.symm
  · intro line word h
    obtain ⟨before, t, after, hmisfit, rfl⟩ := exists_misfit h
    exact ⟨before, t, after, hmisfit, rfl, (tokensFrom_line {} 0 1 0 source hmisfit.tokens).2.2⟩

/-- The body of a heredoc is counted, and so is an interpolation in it. -/
theorem tokenize_numbers_heredoc :
    let source := "x = <<E\n#\x7ba\x7d\nE\n)".toList
    let before := (tokenize source).tokens.take 6
    (tokenize source).tokens = before ++ [⟨⟨.closer .paren, [')']⟩, 15, 4⟩] ∧
      (∀ u ∈ before, ¬ u.HidesFeed) ∧ 4 = 1 + (sourceOf before).count '\n' ∧
      checkSyntax source = .error ⟨4, .unexpected [')']⟩ ∧
      ∃ before t after, Misfit source before t after [')'] ∧ t.line = 4 := by
  intro source before
  have htokens : (tokenize source).tokens = before ++ [⟨⟨.closer .paren, [')']⟩, 15, 4⟩] := by
    decide
  have hshown : ∀ u ∈ before, ¬ u.HidesFeed := by decide
  have hcheck : checkSyntax source = .error ⟨4, .unexpected [')']⟩ := by decide
  obtain ⟨hplace, herror⟩ := tokenize_numbers source
  obtain ⟨cut, t, rest, hmisfit, hline, -⟩ := herror 4 [')'] hcheck
  exact ⟨htokens, hshown, (hplace before _ [] htokens).2.2.2 hshown, hcheck, cut, t, rest, hmisfit,
    hline.symm⟩

/-- The character literal of an escaped line feed hides it: all that follows has too low a line. -/
theorem tokenize_hides_escaped_feed :
    let source := "x = ?\\\n)".toList
    (¬ ∀ before t after, (tokenize source).tokens = before ++ t :: after →
      t.line = 1 + (sourceOf before).count '\n') ∧
      checkSyntax source = .error ⟨1, .unexpected [')']⟩ ∧ '\n' ∈ source := by
  refine ⟨fun h => ?_, by decide, by decide⟩
  have hline := h ((tokenize "x = ?\\\n)".toList).tokens.take 5)
    ⟨⟨.closer .paren, [')']⟩, 7, 1⟩ [] (by decide)
  exact absurd hline (by decide)

end ConverterAssembly.Ruby
