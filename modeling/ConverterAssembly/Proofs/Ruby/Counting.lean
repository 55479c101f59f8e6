import ConverterAssembly.Proofs.Ruby.Contexts

/-!
# Line feeds are counted

Every token carries the line that it starts on.  The lexer counts the line feeds of a token while it
reads it, and each reader counts for itself.

**Hidden feeds.**  Two rules pass over a line feed without counting it: the character literal of an
escaped line feed, and a backslash before a line feed inside interpolated code.  `Lexeme.HidesFeed`
tells the literals in which that can happen.

**Literal bodies.**  `Enclosure.step_line` says what one character adds to the line, and
`readEnclosed_line` what a whole body adds.

**Tokens.**  `Context.scan_line`: a token counts its line feeds, unless it hides one.
`tokensFrom_line` says the same of all tokens before a given one.
-/

namespace ConverterAssembly.Ruby

open Text

/-! ## Hidden feeds -/

/-- The start of a piece of code inside a literal. -/
def interpolationStart : Text := ['#', '\x7b']

/-- A backslash and the line feed that it hides. -/
def escapedFeed : Text := ['\\', '\n']

/-- Whether a text holds an escaped line feed after the start of an interpolation. -/
def EscapesFeed (text : Text) : Prop :=
  ∃ n < text.length, interpolationStart <:+: text.take n ∧ escapedFeed <:+: text.drop n

instance (text : Text) : Decidable (EscapesFeed text) :=
  inferInstanceAs (Decidable (∃ n < text.length, _))

/-- Whether a token can pass over a line feed without counting it: the character literal of an
escaped line feed, or a literal with an escaped line feed after the start of an interpolation. -/
def Lexeme.HidesFeed (l : Lexeme) : Prop :=
  l.kind = .literal ∧ (l.text = '?' :: escapedFeed ∨ EscapesFeed l.text)

instance (l : Lexeme) : Decidable l.HidesFeed :=
  inferInstanceAs (Decidable (_ ∧ _))

lemma escapesFeed_append {a b : Text} (ha : interpolationStart <:+: a) (hb : escapedFeed <:+: b) :
    EscapesFeed (a ++ b) := by
  have hlength : 2 ≤ b.length := hb.length_le
  refine ⟨a.length, ?_, ?_, ?_⟩
  · rw [List.length_append]
    omega
  · rwa [List.take_left]
  · rwa [List.drop_left]

lemma EscapesFeed.append_right {a : Text} (h : EscapesFeed a) (b : Text) :
    EscapesFeed (a ++ b) := by
  obtain ⟨n, -, hstart, hfeed⟩ := h
  rw [← List.take_append_drop n a, List.append_assoc]
  exact escapesFeed_append hstart (hfeed.trans (List.infix_append [] _ b))

/-- A token without a line feed hides none. -/
lemma Lexeme.not_hidesFeed {l : Lexeme} (h : '\n' ∉ l.text) : ¬ l.HidesFeed := by
  rintro ⟨-, htext | ⟨n, -, -, hfeed⟩⟩
  · rw [htext] at h
    exact h (by decide)
  · exact h (List.mem_of_mem_drop (hfeed.subset (by decide)))

/-- The line `reached` after a lexeme that starts on the given line counts its line feeds, but for
those that it hides. -/
def Counts (line reached : Nat) (l : Lexeme) : Prop :=
  reached ≤ line + l.text.count '\n' ∧ (¬ l.HidesFeed → reached = line + l.text.count '\n')

lemma counts_of_eq {line reached : Nat} {l : Lexeme} (h : reached = line + l.text.count '\n') :
    Counts line reached l :=
  ⟨h.le, fun _ => h⟩

/-! ## Literal bodies -/

namespace Enclosure

/-- Whether a place is inside interpolated code. -/
def isCode : Enclosure → Bool
  | quote .. => false
  | code .. => true

/-- The line feeds that one step passes over: the character, and the next one if that is skipped. -/
def Step.feeds (s : Step) (c : Char) (next : Option Char) : Nat :=
  [c].count '\n' + if s.skips then next.toList.count '\n' else 0

/-- A line feed adds one line. -/
lemma step_feed (e : Enclosure) (line : Nat) (next : Option Char) :
    (e.step line '\n' next).line = line + 1 ∧ (e.step line '\n' next).skips = false := by
  cases e <;> simp [step]

/-- Any other character but a backslash leaves the line, and passes over no more than the brace of
an interpolation. -/
lemma step_of_ne (e : Enclosure) (line : Nat) {c : Char} (next : Option Char) (hback : c ≠ '\\')
    (hfeed : c ≠ '\n') : (e.step line c next).line = line ∧
      ((e.step line c next).skips = true → c = '#' ∧ next = some '\x7b') := by
  cases e with
  | quote rules depth inClass start =>
      simp only [step, if_neg hback, if_neg hfeed]
      split_ifs with hcode
      · exact ⟨rfl, fun _ => hcode.2⟩
      all_goals cases depth <;> simp
  | code depth start =>
      simp only [step, if_neg hback, if_neg hfeed]
      cases depth <;> split_ifs <;> simp

/-- A step counts the line feeds that it passes over, except for one that is escaped inside code. -/
lemma step_line (e : Enclosure) (line : Nat) (c : Char) (next : Option Char) :
    (e.step line c next).line ≤ line + (e.step line c next).feeds c next ∧
      (¬ (e.isCode = true ∧ c = '\\' ∧ next = some '\n') →
        (e.step line c next).line = line + (e.step line c next).feeds c next) := by
  by_cases hback : c = '\\'
  · subst hback
    cases e with
    | quote rules depth inClass start =>
        by_cases hnext : next = some '\n'
        · simp [step, Step.feeds, hnext]
        · have hnone : next.toList.count '\n' = 0 := by
            rw [List.count_eq_zero, Option.mem_toList]
            exact hnext
          simp [step, Step.feeds, hnext, hnone]
    | code depth start =>
        have hcode : (code depth start).step line '\\' next = ⟨[code depth start], line, true⟩ := by
          simp [step]
        rw [hcode]
        refine ⟨Nat.le_add_right _ _, fun hnext => ?_⟩
        have hnone : next.toList.count '\n' = 0 := by
          rw [List.count_eq_zero, Option.mem_toList]
          exact fun h => hnext ⟨rfl, rfl, h⟩
        simp [Step.feeds, hnone]
  · suffices h : (e.step line c next).line = line + (e.step line c next).feeds c next from
      ⟨h.le, fun _ => h⟩
    by_cases hfeed : c = '\n'
    · subst hfeed
      obtain ⟨hline, hskips⟩ := e.step_feed line next
      simp [Step.feeds, hline, hskips]
    · obtain ⟨hline, hskips⟩ := e.step_of_ne line next hback hfeed
      by_cases hskip : (e.step line c next).skips = true
      · obtain ⟨-, rfl⟩ := hskips hskip
        simp [Step.feeds, hline, hfeed]
      · simp [Step.feeds, hline, hfeed, hskip]

/-- Code begins inside a literal only where an interpolation starts. -/
lemma isCode_of_step (e : Enclosure) (line : Nat) (c : Char) (next : Option Char) :
    ∀ e' ∈ (e.step line c next).enclosures, e'.isCode = true →
      e.isCode = true ∨ c = '#' ∧ next = some '\x7b' ∧ (e.step line c next).skips = true := by
  cases e with
  | code depth start => exact fun _ _ _ => .inl rfl
  | quote rules depth inClass start =>
      have hquote : ∀ depth inClass, (quote rules depth inClass start).isCode = false :=
        fun _ _ => rfl
      by_cases hcode : c = '#' ∧ next = some '\x7b'
      · obtain ⟨rfl, rfl⟩ := hcode
        cases hrules : rules.interpolates with
        | true => simp [step, hrules]
        | false => cases depth <;> simp [step, hrules] <;> split_ifs <;> simp [hquote]
      · have hno : ¬ (rules.interpolates = true ∧ c = '#' ∧ next = some '\x7b') :=
          fun h => hcode h.2
        simp only [step, if_neg hno]
        cases depth <;> split_ifs <;> simp [hquote]

/-- A character is passed over only inside a literal. -/
lemma step_enclosures_ne_nil (e : Enclosure) (line : Nat) (c : Char) (next : Option Char)
    (h : (e.step line c next).skips = true) : (e.step line c next).enclosures ≠ [] := by
  cases e with
  | quote rules depth inClass start =>
      simp only [step] at h ⊢
      cases depth <;> split_ifs at h ⊢ <;> simp at h ⊢
  | code depth start =>
      simp only [step] at h ⊢
      cases depth <;> split_ifs at h ⊢ <;> simp at h ⊢

end Enclosure

/-- One step keeps to the rule that code comes after the start of an interpolation; `front` is what
was read before. -/
lemma interpolationStart_step {e : Enclosure} {es : List Enclosure} {front : Text}
    (h : ∀ e' ∈ e :: es, e'.isCode = true → interpolationStart <:+: front) (line : Nat) (c : Char)
    (cs : Text) :
    ∀ e' ∈ (e.step line c cs.head?).enclosures ++ es, e'.isCode = true →
      interpolationStart <:+: (front ++ [c]) ++ cs.take (e.step line c cs.head?).skips.toNat := by
  have hbefore : ∀ e' ∈ e :: es, e'.isCode = true →
      interpolationStart <:+: (front ++ [c]) ++ cs.take (e.step line c cs.head?).skips.toNat := by
    intro e' he' hcode
    exact ((h e' he' hcode).trans (List.infix_append [] front [c])).trans (List.infix_append [] _ _)
  intro e' he' hcode
  rcases List.mem_append.mp he' with he' | he'
  · rcases e.isCode_of_step line c cs.head? e' he' hcode with he | ⟨rfl, hbrace, hskips⟩
    · exact hbefore e (by simp) he
    · obtain ⟨ds, rfl⟩ : ∃ ds, cs = '\x7b' :: ds := List.head?_eq_some_iff.mp hbrace
      rw [hskips]
      exact ⟨front, [], by simp [interpolationStart]⟩
  · exact hbefore e' (List.mem_cons_of_mem e he') hcode

section

variable (e : Enclosure) (es : List Enclosure) (line : Nat) (c : Char) (cs : Text)

/-- What is read after one character of a literal. -/
def readAfterStep : Extent :=
  readEnclosed (e.step line c cs.head?).skips (e.step line c cs.head?).line
    ((e.step line c cs.head?).enclosures ++ es) cs

/-- A character that is passed over is read. -/
lemma take_one_readAfterStep (h : (e.step line c cs.head?).skips = true) :
    (cs.take (readAfterStep e es line c cs).size).take 1 = cs.head?.toList := by
  obtain ⟨e', es', hes⟩ :=
    List.exists_cons_of_ne_nil (e.step_enclosures_ne_nil line c cs.head? h)
  rw [readAfterStep, h, hes, List.cons_append]
  cases cs with
  | nil => rfl
  | cons d ds => simp [readEnclosed, Nat.add_comm 1]

/-- The line feeds of what is left of a literal are those that the step passes
over and those read after it. -/
lemma count_readAfterStep :
    (c :: cs.take (readAfterStep e es line c cs).size).count '\n' =
      (e.step line c cs.head?).feeds c cs.head? +
        ((cs.take (readAfterStep e es line c cs).size).drop
          (e.step line c cs.head?).skips.toNat).count '\n' := by
  set taken := cs.take (readAfterStep e es line c cs).size with htaken
  have hnext : (taken.take (e.step line c cs.head?).skips.toNat).count '\n' =
      if (e.step line c cs.head?).skips then cs.head?.toList.count '\n' else 0 := by
    cases hskips : (e.step line c cs.head?).skips with
    | true => rw [Bool.toNat_true, htaken, take_one_readAfterStep e es line c cs hskips, if_pos rfl]
    | false => rfl
  rw [Enclosure.Step.feeds, ← hnext, Nat.add_assoc, ← List.count_append, List.take_append_drop,
    ← List.count_append, List.singleton_append]

/-- A line feed after a backslash belongs to the literal. -/
lemma escapedFeed_infix_readAfterStep (h : cs.head? = some '\n') :
    escapedFeed <:+: '\\' :: cs.take (readAfterStep e es line '\\' cs).size := by
  obtain ⟨e', line', hback⟩ := e.step_backslash line cs.head?
  have hfeed := take_one_readAfterStep e es line '\\' cs (by rw [hback])
  rw [h, Option.toList_some] at hfeed
  have hrest := List.take_append_drop 1 (cs.take (readAfterStep e es line '\\' cs).size)
  rw [hfeed] at hrest
  exact ⟨[], _, by rw [← hrest]; rfl⟩

end

/-- A literal body counts its line feeds, except where one is escaped after the start of an
interpolation.  `front` is what was read before; where `skip` is set, the next character has been
counted with the one before it. -/
lemma readEnclosed_line (skip : Bool) (line : Nat) (es : List Enclosure) (front text : Text)
    (hcode : ∀ e ∈ es, e.isCode = true → interpolationStart <:+: front ++ text.take skip.toNat) :
    (readEnclosed skip line es text).line ≤
        line + ((text.take (readEnclosed skip line es text).size).drop skip.toNat).count '\n' ∧
      (¬ EscapesFeed (front ++ text.take (readEnclosed skip line es text).size) →
        (readEnclosed skip line es text).line =
          line +
            ((text.take (readEnclosed skip line es text).size).drop skip.toNat).count '\n') := by
  induction text generalizing skip line es front with
  | nil => cases es <;> cases skip <;> simp [readEnclosed]
  | cons c cs ih =>
      cases es with
      | nil => cases skip <;> simp [readEnclosed]
      | cons e es =>
          cases skip with
          | true =>
              have hrest := ih false line (e :: es) (front ++ [c]) (by simpa using hcode)
              rw [readEnclosed, Extent.extend_size, Extent.extend_line, Nat.add_comm 1,
                List.take_succ_cons]
              simpa using hrest
          | false =>
              have hfront : ∀ e' ∈ e :: es, e'.isCode = true → interpolationStart <:+: front := by
                simpa using hcode
              obtain ⟨hle, heq⟩ := ih _ (e.step line c cs.head?).line _ (front ++ [c])
                (interpolationStart_step hfront line c cs)
              obtain ⟨hstepLe, hstepEq⟩ := e.step_line line c cs.head?
              have hread : readEnclosed false line (e :: es) (c :: cs) =
                  (readAfterStep e es line c cs).extend 1 := rfl
              rw [← readAfterStep] at hle heq
              rw [hread, Extent.extend_size, Extent.extend_line, Nat.add_comm 1,
                List.take_succ_cons, Bool.toNat_false, List.drop_zero, count_readAfterStep]
              refine ⟨by omega, fun hshown => ?_⟩
              have hcounted : ¬ (e.isCode = true ∧ c = '\\' ∧ cs.head? = some '\n') := by
                rintro ⟨he, rfl, hnext⟩
                exact hshown (escapesFeed_append (hfront e (by simp) he)
                  (escapedFeed_infix_readAfterStep e es line cs hnext))
              have hrest := heq (by simpa using hshown)
              rw [hrest, hstepEq hcounted, Nat.add_assoc]

/-! ## Heredocs and documents -/

lemma readBodies_line (line start : Nat) (hs : List Heredoc) (ls : List Text) :
    (readBodies line start hs ls).line =
      line + (ls.flatten.take (readBodies line start hs ls).size).count '\n' := by
  fun_induction readBodies line start hs ls with
  | case1 => simp
  | case2 => simp
  | case3 line start h hs l ls after hends ih =>
      rw [Extent.extend_size, Extent.extend_line, List.flatten_cons, List.take_length_add_append,
        List.count_append, ih, Nat.add_assoc]
  | case4 line start h hs l ls after hends ih =>
      rw [Extent.extend_size, Extent.extend_line, List.flatten_cons, List.take_length_add_append,
        List.count_append, ih, Nat.add_assoc]

lemma count_feed_take {l : Text} (h : '\n' ∉ l) (size : Nat) : (l.take size).count '\n' = 0 := by
  rw [List.count_eq_zero]
  exact fun hmem => h (List.mem_of_mem_take hmem)

/-- An embedded document ends before a line feed, so its last line counts for nothing. -/
lemma readDocument_line (text : Text) (line start : Nat) :
    (readDocument line start (lines text)).line =
      line + (text.take (readDocument line start (lines text)).size).count '\n' := by
  induction text using Text.line_induction generalizing line with
  | last l hl =>
      rw [count_feed_take hl]
      by_cases hnil : l = []
      · subst hnil
        rfl
      · rw [lines_of_no_feed hl hnil, readDocument, readDocument, List.count_eq_zero.mpr hl]
        split_ifs <;> rfl
  | line l p hl ih =>
      rw [lines_line hl, readDocument, withoutLineFeed_append]
      split_ifs
      · rw [List.take_left, List.count_eq_zero.mpr hl]
        rfl
      · rw [Extent.extend_size, Extent.extend_line, ih, take_line,
          @List.count_append _ _ '\n' (l ++ ['\n']), Nat.add_assoc]

/-! ## Tokens -/

namespace Context

variable (ctx : Context) (line : Nat)

/-- A quoted literal counts the line feeds of its body. -/
lemma quoted_line (rules : Quote) {lead : Nat} {c : Char} {cs : Text}
    (hlead : '\n' ∉ c :: cs.take lead) :
    (rules.read line (cs.drop lead)).line ≤
        line + (c :: cs.take (lead + (rules.read line (cs.drop lead)).size)).count '\n' ∧
      (¬ EscapesFeed (c :: cs.take (lead + (rules.read line (cs.drop lead)).size)) →
        (rules.read line (cs.drop lead)).line =
          line + (c :: cs.take (lead + (rules.read line (cs.drop lead)).size)).count '\n') := by
  have hbody := readEnclosed_line false line [.quote rules 0 false line] (c :: cs.take lead)
    (cs.drop lead) (by simp [Enclosure.isCode])
  rw [List.take_add, ← List.cons_append, List.count_append, List.count_eq_zero.mpr hlead,
    Nat.zero_add]
  exact hbody

/-- A literal with flags is its body and the letters after it. -/
lemma take_scanFlagged (rules : Quote) (lead : Nat) (cs : Text) :
    cs.take (ctx.scanFlagged line rules lead cs).extent.size =
      cs.take (lead + (rules.read line (cs.drop lead)).size) ++
        (cs.drop (lead + (rules.read line (cs.drop lead)).size)).takeWhile isAsciiLetter := by
  set size := (rules.read line (cs.drop lead)).size
  have hsize : (ctx.scanFlagged line rules lead cs).extent.size =
      lead + size + ((cs.drop (lead + size)).takeWhile isAsciiLetter).length := by
    rw [← List.drop_drop]
    rfl
  rw [hsize, List.take_add,
    ← List.prefix_iff_eq_take.1 (List.takeWhile_prefix isAsciiLetter (l := cs.drop (lead + size)))]

/-- The flags of a literal hold no line feed. -/
lemma scanFlagged_line (rules : Quote) {lead : Nat} {c : Char} {cs : Text}
    (hlead : '\n' ∉ c :: cs.take lead) :
    Counts line (ctx.scanFlagged line rules lead cs).extent.line
      ⟨.literal, c :: cs.take (ctx.scanFlagged line rules lead cs).extent.size⟩ := by
  obtain ⟨hle, heq⟩ := quoted_line line rules hlead
  have hline : (ctx.scanFlagged line rules lead cs).extent.line =
      (rules.read line (cs.drop lead)).line := rfl
  have hflags : ∀ rest : Text, (rest.takeWhile isAsciiLetter).count '\n' = 0 := by
    intro rest
    rw [List.count_eq_zero]
    exact fun h => absurd (List.mem_takeWhile_imp h) (by decide)
  rw [Counts, take_scanFlagged, hline, ← List.cons_append]
  dsimp only
  rw [List.count_append, hflags, Nat.add_zero]
  exact ⟨hle, fun hshown => heq fun hescapes => hshown ⟨rfl, .inr (hescapes.append_right _)⟩⟩

lemma scanDocument_line {c : Char} (hc : c ≠ '\n') (cs : Text) :
    (ctx.scanDocument line cs).extent.line =
      line + (c :: cs.take (ctx.scanDocument line cs).extent.size).count '\n' := by
  rw [List.count_cons_of_ne hc, scanDocument, Extent.extend_line, Extent.extend_size]
  induction cs using Text.line_induction with
  | last l hl =>
      rw [count_feed_take hl]
      by_cases hnil : l = []
      · subst hnil
        rfl
      · rw [lines_of_no_feed hl hnil, List.headD_cons, List.count_eq_zero.mpr hl]
        rfl
  | line l p hl _ =>
      rw [lines_line hl, List.headD_cons, List.tail_cons, readDocument_line, take_line,
        @List.count_append _ _ '\n' (l ++ ['\n']), Nat.add_assoc]

/-- Every token that is not flat, without a line feed and complete, has one of seven forms. -/
theorem scan_feed_cases {motive : Scan → Prop} (c : Char) (cs : Text)
    (flat : ∀ s : Scan, s.extent.line = line → s.extent.error = none →
      '\n' ∉ c :: cs.take s.extent.size → motive s)
    (newline : c = '\n' → motive (ctx.scanNewline line cs))
    (continuation : ∀ ds, c = '\\' → cs = '\n' :: ds → motive (ctx.plain (line + 1) .space 1))
    (document : c ≠ '\n' → motive (ctx.scanDocument line cs))
    (data : c ≠ '\n' → motive (ctx.scanData line cs))
    (hidden : ∀ ds, c = '?' → cs = '\\' :: '\n' :: ds → motive (ctx.plain line .literal 2))
    (quoted : ∀ rules lead, '\n' ∉ c :: cs.take lead → motive (ctx.scanQuoted line rules lead cs))
    (flagged : ∀ rules lead, '\n' ∉ c :: cs.take lead →
      motive (ctx.scanFlagged line rules lead cs)) :
    motive (ctx.scan line c cs) := by
  have hcons : ∀ {size}, c ≠ '\n' → '\n' ∉ cs.take size → '\n' ∉ c :: cs.take size := by
    intro size hc hno
    rw [List.mem_cons, not_or]
    exact ⟨fun h => hc h.symm, hno⟩
  apply ctx.scan_cases line c cs
  case newline => exact newline
  case continuation =>
    intro hc hhead
    obtain ⟨ds, hcs⟩ := List.head?_eq_some_iff.mp hhead
    exact continuation ds hc hcs
  case gap =>
    intro hgap
    refine flat _ rfl rfl (hcons ?_ (feed_not_mem_take_takeWhile rfl cs))
    rintro rfl
    exact absurd hgap (by decide)
  case semicolon =>
    rintro rfl
    exact flat _ rfl rfl (hcons (by decide) (by simp [plain]))
  case comment =>
    rintro rfl
    exact flat _ rfl rfl (hcons (by decide) (feed_not_mem_take_takeWhile rfl cs))
  case document =>
    intro _ hdirective
    obtain rfl : c = '=' := eq_of_isDirective_cons hdirective
    exact document (by decide)
  case data =>
    intro _ hdirective
    obtain rfl : c = '_' := eq_of_isDirective_cons hdirective
    exact data (by decide)
  case word => exact fun kind size naming _ _ hno => flat _ rfl rfl hno
  case hidden => exact hidden
  case quoted => exact fun rules lead _ hno => quoted rules lead hno
  case flagged => exact fun rules lead _ hno => flagged rules lead hno
  case heredoc =>
    rintro size h rfl - - hno
    exact flat _ rfl rfl (hcons (by decide) hno)

/-- The line after a token counts its line feeds, unless it hides one. -/
theorem scan_line (c : Char) (cs : Text) :
    Counts line (ctx.scan line c cs).extent.line
      ⟨(ctx.scan line c cs).kind, c :: cs.take (ctx.scan line c cs).extent.size⟩ := by
  apply ctx.scan_feed_cases (motive := fun s => Counts line s.extent.line
    ⟨s.kind, c :: cs.take s.extent.size⟩) line c cs
  case flat =>
    intro s hline _ hno
    exact counts_of_eq (by rw [hline, List.count_eq_zero.mpr hno, Nat.add_zero])
  case newline =>
    rintro rfl
    refine counts_of_eq ?_
    rw [scanNewline]
    split_ifs
    · simp [plain]
    · dsimp only
      rw [readBodies_line, flatten_lines, List.count_cons_self]
      omega
  case continuation =>
    rintro ds rfl rfl
    exact counts_of_eq (by simp [plain])
  case document => exact fun hc => counts_of_eq (ctx.scanDocument_line line hc cs)
  case data =>
    intro hc
    refine counts_of_eq ?_
    rw [scanData, List.take_length, List.count_cons_of_ne hc]
  case hidden =>
    rintro ds rfl rfl
    exact ⟨Nat.le_add_right _ _, fun hshown => absurd ⟨rfl, .inl rfl⟩ hshown⟩
  case quoted =>
    intro rules lead hlead
    obtain ⟨hle, heq⟩ := quoted_line line rules hlead
    exact ⟨hle, fun hshown => heq fun hescapes => hshown ⟨rfl, .inr hescapes⟩⟩
  case flagged => exact fun rules lead hlead => ctx.scanFlagged_line line rules hlead

end Context

/-- The line of a token counts the line feeds of the tokens before it, unless
one of them hides one. -/
theorem tokensFrom_line (ctx : Context) (start line skip : Nat) (text : Text)
    {before after : List Token} {t : Token}
    (h : (tokensFrom ctx start line skip text).tokens = before ++ t :: after) :
    t.start = start + utf8Size (sourceOf before) ∧
      t.line ≤ line + (sourceOf before).count '\n' ∧
      ((∀ u ∈ before, ¬ u.HidesFeed) → t.line = line + (sourceOf before).count '\n') := by
  induction text generalizing ctx start line skip before with
  | nil => cases skip <;> simp [tokensFrom] at h
  | cons c cs ih =>
      cases skip with
      | succ skip => exact ih ctx start line skip h
      | zero =>
          set scan := ctx.scan line c cs with hscan
          cases before with
          | nil =>
              obtain rfl : _ = t := (List.cons.inj h).1
              exact ⟨rfl, Nat.le_refl _, fun _ => rfl⟩
          | cons u before =>
              obtain ⟨rfl, hrest⟩ := List.cons.inj h
              obtain ⟨hstart, hle, heq⟩ := ih _ _ _ _ hrest
              obtain ⟨hstepLe, hstepEq⟩ := ctx.scan_line line c cs
              have hsource : ∀ u : Token, sourceOf (u :: before) = u.text ++ sourceOf before :=
                fun _ => rfl
              rw [hsource, utf8Size_append, List.count_append]
              refine ⟨by rw [hstart, Nat.add_assoc], by dsimp only at *; omega, fun hshown => ?_⟩
              rw [List.forall_mem_cons] at hshown
              rw [heq hshown.2, hstepEq hshown.1, Nat.add_assoc]

end ConverterAssembly.Ruby
