import ConverterAssembly.Proofs.Ruby.Cuts

/-!
# Texts one after another

A text that ends a line and leaves nothing open is read in the same way whatever follows it.

**Complete texts.**  `Reads.in_front`: where the last token is a line feed, any text may follow, and
a line starts there (`Reads.startsLine_of_newline`).

**The data section.**  A text that ends with its data section goes on with it, whatever follows
(`Reads.exists_of_data`).

**Endings.**  `Reads.kind_of_getLast` tells which token a line feed at the end of a text belongs to.
-/

namespace ConverterAssembly.Ruby

open Text

namespace Reads

variable {rest text : Text} {ctx ctx' : Context} {ls : List Lexeme}

/-! ## Complete texts -/

/-- A line feed with its heredoc bodies is read in the same way whatever
follows the line that ends them. -/
lemma feed_in_front {n : Lexeme} (h : Reads [] ctx text [n] ctx') (hkind : n.kind = .newline)
    (hends : EndsLine text) (rest : Text) : Reads rest ctx text [n] ctx' := by
  cases h with
  | @cons _ _ c p text _ scan read size complete tail =>
      cases tail
      rw [← read] at hkind
      obtain rfl := ctx.of_scan_newline 0 hkind
      rw [List.append_nil, List.append_nil] at read
      rw [List.append_nil] at hends
      refine .cons ?_ size complete (.nil _)
      subst read
      exact ctx.scan_feed_in_front 0 size complete (endsLine_append (a := ['\n']) hends) rest

/-- A text that is read with nothing left open, and whose last token is a line feed at its end, is
read in the same way whatever follows it. -/
theorem in_front (h : Reads [] ctx text ls ctx') (hlast : ∀ l ∈ ls.getLast?, l.kind = .newline)
    (hends : EndsLine text) (rest : Text) : Reads rest ctx text ls ctx' := by
  cases ls using List.reverseRecOn with
  | nil =>
      cases h
      exact .nil ctx
  | append_singleton init n =>
      have hkind : n.kind = .newline := hlast n (by simp)
      obtain ⟨a, b, ctx₁, rfl, ha, hb⟩ := h.split
      have hfeed := hb.feed_in_front hkind (endsLine_append hends) rest
      refine Reads.append ?_ hfeed
      rw [List.append_nil] at ha
      cases hb with
      | @cons _ _ c p text _ scan read size complete tail =>
          cases tail
          rw [← read] at hkind
          obtain rfl := ctx₁.of_scan_newline 0 hkind
          rw [List.append_nil] at ha
          rw [List.append_nil, List.cons_append]
          exact ha.before_line (d := []) (p ++ rest)

/-- After a line feed that is the last token a line starts. -/
lemma startsLine_of_newline {init : List Lexeme} {n : Lexeme}
    (h : Reads rest ctx text (init ++ [n]) ctx') (hkind : n.kind = .newline) (hends : EndsLine text)
    (hheredocs : ctx'.heredocs = []) : ctx'.StartsLine := by
  obtain ⟨a, b, ctx₁, rfl, -, hb⟩ := h.split
  replace hends := endsLine_append hends
  clear h
  cases hb with
  | @cons _ _ c p text _ scan read size complete tail =>
      cases tail
      rw [List.append_nil] at hends
      have hkind' : scan.kind = .newline := hkind
      rw [← read] at hkind
      obtain rfl := ctx₁.of_scan_newline 0 hkind
      have hnaming : scan.naming = false := by
        rw [← read, ctx₁.scan_feed, Context.scanNewline]
        split_ifs <;> rfl
      have hlast : ('\n' :: p).getLast? = some '\n' := by
        have hsome := List.getLast?_eq_some_getLast (List.cons_ne_nil '\n' p)
        rwa [hends _ hsome] at hsome
      refine ⟨⟨?_, hheredocs, ?_⟩, ?_⟩
      · simp [Context.after, hnaming, hkind']
      · simp [Context.after, hkind', Lexeme.isTrivia]
      · simp [Context.after, hlast]

/-! ## The data section -/

/-- Only the last token can be the data section. -/
lemma init_ne_data {init : List Lexeme} {l : Lexeme} (h : Reads rest ctx text (init ++ [l]) ctx') :
    ∀ d ∈ init, d.kind ≠ .data := by
  obtain ⟨a, b, ctx₁, -, ha, hb⟩ := h.split
  refine ha.ne_data (List.append_ne_nil_of_left_ne_nil ?_ rest)
  rw [hb.text_eq]
  simpa using (hb.text_ne_nil l (by simp)).1

end Reads

lemma isDirective_append {directive text : Text} (h : isDirective directive text = true)
    (hlonger : directive.length < text.length) (rest : Text) :
    isDirective directive (text ++ rest) = true := by
  unfold isDirective at h ⊢
  cases hdrop : dropStart? directive text with
  | none => simp [hdrop] at h
  | some tail =>
      have htext := dropStart?_eq_some_iff.1 hdrop
      have hdrop' : dropStart? directive (text ++ rest) = some (tail ++ rest) := by
        rw [dropStart?_eq_some_iff, htext, List.append_assoc]
      rw [hdrop] at h
      rw [hdrop']
      cases tail with
      | nil =>
          rw [htext, List.append_nil] at hlonger
          exact absurd hlonger (Nat.lt_irrefl _)
      | cons c tail => exact h

lemma exists_line_of_directive {text : Text} (h : isDirective "__END__".toList text = true)
    (hfeed : '\n' ∈ text) : ∃ lead r, text = lead ++ '\n' :: r ∧ 7 ≤ lead.length := by
  unfold isDirective at h
  cases hdrop : dropStart? "__END__".toList text with
  | none =>
      rw [hdrop] at h
      cases h
  | some tail =>
      obtain rfl := dropStart?_eq_some_iff.1 hdrop
      rw [List.mem_append] at hfeed
      obtain ⟨x, r, rfl⟩ := List.append_of_mem (hfeed.resolve_left (by decide))
      refine ⟨"__END__".toList ++ x, r, by rw [List.append_assoc], ?_⟩
      rw [List.length_append]
      exact Nat.le_add_right 7 x.length

/-- A text that ends with its data section goes on with it. -/
theorem Reads.exists_of_data {init : List Lexeme} {d : Lexeme} {text : Text} {ctx ctx' : Context}
    (h : Reads [] ctx text (init ++ [d]) ctx') (hkind : d.kind = .data) (hfeed : '\n' ∈ d.text)
    (rest : Text) :
    ∃ ctx'', Reads [] ctx (text ++ rest) (init ++ [⟨.data, d.text ++ rest⟩]) ctx'' ∧
      ctx''.heredocs = ctx'.heredocs := by
  obtain ⟨a, b, ctx₁, rfl, ha, hb⟩ := h.split
  cases hb with
  | @cons _ _ c p text _ scan read size complete tail =>
      cases tail
      rw [List.append_nil, List.append_nil] at read ha
      rw [List.append_nil]
      rw [← read] at hkind
      obtain ⟨hstart, hdir⟩ := ctx₁.of_scan_data 0 hkind
      have hdata := ctx₁.scan_data 0 hstart hdir
      -- the line of the directive is known, so the text before it stays as it is
      obtain ⟨lead, r, hline, hlead⟩ := exists_line_of_directive hdir hfeed
      have hdir' : isDirective "__END__".toList (c :: (p ++ rest)) = true := by
        refine isDirective_append hdir ?_ rest
        rw [hline, List.length_append, List.length_cons]
        exact Nat.lt_of_lt_of_le (Nat.lt_succ_of_le hlead) (by omega)
      have hscan := ctx₁.scan_data 0 hstart hdir'
      have hbefore : Reads (c :: (p ++ rest)) ctx a init ctx₁ := by
        rw [hline] at ha
        have happend : c :: (p ++ rest) = lead ++ '\n' :: (r ++ rest) := by
          rw [← List.cons_append, hline, List.append_assoc, List.cons_append]
        rw [happend]
        exact ha.before_line (r ++ rest)
      have hafter : Reads [] ctx₁ (c :: (p ++ rest)) [⟨.data, c :: (p ++ rest)⟩]
          (ctx₁.after (ctx₁.scanData 0 (p ++ rest)) (c :: (p ++ rest))) := by
        have hread : ctx₁.scan 0 c (p ++ rest ++ ([] ++ [])) = ctx₁.scanData 0 (p ++ rest) := by
          rw [List.append_nil, List.append_nil, hscan]
        have hreads := Reads.cons hread rfl rfl (.nil _)
        rwa [List.append_nil] at hreads
      rw [← List.append_nil (c :: (p ++ rest))] at hbefore
      have hall := hbefore.append hafter
      refine ⟨_, by rwa [List.append_assoc], ?_⟩
      rw [← read, hdata]
      rfl

/-! ## Endings -/

/-- A text that goes on in its line: it has a last character, and that is no line feed. -/
def EndsInLine (text : Text) : Prop :=
  ∃ c, text.getLast? = some c ∧ c ≠ '\n'

lemma EndsInLine.append {b : Text} (h : EndsInLine b) (a : Text) : EndsInLine (a ++ b) := by
  obtain ⟨c, hc, hne⟩ := h
  exact ⟨c, by rw [List.getLast?_append, hc, Option.some_or], hne⟩

lemma endsInLine_of_not_mem {text : Text} (hne : text ≠ []) (hfeed : '\n' ∉ text) :
    EndsInLine text := by
  refine ⟨_, List.getLast?_eq_some_getLast hne, fun hlast => hfeed ?_⟩
  rw [← hlast]
  exact List.getLast_mem hne

/-- No line feed closes an enclosure. -/
lemma Enclosure.step_feed_ne_nil (e : Enclosure) (line : Nat) (next : Option Char) :
    (e.step line '\n' next).enclosures ≠ [] := by
  cases e <;> simp [step]

/-- A literal body that ends does so in its closing delimiter, which is no line feed. -/
lemma endsInLine_readEnclosed (skip : Bool) (line : Nat) {es : List Enclosure} (hes : es ≠ [])
    (text : Text) (h : (readEnclosed skip line es text).error = none) :
    EndsInLine (text.take (readEnclosed skip line es text).size) := by
  induction text generalizing skip line es with
  | nil =>
      obtain ⟨e, es, rfl⟩ := List.exists_cons_of_ne_nil hes
      cases skip <;> simp [readEnclosed] at h
  | cons c cs ih =>
      obtain ⟨e, es, rfl⟩ := List.exists_cons_of_ne_nil hes
      cases skip with
      | true =>
          rw [readEnclosed, Extent.extend_error] at h
          rw [readEnclosed, Extent.extend_size, Nat.add_comm, List.take_succ_cons]
          exact (ih false line hes h).append [c]
      | false =>
          rw [readEnclosed, Extent.extend_error] at h
          rw [readEnclosed, Extent.extend_size, Nat.add_comm, List.take_succ_cons]
          by_cases hnil : (e.step line c cs.head?).enclosures ++ es = []
          · rw [hnil]
            refine ⟨c, by simp [readEnclosed], ?_⟩
            rintro rfl
            exact e.step_feed_ne_nil line cs.head? (List.append_eq_nil_iff.1 hnil).1
          · exact (ih _ _ hnil h).append [c]

/-- An embedded document that ends does so in front of a line feed. -/
lemma endsInLine_readDocument (text : Text) (line start : Nat)
    (h : (readDocument line start (lines text)).error = none) :
    EndsInLine (text.take (readDocument line start (lines text)).size) := by
  have hends : ∀ l, '\n' ∉ l → endsDocument l = true → EndsInLine l := by
    intro l hl hend
    refine endsInLine_of_not_mem ?_ hl
    rintro rfl
    exact absurd hend (by decide)
  induction text using Text.line_induction generalizing line with
  | last l hl =>
      by_cases hnil : l = []
      · subst hnil
        simp [lines, readDocument] at h
      · rw [lines_of_no_feed hl hnil, readDocument, withoutLineFeed_of_no_feed hl] at h ⊢
        split_ifs at h ⊢ with hend
        · rw [List.take_length]
          exact hends l hl hend
        · simp [readDocument] at h
  | line l p hl ih =>
      rw [lines_line hl, readDocument, withoutLineFeed_append] at h ⊢
      split_ifs at h ⊢ with hend
      · rw [List.take_left]
        exact hends l hl hend
      · rw [Extent.extend_size, take_line]
        exact (ih _ h).append _

lemma endsInLine_scanDocument (ctx : Context) (line : Nat) (cs : Text)
    (h : (ctx.scanDocument line cs).extent.error = none) :
    EndsInLine (cs.take (ctx.scanDocument line cs).extent.size) := by
  rw [Context.scanDocument, Extent.extend_error] at h
  rw [Context.scanDocument, Extent.extend_size]
  induction cs using Text.line_induction with
  | last l hl =>
      have htail : (lines l).tail = [] := by
        by_cases hnil : l = []
        · rw [hnil]
          rfl
        · rw [lines_of_no_feed hl hnil, List.tail_cons]
      rw [htail] at h
      cases h
  | line l p hl _ =>
      rw [lines_line hl, List.tail_cons] at h ⊢
      rw [List.headD_cons, take_line]
      exact (endsInLine_readDocument p _ _ h).append _

/-- A complete token that takes in the end of a line is a line feed, the data section, or the escape
of its line feed. -/
lemma Context.of_scan_endsLine (ctx : Context) (line : Nat) (c : Char) (cs : Text) :
    (ctx.scan line c cs).extent.error = none →
      EndsInLine (c :: cs.take (ctx.scan line c cs).extent.size) ∨
        (ctx.scan line c cs).kind = .newline ∨ (ctx.scan line c cs).kind = .data ∨
        escapedFeed <:+ c :: cs.take (ctx.scan line c cs).extent.size := by
  apply ctx.scan_feed_cases (motive := fun s => s.extent.error = none →
    EndsInLine (c :: cs.take s.extent.size) ∨ s.kind = .newline ∨ s.kind = .data ∨
      escapedFeed <:+ c :: cs.take s.extent.size) line c cs
  case flat =>
    intro s _ _ hno _
    exact .inl (endsInLine_of_not_mem (List.cons_ne_nil _ _) hno)
  case newline =>
    intro _ _
    rw [scanNewline]
    split_ifs <;> exact .inr (.inl rfl)
  case continuation =>
    rintro ds rfl rfl -
    exact .inr (.inr (.inr (List.suffix_refl _)))
  case document =>
    intro _ h
    left
    exact (endsInLine_scanDocument ctx line cs h).append [c]
  case data => exact fun _ _ => .inr (.inr (.inl rfl))
  case hidden =>
    rintro ds rfl rfl -
    exact .inr (.inr (.inr (List.suffix_cons _ _)))
  case quoted =>
    intro rules lead _ h
    left
    have hbody := endsInLine_readEnclosed false line (List.cons_ne_nil _ _) (cs.drop lead) h
    rw [scanQuoted, literal, Extent.extend_size, List.take_add, ← List.cons_append]
    exact hbody.append _
  case flagged =>
    intro rules lead _ h
    left
    have hbody := endsInLine_readEnclosed false line (List.cons_ne_nil _ _) (cs.drop lead) h
    rw [take_scanFlagged, ← List.cons_append]
    by_cases hflags : (cs.drop (lead + (rules.read line (cs.drop lead)).size)).takeWhile
        isAsciiLetter = []
    · rw [hflags, List.append_nil, List.take_add, ← List.cons_append]
      exact hbody.append _
    · refine (endsInLine_of_not_mem hflags fun hfeed => ?_).append _
      exact absurd (List.mem_takeWhile_imp hfeed) (by decide)

namespace Reads

/-- The last token of a complete text that ends a line, but does not escape its line feed, is a line
feed or the data section. -/
lemma kind_of_getLast {ctx ctx' : Context} {text : Text} {init : List Lexeme} {l : Lexeme}
    (h : Reads [] ctx text (init ++ [l]) ctx') (hends : text.getLast? = some '\n')
    (hescape : ¬ escapedFeed <:+ text) : (l.kind = .newline ∨ l.kind = .data) ∧ '\n' ∈ l.text := by
  obtain ⟨a, b, ctx₁, rfl, -, hb⟩ := h.split
  cases hb with
  | @cons _ _ c p text _ scan read size complete tail =>
      cases tail
      rw [List.append_nil] at hends hescape
      have hlast : (c :: p).getLast? = some '\n' := by
        rw [List.getLast?_append_of_ne_nil _ (List.cons_ne_nil c p)] at hends
        exact hends
      refine ⟨?_, List.mem_of_getLast? hlast⟩
      have hforms := ctx₁.of_scan_endsLine 0 c (p ++ ([] ++ []))
      rw [read, size, List.take_left] at hforms
      rcases hforms complete with ⟨d, hd, hne⟩ | hkind | hkind | hsuffix
      · rw [hlast] at hd
        exact absurd (Option.some.inj hd).symm hne
      · exact .inl hkind
      · exact .inr hkind
      · exact absurd (hsuffix.trans (List.suffix_append a _)) hescape

end Reads

end ConverterAssembly.Ruby
