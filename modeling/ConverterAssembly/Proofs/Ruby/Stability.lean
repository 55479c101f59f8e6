import ConverterAssembly.Proofs.Ruby.Unfinished

/-!
# Texts that grow at their end

The scanner looks ahead by a different amount for each sort of token, but never over a line feed
that it does not take in.  So the tokens of complete lines are the same whatever is written after
them.

**One token.**  `Context.scan_before_feed` is for a token that ends before a line feed, and
`Context.scan_feed_in_front` for a line feed with its heredoc bodies.

**Parts.**  So what follows the line after a part does not matter to the part (`Reads.before_line`).

**All tokens.**  `tokens_tokensFrom_append` follows the tokenizer from any context, and
`tokenize_append` is the statement about sources.
-/

namespace ConverterAssembly.Ruby

open Text

/-! ## One token -/

namespace Context

variable (ctx : Context) (line : Nat)

/-- The escape after a question mark takes the line feed in, where it is a character literal. -/
lemma scan_question (r : Text) : ctx.scan line '?' ('\\' :: '\n' :: r) =
    if ctx.expectsOperand then ctx.plain line .literal 2 else ctx.plain line .operator 0 := by
  have hfind : Text.findStart? operatorMethods ('?' :: '\\' :: '\n' :: r) = none :=
    (findStart?_operatorMethods_append_feed ['?', '\\'] r).trans (by decide)
  rw [ctx.scan_eq_scanPlain line fun _ => hfind,
    ctx.scanPlain_of_isSign line (by decide) fun _ => by decide]
  rfl

/-- A complete token that the text after it does not settle is read in the same way in front of a
line feed: it is no data section, and as a line feed token it ends its line. -/
lemma scan_append_feed {c : Char} {p q : Text} (hne : q ≠ [])
    (halone : ctx.scan line c (p ++ q) = ctx.scan line c p)
    (hsize : (ctx.scan line c (p ++ q)).extent.size ≤ p.length)
    (hcomplete : (ctx.scan line c (p ++ q)).extent.error = none)
    (hback : c :: p ≠ ['\\']) (hquestion : c :: p ≠ ['?', '\\']) (r : Text) :
    ctx.scan line c (p ++ '\n' :: r) = ctx.scan line c (p ++ q) := by
  have hcut : (p ++ q).drop (ctx.scan line c (p ++ q)).extent.size ≠ [] := by
    rw [ne_eq, List.drop_eq_nil_iff, List.length_append]
    have := List.length_pos_of_ne_nil hne
    omega
  have hdata : (ctx.scan line c (p ++ q)).kind ≠ .data := fun hkind =>
    hcut (by rw [ctx.scan_size_of_data line hkind, List.drop_length])
  have hends : (ctx.scan line c (p ++ q)).kind = .newline →
      EndsLine (p.take (ctx.scan line c (p ++ q)).extent.size) := by
    intro hkind
    obtain rfl := ctx.of_scan_newline line hkind
    have hlast := ctx.getLast?_of_scan_newline line hcut
    rw [List.take_append_of_le_length hsize] at hlast
    refine endsLine_append (a := ['\n']) fun d hd => ?_
    exact Option.some.inj (hd.symm.trans hlast)
  rw [halone] at hcomplete hdata hends ⊢
  exact ctx.scan_append_stops line (stops_cons.mpr (by decide)) (fun _ _ => rfl)
    (.inr ⟨rfl, hcomplete, hdata, hends, hback, hquestion⟩)

/-- A complete token that ends before a line feed does not depend on the text
after the line feed. -/
theorem scan_before_feed {c : Char} {p r : Text}
    (hsize : (ctx.scan line c (p ++ '\n' :: r)).extent.size ≤ p.length)
    (hcomplete : (ctx.scan line c (p ++ '\n' :: r)).extent.error = none) (r' : Text) :
    ctx.scan line c (p ++ '\n' :: r') = ctx.scan line c (p ++ '\n' :: r) := by
  -- in front of a line feed, these two can be read without looking further
  by_cases hback : c :: p = ['\\']
  · obtain ⟨rfl, rfl⟩ : c = '\\' ∧ p = [] := by simpa using hback
    rw [List.nil_append, scan_continuation] at hsize
    exact absurd hsize (Nat.not_succ_le_zero 0)
  by_cases hquestion : c :: p = ['?', '\\']
  · obtain ⟨rfl, rfl⟩ : c = '?' ∧ p = ['\\'] := by simpa using hquestion
    rw [List.singleton_append, List.singleton_append, scan_question, scan_question]
  -- so the token is the one that the line alone would give, and the line alone settles it
  have halone : ctx.scan line c (p ++ '\n' :: r) = ctx.scan line c p :=
    ctx.scan_append_stops line (stops_cons.mpr (by decide)) (fun _ _ => rfl)
      (.inl ⟨List.cons_ne_nil _ _, hsize⟩)
  exact ctx.scan_append_feed line (List.cons_ne_nil _ _) halone hsize hcomplete hback hquestion r'

/-- A complete line feed token at the end of a text, with the bodies of its heredocs, does not
depend on the text after it. -/
theorem scan_feed_in_front {cs : Text} (hsize : (ctx.scan line '\n' cs).extent.size = cs.length)
    (hcomplete : (ctx.scan line '\n' cs).extent.error = none) (hends : EndsLine cs) (rest : Text) :
    ctx.scan line '\n' (cs ++ rest) = ctx.scan line '\n' cs := by
  rw [scan_feed, scanNewline] at *
  rw [scan_feed, scanNewline]
  by_cases hnone : ctx.heredocs.isEmpty = true
  · rw [if_pos hnone, if_pos hnone]
  · rw [if_neg hnone] at hsize hcomplete
    rw [if_neg hnone, if_neg hnone]
    have hbodies : readBodies (line + 1) (line + 1) ctx.heredocs (lines (cs ++ rest)) =
        readBodies (line + 1) (line + 1) ctx.heredocs (lines cs) := by
      refine readBodies_append cs _ _ _ (.inr ⟨hcomplete, ?_⟩)
      rw [hsize, List.take_length]
      exact hends
    rw [hbodies]

end Context

/-! ## Parts -/

/-- What follows the line after a part does not matter to it. -/
lemma Reads.before_line {d r text : Text} {ctx ctx' : Context} {ls : List Lexeme}
    (h : Reads (d ++ '\n' :: r) ctx text ls ctx') (r' : Text) :
    Reads (d ++ '\n' :: r') ctx text ls ctx' := by
  induction h with
  | nil ctx => exact .nil ctx
  | @cons ctx ctx' c p text lexemes scan read size complete tail ih =>
      refine .cons ?_ size complete ih
      have happend : ∀ r, p ++ (text ++ (d ++ '\n' :: r)) = (p ++ (text ++ d)) ++ '\n' :: r := by
        simp
      rw [happend] at read ⊢
      subst read
      refine ctx.scan_before_feed 0 ?_ complete r'
      rw [size, List.length_append]
      exact Nat.le_add_right _ _

/-! ## All tokens -/

/-- The tokens of complete lines are the same whatever follows the lines. -/
lemma tokens_tokensFrom_append (ctx : Context) (start line skip : Nat) (a b : Text)
    (hends : EndsLine a) (hcomplete : (tokensFrom ctx start line skip a).error = none)
    (hlast : ∀ t ∈ (tokensFrom ctx start line skip a).tokens.getLast?, t.kind = .newline) :
    (tokensFrom ctx start line skip a).tokens <+:
      (tokensFrom ctx start line skip (a ++ b)).tokens := by
  induction a generalizing ctx start line skip with
  | nil =>
      rw [tokensFrom_drop, List.drop_nil, tokensFrom]
      exact List.nil_prefix
  | cons c cs ih =>
      have hends' : EndsLine cs := endsLine_append (a := [c]) hends
      cases skip with
      | succ skip => exact ih ctx start line skip hends' hcomplete hlast
      | zero =>
          have hle := ctx.scan_size_le line c cs
          rw [tokensFrom] at hcomplete hlast
          obtain ⟨hscan, hrest⟩ := Option.or_eq_none_iff.1 hcomplete
          -- the token is the last one, a line feed, or ends before the line feed at the end
          have hread : ctx.scan line c (cs ++ b) = ctx.scan line c cs := by
            rcases hle.eq_or_lt with hwhole | hlt
            · rw [tokensFrom_drop, hwhole, List.drop_length, tokensFrom] at hlast
              obtain rfl := ctx.of_scan_newline line (hlast _ rfl)
              exact ctx.scan_feed_in_front line hwhole hscan hends' b
            · obtain ⟨p, d, rfl⟩ := List.eq_nil_or_concat' cs |>.resolve_left (by
                rintro rfl
                exact absurd hlt (Nat.not_lt_zero _))
              obtain rfl := hends' d (by simp)
              rw [List.length_append, List.length_singleton] at hlt
              rw [List.append_assoc, List.singleton_append]
              exact ctx.scan_before_feed line (Nat.le_of_lt_succ hlt) hscan b
          rw [List.cons_append, tokensFrom, tokensFrom, hread, List.take_append_of_le_length hle]
          refine List.cons_prefix_cons.2 ⟨rfl, ih _ _ _ _ hends' hrest fun t ht => hlast t ?_⟩
          rw [Option.mem_def] at ht ⊢
          rw [List.getLast?_cons, ht]
          rfl

/-- **Appending.**  The tokens of a source that ends its last line, leaves nothing open and whose
last token is a line feed are the first tokens of every source that goes on after it: with the same
kinds and texts, and at the same places. -/
theorem tokenize_append {a : Text} (hends : a.getLast? = some '\n')
    (hcomplete : (tokenize a).error = none)
    (hlast : ∀ t ∈ (tokenize a).tokens.getLast?, t.kind = .newline) (b : Text) :
    (tokenize a).tokens <+: (tokenize (a ++ b)).tokens := by
  refine tokens_tokensFrom_append {} 0 1 0 a b (fun c hc => ?_) hcomplete hlast
  exact Option.some.inj (hc.symm.trans hends)

/-- A heredoc that is closed stays closed when a line with the same name comes after it. -/
theorem tokenize_append_heredoc :
    (tokenize "x = <<T\ny\nT\n".toList).tokens <+:
      (tokenize ("x = <<T\ny\nT\n".toList ++ "T\n".toList)).tokens :=
  tokenize_append (by decide) (by decide +kernel) (by decide +kernel) _

end ConverterAssembly.Ruby
