import ConverterAssembly.Proofs.Ruby.Margins

/-!
# What laying out copies

Laying out writes each token with its own text, once and in order.  Beside the tokens stand margins,
blanks of the source, and a semicolon where a statement was ended.

**Relation.**  `Layout.Copies` is this, token by token; its flag tells whether a line begins.

**Lines.**  The body of a line is copied from its first token that is not a blank
(`copies_line`).  In front of a semicolon it is trimmed by characters and not by tokens, so its last
token is whole only if it does not end in a blank (`copies_trimmed`); `Line.cutsToken` tells where
that fails.

**Sources.**  A semicolon is written late, in front of the next line that is not blank.
`copiesAfter_writeLines` carries it over from line to line.
-/

namespace ConverterAssembly.Ruby

open Text

/-! ## Relation -/

/-- The text is written for the tokens: blanks may be shortened, and at the start of a line they are
dropped; a semicolon that ends a statement is written or not; every other token is copied, with a
margin before it at the start of a line. -/
inductive Layout.Copies (layout : Layout) : (fresh : Bool) → List Token → Text → Prop
  | nil {fresh : Bool} : Copies layout fresh [] []
  | space {fresh : Bool} {t : Token} {rest : List Token} {kept out : Text} (kind : t.kind = .space)
      (shortens : kept <+: t.text) (dropped : fresh = true → kept = [])
      (tail : Copies layout fresh rest out) : Copies layout fresh (t :: rest) (kept ++ out)
  | semicolon {fresh : Bool} {t : Token} {rest : List Token} {mark out : Text}
      (kind : t.kind = .semicolon) (breaks : layout.breaksAt t = true)
      (isMark : mark = [] ∨ mark = [';'])
      (tail : Copies layout true rest out) : Copies layout fresh (t :: rest) (mark ++ out)
  | newline {fresh : Bool} {t : Token} {rest : List Token} {out : Text} (kind : t.kind = .newline)
      (tail : Copies layout true rest out) : Copies layout fresh (t :: rest) (t.text ++ out)
  | token {fresh : Bool} {t : Token} {rest : List Token} {level : Nat} {out : Text}
      (kind : t.kind ≠ .space) (stays : layout.breaksAt t = false)
      (tail : Copies layout false rest out) :
      Copies layout fresh (t :: rest)
        ((if fresh then Text.times level layout.unit else []) ++ (t.text ++ out))

/-- A token that is copied stands in the text. -/
lemma Layout.Copies.infix_of_mem {layout : Layout} {fresh : Bool} {tokens : List Token}
    {text : Text} (h : layout.Copies fresh tokens text) {t : Token} (ht : t ∈ tokens)
    (hspace : t.kind ≠ .space)
    (hstay : layout.breaksAt t = false) : t.text <:+: text := by
  have hlater : ∀ {lead out : Text}, t.text <:+: out → t.text <:+: lead ++ out :=
    fun hout => hout.trans (List.suffix_append _ _).isInfix
  induction h with
  | nil => cases ht
  | space kind _ _ _ ih =>
      rcases List.mem_cons.1 ht with rfl | ht
      · exact absurd kind hspace
      · exact hlater (ih ht)
  | semicolon _ breaks _ _ ih =>
      rcases List.mem_cons.1 ht with rfl | ht
      · rw [hstay] at breaks
        cases breaks
      · exact hlater (ih ht)
  | newline _ _ ih =>
      rcases List.mem_cons.1 ht with rfl | ht
      · exact (List.prefix_append _ _).isInfix
      · exact hlater (ih ht)
  | token _ _ _ ih =>
      rcases List.mem_cons.1 ht with rfl | ht
      · exact hlater (List.prefix_append _ _).isInfix
      · exact hlater (hlater (ih ht))

/-- Whether the last token of a line is cut in front of a semicolon: it ends in a blank. -/
def Line.cutsToken (line : Line) : Bool :=
  line.terminator.any (·.kind = .semicolon) &&
    (line.tokens.filter isSolid).getLast?.any fun t =>
      t.1.text.getLast?.all ConverterAssembly.isBlank

/-! ## Trimming -/

/-- Blanks are trimmed after the last character that is none. -/
lemma trimEnd_append {a : Text} (ha : a.getLast?.all isBlank = false) (b : Text) :
    trimEnd (a ++ b) = a ++ trimEnd b := by
  change (a ++ b).rdropWhile isBlank = a ++ b.rdropWhile isBlank
  induction b using List.reverseRecOn with
  | nil =>
      rw [List.append_nil, List.rdropWhile_nil, List.append_nil, List.rdropWhile_eq_self_iff]
      intro hne
      rw [List.getLast?_eq_some_getLast hne, Option.all_some] at ha
      rw [ha]
      exact Bool.false_ne_true
  | append_singleton b c ih =>
      rw [← List.append_assoc, List.rdropWhile_concat, List.rdropWhile_concat]
      split_ifs
      · exact ih
      · rw [List.append_assoc]

/-- The last token that is not a blank ends the line, blanks apart. -/
lemma getLast?_rdropWhile_not {α : Type} (p : α → Bool) (ls : List α) :
    (ls.rdropWhile (!p ·)).getLast? = (ls.filter p).getLast? := by
  rw [List.getLast?_filter, List.rdropWhile, List.getLast?_reverse,
    List.find?_eq_head?_dropWhile_not]

/-- Tokens end in no blank if the last of them does not. -/
lemma getLast?_flatMap_text {tokens : List (Token × Role)}
    (h : tokens.getLast?.any (fun t => t.1.text.getLast?.all isBlank) = false) :
    tokens = [] ∨ (tokens.flatMap (·.1.text)).getLast?.all isBlank = false := by
  cases tokens using List.reverseRecOn with
  | nil => exact .inl rfl
  | append_singleton tokens t =>
      right
      rw [List.getLast?_concat, Option.any_some] at h
      obtain ⟨c, hc, hblank⟩ : ∃ c, t.1.text.getLast? = some c ∧ isBlank c = false := by
        cases hlast : t.1.text.getLast? with
        | none => simp [hlast] at h
        | some c => exact ⟨c, rfl, by simpa [hlast] using h⟩
      simp [List.getLast?_append, hc, hblank]

/-! ## Lines -/

namespace Layout

variable {layout : Layout} {rest : List Token} {out : Text}

/-- Blanks at the start of a line are dropped. -/
lemma copies_lead {lead : List (Token × Role)} (hlead : ∀ t ∈ lead, t.1.kind = .space)
    (h : layout.Copies true rest out) : layout.Copies true (lead.map (·.1) ++ rest) out := by
  induction lead with
  | nil => exact h
  | cons t lead ih =>
      rw [List.forall_mem_cons] at hlead
      exact @Copies.space layout true _ _ [] _ hlead.1 List.nil_prefix (fun _ => rfl) (ih hlead.2)

/-- Blanks within a line may be shortened at their end. -/
lemma copies_trail {trail : List (Token × Role)} (htrail : ∀ t ∈ trail, t.1.kind = .space)
    {kept : Text} (hkept : kept <+: trail.flatMap (·.1.text)) (h : layout.Copies false rest out) :
    layout.Copies false (trail.map (·.1) ++ rest) (kept ++ out) := by
  induction trail generalizing kept with
  | nil =>
      obtain rfl := List.prefix_nil.1 hkept
      exact h
  | cons t trail ih =>
      rw [List.forall_mem_cons] at htrail
      rw [List.flatMap_cons] at hkept
      rw [List.prefix_iff_eq_take.1 hkept, List.take_append, List.append_assoc]
      exact .space htrail.1 (List.take_prefix _ _) nofun (ih htrail.2 (List.take_prefix _ _))

/-- Tokens within a line are copied. -/
lemma copies_tokens {tokens : List (Token × Role)}
    (hstay : ∀ t ∈ tokens, layout.breaksAt t.1 = false) (h : layout.Copies false rest out) :
    layout.Copies false (tokens.map (·.1) ++ rest) (tokens.flatMap (·.1.text) ++ out) := by
  induction tokens with
  | nil => exact h
  | cons t tokens ih =>
      rw [List.forall_mem_cons] at hstay
      rw [List.flatMap_cons, List.append_assoc]
      by_cases hspace : t.1.kind = .space
      · exact .space hspace (List.prefix_refl _) nofun (ih hstay.2)
      · exact @Copies.token layout false _ _ 0 _ hspace hstay.1 (ih hstay.2)

/-- A token can begin a line. -/
lemma Copies.indented {t : Token} (h : layout.Copies false (t :: rest) out)
    (hspace : t.kind ≠ .space) (hstay : layout.breaksAt t = false) (level : Nat) :
    layout.Copies true (t :: rest) (Text.times level layout.unit ++ out) := by
  cases h with
  | space kind => exact absurd kind hspace
  | semicolon _ breaks => simp [hstay] at breaks
  | newline kind => simp [breaksAt, kind] at hstay
  | token kind stays tail => exact @Copies.token layout true _ _ level _ kind stays tail

variable {line : Line} (hstay : ∀ t ∈ line.tokens, layout.breaksAt t.1 = false)
include hstay

/-- The first token that is not a blank stands after the margin of its line. -/
lemma copies_line (hblank : line.isBlank = false) (height : Nat)
    (h : layout.Copies false (line.visible.map (·.1) ++ rest) out) :
    layout.Copies true (line.tokens.map (·.1) ++ rest) (layout.indentation line height ++ out) := by
  set lead := line.tokens.takeWhile (·.1.kind = .space) with hlead
  have hsplit : lead ++ line.visible = line.tokens := List.takeWhile_append_dropWhile
  have hspaces : ∀ t ∈ lead, t.1.kind = .space := by
    intro t ht
    simpa using List.mem_takeWhile_imp ht
  have hlevel : ∃ level, layout.indentation line height = Text.times level layout.unit := by
    rw [indentation]
    split_ifs
    · exact ⟨0, rfl⟩
    · exact ⟨_, rfl⟩
  obtain ⟨level, hlevel⟩ := hlevel
  rw [← hsplit, List.map_append, List.append_assoc, hlevel]
  refine copies_lead hspaces ?_
  cases hvisible : line.visible with
  | nil => simp [Line.isBlank, hvisible] at hblank
  | cons t visible =>
      rw [hvisible] at h hsplit
      have hspace : t.1.kind ≠ .space := by
        have hhead := List.head?_dropWhile_not (fun t : Token × Role => decide (t.1.kind = .space))
          line.tokens
        rw [← Line.visible, hvisible] at hhead
        simpa using hhead
      exact h.indented hspace (hstay t (by simp [← hsplit])) level

/-- In front of a semicolon a line loses its last blanks. -/
lemma copies_trimmed (hcut : line.cutsToken = false)
    (hline : line.terminator.any (·.kind = .semicolon) = true) (h : layout.Copies false rest out) :
    layout.Copies false (line.visible.map (·.1) ++ rest) (trimEnd line.body ++ out) := by
  set core := line.visible.rdropWhile (!isSolid ·) with hcore
  set trail := line.visible.rtakeWhile (!isSolid ·) with htrail
  have hsplit : core ++ trail = line.visible := List.rdropWhile_append_rtakeWhile
  have hspaces : ∀ t ∈ trail, t.1.kind = .space := by
    intro t ht
    simpa [isSolid] using List.mem_rtakeWhile_imp ht
  have hsolid : core.getLast? = (line.tokens.filter isSolid).getLast? := by
    rw [hcore, getLast?_rdropWhile_not, ← filter_dropWhile line.tokens,
      ← visible_eq _ line.terminator]
  have hstays : ∀ t ∈ core, layout.breaksAt t.1 = false := by
    intro t ht
    have hvisible : t ∈ line.visible := hsplit ▸ List.mem_append_left trail ht
    exact hstay t (List.dropWhile_subset _ hvisible)
  rw [Line.cutsToken, hline, Bool.true_and, ← hsolid] at hcut
  have hbody : trimEnd line.body =
      core.flatMap (·.1.text) ++ trimEnd (trail.flatMap (·.1.text)) := by
    rw [Line.body, ← hsplit, List.flatMap_append]
    rcases getLast?_flatMap_text hcut with hnil | hlast
    · rw [hnil]
      rfl
    · exact trimEnd_append hlast _
  rw [← hsplit, hbody, List.map_append, List.append_assoc, List.append_assoc]
  exact copies_tokens hstays (copies_trail hspaces (List.rdropWhile_prefix isBlank _) h)

omit hstay in
/-- Nothing is written for a line of blanks. -/
lemma copies_blank (hblank : line.isBlank = true) (h : layout.Copies true rest out) :
    layout.Copies true (line.tokens.map (·.1) ++ rest) out := by
  refine copies_lead ?_ h
  have hall := List.dropWhile_eq_nil_iff.1 (List.isEmpty_iff.1 hblank)
  simpa using hall

end Layout

/-! ## Sources -/

/-- The text is written for the tokens, from the start of a line.  Where a semicolon is still to be
written, it stands before all else, or it is dropped. -/
def Layout.CopiesAfter (layout : Layout) (pending : Bool) (tokens : List Token)
    (text : Text) : Prop :=
  ∃ mark out, text = mark ++ out ∧ (mark = [] ∨ pending = true ∧ mark = [';']) ∧
    layout.Copies true tokens out

namespace Layout

variable {layout : Layout} {line : Line} (hstay : ∀ t ∈ line.tokens, layout.breaksAt t.1 = false)
  (pending : Bool) (height : Nat)

lemma isMark_pending : (if pending then [';'] else []) = ([] : Text) ∨
    pending = true ∧ (if pending then [';'] else []) = [';'] := by
  cases pending <;> simp

include hstay

/-- A line that nothing ends. -/
lemma copiesAfter_last (hline : line.terminator = none) :
    layout.CopiesAfter pending (line.tokens.map (·.1))
      (layout.writeLines pending height [line]) := by
  rw [writeLines, hline]
  by_cases hblank : line.isBlank = true
  · rw [if_pos hblank]
    refine ⟨[], [], rfl, .inl rfl, ?_⟩
    have hcopies : layout.Copies true (line.tokens.map (·.1) ++ []) [] := copies_blank hblank .nil
    simpa using hcopies
  · rw [if_neg hblank, List.append_assoc]
    refine ⟨_, _, rfl, isMark_pending pending, ?_⟩
    have hvisible : layout.Copies false (line.visible.map (·.1) ++ []) (line.body ++ []) :=
      copies_tokens (fun t ht => hstay t (List.dropWhile_subset _ ht)) .nil
    simpa [writeLines] using copies_line hstay (by simpa using hblank) height hvisible

variable {n : Token × Role} {rest : List (Token × Role)}

/-- A line that a line feed ends. -/
lemma copiesAfter_newline (hline : line.terminator = some n.1) (hkind : n.1.kind = .newline)
    (ih : layout.CopiesAfter false (rest.map (·.1)) (layout.writeLines false
      (heightAfter height line.tokens) (layout.splitLines rest))) :
    layout.CopiesAfter pending ((line.tokens ++ n :: rest).map (·.1))
      (layout.writeLines pending height (line :: layout.splitLines rest)) := by
  obtain ⟨mark, out, hout, rfl | ⟨hpending, -⟩, hcopies⟩ := ih
  swap
  · cases hpending
  rw [List.nil_append] at hout
  have hfeed : ∀ fresh, layout.Copies fresh (n.1 :: rest.map (·.1)) (n.1.text ++ out) :=
    fun fresh => .newline hkind hcopies
  rw [writeLines, hline, List.map_append, List.map_cons]
  simp only [hkind, reduceCtorEq, ↓reduceIte, hout]
  by_cases hblank : line.isBlank = true
  · rw [if_pos hblank]
    exact ⟨[], _, rfl, .inl rfl, copies_blank hblank (hfeed true)⟩
  · rw [if_neg hblank, List.append_assoc, List.append_assoc]
    refine ⟨_, _, rfl, isMark_pending pending, copies_line hstay (by simpa using hblank) height ?_⟩
    exact copies_tokens (fun t ht => hstay t (List.dropWhile_subset _ ht)) (hfeed false)

/-- A line that a semicolon ends.  Empty statements after it leave the
semicolon to the next line. -/
lemma copiesAfter_semicolon (hcut : line.cutsToken = false) (hline : line.terminator = some n.1)
    (hkind : n.1.kind = .semicolon) (hbreak : layout.breaksAt n.1 = true)
    (ih : ∀ pending, layout.CopiesAfter pending (rest.map (·.1)) (layout.writeLines pending
      (heightAfter height line.tokens) (layout.splitLines rest))) :
    layout.CopiesAfter pending ((line.tokens ++ n :: rest).map (·.1))
      (layout.writeLines pending height (line :: layout.splitLines rest)) := by
  rw [writeLines, hline, List.map_append, List.map_cons]
  simp only [hkind, ↓reduceIte]
  by_cases hblank : line.isBlank = true
  · obtain ⟨mark, out, hout, hmark, hcopies⟩ := ih pending
    rw [if_pos hblank, hout]
    have hempty : layout.Copies true (n.1 :: rest.map (·.1)) ([] ++ out) :=
      .semicolon hkind hbreak (.inl rfl) hcopies
    exact ⟨mark, out, rfl, hmark, copies_blank hblank hempty⟩
  · obtain ⟨mark, out, hout, hmark, hcopies⟩ := ih true
    rw [if_neg hblank, hout, List.append_assoc]
    refine ⟨_, _, rfl, isMark_pending pending, copies_line hstay (by simpa using hblank) height ?_⟩
    refine copies_trimmed hstay hcut (by simp [hline, hkind]) ?_
    exact .semicolon hkind hbreak (hmark.imp_right And.right) hcopies

omit hstay in
/-- The lines of a source are copied. -/
theorem copiesAfter_writeLines (tokens : List (Token × Role))
    (hcut : ∀ line ∈ layout.splitLines tokens, line.cutsToken = false) :
    layout.CopiesAfter pending (tokens.map (·.1))
      (layout.writeLines pending height (layout.splitLines tokens)) := by
  induction tokens using break_induction (fun t : Token × Role => layout.breaksAt t.1)
    generalizing pending height with
  | last ls hls =>
      by_cases hne : ls = []
      · subst hne
        exact ⟨_, [], (List.append_nil _).symm, isMark_pending pending, .nil⟩
      · rw [splitLines_of_no_break hne hls]
        exact @copiesAfter_last layout ⟨ls, none⟩ hls pending height rfl
  | line ls n rest hls hn ih =>
      rw [splitLines_append_break hls hn] at hcut ⊢
      rw [List.forall_mem_cons] at hcut
      by_cases hkind : n.1.kind = .newline
      · exact @copiesAfter_newline layout ⟨ls, some n.1⟩ hls pending height n rest rfl hkind
          (ih false _ hcut.2)
      · have hkind' : n.1.kind = .semicolon := by
          simp only [breaksAt, hkind, decide_false, Bool.false_or, Bool.and_eq_true,
            decide_eq_true_eq] at hn
          exact hn.2
        exact @copiesAfter_semicolon layout ⟨ls, some n.1⟩ hls pending height n rest hcut.1 rfl
          hkind' hn fun pending => ih pending _ hcut.2

end Layout

/-- Every token that is no blank and ends no line is written once and in order with its whole text,
and so is every line feed with its heredoc bodies.  The rest is margins, blanks of the source, and
semicolons that ended a statement.  This holds where no line cuts a token that ends in a blank. -/
theorem format_copies_tokens (layout : Layout) (source : Text)
    (h : ∀ line ∈ layout.splitLines (withRoles (tokenize source).tokens), line.cutsToken = false) :
    layout.Copies true (tokenize source).tokens (layout.format source) := by
  obtain ⟨mark, out, hout, rfl | ⟨hpending, -⟩, hcopies⟩ :=
    layout.copiesAfter_writeLines false 0 (withRoles (tokenize source).tokens) h
  · rw [map_fst_withRoles] at hcopies
    rw [Layout.format, hout]
    exact hcopies
  · cases hpending

/-- An empty statement, blanks before a semicolon and a heredoc. -/
theorem format_copies_tokens_heredoc :
    let layout : Layout := { breaksStatements := true }
    let source := "if x ; ;\ty\nz(<<E) ;\n b\nE\nend".toList
    (∀ line ∈ layout.splitLines (withRoles (tokenize source).tokens), line.cutsToken = false) ∧
      layout.Copies true (tokenize source).tokens "if x;  y\n  z(<<E)\n b\nE\nend".toList := by
  intro layout source
  have hcut : ∀ line ∈ layout.splitLines (withRoles (tokenize source).tokens),
      line.cutsToken = false := by decide
  have hcopies := format_copies_tokens layout source hcut
  have hformat : layout.format source = "if x;  y\n  z(<<E)\n b\nE\nend".toList := by decide
  rw [hformat] at hcopies
  exact ⟨hcut, hcopies⟩

/-- The character literal of an escaped blank loses the blank in front of a semicolon. -/
theorem format_cuts_escaped_blank :
    let layout : Layout := { breaksStatements := true }
    let source := "x = ?\\ ; y".toList
    layout.format source = "x = ?\\;y".toList ∧
      (∃ t ∈ (tokenize source).tokens, t.kind = .literal ∧ ¬ t.text <:+: layout.format source) ∧
      ¬ layout.Copies true (tokenize source).tokens (layout.format source) := by
  intro layout source
  have hmem : ⟨⟨.literal, "?\\ ".toList⟩, 4, 1⟩ ∈ (tokenize source).tokens := by decide
  have hcut : ¬ "?\\ ".toList <:+: layout.format source := by decide
  refine ⟨by decide, ⟨_, hmem, rfl, hcut⟩, fun hcopies => hcut ?_⟩
  exact hcopies.infix_of_mem hmem (by decide) (by decide)

end ConverterAssembly.Ruby
