import ConverterAssembly.Proofs.Ruby.Margins
import ConverterAssembly.Proofs.Text.Runs
import ConverterAssembly.Proofs.Ruby.Cuts
import ConverterAssembly.Ruby.Pretty

/-!
# What laying out conserves

Laying out a source, and putting a fragment in readable form, add and drop *filler* only: blanks,
semicolons, backslashes that hide a line feed, and placeholders.  So for any class of characters
without filler, the runs of these characters stay the same, in the same order, whether or not the
source is well formed.

**Tokens.**  `Token.Sound` is what the argument needs to know of a token list, and `sound_tokenize`
says that every source has such tokens.

**Layout.**  `Layout.conserves_writeLines` goes line by line.  The runs of a line are those of its
body, since its margin is filler; between two lines stands a line feed or a semicolon, in the source
and in the result.

**Fragments.**  `runs_prettyPrint` follows a fragment through its wrapper.  The opening of the
wrapper always comes off; its `end` may be left behind, as one more run at the end.  For the
characters that are no filler at all this is `pieces_prettyPrint`.
-/

namespace ConverterAssembly.Ruby

open Text

/-- Characters that laying out may add or drop. -/
def isFiller (c : Char) : Bool :=
  isBlank c || c = ';' || c = '\\' || c = placeholder

/-! ## Tokens -/

/-- What the text of a token tells about its kind; `after` are the tokens that follow. -/
structure Token.Sound (t : Token) (after : List Token) : Prop where
  space : t.kind = .space → ∀ c ∈ t.text, isFiller c = true
  semicolon : t.kind = .semicolon → t.text = [';']
  newline : t.kind = .newline →
    t.text.head? = some '\n' ∧ (after = [] ∨ t.text.getLast? = some '\n')

/-- Every token of the list is sound in its place. -/
def SoundTokens (tokens : List Token) : Prop :=
  ∀ before t after, tokens = before ++ t :: after → t.Sound after

lemma SoundTokens.drop {a b : List Token} (h : SoundTokens (a ++ b)) : SoundTokens b := by
  rintro before t after rfl
  exact h (a ++ before) t after (by simp)

lemma isFiller_of_isGap {c : Char} (h : isGap c = true) : isFiller c = true := by
  simp only [isGap, Bool.or_eq_true, decide_eq_true_eq] at h
  rcases h with (((rfl | rfl) | rfl) | rfl) | rfl <;> decide

lemma Context.isFiller_of_scan_space (ctx : Context) (line : Nat) {c : Char} {cs : Text}
    (h : (ctx.scan line c cs).kind = .space) :
    ∀ d ∈ c :: cs.take (ctx.scan line c cs).extent.size, isFiller d = true := by
  rcases ctx.of_scan_space line h with hgap | ⟨rfl, hnext⟩
  · rw [ctx.scan_gap line hgap]
    refine List.forall_mem_cons.2 ⟨isFiller_of_isGap hgap, fun d hd => isFiller_of_isGap ?_⟩
    have hrun : cs.take (cs.takeWhile isGap).length = cs.takeWhile isGap :=
      (List.prefix_iff_eq_take.1 (List.takeWhile_prefix isGap)).symm
    rw [show (ctx.plain line .space (cs.takeWhile isGap).length).extent.size =
      (cs.takeWhile isGap).length from rfl, hrun] at hd
    exact List.mem_takeWhile_imp hd
  · obtain ⟨ds, rfl⟩ : ∃ ds, cs = '\n' :: ds := by
      cases cs with
      | nil => cases hnext
      | cons d ds => exact ⟨ds, by rw [Option.some.inj hnext]⟩
    rw [ctx.scan_continuation line]
    have hhidden : ∀ d ∈ ['\\', '\n'], isFiller d = true := List.all_eq_true.1 (by decide)
    exact hhidden

lemma sound_tokensFrom (ctx : Context) (start line skip : Nat) (text : Text) :
    SoundTokens (tokensFrom ctx start line skip text).tokens := by
  induction text generalizing ctx start line skip with
  | nil =>
      intro before t after h
      cases skip <;> simp [tokensFrom] at h
  | cons c cs ih =>
      cases skip with
      | succ skip => exact ih ctx start line skip
      | zero =>
          intro before t after h
          rw [tokensFrom] at h
          cases before with
          | cons u before => exact ih _ _ _ _ before t after (List.cons.inj h).2
          | nil =>
              obtain ⟨rfl, rfl⟩ := List.cons.inj h
              refine ⟨ctx.isFiller_of_scan_space line, fun hkind => ?_, fun hkind => ?_⟩
              · obtain rfl := ctx.of_scan_semicolon line hkind
                rw [ctx.scan_semicolon line]
                rfl
              · obtain rfl := ctx.of_scan_newline line hkind
                refine ⟨rfl, ?_⟩
                by_cases hrest : cs.drop (ctx.scan line '\n' cs).extent.size = []
                · left
                  rw [tokensFrom_drop, hrest]
                  rfl
                · exact .inr (ctx.getLast?_of_scan_newline line hrest)

lemma sound_tokenize (source : Text) : SoundTokens (tokenize source).tokens :=
  sound_tokensFrom {} 0 1 0 source

/-! ## Layout -/

variable {keep : Char → Bool}

section

variable (hkeep : ∀ c, isFiller c = true → keep c = false)
include hkeep

/-- Blanks before the body of a line are in no run. -/
lemma Line.runs_tokens {line : Line} (hspace : ∀ t ∈ line.tokens, t.1.kind = .space →
    ∀ c ∈ t.1.text, isFiller c = true) (rest : Text) :
    runs keep (line.tokens.flatMap (·.1.text) ++ rest) = runs keep (line.body ++ rest) := by
  set lead := line.tokens.takeWhile (·.1.kind = .space) with hlead
  have hsplit : lead ++ line.visible = line.tokens := List.takeWhile_append_dropWhile
  have hbreaks : ∀ c ∈ lead.flatMap (·.1.text), keep c = false := by
    intro c hc
    obtain ⟨t, ht, hct⟩ := List.mem_flatMap.1 hc
    have hkind : t.1.kind = .space := by simpa using List.mem_takeWhile_imp ht
    exact hkeep c (hspace t (List.takeWhile_subset _ ht) hkind c hct)
  rw [← hsplit, List.flatMap_append, List.append_assoc, runs_breaks_append hbreaks, body]

/-- A line feed divides the runs before it from those after it, and only the latter can change with
what follows. -/
lemma Token.Sound.runs_newline {n : Token} {after : List Token} (h : n.Sound after)
    (hkind : n.kind = .newline) {a b : Text} (hnone : after = [] → a = b)
    (hab : runs keep a = runs keep b) (front : Text) :
    runs keep (front ++ (n.text ++ a)) = runs keep front ++ runs keep (n.text ++ b) := by
  obtain ⟨hhead, hlast⟩ := h.newline hkind
  have hfeed : keep '\n' = false := hkeep _ (by decide)
  have hbreak : ∀ c ∈ (n.text ++ a).head?, keep c = false := by
    rw [List.head?_append, hhead]
    rintro c ⟨⟩
    exact hfeed
  rw [runs_append_of_head hbreak]
  rcases hlast with hnil | hlast
  · rw [hnone hnil]
  · have hend : ∀ c ∈ n.text.getLast?, keep c = false := by
      rw [hlast]
      rintro c ⟨⟩
      exact hfeed
    rw [runs_append_of_last hend, runs_append_of_last hend, hab]

variable (keep) in
/-- The text written for a source holds the runs of the source.  Where a semicolon is still to be
written, it begins with a break or is empty. -/
structure Conserves (pending : Bool) (written source : Text) : Prop where
  runs_eq : runs keep written = runs keep source
  head : pending = true → ∀ c ∈ written.head?, keep c = false

/-- A margin, with a semicolon before it or not, is in no run. -/
lemma Layout.conserves_margin {layout : Layout} (hchar : keep layout.indentChar = false)
    (line : Line) (height : Nat) (pending : Bool) {text source : Text}
    (h : runs keep text = runs keep source) :
    Conserves keep pending
      ((if pending then [';'] else []) ++ layout.indentation line height ++ text) source := by
  have hsemicolon : keep ';' = false := hkeep _ (by decide)
  have hbreaks : ∀ c ∈ layout.indentation line height, keep c = false :=
    fun c hc => layout.eq_indentChar_of_mem_indentation hc ▸ hchar
  have hindent := runs_breaks_append hbreaks text
  cases pending with
  | true =>
      refine ⟨?_, fun _ c hc => ?_⟩
      · rw [if_pos rfl, List.append_assoc, List.singleton_append, runs_cons_break hsemicolon,
          hindent, h]
      · obtain rfl : ';' = c := by simpa using hc
        exact hsemicolon
  | false =>
      refine ⟨?_, fun hpending => by cases hpending⟩
      rw [if_neg Bool.false_ne_true, List.nil_append, hindent, h]

section

variable {layout : Layout} (hchar : keep layout.indentChar = false) {line : Line}
  (hspace : ∀ t ∈ line.tokens, t.1.kind = .space → ∀ c ∈ t.1.text, isFiller c = true)
  (pending : Bool) (height : Nat)
include hchar hspace

/-- A line that nothing ends. -/
lemma Layout.conserves_last (hline : line.terminator = none) :
    Conserves keep pending (layout.writeLines pending height [line])
      (line.tokens.flatMap (·.1.text)) := by
  have hbody := Line.runs_tokens hkeep hspace []
  rw [List.append_nil, List.append_nil] at hbody
  rw [writeLines, hline]
  by_cases hblank : line.isBlank = true
  · have hnil : line.body = [] := by simp [Line.body, List.isEmpty_iff.1 hblank]
    rw [if_pos hblank]
    refine ⟨?_, by simp [writeLines]⟩
    rw [hbody, hnil]
    rfl
  · rw [if_neg hblank]
    refine layout.conserves_margin hkeep hchar line height pending ?_
    rw [hbody]
    simp [writeLines]

variable {n : Token} {rest : List (Token × Role)}

/-- A line that a line feed ends. -/
lemma Layout.conserves_newline (hline : line.terminator = some n) (hkind : n.kind = .newline)
    (hn : n.Sound (rest.map (·.1)))
    (ih : Conserves keep false (layout.writeLines false (heightAfter height line.tokens)
      (layout.splitLines rest)) (rest.flatMap (·.1.text))) :
    Conserves keep pending (layout.writeLines pending height (line :: layout.splitLines rest))
      (line.tokens.flatMap (·.1.text) ++ (n.text ++ rest.flatMap (·.1.text))) := by
  have hnone : rest.map (·.1) = [] → layout.writeLines false (heightAfter height line.tokens)
      (layout.splitLines rest) = rest.flatMap (·.1.text) := by
    intro h
    rw [List.map_eq_nil_iff.1 h]
    rfl
  have hsource : runs keep (line.tokens.flatMap (·.1.text) ++ (n.text ++ rest.flatMap (·.1.text))) =
      runs keep line.body ++ runs keep (n.text ++ rest.flatMap (·.1.text)) := by
    rw [Line.runs_tokens hkeep hspace, hn.runs_newline hkeep hkind (fun _ => rfl) rfl]
  have hwritten := hn.runs_newline hkeep hkind hnone ih.runs_eq
  rw [writeLines, hline]
  simp only [hkind, reduceCtorEq, ↓reduceIte]
  by_cases hblank : line.isBlank = true
  · have hnil : line.body = [] := by simp [Line.body, List.isEmpty_iff.1 hblank]
    rw [if_pos hblank]
    refine ⟨?_, fun _ c hc => ?_⟩
    · rw [hsource, hnil]
      exact hwritten []
    · rw [List.head?_append, (hn.newline hkind).1] at hc
      obtain rfl : '\n' = c := by simpa using hc
      exact hkeep _ (by decide)
  · rw [if_neg hblank]
    refine layout.conserves_margin hkeep hchar line height pending ?_
    rw [List.append_assoc, hwritten, hsource]

/-- A line that a semicolon ends.  Empty statements after it leave the
semicolon to the next line. -/
lemma Layout.conserves_semicolon (hline : line.terminator = some n) (hkind : n.kind = .semicolon)
    (hn : n.Sound (rest.map (·.1)))
    (ih : ∀ pending, Conserves keep pending (layout.writeLines pending
      (heightAfter height line.tokens) (layout.splitLines rest)) (rest.flatMap (·.1.text))) :
    Conserves keep pending (layout.writeLines pending height (line :: layout.splitLines rest))
      (line.tokens.flatMap (·.1.text) ++ (n.text ++ rest.flatMap (·.1.text))) := by
  have hsemicolon : keep ';' = false := hkeep _ (by decide)
  have hsource : runs keep (line.tokens.flatMap (·.1.text) ++ (n.text ++ rest.flatMap (·.1.text))) =
      runs keep line.body ++ runs keep (rest.flatMap (·.1.text)) := by
    rw [Line.runs_tokens hkeep hspace, hn.semicolon hkind, List.singleton_append,
      runs_append_break hsemicolon]
  rw [writeLines, hline]
  simp only [hkind, ↓reduceIte]
  by_cases hblank : line.isBlank = true
  · have hnil : line.body = [] := by simp [Line.body, List.isEmpty_iff.1 hblank]
    rw [if_pos hblank]
    refine ⟨?_, (ih pending).head⟩
    rw [hsource, hnil]
    exact (ih pending).runs_eq
  · have hblanks : ∀ c, isBlank c = true → keep c = false := by
      intro c hc
      exact hkeep c (by simp [isFiller, hc])
    rw [if_neg hblank]
    refine layout.conserves_margin hkeep hchar line height pending ?_
    rw [runs_append_of_head ((ih true).head rfl), runs_trimEnd hblanks, (ih true).runs_eq, hsource]

end

/-- Laid-out tokens hold the runs of their texts. -/
lemma Layout.conserves_writeLines {layout : Layout} (hchar : keep layout.indentChar = false)
    (tokens : List (Token × Role)) (hsound : SoundTokens (tokens.map (·.1))) (pending : Bool)
    (height : Nat) :
    Conserves keep pending (layout.writeLines pending height (layout.splitLines tokens))
      (tokens.flatMap (·.1.text)) := by
  have hspace : ∀ ls rest : List (Token × Role), SoundTokens ((ls ++ rest).map (·.1)) →
      ∀ t ∈ ls, t.1.kind = .space → ∀ c ∈ t.1.text, isFiller c = true := by
    intro ls rest hsound t ht
    obtain ⟨before, after, rfl⟩ := List.append_of_mem ht
    exact (hsound (before.map (·.1)) t.1 ((after ++ rest).map (·.1)) (by simp)).space
  induction tokens using break_induction (fun t : Token × Role => layout.breaksAt t.1)
    generalizing pending height with
  | last ls hls =>
      by_cases hne : ls = []
      · subst hne
        cases pending with
        | true => exact ⟨runs_cons_break (hkeep _ (by decide)) [], by
            rintro - c ⟨⟩
            exact hkeep _ (by decide)⟩
        | false => exact ⟨rfl, by rintro ⟨⟩⟩
      · rw [splitLines_of_no_break hne hls]
        exact layout.conserves_last hkeep hchar
          (hspace ls [] (by simpa using hsound)) pending height rfl
  | line ls n rest hls hn ih =>
      have hn' : n.1.Sound (rest.map (·.1)) := hsound (ls.map (·.1)) n.1 _ (by simp)
      have hrest : SoundTokens (rest.map (·.1)) := by
        refine SoundTokens.drop (a := (ls ++ [n]).map (·.1)) ?_
        simpa using hsound
      have hline : ∀ t ∈ (⟨ls, some n.1⟩ : Line).tokens, t.1.kind = .space →
          ∀ c ∈ t.1.text, isFiller c = true := hspace ls (n :: rest) hsound
      rw [splitLines_append_break hls hn, List.flatMap_append, List.flatMap_cons]
      by_cases hkind : n.1.kind = .newline
      · exact layout.conserves_newline hkeep hchar hline pending height rfl hkind hn'
          (ih hrest false _)
      · have hkind' : n.1.kind = .semicolon := by
          simp only [breaksAt, hkind, decide_false, Bool.false_or, Bool.and_eq_true,
            decide_eq_true_eq] at hn
          exact hn.2
        exact layout.conserves_semicolon hkeep hchar hline pending height rfl hkind' hn'
          fun pending => ih hrest pending _

/-- Laying out a source keeps the runs of all characters but filler. -/
theorem Layout.runs_format {layout : Layout} (hchar : keep layout.indentChar = false)
    (source : Text) : runs keep (layout.format source) = runs keep source := by
  have hsound : SoundTokens ((withRoles (tokenize source).tokens).map (·.1)) := by
    rw [map_fst_withRoles]
    exact sound_tokenize source
  have hsource : (withRoles (tokenize source).tokens).flatMap (·.1.text) = source := by
    have htexts := sourceOf_tokensFrom {} 0 1 0 source
    rw [← map_fst_withRoles (tokensFrom {} 0 1 0 source).tokens, sourceOf, List.flatMap_map]
      at htexts
    exact htexts
  rw [format, (layout.conserves_writeLines hkeep hchar _ hsound false 0).runs_eq, hsource]

/-! ## Fragments -/

omit hkeep in
lemma exists_lead_dropLeadingSemicolon (line : Text) :
    ∃ lead, line = lead ++ dropLeadingSemicolon line ∧ ∀ c ∈ lead, isFiller c = true := by
  set blanks := line.takeWhile fun c => c = ' ' || c = '\t' with hblanks
  have hsplit : blanks ++ (line.dropWhile fun c => c = ' ' || c = '\t') = line :=
    List.takeWhile_append_dropWhile
  have hfiller : ∀ c ∈ blanks, isFiller c = true := by
    intro c hc
    have hc := List.mem_takeWhile_imp hc
    simp only [Bool.or_eq_true, decide_eq_true_eq] at hc
    rcases hc with rfl | rfl <;> decide
  unfold dropLeadingSemicolon
  split
  · rename_i c rest hrest
    split_ifs with hc
    · subst hc
      refine ⟨blanks ++ [';'], ?_, ?_⟩
      · rw [hrest] at hsplit
        simp [← hsplit]
      · simp only [List.mem_append, List.mem_singleton]
        rintro c (hc | rfl)
        · exact hfiller c hc
        · decide
    · exact ⟨[], rfl, by simp⟩
  · exact ⟨[], rfl, by simp⟩

lemma runs_dropLeadingSemicolons (text : Text) :
    runs keep (dropLeadingSemicolons text) = runs keep text := by
  refine runs_flatMap_lines (hkeep _ (by decide)) (fun line => ?_) text
  obtain ⟨lead, heq, hfiller⟩ := exists_lead_dropLeadingSemicolon line
  exact ⟨lead, heq, fun c hc => hkeep c (hfiller c hc)⟩

omit hkeep in
lemma exists_eq_append_last_feed {text : Text} (h : '\n' ∈ text) :
    ∃ front, text = front ++ '\n' :: (text.reverse.takeWhile (· ≠ '\n')).reverse := by
  obtain ⟨after, before, hsplit, hafter⟩ := List.eq_append_cons_of_mem (List.mem_reverse.2 h)
  have hrun : text.reverse.takeWhile (· ≠ '\n') = after := by
    rw [hsplit, List.takeWhile_append_of_pos, List.takeWhile_cons_of_neg (by simp), List.append_nil]
    intro c hc
    simpa using fun heq : c = '\n' => hafter (heq ▸ hc)
  refine ⟨before.reverse, ?_⟩
  rw [hrun, ← List.reverse_inj, hsplit]
  simp

omit hkeep in
/-- Only blanks fall away with a semicolon, and a line feed or nothing follows them. -/
lemma of_trailingBlanks? {text : Text} {size : Nat} (h : trailingBlanks? text = some size) :
    (∀ c ∈ text.take size, isBlank c = true) ∧ ∀ c ∈ (text.drop size).head?, c = '\n' := by
  rw [trailingBlanks?] at h
  set blanks := text.takeWhile isBlank with hblanks
  have hsplit : blanks ++ text.drop blanks.length = text := by
    conv_rhs => rw [← List.take_append_drop blanks.length text,
      ← List.prefix_iff_eq_take.1 (List.takeWhile_prefix isBlank)]
  have hblank : ∀ c ∈ blanks, isBlank c = true := fun c hc => List.mem_takeWhile_imp hc
  split_ifs at h with hnil hfeed
  · obtain rfl := Option.some.inj h
    rw [List.isEmpty_iff.1 hnil]
    refine ⟨fun c hc => ?_, by simp⟩
    rw [← List.prefix_iff_eq_take.1 (List.takeWhile_prefix isBlank)] at hc
    exact hblank c hc
  · -- the blanks are cut at their last line feed
    obtain ⟨front, hfront⟩ := exists_eq_append_last_feed (by simpa using hfeed : '\n' ∈ blanks)
    have hsize : size = front.length := by
      have hlength := congrArg List.length hfront
      rw [List.length_append, List.length_cons, List.length_reverse] at hlength
      rw [← Option.some.inj h]
      omega
    have htext : text = front ++ '\n' :: ((blanks.reverse.takeWhile (· ≠ '\n')).reverse ++
        text.drop blanks.length) := by
      conv_lhs => rw [← hsplit]
      nth_rewrite 1 [hfront]
      rw [List.append_assoc, List.cons_append]
    rw [hsize, htext, List.take_left, List.drop_left]
    refine ⟨fun c hc => hblank c ?_, by simp⟩
    rw [hfront]
    exact List.mem_append_left _ hc

lemma sameRuns_dropTrailingSemicolonsFrom (skip : Nat) (text : Text) :
    SameRuns keep (dropTrailingSemicolonsFrom skip text) (text.drop skip) := by
  fun_induction dropTrailingSemicolonsFrom skip text with
  | case1 => 
      rw [List.drop_nil]
      exact .refl []
  | case2 skip c cs ih => exact ih
  | case3 cs size hsize ih =>
      obtain ⟨hblanks, hhead⟩ := of_trailingBlanks? hsize
      have hdropped : ∀ c ∈ ';' :: cs.take size, keep c = false := by
        refine List.forall_mem_cons.2 ⟨hkeep _ (by decide), fun c hc => hkeep c ?_⟩
        simp [isFiller, hblanks c hc]
      have hnext : ∀ c ∈ (cs.drop size).head?, keep c = false := by
        intro c hc
        rw [hhead c hc]
        exact hkeep _ (by decide)
      have hfalls := SameRuns.drop_breaks hdropped hnext
      rw [List.cons_append, List.take_append_drop] at hfalls
      exact ih.trans hfalls.symm
  | case4 cs hnone ih => exact ih.cons _
  | case5 c cs hc ih => exact ih.cons c

lemma runs_wrapFragment (code : Text) :
    runs keep (wrapFragment code) = runs keep (wrapperOpening ++ code ++ wrapperClosing) := by
  rw [wrapFragment, dropTrailingSemicolons,
    (sameRuns_dropTrailingSemicolonsFrom hkeep 0 _).runs_eq, List.drop_zero,
    runs_dropLeadingSemicolons hkeep]

end

/-- The wrapper opens before everything else. -/
lemma exists_wrapFragment_eq (code : Text) :
    ∃ rest, wrapFragment code = wrapperOpening ++ rest := by
  have hlead : ∀ text, dropLeadingSemicolons (wrapperOpening ++ text) =
      wrapperOpening ++ dropLeadingSemicolons text := by
    intro text
    rw [show wrapperOpening = "module M_".toList ++ ['\n'] from rfl, List.append_assoc,
      List.singleton_append, dropLeadingSemicolons, lines_line (by decide), List.flatMap_cons]
    rfl
  rw [wrapFragment, List.append_assoc, hlead]
  exact ⟨_, rfl⟩

/-- The first line of a wrapped fragment stays as it is. -/
lemma exists_format_wrapped_eq (indentCount : Nat) (text : Text) :
    ∃ rest, (wrappedLayout indentCount).format (wrapperOpening ++ text) =
      wrapperOpening ++ rest := by
  have hpassage : Passage wrapperOpening (lexemesOf wrapperOpening) :=
    passage_of_isPassage (by decide)
  have hlexemes : lexemesOf wrapperOpening =
      [⟨.keyword, "module".toList⟩, ⟨.space, [' ']⟩, ⟨.ident, "M_".toList⟩, lineFeed] := by decide
  obtain ⟨ctx, hreads, -⟩ := hpassage text {} (startsLine_initial [])
  obtain ⟨tokens, line, htokens, hrest, -⟩ := tokensFrom_append_of_reads hreads 0 1
  rw [hlexemes] at htokens
  match tokens, htokens with
  | [⟨l₁, _, _⟩, ⟨l₂, _, _⟩, ⟨l₃, _, _⟩, ⟨l₄, _, _⟩], htokens =>
      simp only [List.map_cons, List.map_nil, List.cons.injEq, and_true] at htokens
      obtain ⟨rfl, rfl, rfl, rfl⟩ := htokens
      rw [Layout.format, tokenize, hrest]
      exact ⟨_, rfl⟩

/-- The text with a line break for each semicolon before a placeholder. -/
def brokenAtMarks (text : Text) : Text :=
  replace [';', placeholder] ['\n', placeholder] text

/-- The text with each line one level further out, and with blanks for the
placeholders that are left. -/
def unmarked (indentCount : Nat) (text : Text) : Text :=
  ((lines text).flatMap fun line =>
    (dropStart? (List.replicate indentCount placeholder) line).getD line).map
      fun c => if c = placeholder then ' ' else c

/-- A laid-out text with its placeholders gone: marked semicolons become line breaks, and each line
loses the level of the wrapper. -/
def withoutMarks (indentCount : Nat) (text : Text) : Text :=
  unmarked indentCount (brokenAtMarks text)

/-- The opening of the wrapper comes off. -/
lemma unwrapFragment_wrapperOpening (indentCount : Nat) (text : Text) :
    unwrapFragment indentCount (wrapperOpening ++ text) =
      (dropEnd? wrapperClosing (withoutMarks indentCount text)).getD
        (withoutMarks indentCount text) := by
  have hline : (dropStart? (List.replicate indentCount placeholder) wrapperOpening).getD
      wrapperOpening = wrapperOpening := by
    cases indentCount with
    | zero => rfl
    | succ count => rfl
  have hmarks : withoutMarks indentCount (wrapperOpening ++ text) =
      wrapperOpening ++ withoutMarks indentCount text := by
    rw [withoutMarks, brokenAtMarks, replace_append_of_not_mem (by decide), unmarked,
      show wrapperOpening = "module M_".toList ++ ['\n'] from rfl, List.append_assoc,
      List.singleton_append, lines_line (by decide), List.flatMap_cons, List.map_append]
    change (Option.getD (dropStart? _ wrapperOpening) wrapperOpening).map _ ++ _ = _
    rw [hline]
    rfl
  have hdrop : dropStart? wrapperOpening (withoutMarks indentCount (wrapperOpening ++ text)) =
      some (withoutMarks indentCount text) := dropStart?_eq_some_iff.2 hmarks
  change (dropEnd? wrapperClosing ((dropStart? wrapperOpening
    (withoutMarks indentCount (wrapperOpening ++ text))).getD _)).getD
      ((dropStart? wrapperOpening (withoutMarks indentCount (wrapperOpening ++ text))).getD _) = _
  rw [hdrop, Option.getD_some]

lemma runs_withoutMarks {keep : Char → Bool} (hkeep : ∀ c, isFiller c = true → keep c = false)
    (indentCount : Nat) (text : Text) :
    runs keep (withoutMarks indentCount text) = runs keep text := by
  have hfeed : keep '\n' = false := hkeep _ (by decide)
  have hplaceholder : keep placeholder = false := hkeep _ (by decide)
  have hpattern : ∀ c ∈ [';', placeholder], keep c = false := by
    simp [hplaceholder, hkeep ';' (by decide)]
  have hsubstitute : ∀ c ∈ ['\n', placeholder], keep c = false := by simp [hplaceholder, hfeed]
  have hlead : ∀ line : Text, ∃ lead, line = lead ++
      (dropStart? (List.replicate indentCount placeholder) line).getD line ∧
        ∀ c ∈ lead, keep c = false := by
    intro line
    cases hdrop : dropStart? (List.replicate indentCount placeholder) line with
    | none => exact ⟨[], rfl, by simp⟩
    | some rest =>
        refine ⟨List.replicate indentCount placeholder, dropStart?_eq_some_iff.1 hdrop, ?_⟩
        intro c hc
        rw [List.eq_of_mem_replicate hc]
        exact hplaceholder
  have hblank : ∀ c, keep c = false → keep (if c = placeholder then ' ' else c) = false := by
    intro c hc
    split_ifs
    · exact hkeep _ (by decide)
    · exact hc
  have hkept : ∀ c, keep c = true → (if c = placeholder then ' ' else c) = c := by
    intro c hc
    rw [if_neg]
    rintro rfl
    rw [hplaceholder] at hc
    cases hc
  rw [withoutMarks, unmarked, (sameRuns_map hkept hblank _).runs_eq, runs_flatMap_lines hfeed hlead,
    brokenAtMarks, (sameRuns_replace (by simp) (by simp) hpattern hsubstitute text).runs_eq]

/-- The runs of a fragment in readable form are those of the fragment, or one more follows them: the
`end` of the wrapper. -/
theorem runs_prettyPrint {keep : Char → Bool} (hkeep : ∀ c, isFiller c = true → keep c = false)
    (code : Text) (indentCount : Nat) :
    runs keep (prettyPrint code indentCount) = runs keep code ∨
      runs keep (prettyPrint code indentCount) = runs keep code ++ runs keep "end".toList := by
  have hfeed : keep '\n' = false := hkeep _ (by decide)
  have hclosing : ∀ text, runs keep (text ++ wrapperClosing) =
      runs keep text ++ runs keep "end".toList := by
    intro text
    rw [show wrapperClosing = '\n' :: ("end".toList ++ ['\n']) from rfl, runs_append_break hfeed,
      runs_append_break hfeed, runs_nil, List.append_nil]
  have hopening : ∀ text, runs keep (wrapperOpening ++ text) =
      runs keep wrapperOpening ++ runs keep text := by
    intro text
    refine runs_append_of_last ?_ text
    rintro c ⟨⟩
    exact hfeed
  obtain ⟨inner, hinner⟩ := exists_wrapFragment_eq code
  obtain ⟨laidOut, hlaidOut⟩ := exists_format_wrapped_eq indentCount inner
  have hruns := runs_withoutMarks hkeep indentCount laidOut
  have hformat : runs keep laidOut = runs keep code ++ runs keep "end".toList := by
    have hplaceholder : keep (wrappedLayout indentCount).indentChar = false :=
      hkeep placeholder (by decide)
    have hsame := Layout.runs_format hkeep hplaceholder (wrapFragment code)
    rw [runs_wrapFragment hkeep, hinner, hlaidOut, hopening, List.append_assoc, hopening,
      hclosing] at hsame
    exact List.append_cancel_left hsame
  rw [prettyPrint, hinner, hlaidOut, unwrapFragment_wrapperOpening]
  cases hend : dropEnd? wrapperClosing (withoutMarks indentCount laidOut) with
  | none =>
      right
      rw [Option.getD_none, hruns, hformat]
  | some front =>
      left
      rw [dropEnd?_eq_some_iff] at hend
      rw [← hruns, hend, hclosing] at hformat
      rw [Option.getD_some]
      exact List.append_cancel_right hformat

/-- The pieces of a text: its longest runs of characters that are no filler. -/
def pieces (text : Text) : List Text :=
  runs (fun c => !isFiller c) text

/-- Putting a fragment in readable form, well formed or not, keeps its pieces and their order.  At
most one piece is added, at the end: the `end` of the wrapper. -/
theorem pieces_prettyPrint (code : Text) (indentCount : Nat) :
    pieces (prettyPrint code indentCount) = pieces code ∨
      pieces (prettyPrint code indentCount) = pieces code ++ ["end".toList] := by
  have hfiller : ∀ c, isFiller c = true → (!isFiller c) = false := by
    intro c hc
    rw [hc]
    rfl
  have hend : runs (fun c => !isFiller c) "end".toList = ["end".toList] :=
    runs_of_kept (by decide) (List.all_eq_true.mp (by decide))
  have hruns := runs_prettyPrint hfiller code indentCount
  rwa [hend] at hruns

-- two blocks left open push the `end` of the wrapper to a column where it is not found
example : pieces (prettyPrint "if x;if y;z".toList 2) =
    ["if", "x", "if", "y", "z", "end"].map String.toList := by
  decide +kernel

end ConverterAssembly.Ruby
