import ConverterAssembly.Proofs.Ruby.Conserved
import ConverterAssembly.Proofs.Ruby.Matching
import ConverterAssembly.Proofs.Ruby.Statements

/-!
# Taking the wrapper off

The lines of a fragment are written inside the wrapper, with placeholders for margins and a
semicolon before each statement that is to stand on a line of its own.  Then the semicolons before
placeholders become line feeds, each line moves one level out, and the wrapper goes.

**Marks.**  In the wrapper no statement stands in the first column, so every semicolon that was
written has a placeholder behind it (`Settles.brokenAtMarks_writeLines`).  Placeholders stand
nowhere else, and the result is the text of the settled lines under their margins.

**Levels.**  Without the wrapper a line has one level less, or it had none (`unmarked_laidOut`).

**The wrapper.**  `unwrapFragment_lines` puts the three steps together.
-/

namespace ConverterAssembly.Ruby

open Text

/-! ## Marks -/

/-- Nothing changes in a text without placeholders. -/
lemma brokenAtMarks_append {a b : Text} (ha : placeholder ∉ a)
    (hb : a.getLast? = some ';' → b.head? ≠ some placeholder) :
    brokenAtMarks (a ++ b) = a ++ brokenAtMarks b := by
  induction a with
  | nil => rfl
  | cons c a ih =>
      rw [List.mem_cons, not_or] at ha
      have hstart : startsWith (c :: (a ++ b)) [';', placeholder] = false := by
        rw [Bool.eq_false_iff, Ne, startsWith_iff]
        rintro ⟨rest, hrest⟩
        obtain ⟨rfl, htail⟩ : ';' = c ∧ placeholder :: rest = a ++ b := by simpa using hrest
        cases a with
        | nil => exact hb rfl (by rw [List.nil_append] at htail; rw [← htail]; rfl)
        | cons d a =>
            obtain ⟨rfl, -⟩ := List.cons.inj htail
            exact ha.2 List.mem_cons_self
      rw [List.cons_append, brokenAtMarks, replace_cons_of_not_startsWith hstart, List.cons_append,
        ← brokenAtMarks, ih ha.2]
      intro hlast
      refine hb ?_
      cases a with
      | nil => cases hlast
      | cons d a => simpa using hlast

/-- A margin stays. -/
lemma brokenAtMarks_margin (count : Nat) (text : Text) :
    brokenAtMarks (List.replicate count placeholder ++ text) =
      List.replicate count placeholder ++ brokenAtMarks text := by
  induction count with
  | zero => rfl
  | succ count ih =>
      have hstart : startsWith (placeholder :: (List.replicate count placeholder ++ text))
          [';', placeholder] = false := rfl
      rw [List.replicate_succ, List.cons_append, brokenAtMarks,
        replace_cons_of_not_startsWith hstart, List.cons_append, ← brokenAtMarks, ih]

/-- A semicolon before a margin becomes a line break. -/
lemma brokenAtMarks_semicolon (text : Text) :
    brokenAtMarks (';' :: placeholder :: text) = '\n' :: brokenAtMarks (placeholder :: text) := by
  have hmargin : brokenAtMarks (placeholder :: text) = placeholder :: brokenAtMarks text :=
    brokenAtMarks_margin 1 text
  rw [hmargin]
  exact replace_pattern_append (List.cons_ne_nil _ _) text

/-- A text behind a margin, and the semicolon before it. -/
lemma brokenAtMarks_piece {pending : Bool} {count : Nat} {a b : Text}
    (hcount : pending = true → 0 < count) (ha : placeholder ∉ a)
    (hb : a.getLast? = some ';' → b.head? ≠ some placeholder) :
    brokenAtMarks ((if pending then [';'] else []) ++ List.replicate count placeholder ++
      (a ++ b)) =
      (if pending then ['\n'] else []) ++ List.replicate count placeholder ++
        (a ++ brokenAtMarks b) := by
  cases pending with
  | false =>
      rw [if_neg Bool.false_ne_true, if_neg Bool.false_ne_true, List.nil_append,
        brokenAtMarks_margin, brokenAtMarks_append ha hb]
  | true =>
      obtain ⟨count, rfl⟩ := Nat.exists_eq_succ_of_ne_zero (hcount rfl).ne'
      have hmargin := brokenAtMarks_margin (count + 1) (a ++ b)
      rw [List.replicate_succ, List.cons_append] at hmargin
      rw [if_pos rfl, if_pos rfl, List.replicate_succ, List.singleton_append, List.cons_append,
        List.cons_append, brokenAtMarks_semicolon, hmargin, brokenAtMarks_append ha hb]
      rfl

/-! ## Writing -/

namespace Layout

variable {layout : Layout} {pending : Bool} {height : Nat} {line : Line} {n : Token}

lemma writeLines_newline (hterminator : line.terminator = some n) (hkind : n.kind = .newline)
    (hpending : pending = true → line.isBlank = false) (rest : List Line) :
    layout.writeLines pending height (line :: rest) =
      (if pending then [';'] else []) ++ layout.margin line height ++
        (line.text ++ layout.writeLines false (heightAfter height line.tokens) rest) := by
  have htext : line.text = line.body ++ n.text := by simp [Line.text, hterminator]
  rw [writeLines, hterminator, margin, htext]
  by_cases hblank : line.isBlank = true
  · have hbody : line.body = [] := by rw [Line.body, Line.visible_of_isBlank hblank,
      List.flatMap_nil]
    obtain rfl : pending = false := by
      by_contra hne
      exact absurd (hpending (by simpa using hne)) (by simp [hblank])
    simp [hblank, hkind, hbody]
  · simp [hblank, hkind]

lemma writeLines_semicolon (hterminator : line.terminator = some n) (hkind : n.kind = .semicolon)
    (hvisible : line.isBlank = false) (rest : List Line) :
    layout.writeLines pending height (line :: rest) =
      (if pending then [';'] else []) ++ layout.margin line height ++
        (trimEnd line.body ++ layout.writeLines true (heightAfter height line.tokens) rest) := by
  rw [writeLines, hterminator, margin]
  simp [hvisible, hkind]

lemma writeLines_empty (hterminator : line.terminator = some n) (hkind : n.kind = .semicolon)
    (hblank : line.isBlank = true) (rest : List Line) :
    layout.writeLines pending height (line :: rest) =
      layout.writeLines pending (heightAfter height line.tokens) rest := by
  rw [writeLines, if_pos hblank, hterminator]
  exact if_pos hkind

lemma writeLines_swallowed (hterminator : line.terminator = some n)
    (hspelled : n.toLexeme = lineFeed) (hblank : line.isBlank = true) (rest : List Line) :
    layout.writeLines pending height (line :: rest) =
      '\n' :: layout.writeLines false (heightAfter height line.tokens) rest := by
  have hkind : n.kind ≠ .semicolon := by
    rw [hspelled]
    decide
  rw [writeLines, if_pos hblank, hterminator]
  dsimp only
  rw [if_neg hkind, hspelled]
  rfl

/-- The text of lines under new margins. -/
lemma flatMap_laidOut_cons (rest : List Line) :
    (layout.laidOut height (line :: rest)).flatMap (·.1.text) =
      layout.margin line height ++ (line.text ++
        (layout.laidOut (heightAfter height line.tokens) rest).flatMap (·.1.text)) := by
  rw [laidOut, List.flatMap_append, laidOutLine_eq.2, List.append_assoc]

end Layout

lemma margin_wrappedLayout (indentCount : Nat) (line : Line) (height : Nat) :
    (wrappedLayout indentCount).margin line height =
      List.replicate (line.steps height * indentCount) placeholder :=
  Layout.margin_eq ..

/-- What runs over lines runs over the first of them. -/
lemma runRoles_tokensIn_cons {before after : List Frame} {line : Line} {lines : List Line}
    (h : runRoles before ((tokensIn (line :: lines)).map (·.2)) = .ok after) :
    ∃ inner, runRoles before (line.tokens.map (·.2)) = .ok inner ∧
      runRoles inner ((tokensIn lines).map (·.2)) = .ok after := by
  rw [tokensIn_cons, Line.withTerminator, List.map_append, List.map_append, List.append_assoc] at h
  obtain ⟨inner, hline, hrest⟩ := runRoles_append_eq_ok_iff.1 h
  refine ⟨inner, hline, ?_⟩
  cases hterminator : line.terminator <;> simpa [hterminator, runRoles, Role.apply] using hrest

/-- In the wrapper a line has at least one level. -/
lemma Line.steps_pos {line : Line} {before after : List Frame}
    (hrun : runRoles before (line.tokens.map (·.2)) = .ok after)
    (hneutral : TriviaNeutral line.tokens)
    (hvisible : line.isBlank = false) (hindented : line.isUnindented = false) :
    0 < line.steps (before.length + 1) := by
  rw [steps, hvisible, hindented, Bool.or_false, if_neg Bool.false_ne_true, level,
    levelFrom_of_runRoles hrun hneutral before.length 1]
  exact Nat.succ_pos _

/-- A blank line opens and closes nothing. -/
lemma Line.length_eq_of_isBlank {line : Line} {before after : List Frame}
    (hrun : runRoles before (line.tokens.map (·.2)) = .ok after)
    (hneutral : TriviaNeutral line.tokens)
    (hblank : line.isBlank = true) : after.length = before.length := by
  rw [← Nat.add_zero after.length, ← heightAfter_of_runRoles hrun 0,
    heightAfter_of_blanks _ (kind_of_isBlank hblank) hneutral.blanksNeutral, Nat.add_zero]

namespace Settles

variable {pending : Bool} {lines settled : List Line}

/-- What is written after a semicolon begins with another one, or with a line feed. -/
lemma head?_writeLines (h : Settles pending lines settled) (hpending : pending = true)
    (layout : Layout) (height : Nat) (others : List Line) :
    (layout.writeLines true height (lines ++ others)).head? ≠ some placeholder := by
  induction h generalizing height with
  | nil => cases hpending
  | empty sound blank terminator kind tail ih =>
      rw [List.cons_append, Layout.writeLines_empty terminator kind blank]
      exact ih hpending _
  | swallowed sound blank terminator spelled tail ih =>
      rw [List.cons_append, Layout.writeLines_swallowed terminator spelled blank]
      simp [placeholder]
  | kept sound behind terminator kind ends tail ih =>
      rw [List.cons_append, Layout.writeLines_newline terminator kind fun _ => (behind hpending).1]
      simp [placeholder]
  | broken sound visible behind terminator kind trimmed tail ih =>
      rw [List.cons_append, Layout.writeLines_semicolon terminator kind visible]
      simp [placeholder]

/-- The marked text of lines has a line feed after each statement. -/
theorem brokenAtMarks_writeLines (h : Settles pending lines settled) {indentCount : Nat}
    (hcount : 0 < indentCount) {before after : List Frame}
    (hrun : runRoles before ((tokensIn lines).map (·.2)) = .ok after) (others : List Line) :
    brokenAtMarks ((wrappedLayout indentCount).writeLines pending (before.length + 1)
        (lines ++ others)) =
      (if pending then ['\n'] else []) ++
        (((wrappedLayout indentCount).laidOut (before.length + 1) settled).flatMap (·.1.text) ++
          brokenAtMarks ((wrappedLayout indentCount).writeLines false
            (after.length + 1) others)) := by
  induction h generalizing before with
  | nil =>
      obtain rfl := Except.ok.inj hrun
      rfl
  | @empty pending line n lines settled sound blank terminator kind tail ih =>
      obtain ⟨inner, hline, hrest⟩ := runRoles_tokensIn_cons hrun
      have hheight := Line.length_eq_of_isBlank hline sound.neutral blank
      rw [List.cons_append, Layout.writeLines_empty terminator kind blank,
        heightAfter_of_runRoles hline 1, ih hrest, hheight]
  | @swallowed line n lines settled sound blank terminator spelled tail ih =>
      obtain ⟨inner, hline, hrest⟩ := runRoles_tokensIn_cons hrun
      have hheight := Line.length_eq_of_isBlank hline sound.neutral blank
      rw [List.cons_append, Layout.writeLines_swallowed terminator spelled blank,
        heightAfter_of_runRoles hline 1, ← List.singleton_append,
        brokenAtMarks_append (by decide) (by simp), ih hrest, hheight, if_pos rfl]
      rfl
  | @kept pending line n lines settled sound behind terminator kind ends tail ih =>
      obtain ⟨inner, hline, hrest⟩ := runRoles_tokensIn_cons hrun
      have hlast : line.text.getLast? ≠ some ';' := by
        simp [Line.text, terminator, List.getLast?_append, ends]
      have hmargin : pending = true → 0 < line.steps (before.length + 1) * indentCount := by
        intro hpending
        obtain ⟨hvisible, hindented⟩ := behind hpending
        exact Nat.mul_pos (Line.steps_pos hline sound.neutral hvisible hindented) hcount
      rw [List.cons_append, Layout.writeLines_newline terminator kind fun h => (behind h).1,
        margin_wrappedLayout, heightAfter_of_runRoles hline 1,
        brokenAtMarks_piece hmargin sound.unmarked (fun h => absurd h hlast), ih hrest,
        Layout.flatMap_laidOut_cons, margin_wrappedLayout, heightAfter_of_runRoles hline 1]
      simp only [if_neg Bool.false_ne_true, List.nil_append, List.append_assoc]
  | @broken pending line n lines settled sound visible behind terminator kind trimmed tail ih =>
      obtain ⟨inner, hline, hrest⟩ := runRoles_tokensIn_cons hrun
      have hmargin : pending = true → 0 < line.steps (before.length + 1) * indentCount :=
        fun hpending =>
        Nat.mul_pos (Line.steps_pos hline sound.neutral visible (behind hpending)) hcount
      have htext : line.broken.text = line.broken.body ++ ['\n'] := by
        rw [Line.text, Line.terminator_broken terminator kind]
        rfl
      have hplain : placeholder ∉ line.broken.body := by
        rw [← trimmed]
        intro hmem
        exact sound.unmarked (List.mem_append_left _
          ((List.rdropWhile_prefix isBlank _).subset hmem))
      have hnext := tail.head?_writeLines rfl (wrappedLayout indentCount) (inner.length + 1) others
      rw [List.cons_append, Layout.writeLines_semicolon terminator kind visible,
        margin_wrappedLayout, trimmed, heightAfter_of_runRoles hline 1,
        brokenAtMarks_piece hmargin hplain (fun _ => hnext), ih hrest,
        Layout.flatMap_laidOut_cons, margin_wrappedLayout, Line.steps_broken visible,
        Line.heightAfter_broken sound.neutral.blanksNeutral, heightAfter_of_runRoles hline 1, htext]
      simp only [if_pos, List.append_assoc]

end Settles

/-! ## Levels -/

section

variable {indentCount : Nat}

lemma unmarked_append_feed (a b : Text) :
    unmarked indentCount (a ++ '\n' :: b) =
      unmarked indentCount (a ++ ['\n']) ++ unmarked indentCount b := by
  rw [unmarked, lines_append_feed, List.flatMap_append, List.map_append, unmarked, unmarked]

/-- Blanks in the place of placeholders change no other text. -/
lemma map_fill {text : Text} (h : placeholder ∉ text) :
    text.map (fun c => if c = placeholder then ' ' else c) = text := by
  rw [List.map_congr_left (g := id), List.map_id]
  intro c hc
  rw [if_neg]
  · rfl
  · rintro rfl
    exact h hc

/-- A line without a placeholder at its start keeps its place. -/
lemma dropStart?_replicate {line : Text} (h : placeholder ∉ line) :
    (dropStart? (List.replicate indentCount placeholder) line).getD line = line := by
  cases indentCount with
  | zero => rfl
  | succ count =>
      cases line with
      | nil => rfl
      | cons c line =>
          have hc : ¬ placeholder = c := by
            rintro rfl
            exact h List.mem_cons_self
          rw [List.replicate_succ, dropStart?, if_neg hc]
          rfl

lemma unmarked_of_not_mem {text : Text} (h : placeholder ∉ text) :
    unmarked indentCount text = text := by
  have hlines : (lines text).flatMap (fun line =>
      (dropStart? (List.replicate indentCount placeholder) line).getD line) = text := by
    conv_rhs => rw [← flatten_lines text, ← List.flatMap_id]
    refine List.flatMap_congr fun line hline => dropStart?_replicate fun hmem => h ?_
    rw [← flatten_lines text]
    exact List.mem_flatten_of_mem hline hmem
  rw [unmarked, hlines, map_fill h]

/-- A margin loses one level, and becomes blank. -/
lemma unmarked_margin {text : Text} (count : Nat) (h : placeholder ∉ text) (hne : text ≠ []) :
    unmarked indentCount (List.replicate (indentCount + count) placeholder ++ text) =
      List.replicate count ' ' ++ text := by
  obtain ⟨first, rest, hlines, -⟩ := lines_ne_nil hne
  have hfeed : ∀ k, '\n' ∉ List.replicate k placeholder := by
    intro k hmem
    exact absurd (List.eq_of_mem_replicate hmem) (by decide)
  have hplain : unmarked indentCount text = text := unmarked_of_not_mem h
  have hfirst : placeholder ∉ first := by
    intro hmem
    refine h ?_
    rw [← flatten_lines text, hlines]
    exact List.mem_append_left _ hmem
  have hdrop : dropStart? (List.replicate indentCount placeholder)
      (List.replicate (indentCount + count) placeholder ++ first) =
        some (List.replicate count placeholder ++ first) :=
    dropStart?_eq_some_iff.2 (by rw [List.replicate_add, List.append_assoc])
  rw [unmarked, hlines, List.flatMap_cons, dropStart?_replicate hfirst] at hplain
  rw [unmarked, lines_append_of_no_feed (hfeed _) hlines, List.flatMap_cons, hdrop,
    Option.getD_some, List.append_assoc, List.map_append, hplain, List.map_replicate, if_pos rfl]

/-- A line without its wrapper. -/
lemma unmarked_piece {steps : Nat} {text : Text} (hplain : placeholder ∉ text)
    (hends : text.getLast? = some '\n') (rest : Text) :
    unmarked indentCount (List.replicate (steps * indentCount) placeholder ++ (text ++ rest)) =
      List.replicate ((steps - 1) * indentCount) ' ' ++ text ++ unmarked indentCount rest := by
  obtain ⟨init, rfl⟩ := List.getLast?_eq_some_iff.1 hends
  have hcut := @unmarked_append_feed indentCount
    (List.replicate (steps * indentCount) placeholder ++ init) rest
  simp only [List.append_assoc, List.singleton_append] at hcut ⊢
  rw [hcut]
  cases steps with
  | zero =>
      rw [Nat.zero_mul, List.replicate_zero, List.nil_append, unmarked_of_not_mem hplain]
      simp
  | succ steps =>
      rw [Nat.add_mul, Nat.one_mul, Nat.add_comm, unmarked_margin _ hplain (by simp)]
      simp

/-- Each line is one level further out without the wrapper. -/
theorem unmarked_laidOut {settled : List Line} (h : ∀ line ∈ settled, line.Whole) (height : Nat)
    (rest : Text) :
    unmarked indentCount
        (((wrappedLayout indentCount).laidOut height settled).flatMap (·.1.text) ++ rest) =
      textIn (outdented indentCount height settled) ++ unmarked indentCount rest := by
  induction settled generalizing height with
  | nil => rfl
  | cons line settled ih =>
      obtain ⟨⟨hsound, n, hterminator, -, hends⟩, hsettled⟩ := List.forall_mem_cons.1 h
      have hlast : line.text.getLast? = some '\n' := by
        simp [Line.text, hterminator, List.getLast?_append, hends]
      rw [Layout.flatMap_laidOut_cons, margin_wrappedLayout, List.append_assoc, List.append_assoc,
        unmarked_piece hsound.unmarked hlast, ih hsettled, outdented, textIn_cons,
        (withTerminator_behind_margin line _).2, Line.outerMargin]
      simp only [List.append_assoc]

end

/-! ## The wrapper -/

/-- The first line of the wrapper. -/
def openingLine : Line :=
  ⟨[(⟨⟨.keyword, "module".toList⟩, 0, 0⟩, .opens (.block .moduleBody)),
    (⟨⟨.space, [' ']⟩, 0, 0⟩, .neutral), (⟨⟨.ident, "M_".toList⟩, 0, 0⟩, .neutral)], some Line.feed⟩

/-- The last line of the wrapper. -/
def closingLine : Line :=
  ⟨[(⟨⟨.keyword, "end".toList⟩, 0, 0⟩, .closesBlock)], some Line.feed⟩

/-- The lines of a fragment without the wrapper, but for the last line feed. -/
theorem unwrapFragment_lines {indentCount : Nat} (hcount : 0 < indentCount)
    {lines settled : List Line} (h : Settles false lines settled) {n : Token}
    (hlast : lastTerminator lines = some n)
    (hn : n.toLexeme = lineFeed) (hrun : runRoles [] ((tokensIn lines).map (·.2)) = .ok []) :
    unwrapFragment indentCount ((wrappedLayout indentCount).writeLines false 0
        (openingLine :: (lines ++ [closingLine]))) ++ ['\n'] =
      textIn (outdented indentCount 1 settled) := by
  have hopening : (wrappedLayout indentCount).writeLines false 0
      (openingLine :: (lines ++ [closingLine])) =
      wrapperOpening ++
        (wrappedLayout indentCount).writeLines false 1 (lines ++ [closingLine]) := by
    rw [Layout.writeLines_newline rfl rfl (by simp)]
    rfl
  have hclosing : (wrappedLayout indentCount).writeLines false 1 [closingLine] =
      "end\n".toList := by
    rw [Layout.writeLines_newline rfl rfl (by simp)]
    rfl
  have hwritten : brokenAtMarks ((wrappedLayout indentCount).writeLines false 1
      (lines ++ [closingLine])) =
      ((wrappedLayout indentCount).laidOut 1 settled).flatMap (·.1.text) ++
        brokenAtMarks ((wrappedLayout indentCount).writeLines false 1 [closingLine]) :=
    h.brokenAtMarks_writeLines hcount hrun [closingLine]
  obtain ⟨n', hlast', hn'⟩ := (h.lastTerminator_eq hn hlast).resolve_left (by simp)
  obtain ⟨text, htext⟩ :=
    exists_textIn_eq ((lastTerminator_outdented indentCount 1 settled).trans hlast') hn'
  have hmarks : withoutMarks indentCount
      ((wrappedLayout indentCount).writeLines false 1 (lines ++ [closingLine])) =
        text ++ wrapperClosing := by
    have hend : brokenAtMarks "end\n".toList = "end\n".toList := by decide
    rw [withoutMarks, hwritten, unmarked_laidOut h.whole_of_mem, hclosing, hend,
      unmarked_of_not_mem (by decide), htext, List.append_assoc]
    rfl
  have hdrop : dropEnd? wrapperClosing (text ++ wrapperClosing) = some text :=
    dropEnd?_eq_some_iff.2 rfl
  rw [hopening, unwrapFragment_wrapperOpening, hmarks, hdrop, Option.getD_some, htext]

end ConverterAssembly.Ruby
