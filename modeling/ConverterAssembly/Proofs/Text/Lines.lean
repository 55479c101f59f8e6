import ConverterAssembly.Text.Lines
import Mathlib.Tactic

/-!
# Texts line by line

`Text.lines` is a recursion on characters; the readers of heredocs and of embedded documents go line
by line.  `Text.line_induction` is the induction that fits them: a text is a last line without line
feed, or a line, its line feed and a text.  `Text.break_induction` is the same for any list and any
breaks.  `lines_line` and `lines_append_of_no_feed` say what
`Text.lines` does in the two cases.  What is done line by line, as indentation is, can be done to
whole lines apart (`indent_append_feed`).

Joined texts are taken apart in the same way: `join_append` for the text, `splitOn_join` for the
pieces.  Replacing goes from left to right (`replace_pattern_append`,
`replace_cons_of_not_startsWith`).
-/

namespace ConverterAssembly.Text

/-- A list is a last line without a break, or a line, its break and a further list. -/
theorem break_induction {α : Type} (isBreak : α → Bool) {P : List α → Prop}
    (last : ∀ ls, (∀ l ∈ ls, isBreak l = false) → P ls)
    (line : ∀ ls n rest, (∀ l ∈ ls, isBreak l = false) → isBreak n = true → P rest →
      P (ls ++ n :: rest)) : ∀ ls, P ls := by
  -- a generalisation over the part of the first line already read
  have main : ∀ ls lead : List α, (∀ l ∈ lead, isBreak l = false) → P (lead ++ ls) := by
    intro ls
    induction ls with
    | nil =>
        intro lead hlead
        rw [List.append_nil]
        exact last lead hlead
    | cons l ls ih =>
        intro lead hlead
        cases hl : isBreak l with
        | true => exact line lead l ls hlead hl (ih [] (by simp))
        | false =>
            have hlonger : ∀ l' ∈ lead ++ [l], isBreak l' = false := by
              simp only [List.mem_append, List.mem_singleton]
              rintro l' (h | rfl)
              · exact hlead l' h
              · exact hl
            simpa using ih (lead ++ [l]) hlonger
  exact fun ls => main ls [] (by simp)

/-- A text has either no line feed or a first line that ends with one. -/
theorem line_induction {P : Text → Prop} (last : ∀ l, '\n' ∉ l → P l)
    (line : ∀ l p, '\n' ∉ l → P p → P (l ++ '\n' :: p)) (t : Text) : P t := by
  have hfree {l : Text} (hl : ∀ c ∈ l, decide (c = '\n') = false) : '\n' ∉ l :=
    fun hmem => absurd (hl _ hmem) (by decide)
  induction t using break_induction (· = '\n') with
  | last l hl => exact last l (hfree hl)
  | line l c p hl hc ih =>
      obtain rfl : c = '\n' := of_decide_eq_true hc
      exact line l p (hfree hl) ih

lemma lines_ne_nil {t : Text} (h : t ≠ []) : ∃ f r, lines t = f :: r ∧ f ≠ [] := by
  cases t with
  | nil => exact absurd rfl h
  | cons c t =>
      rw [lines]
      split_ifs
      · exact ⟨_, _, rfl, by simp⟩
      · cases lines t with
        | nil => exact ⟨_, _, rfl, by simp⟩
        | cons f r => exact ⟨_, _, rfl, by simp⟩

lemma lines_append_of_no_feed {l q f : Text} {r : List Text} (hl : '\n' ∉ l)
    (hq : lines q = f :: r) : lines (l ++ q) = (l ++ f) :: r := by
  induction l with
  | nil => simpa using hq
  | cons c l ih =>
      rw [List.mem_cons, not_or] at hl
      rw [List.cons_append, lines, if_neg (fun h => hl.1 h.symm), ih hl.2]
      rfl

/-- A first line with its line feed is a line of its own. -/
lemma lines_line {l : Text} (hl : '\n' ∉ l) (p : Text) :
    lines (l ++ '\n' :: p) = (l ++ ['\n']) :: lines p :=
  lines_append_of_no_feed hl (by rw [lines, if_pos rfl])

lemma lines_of_no_feed {l : Text} (hl : '\n' ∉ l) (hne : l ≠ []) : lines l = [l] := by
  induction l with
  | nil => exact absurd rfl hne
  | cons c l ih =>
      rw [List.mem_cons, not_or] at hl
      rw [lines, if_neg (fun h => hl.1 h.symm)]
      cases l with
      | nil => rfl
      | cons d l => rw [ih hl.2 (by simp)]

/-! ## Whole lines -/

/-- A line feed ends a line whatever follows it. -/
lemma lines_append_feed (a b : Text) : lines (a ++ '\n' :: b) = lines (a ++ ['\n']) ++ lines b := by
  induction a using line_induction with
  | last l hl => rw [lines_line hl, lines_line hl, lines, List.singleton_append]
  | line l p hl ih =>
      simp only [List.append_assoc, List.cons_append] at ih ⊢
      rw [lines_line hl, ih, lines_line hl, List.cons_append]

/-- Whole lines are indented one by one. -/
lemma indent_append_feed (a b : Text) (width : Nat) :
    indent (a ++ '\n' :: b) width = indent (a ++ ['\n']) width ++ indent b width := by
  rw [indent, lines_append_feed, List.flatMap_append, indent, indent]

/-- A line feed at the end of a text is not indented. -/
lemma indent_append_last_feed (a : Text) (width : Nat) :
    indent (a ++ ['\n']) width = indent a width ++ ['\n'] := by
  induction a using line_induction with
  | last l hl =>
      cases l with
      | nil => rfl
      | cons c l =>
          have hne : c :: l ≠ ['\n'] := by
            rintro h
            rw [h] at hl
            simp at hl
          rw [indent, indent, lines_line hl [], lines_of_no_feed hl (by simp)]
          simp [hne, lines]
  | line l p hl ih =>
      rw [List.append_assoc, List.cons_append, indent_append_feed, ih, indent_append_feed l p,
        List.append_assoc]

lemma indent_flatMap (parts : List Text) (width : Nat) :
    indent (parts.flatMap (· ++ ['\n'])) width =
      parts.flatMap fun part => indent (part ++ ['\n']) width := by
  induction parts with
  | nil => rfl
  | cons part parts ih =>
      rw [List.flatMap_cons, List.append_assoc, List.singleton_append, indent_append_feed, ih,
        List.flatMap_cons]

lemma indent_line {l : Text} (hl : '\n' ∉ l) (hne : l ≠ []) (width : Nat) :
    indent (l ++ ['\n']) width = List.replicate width ' ' ++ l ++ ['\n'] := by
  have hfeed : l ++ ['\n'] ≠ ['\n'] := by simpa using hne
  rw [indent, lines_line hl, lines, List.flatMap_singleton, if_neg hfeed, List.append_assoc]

/-! ## Joined texts -/

lemma join_cons (separator x : Text) {ys : List Text} (hne : ys ≠ []) :
    join separator (x :: ys) = x ++ separator ++ join separator ys := by
  obtain ⟨y, ys, rfl⟩ := List.exists_cons_of_ne_nil hne
  simp [join]

/-- Joining texts puts the separator after every one but the last. -/
lemma join_append (separator : Text) (xs : List Text) {ys : List Text} (hne : ys ≠ []) :
    join separator (xs ++ ys) = xs.flatMap (· ++ separator) ++ join separator ys := by
  induction xs with
  | nil => rfl
  | cons x xs ih =>
      rw [List.cons_append, join_cons separator x (by simp [hne]), ih, List.flatMap_cons]
      simp

/-- A separator after the joined texts makes the last one like the others. -/
lemma join_append_separator (separator : Text) {xs : List Text} (hne : xs ≠ []) :
    join separator xs ++ separator = xs.flatMap (· ++ separator) := by
  have hlast := List.dropLast_append_getLast hne
  rw [← hlast, join_append separator xs.dropLast (by simp), List.flatMap_append]
  simp [join]

lemma not_mem_join {c : Char} {separator : Text} (hseparator : c ∉ separator) {xs : List Text}
    (h : ∀ x ∈ xs, c ∉ x) : c ∉ join separator xs := by
  induction xs with
  | nil => simp [join]
  | cons x xs ih =>
      rw [List.forall_mem_cons] at h
      by_cases hnil : xs = []
      · subst hnil
        simpa [join] using h.1
      · rw [join_cons _ _ hnil]
        simp only [List.mem_append, not_or]
        exact ⟨⟨h.1, hseparator⟩, ih h.2⟩

/-- The pieces between colons are found again. -/
lemma splitOn_join {names : List Text} (hne : names ≠ []) (hcolon : ∀ name ∈ names, ':' ∉ name) :
    splitOn "::".toList (join "::".toList names) = names := by
  have hpiece : ∀ name piece rest : Text, ':' ∉ name →
      splitOnFrom "::".toList 0 piece (name ++ rest) =
        splitOnFrom "::".toList 0 (name.reverse ++ piece) rest := by
    intro name
    induction name with
    | nil => simp
    | cons c name ih =>
        intro piece rest hname
        rw [List.mem_cons, not_or] at hname
        have hstart : startsWith (c :: (name ++ rest)) "::".toList = false := by
          simp [startsWith, dropStart?, hname.1]
        rw [List.cons_append, splitOnFrom, hstart, if_neg Bool.false_ne_true, ih _ _ hname.2]
        simp
  induction names with
  | nil => exact absurd rfl hne
  | cons name names ih =>
      rw [List.forall_mem_cons] at hcolon
      by_cases hnil : names = []
      · subst hnil
        have := hpiece name [] [] hcolon.1
        simpa [splitOn, join, splitOnFrom] using this
      · rw [join_cons _ _ hnil, splitOn, List.append_assoc, hpiece _ _ _ hcolon.1]
        rw [splitOn] at ih
        have hscope : ∀ piece rest : Text, splitOnFrom "::".toList 0 piece ("::".toList ++ rest) =
            piece.reverse :: splitOnFrom "::".toList 0 [] rest := by
          intro piece rest
          simp [splitOnFrom, startsWith, dropStart?]
        rw [hscope, ih hnil hcolon.2]
        simp

/-! ## Replacing -/

section

variable {pattern substitute : Text}

lemma splitOnFrom_ne_nil (skip : Nat) (piece text : Text) :
    splitOnFrom pattern skip piece text ≠ [] := by
  induction text generalizing skip piece with
  | nil => simp [splitOnFrom]
  | cons c text ih =>
      cases skip with
      | zero =>
          rw [splitOnFrom]
          split_ifs
          · simp
          · exact ih 0 (c :: piece)
      | succ skip => exact ih skip piece

/-- The current piece is the beginning of what is joined. -/
lemma join_splitOnFrom (skip : Nat) (piece text : Text) :
    join substitute (splitOnFrom pattern skip piece text) =
      piece.reverse ++ join substitute (splitOnFrom pattern skip [] text) := by
  induction text generalizing skip piece with
  | nil => simp [splitOnFrom, join]
  | cons c text ih =>
      cases skip with
      | zero =>
          rw [splitOnFrom, splitOnFrom]
          split_ifs
          · rw [join_cons _ _ (splitOnFrom_ne_nil _ _ _), join_cons _ _ (splitOnFrom_ne_nil _ _ _)]
            simp
          · rw [ih 0 (c :: piece), ih 0 [c]]
            simp
      | succ skip => exact ih skip piece

lemma splitOnFrom_drop (skip : Nat) (piece text : Text) :
    splitOnFrom pattern skip piece text = splitOnFrom pattern 0 piece (text.drop skip) := by
  induction text generalizing skip with
  | nil => simp [splitOnFrom]
  | cons c text ih =>
      cases skip with
      | zero => rfl
      | succ skip => exact ih skip

@[simp]
lemma replace_nil : replace pattern substitute [] = [] := by
  simp [replace, splitOn, splitOnFrom, join]

lemma replace_cons_of_not_startsWith {c : Char} {text : Text}
    (h : startsWith (c :: text) pattern = false) :
    replace pattern substitute (c :: text) = c :: replace pattern substitute text := by
  rw [replace, splitOn, splitOnFrom, h, if_neg Bool.false_ne_true, join_splitOnFrom]
  rfl

/-- Nothing is replaced before the first character of the pattern. -/
lemma replace_append_of_not_mem {p : Char} {a : Text} (ha : p ∉ a) (b : Text) :
    replace (p :: pattern) substitute (a ++ b) = a ++ replace (p :: pattern) substitute b := by
  induction a with
  | nil => rfl
  | cons c a ih =>
      rw [List.mem_cons, not_or] at ha
      have hstart : startsWith (c :: (a ++ b)) (p :: pattern) = false := by
        simp [startsWith, dropStart?, ha.1]
      rw [List.cons_append, replace_cons_of_not_startsWith hstart, ih ha.2, List.cons_append]

lemma replace_pattern_append (hne : pattern ≠ []) (text : Text) :
    replace pattern substitute (pattern ++ text) =
      substitute ++ replace pattern substitute text := by
  obtain ⟨c, pattern, rfl⟩ := List.exists_cons_of_ne_nil hne
  have hstart : startsWith (c :: (pattern ++ text)) (c :: pattern) = true :=
    startsWith_iff.2 (List.prefix_append _ _)
  rw [List.cons_append, replace, splitOn, splitOnFrom, hstart, if_pos rfl,
    join_cons _ _ (splitOnFrom_ne_nil _ _ _), splitOnFrom_drop]
  simp [replace, splitOn]

end

end ConverterAssembly.Text
