import ConverterAssembly.Proofs.Text.Lines
import ConverterAssembly.Text.Blank
import Mathlib.Data.List.TakeWhile

/-!
# Runs of characters

`Text.runs keep text` cuts a text into its longest runs of the characters to keep.  All other
characters are *breaks*: how many of them stand between two runs, and which, does not show.

**Cutting.**  Everything follows from one equation, `runs_append_break`: the runs around a break are
those before it and those after it.

**Endings.**  `SameRuns keep a b` says that two endings of a text are alike: whatever stands before
them, the runs of the text are the same.  Unlike equality of runs it survives one more character in
front (`SameRuns.cons`), so it can be carried through a recursion on characters.

**Edits.**  What changes breaks only keeps the runs: dropping breaks from the starts of lines
(`runs_flatMap_lines`), replacing one stretch of breaks by another (`sameRuns_replace`), trimming
(`runs_trimEnd`).
-/

namespace ConverterAssembly.Text

/-- The longest runs of characters to keep, in order; none of them is empty. -/
def runs (keep : Char → Bool) (text : Text) : List Text :=
  (text.splitOnP fun c => !keep c).filter (· ≠ [])

variable {keep : Char → Bool}

/-! ## Cutting -/

@[simp]
lemma runs_nil : runs keep [] = [] := by
  simp [runs, List.splitOnP_nil]

/-- The runs around a break are those before it and those after it. -/
lemma runs_append_break {c : Char} (hc : keep c = false) (a b : Text) :
    runs keep (a ++ c :: b) = runs keep a ++ runs keep b := by
  rw [runs, List.splitOnP_append_cons a b (by simp [hc]), List.filter_append, runs, runs]

lemma runs_cons_break {c : Char} (hc : keep c = false) (text : Text) :
    runs keep (c :: text) = runs keep text := by
  simpa using runs_append_break hc [] text

/-- Breaks at the front belong to no run. -/
lemma runs_breaks_append {a : Text} (ha : ∀ c ∈ a, keep c = false) (b : Text) :
    runs keep (a ++ b) = runs keep b := by
  induction a with
  | nil => rfl
  | cons c a ih =>
      obtain ⟨hc, ha⟩ := List.forall_mem_cons.1 ha
      rw [List.cons_append, runs_cons_break hc, ih ha]

lemma runs_of_breaks {a : Text} (ha : ∀ c ∈ a, keep c = false) : runs keep a = [] := by
  simpa using runs_breaks_append ha []

/-- The runs of two parts, where the second does not go on with a run of the first. -/
lemma runs_append_of_head {b : Text} (hb : ∀ c ∈ b.head?, keep c = false) (a : Text) :
    runs keep (a ++ b) = runs keep a ++ runs keep b := by
  cases b with
  | nil => simp
  | cons c b =>
      have hc : keep c = false := hb c rfl
      rw [runs_append_break hc, runs_cons_break hc]

/-- The runs of two parts, where the first does not end in a run. -/
lemma runs_append_of_last {a : Text} (ha : ∀ c ∈ a.getLast?, keep c = false) (b : Text) :
    runs keep (a ++ b) = runs keep a ++ runs keep b := by
  induction a using List.reverseRecOn with
  | nil => simp
  | append_singleton a c =>
      have hc : keep c = false := ha c (by simp)
      rw [List.append_assoc, List.singleton_append, runs_append_break hc, runs_append_break hc,
        runs_nil, List.append_nil]

lemma runs_of_kept {a : Text} (hne : a ≠ []) (ha : ∀ c ∈ a, keep c = true) : runs keep a = [a] := by
  rw [runs, List.splitOnP_eq_singleton (fun c hc => by simp [ha c hc])]
  simp [hne]

/-! ## Endings -/

variable (keep) in
/-- Whatever stands before the two endings, the runs of the text are the same. -/
def SameRuns (a b : Text) : Prop :=
  ∀ front, runs keep (front ++ a) = runs keep (front ++ b)

namespace SameRuns

variable {a b d : Text}

lemma refl (a : Text) : SameRuns keep a a := fun _ => rfl

lemma symm (h : SameRuns keep a b) : SameRuns keep b a := fun front => (h front).symm

lemma trans (h : SameRuns keep a b) (h' : SameRuns keep b d) : SameRuns keep a d :=
  fun front => (h front).trans (h' front)

lemma runs_eq (h : SameRuns keep a b) : runs keep a = runs keep b := h []

lemma cons (h : SameRuns keep a b) (c : Char) : SameRuns keep (c :: a) (c :: b) := by
  intro front
  simpa using h (front ++ [c])

/-- Behind breaks only the runs matter. -/
lemma of_breaks {x y : Text} (hx : x ≠ []) (hy : y ≠ []) (hxb : ∀ c ∈ x, keep c = false)
    (hyb : ∀ c ∈ y, keep c = false) (h : runs keep a = runs keep b) :
    SameRuns keep (x ++ a) (y ++ b) := by
  intro front
  have hhead : ∀ {z : Text}, z ≠ [] → (∀ c ∈ z, keep c = false) → ∀ w : Text,
      ∀ c ∈ (z ++ w).head?, keep c = false := by
    intro z hz hbreaks w c hc
    rw [List.head?_append_of_ne_nil _ hz] at hc
    exact hbreaks c (List.mem_of_mem_head? hc)
  rw [runs_append_of_head (hhead hx hxb a), runs_append_of_head (hhead hy hyb b),
    runs_breaks_append hxb, runs_breaks_append hyb, h]

/-- Breaks do not show in front of another break or at the end. -/
lemma drop_breaks {x : Text} (hx : ∀ c ∈ x, keep c = false) (ha : ∀ c ∈ a.head?, keep c = false) :
    SameRuns keep (x ++ a) a := by
  intro front
  cases x with
  | nil => rfl
  | cons c x =>
      rw [runs_append_of_head (by simpa using hx c List.mem_cons_self), runs_breaks_append hx,
        runs_append_of_head ha]

end SameRuns

/-! ## Edits -/

/-- Breaks dropped from the starts of lines change no run. -/
lemma runs_flatMap_lines (hfeed : keep '\n' = false) {f : Text → Text}
    (hf : ∀ line, ∃ lead, line = lead ++ f line ∧ ∀ c ∈ lead, keep c = false) (text : Text) :
    runs keep ((lines text).flatMap f) = runs keep text := by
  have hline : ∀ line, runs keep (f line) = runs keep line := by
    intro line
    obtain ⟨lead, heq, hlead⟩ := hf line
    conv_rhs => rw [heq, runs_breaks_append hlead]
  induction text using line_induction with
  | last l hl =>
      by_cases hne : l = []
      · rw [hne]
        rfl
      · rw [lines_of_no_feed hl hne, List.flatMap_singleton, hline]
  | line l p hl ih =>
      have hlast : ∀ c ∈ (f (l ++ ['\n'])).getLast?, keep c = false := by
        intro c hc
        obtain ⟨lead, heq, -⟩ := hf (l ++ ['\n'])
        have hend : (l ++ ['\n']).getLast? = some c := by
          rw [heq, List.getLast?_append, hc]
          rfl
        obtain rfl : '\n' = c := by simpa using hend
        exact hfeed
      rw [lines_line hl, List.flatMap_cons, runs_append_of_last hlast, hline, ih,
        runs_append_break hfeed, runs_append_break hfeed, runs_nil, List.append_nil]

/-- A stretch of breaks in the place of another changes no run. -/
lemma sameRuns_replace {pattern substitute : Text} (hpattern : pattern ≠ [])
    (hsubstitute : substitute ≠ []) (hp : ∀ c ∈ pattern, keep c = false)
    (hs : ∀ c ∈ substitute, keep c = false) (text : Text) :
    SameRuns keep (replace pattern substitute text) text := by
  induction hn : text.length using Nat.strong_induction_on generalizing text with
  | _ n ih =>
      cases text with
      | nil =>
          rw [replace_nil]
          exact .refl []
      | cons c text =>
          cases hstart : startsWith (c :: text) pattern with
          | false =>
              rw [replace_cons_of_not_startsWith hstart]
              exact (ih text.length (by simp [← hn]) text rfl).cons c
          | true =>
              obtain ⟨rest, hrest⟩ := startsWith_iff.1 hstart
              have hshorter : rest.length < n := by
                have := List.length_pos_of_ne_nil hpattern
                have := congrArg List.length hrest
                rw [List.length_append] at this
                omega
              rw [← hrest, replace_pattern_append hpattern]
              exact .of_breaks hsubstitute hpattern hs hp (ih rest.length hshorter rest rfl).runs_eq

/-- Other breaks in the place of breaks change no run. -/
lemma sameRuns_map {f : Char → Char} (hkept : ∀ c, keep c = true → f c = c)
    (hbreak : ∀ c, keep c = false → keep (f c) = false) (text : Text) :
    SameRuns keep (text.map f) text := by
  induction text with
  | nil => exact .refl []
  | cons c text ih =>
      cases hc : keep c with
      | true =>
          rw [List.map_cons, hkept c hc]
          exact ih.cons c
      | false =>
          exact .of_breaks (x := [f c]) (y := [c]) (by simp) (by simp) (by simp [hbreak c hc])
            (by simp [hc]) ih.runs_eq

/-- Trimming drops breaks only. -/
lemma runs_trimEnd (hblank : ∀ c, isBlank c = true → keep c = false) (text : Text) :
    runs keep (trimEnd text) = runs keep text := by
  have hsplit : text = trimEnd text ++ (text.reverse.takeWhile isBlank).reverse := by
    rw [trimEnd, ← List.reverse_append, List.takeWhile_append_dropWhile, List.reverse_reverse]
  have hblanks : ∀ c ∈ (text.reverse.takeWhile isBlank).reverse, keep c = false := by
    intro c hc
    exact hblank c (List.mem_takeWhile_imp (List.mem_reverse.1 hc))
  conv_rhs => rw [hsplit, runs_append_of_head (fun c hc => hblanks c (List.mem_of_mem_head? hc)),
    runs_of_breaks hblanks, List.append_nil]

end ConverterAssembly.Text
