import ConverterAssembly.Proofs.Ruby.Stops
import ConverterAssembly.Proofs.Text.Lines

/-!
# Readers that go to their own end

Quoted bodies, heredoc bodies and embedded documents are read to their own end.  What follows that
end changes nothing, and that is what the main statements say, one for each reader:
`readEnclosed_append_stops`, `readBodies_append` and `readDocument_append`.  Each allows two ways to
know the end: the reading in front of the text that follows stops before it, or the reading without
that text is complete.
-/

namespace ConverterAssembly.Ruby

open Text

/-! ## Quoted bodies -/

/-- A stop after a character says no more than the end of the text, except to a backslash. -/
lemma Enclosure.step_stop (e : Enclosure) (line : Nat) {c s : Char} (hs : isStop s = true)
    (hc : c ≠ '\\') : e.step line c (some s) = e.step line c none := by
  have hbrace : s ≠ '\x7b' := by
    rintro rfl
    exact absurd hs (by decide)
  cases e <;> simp [Enclosure.step, hc, hbrace]

/-- A backslash passes over the next character and leaves the enclosure open. -/
lemma Enclosure.step_backslash (e : Enclosure) (line : Nat) (next : Option Char) :
    ∃ e' line', e.step line '\\' next = ⟨[e'], line', true⟩ := by
  cases e with
  | quote rules depth inClass start => exact ⟨_, _, rfl⟩
  | code depth start => exact ⟨.code depth start, line, by simp [Enclosure.step]⟩

/-- A quoted body is not changed by what follows it: neither when it ends before a stop, nor when it
ends by itself. -/
lemma readEnclosed_append_stops {q : Text} (hq : Stops q) :
    ∀ (skip : Bool) (line : Nat) (es : List Enclosure) (a : Text),
      (q ≠ [] ∧ (readEnclosed skip line es (a ++ q)).size ≤ a.length) ∨
        (readEnclosed skip line es a).error = none →
      readEnclosed skip line es (a ++ q) = readEnclosed skip line es a
  | _, _, [], a, _ => by cases a <;> cases q <;> simp [readEnclosed]
  | skip, line, e :: es, [], h => by
      rcases h with ⟨hne, hsize⟩ | h
      · cases q with
        | nil => exact absurd rfl hne
        | cons c cs => cases skip <;> simp [readEnclosed] at hsize
      · cases skip <;> simp [readEnclosed] at h
  | true, line, e :: es, c :: a, h => by
      have ih := readEnclosed_append_stops hq false line (e :: es) a
      simp only [List.cons_append, readEnclosed] at h ⊢
      rw [ih]
      simpa [Nat.add_comm 1] using h
  | false, line, e :: es, c :: a, h => by
      have hstep : e.step line c (a ++ q).head? = e.step line c a.head? ∨
          a = [] ∧ c = '\\' := by
        cases a with
        | nil =>
            by_cases hc : c = '\\'
            · exact .inr ⟨rfl, hc⟩
            · cases q with
              | nil => exact .inl rfl
              | cons s q => exact .inl (e.step_stop line (hq s rfl) hc)
        | cons d a => exact .inl rfl
      rcases hstep with hstep | ⟨rfl, rfl⟩
      · have ih := readEnclosed_append_stops hq (e.step line c a.head?).skips
          (e.step line c a.head?).line ((e.step line c a.head?).enclosures ++ es) a
        simp only [List.cons_append, readEnclosed, hstep] at h ⊢
        rw [ih]
        simpa [Nat.add_comm 1] using h
      · exfalso
        obtain ⟨e₁, line₁, h₁⟩ := e.step_backslash line q.head?
        obtain ⟨e₂, line₂, h₂⟩ := e.step_backslash line none
        simp only [List.cons_append, List.nil_append, readEnclosed, h₁, h₂, List.head?_nil] at h
        rcases h with ⟨hne, hsize⟩ | h
        · cases q with
          | nil => exact absurd rfl hne
          | cons d q => simp [readEnclosed] at hsize
        · simp at h

/-- A quoted body lies within the text. -/
lemma readEnclosed_size_le : ∀ (skip : Bool) (line : Nat) (es : List Enclosure) (a : Text),
    (readEnclosed skip line es a).size ≤ a.length
  | _, _, [], a => by cases a <;> simp [readEnclosed]
  | skip, _, _ :: _, [] => by cases skip <;> simp [readEnclosed]
  | true, line, e :: es, c :: a => by
      have ih := readEnclosed_size_le false line (e :: es) a
      simp only [readEnclosed, Extent.extend_size, List.length_cons]
      omega
  | false, line, e :: es, c :: a => by
      have ih := readEnclosed_size_le (e.step line c a.head?).skips (e.step line c a.head?).line
        ((e.step line c a.head?).enclosures ++ es) a
      simp only [readEnclosed, Extent.extend_size, List.length_cons]
      omega

/-! ## Lines -/

@[simp]
lemma withoutLineFeed_append (l : Text) : withoutLineFeed (l ++ ['\n']) = l := by
  rw [withoutLineFeed, Text.dropEnd?_eq_some_iff.mpr rfl, Option.getD_some]

lemma withoutLineFeed_of_no_feed {l : Text} (hl : '\n' ∉ l) : withoutLineFeed l = l := by
  rw [withoutLineFeed]
  cases h : Text.dropEnd? ['\n'] l with
  | none => rfl
  | some t =>
      rw [Text.dropEnd?_eq_some_iff] at h
      exact absurd (by simp [h]) hl

/-- A text that stops at the end of a line. -/
def EndsLine (t : Text) : Prop :=
  ∀ c, t.getLast? = some c → c = '\n'

lemma endsLine_append {a t : Text} (h : EndsLine (a ++ t)) : EndsLine t := by
  intro c hc
  refine h c ?_
  rw [List.getLast?_append, hc, Option.some_or]

lemma take_line {l p : Text} {n : Nat} :
    (l ++ '\n' :: p).take ((l ++ ['\n']).length + n) = l ++ ['\n'] ++ p.take n := by
  rw [show l ++ '\n' :: p = l ++ ['\n'] ++ p by simp, List.take_length_add_append]

/-- Heredoc bodies are not changed by what follows the line that ends the last of them. -/
lemma readBodies_append {q : Text} : ∀ (p : Text) (line start : Nat) (hs : List Heredoc),
    (q ≠ [] ∧ (readBodies line start hs (lines (p ++ q))).size ≤ p.length) ∨
      ((readBodies line start hs (lines p)).error = none ∧
        EndsLine (p.take (readBodies line start hs (lines p)).size)) →
    readBodies line start hs (lines (p ++ q)) = readBodies line start hs (lines p) := by
  refine Text.line_induction ?_ ?_
  · intro l hl line start hs h
    cases hs with
    | nil => cases lines (l ++ q) <;> cases lines l <;> rfl
    | cons hd hs =>
        exfalso
        rcases h with ⟨hne, hsize⟩ | ⟨herr, hend⟩
        · obtain ⟨f, r, hqf, hf⟩ := lines_ne_nil hne
          have hf' : 0 < f.length := List.length_pos_of_ne_nil hf
          rw [lines_append_of_no_feed hl hqf, readBodies] at hsize
          split_ifs at hsize <;> simp at hsize <;> omega
        · by_cases hnil : l = []
          · subst hnil
            simp [lines, readBodies] at herr
          · rw [lines_of_no_feed hl hnil] at herr hend
            have hc := List.getLast?_eq_some_getLast hnil
            have htake : l.take (readBodies line start (hd :: hs) [l]).size = l := by
              rw [readBodies]
              split_ifs <;> simp [readBodies, List.take_of_length_le]
            rw [htake] at hend
            rw [hend _ hc] at hc
            exact hl (List.mem_of_getLast? hc)
  · intro l p hl ih line start hs h
    cases hs with
    | nil => cases lines (l ++ '\n' :: p ++ q) <;> cases lines (l ++ '\n' :: p) <;> rfl
    | cons hd hs =>
        rw [List.append_assoc, List.cons_append, lines_line hl, lines_line hl] at *
        simp only [readBodies] at h ⊢
        -- the line is read in the same way on both sides, so the rest has to be
        split_ifs at h ⊢ with hends
        all_goals
          rw [ih]
          refine h.imp ?_ ?_
          · rintro ⟨hne, hsize⟩
            simp only [Extent.extend_size, List.length_append, List.length_cons,
              List.length_nil] at hsize
            exact ⟨hne, by omega⟩
          · rintro ⟨herr, hend⟩
            rw [Extent.extend_size, take_line] at hend
            exact ⟨by simpa using herr, endsLine_append hend⟩

lemma length_withoutLineFeed (l f : Text) {s : Char} (hs : s ≠ '\n') :
    l.length < (withoutLineFeed (l ++ s :: f)).length := by
  rw [withoutLineFeed]
  cases h : Text.dropEnd? ['\n'] (l ++ s :: f) with
  | none => simp
  | some t =>
      rw [Text.dropEnd?_eq_some_iff] at h
      have hlen : l.length + f.length = t.length := by
        have := congrArg List.length h
        simp at this
        omega
      cases f with
      | nil =>
          have hlast := congrArg List.getLast? h
          simp at hlast
          exact absurd hlast hs
      | cons c f =>
          simp only [List.length_cons] at hlen
          simp only [Option.getD_some]
          omega

lemma readBodies_size_le : ∀ (line start : Nat) (hs : List Heredoc) (ls : List Text),
    (readBodies line start hs ls).size ≤ ls.flatten.length
  | _, _, [], ls => by cases ls <;> simp [readBodies]
  | _, _, _ :: _, [] => by simp [readBodies]
  | line, start, h :: hs, l :: ls => by
      have hnext := readBodies_size_le (line + l.count '\n') (line + l.count '\n') hs ls
      have hsame := readBodies_size_le (line + l.count '\n') start (h :: hs) ls
      rw [readBodies, List.flatten_cons, List.length_append]
      split_ifs <;> rw [Extent.extend_size] <;> omega

lemma readDocument_size_le : ∀ (line start : Nat) (ls : List Text),
    (readDocument line start ls).size ≤ ls.flatten.length
  | _, _, [] => by simp [readDocument]
  | line, start, l :: ls => by
      have ih := readDocument_size_le (line + l.count '\n') start ls
      have hl : (withoutLineFeed l).length ≤ l.length := by
        rw [withoutLineFeed]
        cases h : Text.dropEnd? ['\n'] l with
        | none => exact Nat.le_refl _
        | some t =>
            rw [Text.dropEnd?_eq_some_iff] at h
            simp [h]
      rw [readDocument, List.flatten_cons, List.length_append]
      split_ifs
      · dsimp only
        omega
      · rw [Extent.extend_size]
        omega

/-- An embedded document is not changed by what follows its last line. -/
lemma readDocument_append {q : Text} (hq : Stops q) : ∀ (p : Text) (line start : Nat),
    (q ≠ [] ∧ (readDocument line start (lines (p ++ q))).size ≤ p.length) ∨
      (q.head? = some '\n' ∧ (readDocument line start (lines p)).error = none) →
    readDocument line start (lines (p ++ q)) = readDocument line start (lines p) := by
  refine Text.line_induction ?_ ?_
  · intro l hl line start h
    have hne : q ≠ [] := by
      rcases h with h | h
      · exact h.1
      · rintro rfl
        simp at h
    obtain ⟨s, q', rfl⟩ := List.exists_cons_of_ne_nil hne
    by_cases hs : s = '\n'
    · subst hs
      rw [lines_line hl, readDocument, withoutLineFeed_append] at *
      by_cases hend : endsDocument l = true
      · have hnil : l ≠ [] := by
          rintro rfl
          exact absurd hend (by decide)
        rw [if_pos hend, lines_of_no_feed hl hnil, readDocument, withoutLineFeed_of_no_feed hl,
          if_pos hend]
      · rw [if_neg hend] at h
        exfalso
        rcases h with ⟨_, hsize⟩ | ⟨_, herr⟩
        · simp at hsize
          omega
        · by_cases hnil : l = []
          · subst hnil
            simp [lines, readDocument] at herr
          · rw [lines_of_no_feed hl hnil, readDocument, withoutLineFeed_of_no_feed hl, if_neg hend]
              at herr
            simp [readDocument] at herr
    · exfalso
      rcases h with ⟨_, hsize⟩ | ⟨hhead, _⟩
      · obtain ⟨f, r, hqf, -⟩ := lines_ne_nil hne
        obtain ⟨f, rfl⟩ : ∃ g, f = s :: g := by
          rw [lines, if_neg hs] at hqf
          cases hlq : lines q' <;> rw [hlq] at hqf <;> exact ⟨_, (List.cons.inj hqf).1.symm⟩
        have hlong := length_withoutLineFeed l f hs
        rw [lines_append_of_no_feed hl hqf, readDocument] at hsize
        split_ifs at hsize
        · dsimp only at hsize
          omega
        · simp at hsize
          omega
      · exact hs (by simpa using hhead)
  · intro l p hl ih line start h
    rw [List.append_assoc, List.cons_append, lines_line hl, lines_line hl] at *
    simp only [readDocument, withoutLineFeed_append] at h ⊢
    split_ifs at h ⊢ with hends
    · rfl
    · rw [ih]
      refine h.imp ?_ ?_
      · rintro ⟨hne, hsize⟩
        simp only [Extent.extend_size, List.length_append, List.length_cons,
          List.length_nil] at hsize
        exact ⟨hne, by omega⟩
      · rintro ⟨hhead, herr⟩
        exact ⟨hhead, by simpa using herr⟩

end ConverterAssembly.Ruby
