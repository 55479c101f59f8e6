import ConverterAssembly.Proofs.Ruby.Reads

/-!
# Unfinished tokens reach the end

A literal, heredoc or embedded document that never ends takes in all the rest of the text
(`Context.scan_size_of_error`), and so does the data section (`Context.scan_size_of_data`).  A line
feed with further text after it ends its line (`Context.getLast?_of_scan_newline`).
-/

namespace ConverterAssembly.Ruby

open Text

/-! ## Readers -/

lemma readEnclosed_size_of_error : ∀ (skip : Bool) (line : Nat) (es : List Enclosure) (a : Text),
    (readEnclosed skip line es a).error ≠ none → (readEnclosed skip line es a).size = a.length := by
  intro skip line es a
  induction a generalizing skip line es with
  | nil => cases es <;> simp [readEnclosed]
  | cons c cs ih =>
      cases es with
      | nil => simp [readEnclosed]
      | cons e es =>
          intro h
          cases skip with
          | true =>
              rw [readEnclosed, Extent.extend_error] at h
              rw [readEnclosed, Extent.extend_size, ih _ _ _ h, List.length_cons, Nat.add_comm]
          | false =>
              rw [readEnclosed, Extent.extend_error] at h
              rw [readEnclosed, Extent.extend_size, ih _ _ _ h, List.length_cons, Nat.add_comm]

lemma readBodies_nil (line start : Nat) (ls : List Text) :
    readBodies line start [] ls = ⟨0, line, none⟩ := by
  cases ls <;> rfl

lemma readBodies_size_of_error : ∀ (line start : Nat) (hs : List Heredoc) (ls : List Text),
    (readBodies line start hs ls).error ≠ none →
      (readBodies line start hs ls).size = ls.flatten.length := by
  intro line start hs ls
  induction ls generalizing line start hs with
  | nil => cases hs <;> simp [readBodies]
  | cons l ls ih =>
      cases hs with
      | nil => simp [readBodies]
      | cons hd hs =>
          intro h
          rw [readBodies] at h ⊢
          rw [List.flatten_cons, List.length_append]
          split_ifs at h ⊢ with hends
          · rw [Extent.extend_size, ih _ _ _ h]
          · rw [Extent.extend_size, ih _ _ _ h]

lemma readDocument_size_of_error : ∀ (line start : Nat) (ls : List Text),
    (readDocument line start ls).error ≠ none →
      (readDocument line start ls).size = ls.flatten.length := by
  intro line start ls
  induction ls generalizing line with
  | nil => simp [readDocument]
  | cons l ls ih =>
      intro h
      rw [readDocument] at h ⊢
      split_ifs at h ⊢ with hends
      · simp at h
      · rw [Extent.extend_error] at h
        rw [Extent.extend_size, ih _ h, List.flatten_cons, List.length_append]

/-- Heredoc bodies in front of further text are whole lines. -/
lemma endsLine_of_readBodies {q : Text} (hq : q ≠ []) : ∀ (p : Text) (line start : Nat)
    (hs : List Heredoc), (readBodies line start hs (lines (p ++ q))).size = p.length →
      EndsLine p := by
  refine Text.line_induction ?_ ?_
  · intro l hl line start hs h
    cases hs with
    | nil =>
        rw [readBodies_nil] at h
        simp [List.length_eq_zero_iff.1 h.symm, EndsLine]
    | cons hd hs =>
        exfalso
        obtain ⟨f, r, hqf, hf⟩ := lines_ne_nil hq
        have hf' : 0 < f.length := List.length_pos_of_ne_nil hf
        rw [lines_append_of_no_feed hl hqf, readBodies] at h
        split_ifs at h <;> simp at h <;> omega
  · intro l p hl ih line start hs h
    have hend : EndsLine p := by
      cases hs with
      | nil => simp [readBodies_nil] at h
      | cons hd hs =>
          rw [List.append_assoc, List.cons_append, lines_line hl, readBodies] at h
          split_ifs at h
          · refine ih (line + (l ++ ['\n']).count '\n') (line + (l ++ ['\n']).count '\n') hs ?_
            simp only [Extent.extend_size, List.length_append, List.length_cons,
              List.length_nil] at h
            omega
          · refine ih (line + (l ++ ['\n']).count '\n') start (hd :: hs) ?_
            simp only [Extent.extend_size, List.length_append, List.length_cons,
              List.length_nil] at h
            omega
    intro c hc
    cases p with
    | nil => simpa using hc.symm
    | cons d p => exact hend c (by simpa [List.getLast?_append] using hc)

namespace Context

variable (ctx : Context) (line : Nat)

/-- A token with a problem takes in all the rest of the text. -/
theorem scan_size_of_error (c : Char) (cs : Text) :
    (ctx.scan line c cs).extent.error ≠ none → (ctx.scan line c cs).extent.size = cs.length := by
  apply ctx.scan_cases (motive := fun s => s.extent.error ≠ none → s.extent.size = cs.length)
    line c cs
  case newline =>
    intro _ h
    rw [scanNewline] at h ⊢
    split_ifs at h ⊢
    · simp [plain] at h
    · rw [readBodies_size_of_error _ _ _ _ h, flatten_lines]
  case document =>
    intro _ _ h
    simp only [scanDocument, Extent.extend_error] at h
    simp only [scanDocument, Extent.extend_size]
    have hsplit : (lines cs).headD [] ++ (lines cs).tail.flatten = cs := by
      conv_rhs => rw [← flatten_lines cs]
      cases lines cs <;> rfl
    rw [readDocument_size_of_error _ _ _ h, ← List.length_append, hsplit]
  case quoted =>
    intro rules lead hlead _ h
    simp only [scanQuoted, literal, Extent.extend_error] at h
    simp only [scanQuoted, literal, Extent.extend_size]
    rw [Quote.read, readEnclosed_size_of_error _ _ _ _ h, List.length_drop]
    omega
  case flagged =>
    intro rules lead hlead _ h
    simp only [scanFlagged, literal] at h ⊢
    have hsize := readEnclosed_size_of_error _ _ _ _ h
    rw [Quote.read, hsize, List.drop_length, List.takeWhile_nil, List.length_nil, List.length_drop]
    omega
  all_goals simp [plain, scanData, word]

/-- Blanks are always complete. -/
lemma scan_error_of_space {c : Char} {cs : Text} (h : (ctx.scan line c cs).kind = .space) :
    (ctx.scan line c cs).extent.error = none := by
  rcases ctx.of_scan_space line h with hgap | ⟨rfl, hhead⟩
  · rw [ctx.scan_gap line hgap]
    rfl
  · cases cs with
    | nil => simp at hhead
    | cons d ds =>
        obtain rfl : d = '\n' := by simpa using hhead
        rw [scan_continuation]
        rfl

/-- The data section is all the rest of the text. -/
lemma scan_size_of_data {c : Char} {cs : Text} (h : (ctx.scan line c cs).kind = .data) :
    (ctx.scan line c cs).extent.size = cs.length := by
  obtain ⟨hstart, hdir⟩ := ctx.of_scan_data line h
  rw [ctx.scan_data line hstart hdir]
  rfl

/-- A line feed with its heredoc bodies ends its line, unless nothing follows. -/
lemma getLast?_of_scan_newline {cs : Text}
    (h : cs.drop (ctx.scan line '\n' cs).extent.size ≠ []) :
    ('\n' :: cs.take (ctx.scan line '\n' cs).extent.size).getLast? = some '\n' := by
  rw [scan_feed, scanNewline] at h ⊢
  split_ifs at h ⊢
  · rfl
  · set size := (readBodies (line + 1) (line + 1) ctx.heredocs (lines cs)).size with hsize
    have hle : size ≤ cs.length := by
      by_contra hlt
      exact h (List.drop_eq_nil_of_le (by omega))
    have hends : EndsLine (cs.take size) := by
      refine endsLine_of_readBodies h _ (line + 1) (line + 1) ctx.heredocs ?_
      rw [List.take_append_drop, List.length_take, ← hsize]
      omega
    rw [List.getLast?_cons]
    cases hlast : (cs.take size).getLast? with
    | none => rfl
    | some c => rw [hends c hlast]; rfl

end Context

/-- No data section stands before further text. -/
lemma Reads.ne_data {rest text : Text} {ctx ctx' : Context} {ls : List Lexeme}
    (h : Reads rest ctx text ls ctx') (hrest : rest ≠ []) : ∀ l ∈ ls, l.kind ≠ .data := by
  induction h with
  | nil => simp
  | @cons ctx ctx' c p text lexemes scan read size complete tail ih =>
      refine List.forall_mem_cons.2 ⟨fun hkind => ?_, ih⟩
      rw [← read] at hkind size
      have hsize := ctx.scan_size_of_data 0 hkind
      rw [size, List.length_append, List.length_append] at hsize
      have := List.length_pos_of_ne_nil hrest
      omega

end ConverterAssembly.Ruby
