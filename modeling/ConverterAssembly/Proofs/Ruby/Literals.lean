import ConverterAssembly.Proofs.Ruby.Readers
import ConverterAssembly.Ruby.Literal

/-!
# Written literals are read as literals

`stringLiteral` writes any text in quotes, and the reader of quoted bodies finds the end of what it
wrote at the last quote and nowhere before (`read_escaped`), whatever the text holds and whatever
follows.
-/

namespace ConverterAssembly.Ruby

/-- A character that means nothing but itself in a literal. -/
def isInert (c : Char) : Bool :=
  c ≠ '"' && c ≠ '\\' && c ≠ '\n' && c ≠ '#'

lemma isInert_upperHexDigit {n : Nat} (h : n < 16) : isInert (upperHexDigit n) = true := by
  interval_cases n <;> decide

/-- A character of a literal is written as an escape, or stands for itself
where it means nothing else. -/
lemma escapedChar_cases (c : Char) (next : Option Char) :
    (∃ d tail, escapedChar c next = '\\' :: d :: tail ∧ d ≠ '\n' ∧ ∀ t ∈ tail, isInert t = true) ∨
      (escapedChar c next = [c] ∧ c ≠ '"' ∧ c ≠ '\\' ∧ c ≠ '\n' ∧
        (c = '#' → beginsInterpolation next = false)) := by
  rw [escapedChar]
  by_cases hquote : (decide (c = '"') || decide (c = '\\')) = true
  · rw [if_pos hquote]
    refine .inl ⟨c, [], rfl, ?_, by simp⟩
    rintro rfl
    simp at hquote
  rw [if_neg hquote]
  by_cases hcode : (decide (c = '#') && beginsInterpolation next) = true
  · rw [if_pos hcode]
    exact .inl ⟨'#', [], rfl, by decide, by simp⟩
  rw [if_neg hcode]
  cases hletter : controlLetter? c with
  | some letter =>
      refine .inl ⟨letter, [], rfl, ?_, by simp⟩
      rintro rfl
      unfold controlLetter? at hletter
      split_ifs at hletter <;> simp at hletter
  | none =>
      dsimp only
      split_ifs with hdel hlow
      · exact .inl ⟨'x', ['7', 'F'], rfl, by decide, List.all_eq_true.mp (by decide)⟩
      · refine .inl ⟨'u', _, rfl, by decide, ?_⟩
        have hhigh : isInert (upperHexDigit (c.toNat / 16)) = true :=
          isInert_upperHexDigit (by omega)
        have hrest : isInert (upperHexDigit (c.toNat % 16)) = true :=
          isInert_upperHexDigit (by omega)
        simp [hhigh, hrest, show isInert '0' = true by decide]
      · right
        simp only [Bool.or_eq_true, decide_eq_true_eq, not_or] at hquote
        refine ⟨rfl, hquote.1, hquote.2, ?_, ?_⟩
        · rintro rfl
          simp [controlLetter?] at hletter
        · rintro rfl
          simpa using hcode

/-- An escaped text goes on with an opening brace only where the text does. -/
lemma head?_escaped_ne {cs : Text} (h : cs.head? ≠ some '\x7b') (rest : Text) :
    (escaped cs ++ '"' :: rest).head? ≠ some '\x7b' := by
  cases cs with
  | nil => simp [escaped]
  | cons c cs =>
      rw [escaped]
      rcases escapedChar_cases c cs.head? with ⟨d, tail, htext, -⟩ | ⟨htext, -⟩
      · simp [htext]
      · simpa [htext] using h

/-- Inside double quotes, a character that is neither a quote nor a backslash nor a line feed, and
that begins no interpolation, is one of the body. -/
lemma step_plain {c : Char} {next : Option Char} (line start : Nat) (hquote : c ≠ '"')
    (hback : c ≠ '\\') (hfeed : c ≠ '\n') (hcode : c = '#' → next ≠ some '\x7b') :
    (Enclosure.quote (.between '"' true) 0 false start).step line c next =
      ⟨[.quote (.between '"' true) 0 false start], line, false⟩ := by
  have hcode' : ¬ (c = '#' ∧ next = some '\x7b') := fun h => hcode h.1 h.2
  simp [Enclosure.step, Quote.between, hback, hfeed, hquote, hcode']

/-- A backslash takes the next character with it. -/
lemma readEnclosed_backslash {d : Char} (line start : Nat) (hd : d ≠ '\n') (cs : Text) :
    readEnclosed false line [.quote (.between '"' true) 0 false start] ('\\' :: d :: cs) =
      (readEnclosed false line [.quote (.between '"' true) 0 false start] cs).extend 2 := by
  simp [readEnclosed, Enclosure.step, hd, Extent.extend]
  omega

lemma readEnclosed_plain {c : Char} {cs : Text} (line start : Nat) (hquote : c ≠ '"')
    (hback : c ≠ '\\') (hfeed : c ≠ '\n') (hcode : c = '#' → cs.head? ≠ some '\x7b') :
    readEnclosed false line [.quote (.between '"' true) 0 false start] (c :: cs) =
      (readEnclosed false line [.quote (.between '"' true) 0 false start] cs).extend 1 := by
  rw [readEnclosed, step_plain line start hquote hback hfeed hcode]
  rfl

lemma readEnclosed_inert {tail : Text} (h : ∀ t ∈ tail, isInert t = true) (line start : Nat)
    (cs : Text) :
    readEnclosed false line [.quote (.between '"' true) 0 false start] (tail ++ cs) =
      (readEnclosed false line [.quote (.between '"' true) 0 false start] cs).extend
        tail.length := by
  induction tail with
  | nil => simp [Extent.extend]
  | cons t tail ih =>
      rw [List.forall_mem_cons] at h
      simp only [isInert, ne_eq, Bool.and_eq_true, decide_eq_true_eq] at h
      obtain ⟨⟨⟨⟨hquote, hback⟩, hfeed⟩, hhash⟩, htail⟩ := h
      rw [List.cons_append, readEnclosed_plain line start hquote hback hfeed
        (fun hc => absurd hc hhash), ih (by simpa [isInert] using htail)]
      simp [Extent.extend]
      omega

/-- The body of a written literal ends at its last quote. -/
theorem read_escaped (value rest : Text) (line start : Nat) :
    readEnclosed false line [.quote (.between '"' true) 0 false start]
      (escaped value ++ '"' :: rest) = ⟨(escaped value).length + 1, line, none⟩ := by
  induction value with
  | nil => simp [escaped, readEnclosed, Enclosure.step, Quote.between, Extent.extend]
  | cons c value ih =>
      rw [escaped, List.append_assoc]
      rcases escapedChar_cases c value.head? with ⟨d, tail, htext, hd, htail⟩ | ⟨htext, hc⟩
      · rw [htext, List.cons_append, List.cons_append, readEnclosed_backslash line start hd,
          readEnclosed_inert htail, ih]
        simp [Extent.extend]
        omega
      · obtain ⟨hquote, hback, hfeed, hcode⟩ := hc
        have hnext : c = '#' → (escaped value ++ '"' :: rest).head? ≠ some '\x7b' := by
          intro hhash
          refine head?_escaped_ne ?_ rest
          intro hbrace
          simpa [beginsInterpolation, hbrace] using hcode hhash
        rw [htext, List.singleton_append, readEnclosed_plain line start hquote hback hfeed hnext,
          ih]
        simp [Extent.extend]
        omega

/-- A written literal holds no line feed. -/
theorem feed_not_mem_stringLiteral (value : Text) : '\n' ∉ stringLiteral value := by
  have hescaped : '\n' ∉ escaped value := by
    induction value with
    | nil => simp [escaped]
    | cons c value ih =>
        rw [escaped, List.mem_append, not_or]
        refine ⟨?_, ih⟩
        rcases escapedChar_cases c value.head?
          with ⟨d, tail, htext, hd, htail⟩ | ⟨htext, -, -, hc, -⟩
        · rw [htext]
          simp only [List.mem_cons, not_or]
          refine ⟨by decide, fun h => hd h.symm, fun h => ?_⟩
          exact absurd (htail _ h) (by decide)
        · rw [htext]
          simpa using fun h => hc h.symm
  simp [stringLiteral, hescaped]

end ConverterAssembly.Ruby
