import ConverterAssembly.Proofs.Ruby.Standing
import ConverterAssembly.Json.Scalar

/-!
# What a written literal stands for

Ruby reads a double-quoted literal character by character: a backslash begins an escape, an
unescaped `#` before a brace or a sigil begins an interpolation, and everything else stands for
itself.

**Reading.**  `literalValue?` reads a literal by these rules, and has no value for one that is not
closed at its end, interpolates, or holds an escape outside the list of `readEscape?`.

**Writing.**  Each character that `stringLiteral` writes is read as itself, whatever comes after it
(`exists_readEscape?`, `readBody_escaped`).  An escape takes a fixed number of digits, so no digit
that follows can be drawn into it.

**Interpolation.**  `Interpolates` looks for an unescaped start in the text of the literal alone:
what hides a `#` is an odd number of backslashes before it.
-/

namespace ConverterAssembly.Ruby

open Text

/-! ## Reading -/

/-- What a single character after a backslash stands for. -/
def letterValue? (c : Char) : Option Char :=
  if c = '"' || c = '\\' || c = '#' then some c
  else if c = 'n' then some '\n'
  else if c = 't' then some '\t'
  else if c = 'r' then some '\r'
  else if c = 'e' then some '\x1b'
  else if c = 'a' then some '\x07'
  else if c = 'b' then some '\x08'
  else if c = 'v' then some '\x0b'
  else if c = 'f' then some '\x0c'
  else none

/-- The hexadecimal digits at the front of a text, but not more than `most`. -/
def hexDigits (most : Nat) (text : Text) : Text :=
  (text.take most).takeWhile fun c => (Json.hexValue? c).isSome

/-- The number that hexadecimal digits stand for. -/
def hexNumber (digits : Text) : Nat :=
  digits.foldl (fun n c => n * 16 + (Json.hexValue? c).getD 0) 0

/-- The character that an escape stands for, and the number of characters that it has after the
backslash: `\x` takes one or two digits, `\u` four.  A byte above 0x7F is no character, and neither
is half of a surrogate pair. -/
def readEscape? : Text → Option (Char × Nat)
  | [] => none
  | c :: cs =>
    if c = 'x' then
      let digits := hexDigits 2 cs
      if digits ≠ [] ∧ hexNumber digits < 0x80 then
        some (Char.ofNat (hexNumber digits), digits.length + 1)
      else none
    else if c = 'u' then
      let digits := hexDigits 4 cs
      if digits.length = 4 ∧ (hexNumber digits).isValidChar then
        some (Char.ofNat (hexNumber digits), 5)
      else none
    else (letterValue? c).map fun d => (d, 1)

/-- Reads the body of a literal to its closing quote, which has to be the last character; `skip`
characters belong to the escape before. -/
def readBody : (skip : Nat) → Text → Option Text
  | _, [] => none
  | skip + 1, _ :: cs => readBody skip cs
  | 0, c :: cs =>
    if c = '"' then if cs = [] then some [] else none
    else if c = '\\' then
      match readEscape? cs with
      | some (d, size) => (readBody size cs).map (d :: ·)
      | none => none
    else if c = '#' ∧ (cs.head? = some '\x7b' ∨ cs.head? = some '$' ∨ cs.head? = some '@') then none
    else (readBody 0 cs).map (c :: ·)

/-- The text that a double-quoted literal stands for, by the escape rules of Ruby. -/
def literalValue? : Text → Option Text
  | '"' :: cs => readBody 0 cs
  | _ => none

/-! ## Writing -/

lemma hexValue?_upperHexDigit {n : Nat} (h : n < 16) :
    Json.hexValue? (upperHexDigit n) = some n := by
  interval_cases n <;> decide

lemma readEscape?_of_controlLetter? {c letter : Char} (h : controlLetter? c = some letter) :
    readEscape? [letter] = some (c, 1) ∧ letter ≠ 'x' ∧ letter ≠ 'u' := by
  unfold controlLetter? at h
  split_ifs at h <;> subst_vars <;> obtain rfl := Option.some.inj h <;> decide

/-- An escape of one character does not look at what follows. -/
lemma readEscape?_append {c d : Char} {n : Nat} (h : readEscape? [c] = some (d, n)) (hx : c ≠ 'x')
    (hu : c ≠ 'u') (rest : Text) : readEscape? (c :: rest) = some (d, n) := by
  simpa [readEscape?, hx, hu] using h

/-- The escape of a control character by its code point. -/
lemma readEscape?_low {c : Char} (h : c.toNat < 0x20) (rest : Text) :
    readEscape? ('u' :: '0' :: '0' :: upperHexDigit (c.toNat / 16) ::
      upperHexDigit (c.toNat % 16) ::
      rest) = some (c, 5) := by
  have hhigh : Json.hexValue? (upperHexDigit (c.toNat / 16)) = some (c.toNat / 16) :=
    hexValue?_upperHexDigit (by omega)
  have hlow : Json.hexValue? (upperHexDigit (c.toNat % 16)) = some (c.toNat % 16) :=
    hexValue?_upperHexDigit (by omega)
  have hzero : Json.hexValue? '0' = some 0 := by decide
  have hdigits : hexDigits 4 ('0' :: '0' :: upperHexDigit (c.toNat / 16) ::
      upperHexDigit (c.toNat % 16) :: rest) =
        ['0', '0', upperHexDigit (c.toNat / 16), upperHexDigit (c.toNat % 16)] := by
    simp [hexDigits, hzero, hhigh, hlow]
  have hnumber : hexNumber ['0', '0', upperHexDigit (c.toNat / 16), upperHexDigit (c.toNat % 16)] =
      c.toNat := by
    simp only [hexNumber, List.foldl_cons, List.foldl_nil, hzero, hhigh, hlow, Option.getD_some]
    omega
  have hvalid : c.toNat.isValidChar := c.valid
  simp [readEscape?, hdigits, hnumber, hvalid, Char.ofNat_toNat]

/-- A character of a literal is written as an escape that is read as the character, whatever
follows, or it stands for itself. -/
lemma exists_readEscape? (c : Char) (next : Option Char) :
    (∃ tail, escapedChar c next = '\\' :: tail ∧
        ∀ rest, readEscape? (tail ++ rest) = some (c, tail.length)) ∨
      escapedChar c next = [c] := by
  rw [escapedChar]
  by_cases hquote : (decide (c = '"') || decide (c = '\\')) = true
  · rw [if_pos hquote]
    refine .inl ⟨[c], rfl, readEscape?_append ?_ ?_ ?_⟩ <;>
      (simp only [Bool.or_eq_true, decide_eq_true_eq] at hquote
       rcases hquote with rfl | rfl <;> decide)
  rw [if_neg hquote]
  by_cases hcode : (decide (c = '#') && beginsInterpolation next) = true
  · rw [if_pos hcode]
    obtain rfl : c = '#' := by
      simp only [Bool.and_eq_true, decide_eq_true_eq] at hcode
      exact hcode.1
    exact .inl ⟨['#'], rfl, readEscape?_append (by decide) (by decide) (by decide)⟩
  rw [if_neg hcode]
  cases hletter : controlLetter? c with
  | some letter =>
      obtain ⟨hread, hx, hu⟩ := readEscape?_of_controlLetter? hletter
      exact .inl ⟨[letter], rfl, readEscape?_append hread hx hu⟩
  | none =>
      dsimp only
      split_ifs with hdel hlow
      · subst hdel
        exact .inl ⟨['x', '7', 'F'], rfl, fun rest => by
          simp [readEscape?, hexDigits, hexNumber]; decide⟩
      · exact .inl ⟨_, rfl, readEscape?_low hlow⟩
      · exact .inr rfl

lemma readBody_drop (skip : Nat) (text : Text) :
    readBody skip text = readBody 0 (text.drop skip) := by
  induction text generalizing skip with
  | nil => cases skip <;> rfl
  | cons c cs ih =>
      cases skip with
      | zero => rfl
      | succ skip => exact ih skip

/-- An escaped text goes on with a sigil or brace of an interpolation only where the text does. -/
lemma beginsInterpolation_head?_escaped {cs : Text} (h : beginsInterpolation cs.head? = false)
    (rest : Text) : beginsInterpolation (escaped cs ++ '"' :: rest).head? = false := by
  cases cs with
  | nil => rfl
  | cons c cs =>
      rw [escaped]
      rcases exists_readEscape? c cs.head? with ⟨tail, htext, -⟩ | htext
      · rw [htext]
        rfl
      · simpa [htext] using h

/-- The body of a written literal is read as the text it was written for. -/
theorem readBody_escaped (value : Text) : readBody 0 (escaped value ++ ['"']) = some value := by
  induction value with
  | nil => rfl
  | cons c value ih =>
      rw [escaped, List.append_assoc]
      rcases escapedChar_cases c value.head?
        with ⟨d, tail, htext, -⟩ | ⟨htext, hquote, hback, -, hhash⟩
      · rcases exists_readEscape? c value.head? with ⟨tail', htext', hread⟩ | htext'
        · rw [htext', List.cons_append, readBody, if_neg (by decide), if_pos rfl, hread]
          simp only [readBody_drop tail'.length, List.drop_left, ih, Option.map_some]
        · rw [htext] at htext'
          cases htext'
      · have hcode : ¬ (c = '#' ∧ ((escaped value ++ ['"']).head? = some '\x7b' ∨
            (escaped value ++ ['"']).head? = some '$' ∨
            (escaped value ++ ['"']).head? = some '@')) := by
          rintro ⟨hc, hnext⟩
          have := beginsInterpolation_head?_escaped (hhash hc) []
          simp only [beginsInterpolation, Bool.or_eq_false_iff, decide_eq_false_iff_not] at this
          tauto
        rw [htext, List.singleton_append, readBody, if_neg hquote, if_neg hback, if_neg hcode, ih]
        rfl

/-! ## Interpolation -/

/-- The number of backslashes at the end of a text. -/
def trailingBackslashes (text : Text) : Nat :=
  (text.reverse.takeWhile (· = '\\')).length

/-- Somewhere in the text a `#` that no backslash escapes stands directly
before a brace or a sigil. -/
def Interpolates (text : Text) : Prop :=
  ∃ before next after, text = before ++ '#' :: next :: after ∧
    (next = '\x7b' ∨ next = '$' ∨ next = '@') ∧ Even (trailingBackslashes before)

lemma trailingBackslashes_append (text : Text) (c : Char) :
    trailingBackslashes (text ++ [c]) = if c = '\\' then trailingBackslashes text + 1 else 0 := by
  by_cases hc : c = '\\' <;> simp [trailingBackslashes, hc]

/-- Characters other than a backslash leave no backslash at the end. -/
lemma trailingBackslashes_append_inert {tail : Text} (hne : tail ≠ [])
    (h : ∀ t ∈ tail, isInert t = true) (text : Text) : trailingBackslashes (text ++ tail) = 0 := by
  obtain ⟨init, last, rfl⟩ := (List.eq_nil_or_concat' tail).resolve_left hne
  have hlast : last ≠ '\\' := by
    rintro rfl
    exact absurd (h '\\' (by simp)) (by decide)
  rw [← List.append_assoc, trailingBackslashes_append, if_neg hlast]

/-- A stretch without a character ends before the next place where it stands. -/
lemma exists_eq_append_of_notMem {a b before after : Text} {c : Char} (hc : c ∉ a)
    (h : a ++ b = before ++ c :: after) :
    ∃ before', before = a ++ before' ∧ b = before' ++ c :: after := by
  rcases List.append_eq_append_iff.1 h with ⟨before', rfl, hb⟩ | ⟨rest, rfl, hrest⟩
  · exact ⟨before', rfl, hb⟩
  · cases rest with
    | nil => exact ⟨[], by simp, by simpa using hrest.symm⟩
    | cons d rest =>
        obtain rfl : c = d := (List.cons.inj hrest).1
        simp at hc

/-- Behind an even number of backslashes no interpolation begins in an escaped text. -/
lemma not_even_trailingBackslashes {value before after : Text} {next : Char} (front : Text)
    (hfront : Even (trailingBackslashes front))
    (h : escaped value ++ ['"'] = before ++ '#' :: next :: after)
    (hnext : next = '\x7b' ∨ next = '$' ∨ next = '@') :
    ¬ Even (trailingBackslashes (front ++ before)) := by
  induction value generalizing front before with
  | nil =>
      rw [escaped, List.nil_append] at h
      have := congrArg List.length h
      simp at this
      omega
  | cons c value ih =>
      rw [escaped, List.append_assoc] at h
      rcases escapedChar_cases c value.head?
        with ⟨d, tail, htext, -, htail⟩ | ⟨htext, -, hback, -, hhash⟩
      · rw [htext, List.cons_append, List.cons_append] at h
        rcases before with _ | ⟨b, _ | ⟨e, before⟩⟩
        · simp at h
        · -- the escape of the number sign itself
          obtain ⟨rfl, -⟩ : '\\' = b ∧ _ := by simpa using h
          rw [trailingBackslashes_append, if_pos rfl, Nat.even_add_one, not_not]
          exact hfront
        · obtain ⟨rfl, rfl, hrest⟩ : '\\' = b ∧ d = e ∧ _ := by simpa using h
          have hnone : '#' ∉ tail := fun hmem => absurd (htail _ hmem) (by decide)
          obtain ⟨before', rfl, hlater⟩ := exists_eq_append_of_notMem hnone hrest
          have heven : Even (trailingBackslashes (front ++ '\\' :: d :: tail)) := by
            by_cases hnil : tail = []
            · rw [hnil, List.append_cons, trailingBackslashes_append, trailingBackslashes_append,
                if_pos rfl]
              split_ifs
              · exact hfront.add_one.add_one
              · exact Even.zero
            · rw [show front ++ '\\' :: d :: tail = (front ++ ['\\', d]) ++ tail by simp,
                trailingBackslashes_append_inert hnil htail]
              exact Even.zero
          have := ih _ heven hlater
          simpa using this
      · rw [htext, List.singleton_append] at h
        cases before with
        | nil =>
            obtain ⟨rfl, hrest⟩ := List.cons.inj h
            have hbegins := beginsInterpolation_head?_escaped (hhash rfl) []
            rw [hrest] at hbegins
            rcases hnext with rfl | rfl | rfl <;> simp [beginsInterpolation] at hbegins
        | cons b before =>
            obtain ⟨rfl, hrest⟩ := List.cons.inj h
            have heven : Even (trailingBackslashes (front ++ [c])) := by
              rw [trailingBackslashes_append, if_neg hback]
              exact Even.zero
            have := ih _ heven hrest
            simpa using this

/-- No written literal interpolates. -/
theorem not_interpolates_stringLiteral (value : Text) : ¬ Interpolates (stringLiteral value) := by
  rintro ⟨before, next, after, htext, hnext, heven⟩
  rw [stringLiteral, List.cons_append] at htext
  cases before with
  | nil => simp at htext
  | cons b before =>
      obtain ⟨rfl, hrest⟩ := List.cons.inj htext
      exact not_even_trailingBackslashes ['"'] (by decide) hrest hnext heven

/-! ## The literal as a whole -/

/-- A written literal is one token wherever it stands alone. -/
lemma tokenize_stringLiteral (value : Text) : (tokenize (stringLiteral value)).error = none ∧
    lexemesOf (stringLiteral value) = [⟨.literal, stringLiteral value⟩] := by
  obtain ⟨ctx, hreads, -, hheredocs, -⟩ := stands_stringLiteral value [] false {} rfl rfl
    (fun _ => ⟨by simp [stringLiteral], by simp [stringLiteral]⟩)
  exact hreads.tokenize_eq hheredocs

/-- A written literal is one line and one token, it interpolates nothing, and by the escape rules of
Ruby it stands for the text it was written for; so no two texts have the same literal. -/
theorem stringLiteral_decodable :
    (∀ value, '\n' ∉ stringLiteral value ∧ ¬ Interpolates (stringLiteral value) ∧
      ((tokenize (stringLiteral value)).error = none ∧
        lexemesOf (stringLiteral value) = [⟨.literal, stringLiteral value⟩]) ∧
      literalValue? (stringLiteral value) = some value) ∧
    Function.Injective stringLiteral := by
  have hvalue : ∀ value, literalValue? (stringLiteral value) = some value := readBody_escaped
  refine ⟨fun value => ⟨feed_not_mem_stringLiteral value, not_interpolates_stringLiteral value,
    tokenize_stringLiteral value, hvalue value⟩, ?_⟩
  intro a b hab
  refine Option.some.inj ?_
  rw [← hvalue a, ← hvalue b, hab]

/-- A delete character before a digit, a NUL before a digit, and a number sign before an
interpolation that is none. -/
example : stringLiteral "\x7fa\x000##\x7b".toList = "\"\\x7Fa\\u00000#\\#\x7b\"".toList := by decide

end ConverterAssembly.Ruby
