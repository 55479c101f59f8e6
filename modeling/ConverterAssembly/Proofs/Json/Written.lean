import ConverterAssembly.Json.Reader
import Mathlib.Tactic

/-!
# Reading written values

What the writer of values puts down, the readers take up again and leave what follows.  A reader
*yields* a value on a text when it does so whatever follows the text.

**Strings.**  `readStringFrom_writeChar` is the step for one character, in each of its written
forms; `readString_written` is the whole string.

**Sequences.**  The parts of lists and objects are told apart by `next`.  `sequel` is the text of
the parts still to come, with or without a comma at its front, so that one step of `next` serves
every loop over parts (`next_sequel_cons`, `next_sequel_nil`).
-/

namespace ConverterAssembly.Json

/-- Whatever follows the text, the reader takes the text as the value and stops there. -/
def Yields {α : Type} (read : Reader α) (text : Text) (a : α) : Prop :=
  ∀ rest, read (text ++ rest) = .ok (a, rest)

/-! ## Strings -/

lemma hexValue?_digitChar {n : Nat} (h : n < 16) : hexValue? (Nat.digitChar n) = some n := by
  interval_cases n <;> decide

/-- An escape with four digits of which the first two are zeros. -/
lemma readUnit_digitChar {n : Nat} (h : n < 256) (rest : Text) :
    readUnit ('0' :: '0' :: Nat.digitChar (n / 16) :: Nat.digitChar (n % 16) :: rest) = .ok n := by
  have high : hexValue? (Nat.digitChar (n / 16)) = some (n / 16) := hexValue?_digitChar (by omega)
  have low : hexValue? (Nat.digitChar (n % 16)) = some (n % 16) := hexValue?_digitChar (by omega)
  have zero : hexValue? '0' = some 0 := by decide
  have size : ¬ Text.utf8Size
      ['0', '0', Nat.digitChar (n / 16), Nat.digitChar (n % 16)] < 4 := by
    have := Char.utf8Size_pos (Nat.digitChar (n / 16))
    have := Char.utf8Size_pos (Nat.digitChar (n % 16))
    have : '0'.utf8Size = 1 := by decide
    simp only [Text.utf8Size_cons, Text.utf8Size_nil]
    omega
  simp only [readUnit, List.take_succ_cons, List.take_zero, if_neg size, List.mapM_cons,
    List.mapM_nil, zero, high, low, Option.bind_eq_bind, Option.bind_some, Option.pure_def]
  congr 1
  omega

/-- One written character is read back in front of what follows. -/
lemma readStringFrom_writeChar (c : Char) {text s rest : Text}
    (h : readStringFrom 0 none text = .ok (s, rest)) :
    readStringFrom 0 none (writeChar c ++ text) = .ok (c :: s, rest) := by
  have escaped : ∀ {letter : Char}, letter ≠ 'u' → escapedBy? letter = some c →
      readStringFrom 0 none ('\\' :: letter :: text) = .ok (c :: s, rest) := by
    intro letter hu hletter
    simp [readStringFrom, hletter, h, bind, Except.bind]
  unfold writeChar
  split_ifs with hquote hb hf hn hr ht hcontrol
  · have hc : c = '"' ∨ c = '\\' := by simpa using hquote
    rcases hc with rfl | rfl
    · exact escaped (by decide) (by decide)
    · exact escaped (by decide) (by decide)
  · exact hb ▸ escaped (by decide) (hb ▸ by decide)
  · exact hf ▸ escaped (by decide) (hf ▸ by decide)
  · exact hn ▸ escaped (by decide) (hn ▸ by decide)
  · exact hr ▸ escaped (by decide) (hr ▸ by decide)
  · exact ht ▸ escaped (by decide) (ht ▸ by decide)
  · have unit := readUnit_digitChar (n := c.toNat) (by omega) text
    have hlow : isLowSurrogate c.toNat = false := by simp [isLowSurrogate]; omega
    have hhigh : isHighSurrogate c.toNat = false := by simp [isHighSurrogate]; omega
    simp [readStringFrom, unit, hlow, hhigh, h, bind, Except.bind, Char.ofNat_toNat]
  · have hc : c ≠ '"' ∧ c ≠ '\\' := by simpa using hquote
    simp [readStringFrom, hc.1, hc.2, hcontrol, h, bind, Except.bind]

/-- The body of a written string is read back up to its closing quote. -/
lemma readString_written (s rest : Text) :
    readString (s.flatMap writeChar ++ '"' :: rest) = .ok (s, rest) := by
  rw [readString]
  induction s with
  | nil => simp [readStringFrom]
  | cons c s ih =>
      rw [List.flatMap_cons, List.append_assoc]
      exact readStringFrom_writeChar c ih

lemma writeString_append (s rest : Text) :
    writeString s ++ rest = '"' :: (s.flatMap writeChar ++ '"' :: rest) := by
  simp [writeString]

lemma skipBlanks_cons {c : Char} (h : isBlank c = false) (cs : Text) :
    skipBlanks (c :: cs) = c :: cs := by
  simp [skipBlanks, h]

lemma skipBlanks_quote (cs : Text) : skipBlanks ('"' :: cs) = '"' :: cs :=
  skipBlanks_cons (by decide) cs

/-- A written string is read where one is wanted. -/
lemma yields_readText (wanted s : Text) : Yields (readText wanted) (writeString s) s := by
  intro rest
  simp [readText, writeString_append, skipBlanks_quote, readString_written]

lemma yields_readOptional_text (wanted s : Text) :
    Yields (readOptional (readText wanted)) (writeString s) (some s) := by
  intro rest
  have text := yields_readText wanted s rest
  rw [writeString_append] at text
  simp [readOptional, writeString_append, skipBlanks_quote, text, bind, Except.bind]

lemma yields_readKey (s : Text) : Yields readKey (writeString s) s := by
  intro rest
  simp [readKey, writeString_append, readString_written]

/-! ## Sequences -/

/-- The text of the parts still to come, those after the first with a comma before them. -/
def sequel : (first : Bool) → List Text → Text
  | _, [] => []
  | true, part :: parts => part ++ sequel false parts
  | false, part :: parts => ',' :: part ++ sequel false parts

lemma join_eq_sequel (parts : List Text) : Text.join [','] parts = sequel true parts := by
  have later : ∀ parts, parts ≠ [] → ',' :: Text.join [','] parts = sequel false parts := by
    intro parts hne
    induction parts with
    | nil => exact absurd rfl hne
    | cons part parts ih =>
        cases parts with
        | nil => simp [Text.join, sequel]
        | cons other parts => simpa [Text.join, sequel] using ih (by simp)
  cases parts with
  | nil => rfl
  | cons part parts =>
      cases parts with
      | nil => simp [Text.join, sequel]
      | cons other parts => simpa [Text.join, sequel] using later (other :: parts) (by simp)

/-- The text begins a part: neither with a blank nor with the bracket that closes the sequence. -/
def Begins (closing : Char) (text : Text) : Prop :=
  ∃ c cs, text = c :: cs ∧ isBlank c = false ∧ c ≠ closing

lemma Begins.append {closing : Char} {text : Text} (h : Begins closing text) (rest : Text) :
    Begins closing (text ++ rest) := by
  obtain ⟨c, cs, rfl, hblank, hclosing⟩ := h
  exact ⟨c, cs ++ rest, rfl, hblank, hclosing⟩

lemma begins_writeString {closing : Char} (h : '"' ≠ closing) (s : Text) :
    Begins closing (writeString s) :=
  ⟨'"', _, rfl, by decide, h⟩

lemma next_sequel_cons {closing : Char} (hcomma : ',' ≠ closing) {part : Text}
    (hpart : Begins closing part) (first : Bool) (parts : List Text) (rest : Text) :
    next closing first (sequel first (part :: parts) ++ rest) =
      .ok (.item (part ++ (sequel false parts ++ rest))) := by
  obtain ⟨c, cs, rfl, hblank, hclosing⟩ := hpart
  have comma : isBlank ',' = false := by decide
  cases first with
  | true => simp [sequel, next, skipBlanks_cons hblank, hclosing]
  | false => simp [sequel, next, skipBlanks_cons comma, skipBlanks_cons hblank, hcomma, hclosing]

lemma next_sequel_nil {closing : Char} (hblank : isBlank closing = false) (first : Bool)
    (rest : Text) :
    next closing first (sequel first [] ++ closing :: rest) = .ok (.closed rest) := by
  simp [sequel, next, skipBlanks_cons hblank]

lemma length_le_sequel {closing : Char} {parts : List Text}
    (h : ∀ part ∈ parts, Begins closing part) (first : Bool) :
    parts.length ≤ (sequel first parts).length := by
  induction parts generalizing first with
  | nil => simp
  | cons part parts ih =>
      obtain ⟨hpart, hparts⟩ := List.forall_mem_cons.1 h
      obtain ⟨c, cs, rfl, _⟩ := hpart
      have := ih hparts false
      cases first <;> simp [sequel] <;> omega

section

variable {α β : Type} {item : Reader β} {write : α → Text} {value : α → β} {parts : List α}

/-- The elements of a list are read one by one up to its bracket. -/
lemma readItemsFrom_sequel (hitem : ∀ a ∈ parts, Yields item (write a) (value a))
    (hbegins : ∀ a ∈ parts, Begins ']' (write a)) {bound : Nat} (hbound : parts.length < bound)
    (first : Bool) (rest : Text) :
    readItemsFrom item bound first (sequel first (parts.map write) ++ ']' :: rest) =
      .ok (parts.map value, rest) := by
  induction parts generalizing bound first with
  | nil =>
      obtain ⟨bound, rfl⟩ : ∃ b, bound = b + 1 := ⟨bound - 1, by omega⟩
      simp only [List.map_nil, readItemsFrom, next_sequel_nil (by decide : isBlank ']' = false),
        bind, Except.bind]
  | cons a parts ih =>
      obtain ⟨bound, rfl⟩ : ∃ b, bound = b + 1 := ⟨bound - 1, by omega⟩
      obtain ⟨ha, hparts⟩ := List.forall_mem_cons.1 hitem
      obtain ⟨hbegin, hbegins⟩ := List.forall_mem_cons.1 hbegins
      have tail := ih hparts hbegins (by simpa using hbound) false
      simp only [List.map_cons, readItemsFrom, next_sequel_cons (by decide : ',' ≠ ']') hbegin,
        ha _, tail, bind, Except.bind]

/-- The elements of a list with its bracket are read back. -/
lemma yields_readItems (hitem : ∀ a ∈ parts, Yields item (write a) (value a))
    (hbegins : ∀ a ∈ parts, Begins ']' (write a)) :
    Yields (readItems item) (Text.join [','] (parts.map write) ++ [']']) (parts.map value) := by
  intro rest
  have bound : parts.length ≤ (sequel true (parts.map write)).length := by
    have hparts : ∀ part ∈ parts.map write, Begins ']' part := by simpa using hbegins
    simpa using length_le_sequel hparts true
  rw [readItems, join_eq_sequel, List.append_assoc, List.singleton_append]
  exact readItemsFrom_sequel hitem hbegins (by simp; omega) true rest

end

lemma afterColon_colon (text : Text) : afterColon (':' :: text) = .ok text := by
  simp [afterColon, skipBlanks_cons (by decide : isBlank ':' = false)]

section

variable {α β : Type} {read : Reader β} {write : α → Text} {value : α → β}
  {members : List (Text × α)}

/-- The members of an object are read one by one up to its brace. -/
lemma readMembersFrom_sequel (hread : ∀ m ∈ members, Yields read (write m.2) (value m.2))
    {bound : Nat} (hbound : members.length < bound) (first : Bool) (rest : Text) :
    readMembersFrom read bound first
        (sequel first (members.map fun m => writeString m.1 ++ ':' :: write m.2) ++
          '\x7d' :: rest) =
      .ok (members.map fun m => (m.1, value m.2), rest) := by
  induction members generalizing bound first with
  | nil =>
      obtain ⟨bound, rfl⟩ : ∃ b, bound = b + 1 := ⟨bound - 1, by omega⟩
      simp only [List.map_nil, readMembersFrom, bind, Except.bind,
        next_sequel_nil (by decide : isBlank '\x7d' = false)]
  | cons m members ih =>
      obtain ⟨bound, rfl⟩ : ∃ b, bound = b + 1 := ⟨bound - 1, by omega⟩
      obtain ⟨hm, hmembers⟩ := List.forall_mem_cons.1 hread
      have tail := ih hmembers (by simpa using hbound) false
      have hbegin : Begins '\x7d' (writeString m.1 ++ ':' :: write m.2) :=
        (begins_writeString (by decide) m.1).append _
      simp only [List.map_cons, readMembersFrom, bind, Except.bind, List.append_assoc,
        List.cons_append, next_sequel_cons (by decide : ',' ≠ '\x7d') hbegin,
        yields_readKey m.1 _, afterColon_colon, hm _, tail]

variable (write value) in
/-- The members of an object with its brace are read back. -/
lemma yields_readMembers (hread : ∀ m ∈ members, Yields read (write m.2) (value m.2)) :
    Yields (readMembers read)
      (Text.join [','] (members.map fun m => writeString m.1 ++ ':' :: write m.2) ++ ['\x7d'])
      (members.map fun m => (m.1, value m.2)) := by
  intro rest
  have bound : members.length ≤
      (sequel true (members.map fun m => writeString m.1 ++ ':' :: write m.2)).length := by
    have hbegins : ∀ part ∈ members.map fun m => writeString m.1 ++ ':' :: write m.2,
        Begins '\x7d' part := by
      intro part hpart
      obtain ⟨m, _, rfl⟩ := List.mem_map.1 hpart
      exact (begins_writeString (by decide) m.1).append _
    simpa using length_le_sequel hbegins true
  rw [readMembers, join_eq_sequel, List.append_assoc, List.singleton_append]
  exact readMembersFrom_sequel hread (by simp; omega) true rest

end

/-! ## Values -/

lemma yields_readValue_string (depth : Nat) (s : Text) :
    Yields (readValue depth) (write (.string s)) (.string s) := by
  intro rest
  rw [readValue.eq_def]
  simp [write, writeString_append, skipBlanks_quote, readFound, readString_written, Found.value,
    bind, Except.bind]

lemma yields_readValue_bool (depth : Nat) (b : Bool) :
    Yields (readValue depth) (write (.bool b)) (.bool b) := by
  intro rest
  rw [readValue.eq_def]
  cases b <;> simp [write, skipBlanks, isBlank, readFound, readWord, isDigit, Found.value, bind,
    Except.bind]

lemma writeItems_eq_map (items : List Json) : writeItems items = items.map write := by
  induction items with
  | nil => rfl
  | cons item items ih => rw [writeItems, ih, List.map_cons]

lemma writeMembers_eq_map (members : List (Text × Json)) :
    writeMembers members = members.map fun m => writeString m.1 ++ ':' :: write m.2 := by
  induction members with
  | nil => rfl
  | cons m members ih => rw [writeMembers, ih, List.map_cons, writeMember]

/-- A list of texts is read back as one. -/
lemma yields_readValue_strings (depth : Nat) (texts : List Text) :
    Yields (readValue (depth + 1)) (write (.array (texts.map .string)))
      (.array (texts.map .string)) := by
  intro rest
  have items : readItems (readValue depth) _ = .ok (texts.map .string, rest) :=
    yields_readItems (fun s _ => yields_readValue_string depth s)
      (fun s _ => begins_writeString (by decide) s) rest
  simp only [write] at items
  rw [readValue.eq_def]
  simp only [write, writeItems_eq_map, List.map_map, List.cons_append, Function.comp_def,
    skipBlanks_cons (by decide : isBlank '[' = false), ↓reduceIte, items, bind, Except.bind]

end ConverterAssembly.Json
