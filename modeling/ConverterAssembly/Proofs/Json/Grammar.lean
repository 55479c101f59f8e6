import ConverterAssembly.Json.Reader
import Mathlib.Tactic

/-!
# The grammar of documents

What it means for a text to be a JSON value, apart from any reader.  Values are texts without blanks
around them; the blanks between the parts of a list or an object belong to the list or object.

* **Scalars** — `IsScalar`: words, strings and numbers.
* **Sequences** — `Following` is the text from the end of one part to the closing bracket; it begins
  with a comma or blanks, so that no scalar before it can go on.
* **Values** — `IsValue`, by the first character.
* **Skipping** — whatever the grammar calls a value is skipped as a whole (`skipValue_append`).
-/

namespace ConverterAssembly.Json

/-- A text of blanks only. -/
def IsBlanks (text : Text) : Prop :=
  ∀ c ∈ text, isBlank c = true

/-- Nothing, or a text whose first character ends any scalar before it. -/
def Delimited (text : Text) : Prop :=
  ∀ c ∈ text.head?, isBlank c = true ∨ c = ',' ∨ c = ']' ∨ c = '\x7d'

/-! ## Scalars -/

/-- The rest of a string from inside its quotes, with the closing quote. -/
inductive IsStringBody : Text → Prop where
  | close : IsStringBody ['"']
  | plain {c : Char} {body : Text} (quote : c ≠ '"') (backslash : c ≠ '\\')
      (control : ¬c.toNat < 0x20) (tail : IsStringBody body) : IsStringBody (c :: body)
  | escape {letter : Char} {body : Text} (known : (escapedBy? letter).isSome = true)
      (tail : IsStringBody body) : IsStringBody ('\\' :: letter :: body)
  | unit {digits body : Text} (length : digits.length = 4)
      (hex : ∀ c ∈ digits, (hexValue? c).isSome = true) (tail : IsStringBody body) :
      IsStringBody ('\\' :: 'u' :: (digits ++ body))

/-- A string with its quotes. -/
def IsString (text : Text) : Prop :=
  ∃ body, text = '"' :: body ∧ IsStringBody body

/-- Digits, of which there is at least one. -/
structure IsDigits (text : Text) : Prop where
  nonempty : text ≠ []
  digits : ∀ c ∈ text, isDigit c = true

/-- The part of a number after a point, or nothing. -/
inductive IsFraction : Text → Prop where
  | absent : IsFraction []
  | places {digits : Text} (h : IsDigits digits) : IsFraction ('.' :: digits)

/-- The exponent of a number, or nothing. -/
inductive IsExponent : Text → Prop where
  | absent : IsExponent []
  | power {letter : Char} {sign digits : Text} (hletter : letter = 'e' ∨ letter = 'E')
      (hsign : sign = [] ∨ sign = ['-'] ∨ sign = ['+']) (h : IsDigits digits) :
      IsExponent (letter :: (sign ++ digits))

/-- A number without a sign: its whole part does not begin with a zero that is not alone. -/
structure IsMagnitude (whole fraction exponent : Text) : Prop where
  digits : IsDigits whole
  zero : whole.head? = some '0' → whole.length = 1
  places : IsFraction fraction
  power : IsExponent exponent

/-- A value without parts. -/
inductive IsScalar : Text → Prop where
  | null : IsScalar ['n', 'u', 'l', 'l']
  | yes : IsScalar ['t', 'r', 'u', 'e']
  | no : IsScalar ['f', 'a', 'l', 's', 'e']
  | string {body : Text} (h : IsStringBody body) : IsScalar ('"' :: body)
  | positive {d : Char} {ds fraction exponent : Text}
      (h : IsMagnitude (d :: ds) fraction exponent) : IsScalar (d :: (ds ++ (fraction ++ exponent)))
  | negative {whole fraction exponent : Text} (h : IsMagnitude whole fraction exponent) :
      IsScalar ('-' :: (whole ++ (fraction ++ exponent)))

/-! ## Sequences -/

/-- The text of the parts still to come, up to the closing bracket.  Every part but the first comes
after a comma. -/
inductive Following : (first : Bool) → List Text → Text → Prop where
  | closed {first : Bool} {blanks : Text} (h : IsBlanks blanks) : Following first [] blanks
  | first {blanks part text : Text} {parts : List Text} (h : IsBlanks blanks)
      (tail : Following false parts text) :
      Following true (part :: parts) (blanks ++ (part ++ text))
  | later {blanks blanks' part text : Text} {parts : List Text} (h : IsBlanks blanks)
      (h' : IsBlanks blanks') (tail : Following false parts text) :
      Following false (part :: parts) (blanks ++ ',' :: (blanks' ++ (part ++ text)))

/-- A member of an object with the given key and value. -/
def IsMember (member : Text × Text) (text : Text) : Prop :=
  ∃ blanks blanks', IsBlanks blanks ∧ IsBlanks blanks' ∧ IsString member.1 ∧
    text = member.1 ++ (blanks ++ ':' :: (blanks' ++ member.2))

/-! ## Values -/

/-- A value without blanks around it. -/
inductive IsValue : Text → Prop where
  | scalar {text : Text} (h : IsScalar text) : IsValue text
  | list {items : List Text} {body : Text} (h : Following true items body)
      (values : ∀ item ∈ items, IsValue item) : IsValue ('[' :: (body ++ [']']))
  | object {members : List (Text × Text)} {parts : List Text} {body : Text}
      (h : Following true parts body) (hmembers : members.Forall₂ IsMember parts)
      (values : ∀ member ∈ members, IsValue member.2) : IsValue ('\x7b' :: (body ++ ['\x7d']))

/-- A character that can begin a value: no blank and no bracket that closes. -/
def Leads (c : Char) : Prop :=
  isBlank c = false ∧ c ≠ ']' ∧ c ≠ '\x7d'

instance : DecidablePred Leads := fun c =>
  inferInstanceAs (Decidable (isBlank c = false ∧ c ≠ ']' ∧ c ≠ '\x7d'))

/-! ## Delimiters -/

lemma delimited_nil : Delimited [] := by
  simp [Delimited]

lemma delimited_closing {closing : Char} (h : closing = ']' ∨ closing = '\x7d') (rest : Text) :
    Delimited (closing :: rest) := by
  simp only [Delimited, List.head?_cons, Option.mem_some_iff]
  rintro c rfl
  exact .inr (.inr h)

lemma Delimited.blanks_append {blanks text : Text} (h : IsBlanks blanks) (htext : Delimited text) :
    Delimited (blanks ++ text) := by
  cases blanks with
  | nil => exact htext
  | cons c blanks =>
      simp only [Delimited, List.cons_append, List.head?_cons, Option.mem_some_iff]
      rintro _ rfl
      exact .inl (h _ List.mem_cons_self)

/-- After a part comes a delimiter. -/
lemma Following.delimited {parts : List Text} {text : Text} (h : Following false parts text)
    {closing : Char} (hclosing : closing = ']' ∨ closing = '\x7d') (rest : Text) :
    Delimited (text ++ closing :: rest) := by
  cases h with
  | closed hblanks => exact (delimited_closing hclosing rest).blanks_append hblanks
  | later hblanks _ _ =>
      rw [List.append_assoc, List.cons_append]
      refine Delimited.blanks_append hblanks ?_
      simp [Delimited]

/-- A delimiter is neither a digit nor a letter, sign or point of a number. -/
lemma Delimited.notMem_head? {rest : Text} (h : Delimited rest) {c : Char}
    (hc : isDigit c = true ∨ c = '.' ∨ c = 'e' ∨ c = 'E') : c ∉ rest.head? := by
  intro hmem
  have hends := h c hmem
  obtain hdigit | rfl | rfl | rfl := hc
  · simp only [isBlank, Bool.or_eq_true, decide_eq_true_eq] at hends
    obtain (((rfl | rfl) | rfl) | rfl) | rfl | rfl | rfl := hends <;>
      exact absurd hdigit (by decide)
  all_goals exact absurd hends (by decide)

/-! ## Sizes of scalars -/

lemma exists_readUnit {digits : Text} (hlength : digits.length = 4)
    (hhex : ∀ c ∈ digits, (hexValue? c).isSome = true) :
    ∃ n, ∀ rest, readUnit (digits ++ rest) = .ok n := by
  obtain ⟨a, b, c, d, rfl⟩ : ∃ a b c d, digits = [a, b, c, d] := by
    match digits, hlength with
    | [a, b, c, d], _ => exact ⟨a, b, c, d, rfl⟩
  simp only [List.mem_cons, List.not_mem_nil, or_false, forall_eq_or_imp, forall_eq,
    Option.isSome_iff_exists] at hhex
  obtain ⟨⟨va, ha⟩, ⟨vb, hb⟩, ⟨vc, hc⟩, vd, hd⟩ := hhex
  have hsize : ¬Text.utf8Size [a, b, c, d] < 4 := by
    have := a.utf8Size_pos
    have := b.utf8Size_pos
    have := c.utf8Size_pos
    have := d.utf8Size_pos
    simp only [Text.utf8Size_cons, Text.utf8Size_nil]
    omega
  refine ⟨((va * 16 + vb) * 16 + vc) * 16 + vd, fun rest => ?_⟩
  have htake : ([a, b, c, d] ++ rest).take 4 = [a, b, c, d] := rfl
  rw [readUnit, htake, if_neg hsize]
  simp [ha, hb, hc, hd]

lemma stringSize_skip (skipped : Text) {text : Text} {size : Nat}
    (h : stringSize 0 text = .ok size) :
    stringSize skipped.length (skipped ++ text) = .ok (skipped.length + size) := by
  induction skipped with
  | nil => simpa using h
  | cons c skipped ih =>
      rw [List.length_cons, List.cons_append, stringSize, ih, Nat.add_right_comm]
      rfl

lemma stringSize_append {body : Text} (h : IsStringBody body) (rest : Text) :
    stringSize 0 (body ++ rest) = .ok body.length := by
  induction h with
  | close => simp [stringSize]
  | plain hquote hbackslash hcontrol _ ih =>
      rw [List.cons_append, stringSize, if_neg hquote, if_neg hcontrol, if_neg hbackslash, ih]
      rfl
  | @escape letter body hknown _ ih =>
      obtain ⟨c, hc⟩ := Option.isSome_iff_exists.1 hknown
      have hu : letter ≠ 'u' := by
        rintro rfl
        exact absurd hknown (by decide)
      simp [stringSize, hc, ih]
  | @unit digits body hlength hhex _ ih =>
      obtain ⟨n, hn⟩ := exists_readUnit hlength hhex
      have hskip := stringSize_skip digits ih
      rw [hlength] at hskip
      simp only [List.cons_append, List.append_assoc]
      simp [stringSize, hn, hskip, hlength, bind, Except.bind]

/-- A run of digits ends before what is no digit. -/
lemma takeWhile_isDigit_append {digits rest : Text} (h : ∀ c ∈ digits, isDigit c = true)
    (hrest : ∀ c ∈ rest.head?, isDigit c = false) :
    (digits ++ rest).takeWhile isDigit = digits := by
  rw [List.takeWhile_append_of_pos h]
  cases rest with
  | nil => simp
  | cons c rest => simp [hrest c (by simp)]

lemma digitsSize_append {digits rest : Text} (h : IsDigits digits)
    (hrest : ∀ c ∈ rest.head?, isDigit c = false) :
    digitsSize (digits ++ rest) = .ok digits.length := by
  have hlength : digits.length ≠ 0 := by simpa using h.nonempty
  simp only [digitsSize, takeWhile_isDigit_append h.digits hrest, if_neg hlength]

lemma Delimited.isDigit_head? {rest : Text} (h : Delimited rest) :
    ∀ c ∈ rest.head?, isDigit c = false := by
  intro c hc
  by_contra hdigit
  exact h.notMem_head? (.inl (Bool.not_eq_false _ ▸ hdigit)) hc

/-- An exponent begins with no digit, and neither does what follows a number without one. -/
lemma IsExponent.isDigit_head? {exponent rest : Text} (h : IsExponent exponent)
    (hrest : Delimited rest) : ∀ c ∈ (exponent ++ rest).head?, isDigit c = false := by
  cases h with
  | absent => exact hrest.isDigit_head?
  | power hletter _ _ =>
      obtain rfl | rfl := hletter <;> simp <;> decide

lemma IsExponent.point_notMem_head? {exponent rest : Text} (h : IsExponent exponent)
    (hrest : Delimited rest) : '.' ∉ (exponent ++ rest).head? := by
  cases h with
  | absent => exact hrest.notMem_head? (by decide)
  | power hletter _ _ => obtain rfl | rfl := hletter <;> simp

lemma IsFraction.isDigit_head? {fraction exponent rest : Text} (h : IsFraction fraction)
    (hexponent : IsExponent exponent) (hrest : Delimited rest) :
    ∀ c ∈ (fraction ++ (exponent ++ rest)).head?, isDigit c = false := by
  cases h with
  | absent => exact hexponent.isDigit_head? hrest
  | places _ =>
      simp
      decide

lemma exponentSize_append {exponent rest : Text} (h : IsExponent exponent)
    (hrest : Delimited rest) : exponentSize (exponent ++ rest) = .ok exponent.length := by
  cases h with
  | absent =>
      cases rest with
      | nil => rfl
      | cons c rest =>
          have he : ¬(c = 'e' || c = 'E') = true := by
            intro hc
            simp only [Bool.or_eq_true, decide_eq_true_eq] at hc
            obtain rfl | rfl := hc
            all_goals exact hrest.notMem_head? (by decide) rfl
          simp [exponentSize, he]
  | @power letter sign digits hletter hsign hdigits =>
      have hsize := digitsSize_append hdigits hrest.isDigit_head?
      obtain ⟨d, ds, rfl⟩ := List.exists_cons_of_ne_nil hdigits.nonempty
      have hd := hdigits.digits d List.mem_cons_self
      have hsign' : d ≠ '-' ∧ d ≠ '+' := by
        constructor <;> rintro rfl <;> exact absurd hd (by decide)
      simp only [List.cons_append] at hsize
      obtain rfl | rfl | rfl := hsign <;> simp [exponentSize, hletter, hsign', hsize]

lemma numberSize_append {whole fraction exponent rest : Text}
    (h : IsMagnitude whole fraction exponent) (hrest : Delimited rest) :
    numberSize (whole ++ (fraction ++ (exponent ++ rest))) =
      .ok (whole ++ (fraction ++ exponent)).length := by
  have hwhole := digitsSize_append h.digits (h.places.isDigit_head? h.power hrest)
  have hexponent := exponentSize_append h.power hrest
  have hzero : ¬((whole ++ (fraction ++ (exponent ++ rest))).head? = some '0' &&
      decide (1 < whole.length)) = true := by
    obtain ⟨d, ds, rfl⟩ := List.exists_cons_of_ne_nil h.digits.nonempty
    simp only [List.cons_append, List.head?_cons, Option.some.injEq, Bool.and_eq_true,
      decide_eq_true_eq, not_and]
    rintro rfl
    rw [h.zero rfl]
    omega
  have hdrop : (whole ++ (fraction ++ (exponent ++ rest))).drop whole.length =
      fraction ++ (exponent ++ rest) := List.drop_left
  rw [numberSize, hwhole]
  simp only [bind, Except.bind, if_neg hzero, hdrop]
  cases h.places with
  | absent =>
      have hpoint : ¬(exponent ++ rest).head? = some '.' := h.power.point_notMem_head? hrest
      simp only [List.nil_append, if_neg hpoint, hexponent, List.length_append]
  | @places digits hdigits =>
      have hdigits' := digitsSize_append hdigits (h.power.isDigit_head? hrest)
      have hdrop' : ('.' :: digits ++ (exponent ++ rest)).drop (digits.length + 1) =
          exponent ++ rest := by simp
      simp only [List.cons_append, List.head?_cons, if_pos, List.tail_cons, hdigits']
      simp only [List.cons_append] at hdrop'
      rw [hdrop', hexponent]
      simp only [List.length_append, List.length_cons]
      congr 1
      omega

/-! ## Skipping -/

lemma IsMagnitude.isDigit_head {d : Char} {ds fraction exponent : Text}
    (h : IsMagnitude (d :: ds) fraction exponent) : isDigit d = true :=
  h.digits.digits d List.mem_cons_self

lemma ne_of_isDigit {d c : Char} (hd : isDigit d = true) (hc : isDigit c = false) : d ≠ c := by
  rintro rfl
  rw [hd] at hc
  exact absurd hc (by decide)

lemma leads_of_isDigit {d : Char} (hd : isDigit d = true) : Leads d := by
  refine ⟨?_, ne_of_isDigit hd (by decide), ne_of_isDigit hd (by decide)⟩
  by_contra hblank
  simp only [isBlank, Bool.not_eq_false, Bool.or_eq_true, decide_eq_true_eq] at hblank
  obtain ((rfl | rfl) | rfl) | rfl := hblank <;> exact absurd hd (by decide)

/-- A scalar is measured as a whole in front of a delimiter. -/
lemma IsScalar.exists_scalarSize {text : Text} (h : IsScalar text) :
    ∃ c cs, text = c :: cs ∧ Leads c ∧ c ≠ '[' ∧ c ≠ '\x7b' ∧
      ∀ rest, Delimited rest → scalarSize c (cs ++ rest) = .ok cs.length := by
  cases h with
  | null => exact ⟨_, _, rfl, by decide, by decide, by decide, fun rest _ => rfl⟩
  | yes => exact ⟨_, _, rfl, by decide, by decide, by decide, fun rest _ => rfl⟩
  | no => exact ⟨_, _, rfl, by decide, by decide, by decide, fun rest _ => rfl⟩
  | string h =>
      refine ⟨_, _, rfl, by decide, by decide, by decide, fun rest _ => ?_⟩
      exact stringSize_append h rest
  | negative h =>
      refine ⟨_, _, rfl, by decide, by decide, by decide, fun rest hrest => ?_⟩
      have hsize := numberSize_append h hrest
      simp only [List.append_assoc]
      exact hsize
  | positive h =>
      have hd := h.isDigit_head
      refine ⟨_, _, rfl, leads_of_isDigit hd, ne_of_isDigit hd (by decide),
        ne_of_isDigit hd (by decide), fun rest hrest => ?_⟩
      have hsize := numberSize_append h hrest
      simp only [List.cons_append, List.append_assoc] at hsize ⊢
      rw [scalarSize, if_neg (ne_of_isDigit hd (by decide)),
        if_neg (ne_of_isDigit hd (by decide)), if_pos hd, hsize]
      rfl

/-- Blanks are passed over, except after a whole value. -/
lemma skipFrom_blanks {blanks : Text} (h : IsBlanks blanks) {expecting : Expecting}
    {outer : List Enclosing} (hgoes : expecting ≠ .comma ∨ outer ≠ []) (text : Text) :
    skipFrom 0 expecting outer (blanks ++ text) = skipFrom 0 expecting outer text := by
  induction blanks with
  | nil => rfl
  | cons c blanks ih =>
      obtain ⟨hc, hblanks⟩ := List.forall_mem_cons.1 h
      rw [List.cons_append, ← ih hblanks, skipFrom, if_pos hc]
      rintro rfl rfl
      simp at hgoes

/-- A character that is not blank is a step. -/
lemma skipFrom_cons {c : Char} (hc : isBlank c = false) {expecting : Expecting}
    {outer : List Enclosing} (hgoes : expecting ≠ .comma ∨ outer ≠ []) (cs : Text) :
    skipFrom 0 expecting outer (c :: cs) = Skipping.step expecting outer c cs >>= fun s =>
      skipFrom s.skip s.expecting s.outer cs := by
  rw [skipFrom, hc, if_neg Bool.false_ne_true]
  rintro rfl rfl
  simp at hgoes

lemma skipFrom_length (skipped : Text) (expecting : Expecting) (outer : List Enclosing)
    (text : Text) :
    skipFrom skipped.length expecting outer (skipped ++ text) =
      skipFrom 0 expecting outer text := by
  induction skipped with
  | nil => rfl
  | cons c skipped ih => rw [List.length_cons, List.cons_append, skipFrom, ih]


lemma skipFrom_scalar {text : Text} (h : IsScalar text) (outer : List Enclosing) {rest : Text}
    (hrest : Delimited rest) :
    skipFrom 0 .value outer (text ++ rest) = skipFrom 0 .comma outer rest := by
  obtain ⟨c, cs, rfl, hlead, hlist, hobject, hsize⟩ := h.exists_scalarSize
  rw [List.cons_append, skipFrom_cons hlead.1 (.inl (by decide)), Skipping.step, Skipping.atValue,
    if_neg hlist, if_neg hobject, hsize rest hrest]
  exact skipFrom_length cs .comma outer rest

/-- A part of a list or object that is skipped as a whole. -/
structure Skips (enclosing : Enclosing) (part : Text) : Prop where
  leads : ∃ c cs, part = c :: cs ∧ Leads c
  skips : ∀ outer rest, Delimited rest →
    skipFrom 0 enclosing.part (enclosing :: outer) (part ++ rest) =
      skipFrom 0 .comma (enclosing :: outer) rest

lemma isBlank_closer (enclosing : Enclosing) : isBlank enclosing.closer = false := by
  cases enclosing <;> decide

lemma closer_cases (enclosing : Enclosing) :
    enclosing.closer = ']' ∨ enclosing.closer = '\x7d' := by
  cases enclosing <;> simp [Enclosing.closer]

lemma Leads.ne_closer {c : Char} (h : Leads c) (enclosing : Enclosing) : c ≠ enclosing.closer := by
  cases enclosing with
  | list => exact h.2.1
  | object => exact h.2.2

lemma step_first {c : Char} (hc : Leads c) (enclosing : Enclosing) (outer : List Enclosing)
    (cs : Text) : Skipping.step .first (enclosing :: outer) c cs =
      Skipping.step enclosing.part (enclosing :: outer) c cs := by
  simp only [Skipping.step, if_neg (hc.ne_closer enclosing)]
  cases enclosing <;> rfl

/-- Parts that are skipped one by one are skipped to the bracket that closes them. -/
lemma Following.skipFrom {first : Bool} {parts : List Text} {text : Text}
    (h : Following first parts text) (enclosing : Enclosing)
    (hparts : ∀ part ∈ parts, Skips enclosing part) (outer : List Enclosing)
    (rest : Text) :
    skipFrom 0 (if first then .first else .comma) (enclosing :: outer)
        (text ++ enclosing.closer :: rest) =
      skipFrom 0 .comma outer rest := by
  have hpart : enclosing.part ≠ .comma := by cases enclosing <;> decide
  induction h with
  | @closed first blanks hblanks =>
      rw [skipFrom_blanks hblanks (.inr (by simp)),
        skipFrom_cons (isBlank_closer _) (.inr (by simp))]
      cases first <;> simp [Skipping.step, bind, Except.bind]
  | @first blanks part text parts hblanks htail ih =>
      obtain ⟨hskips, hlater⟩ := List.forall_mem_cons.1 hparts
      obtain ⟨c, cs, rfl, hlead⟩ := hskips.leads
      have hnext := htail.delimited (closer_cases enclosing) rest
      have hstep := hskips.skips outer _ hnext
      simp only [List.append_assoc, ↓reduceIte] at hstep ⊢
      rw [skipFrom_blanks hblanks (.inr (by simp)), List.cons_append,
        skipFrom_cons hlead.1 (.inr (by simp)), step_first hlead,
        ← skipFrom_cons hlead.1 (.inl hpart), ← List.cons_append, hstep]
      exact ih hlater
  | @later blanks blanks' part text parts hblanks hblanks' htail ih =>
      obtain ⟨hskips, hlater⟩ := List.forall_mem_cons.1 hparts
      have hnext := htail.delimited (closer_cases enclosing) rest
      have hstep := hskips.skips outer _ hnext
      have hcomma : ',' ≠ enclosing.closer := by cases enclosing <;> decide
      simp only [List.append_assoc, List.cons_append] at hstep ⊢
      rw [skipFrom_blanks hblanks (.inr (by simp)), if_neg Bool.false_ne_true,
        skipFrom_cons (by decide) (.inr (by simp)), Skipping.step, if_neg hcomma, if_pos rfl]
      simp only [bind, Except.bind]
      rw [skipFrom_blanks hblanks' (.inl hpart), hstep]
      exact ih hlater

lemma IsValue.leads {text : Text} (h : IsValue text) : ∃ c cs, text = c :: cs ∧ Leads c := by
  cases h with
  | scalar h =>
      obtain ⟨c, cs, rfl, hlead, -⟩ := h.exists_scalarSize
      exact ⟨c, cs, rfl, hlead⟩
  | list _ _ => exact ⟨_, _, rfl, by decide⟩
  | object _ _ _ => exact ⟨_, _, rfl, by decide⟩

/-- A member is skipped as a whole if its value is. -/
lemma IsMember.skips {member : Text × Text} {text : Text} (h : IsMember member text)
    (hvalue : ∀ outer rest, Delimited rest →
      skipFrom 0 .value outer (member.2 ++ rest) = skipFrom 0 .comma outer rest) :
    Skips .object text := by
  obtain ⟨blanks, blanks', hblanks, hblanks', ⟨body, hkey, hbody⟩, rfl⟩ := h
  rw [hkey]
  refine ⟨⟨_, _, rfl, by decide⟩, fun outer rest hrest => ?_⟩
  have hcolon : skipFrom 0 .colon (.object :: outer)
      (blanks ++ ':' :: (blanks' ++ (member.2 ++ rest))) =
        skipFrom 0 .comma (.object :: outer) rest := by
    rw [skipFrom_blanks hblanks (.inl (by decide)),
      skipFrom_cons (by decide) (.inl (by decide)), Skipping.step, if_pos rfl]
    simp only [bind, Except.bind]
    rw [skipFrom_blanks hblanks' (.inl (by decide)), hvalue _ _ hrest]
  simp only [List.append_assoc, List.cons_append, Enclosing.part]
  rw [skipFrom_cons (by decide) (.inl (by decide)), Skipping.step, Skipping.atKey, if_pos rfl,
    stringSize_append hbody]
  exact (skipFrom_length body _ _ _).trans hcolon

lemma exists_of_forall₂ {α β : Type} {R : α → β → Prop} {as : List α} {bs : List β}
    (h : as.Forall₂ R bs) {b : β} (hb : b ∈ bs) : ∃ a ∈ as, R a b := by
  induction h with
  | nil => cases hb
  | @cons a b' as bs hab _ ih =>
      obtain rfl | hb := List.mem_cons.1 hb
      · exact ⟨a, List.mem_cons_self, hab⟩
      · obtain ⟨a, ha, hab⟩ := ih hb
        exact ⟨a, List.mem_cons_of_mem _ ha, hab⟩

lemma IsValue.skipFrom {text : Text} (h : IsValue text) :
    ∀ outer rest, Delimited rest →
      skipFrom 0 .value outer (text ++ rest) = skipFrom 0 .comma outer rest := by
  induction h with
  | scalar h => exact fun outer rest hrest => skipFrom_scalar h outer hrest
  | list hbody values ih =>
      intro outer rest _
      have hitems : ∀ item ∈ _, Skips .list item := fun item hitem =>
        ⟨(values item hitem).leads, fun outer rest => ih item hitem _ rest⟩
      have hskip := hbody.skipFrom .list hitems outer rest
      rw [List.cons_append, skipFrom_cons (by decide) (.inl (by decide))]
      simpa [Skipping.step, Skipping.atValue, Enclosing.closer, bind, Except.bind] using hskip
  | @object members parts body hbody hmembers values ih =>
      intro outer rest _
      have hparts : ∀ part ∈ parts, Skips .object part := by
        intro part hpart
        obtain ⟨member, hmem, hmember⟩ := exists_of_forall₂ hmembers hpart
        exact hmember.skips (ih member hmem)
      have hskip := hbody.skipFrom .object hparts outer rest
      rw [List.cons_append, skipFrom_cons (by decide) (.inl (by decide))]
      simpa [Skipping.step, Skipping.atValue, Enclosing.closer, bind, Except.bind] using hskip

/-- Whatever the grammar calls a value is skipped as a whole. -/
theorem skipValue_append {text : Text} (h : IsValue text) {rest : Text} (hrest : Delimited rest) :
    skipValue (text ++ rest) = .ok rest := by
  rw [skipValue, h.skipFrom [] rest hrest, Json.skipFrom]

end ConverterAssembly.Json
