import ConverterAssembly.Proofs.Ruby.Forms

/-!
# Tokens cover the source

Cutting a source into tokens loses nothing, whatever the source holds and whether or not a construct
in it ends.

**Cuts.**  `Covers start tokens text` tells that the tokens, placed from byte `start` on, are a cut
of the text into parts that are not empty.  The lexer makes such a cut (`covers_tokensFrom`), so
every token stands between two parts of the source (`Covers.exists_split`).

**Bytes.**  The readers of runs and of literal bodies look at one character at a time and do not
mind which wide character it is.  They may as well look at one byte of the UTF-8 form at a time, and
hide one byte after a backslash: they still end between two characters (`takeWhile_bytes`,
`readEnclosed_bytes`).
-/

namespace ConverterAssembly.Ruby

open Text

/-! ## Cuts -/

/-- The tokens are the text, cut into parts that are not empty; the first is at byte `start`. -/
def Covers (start : Nat) : List Token → Text → Prop
  | [], text => text = []
  | t :: tokens, text =>
    t.start = start ∧ t.text ≠ [] ∧ ∃ rest, text = t.text ++ rest ∧ Covers t.stop tokens rest

/-- The lexer cuts the text that it reads. -/
theorem covers_tokensFrom (ctx : Context) (start line skip : Nat) (text : Text) :
    Covers start (tokensFrom ctx start line skip text).tokens (text.drop skip) := by
  induction text generalizing ctx start line skip with
  | nil => cases skip <;> simp [tokensFrom, Covers]
  | cons c cs ih =>
      cases skip with
      | succ skip => exact ih ctx start line skip
      | zero =>
          set scan := ctx.scan line c cs with hscan
          refine ⟨rfl, List.cons_ne_nil _ _, cs.drop scan.extent.size, ?_, ?_⟩
          · rw [List.drop_zero, List.cons_append, List.take_append_drop]
          · exact ih _ (start + utf8Size (c :: cs.take scan.extent.size)) scan.extent.line _

namespace Covers

variable {start : Nat} {tokens : List Token} {text : Text}

/-- Every token stands between two parts of the text. -/
lemma exists_split (h : Covers start tokens text) :
    ∀ t ∈ tokens, t.text ≠ [] ∧
      ∃ before after, text = before ++ t.text ++ after ∧ t.start = start + utf8Size before := by
  induction tokens generalizing start text with
  | nil => simp
  | cons u tokens ih =>
      obtain ⟨hstart, hne, rest, rfl, htail⟩ := h
      intro t ht
      rcases List.mem_cons.mp ht with rfl | ht
      · exact ⟨hne, [], rest, rfl, hstart⟩
      · obtain ⟨hne', before, after, rfl, hplace⟩ := ih htail t ht
        refine ⟨hne', u.text ++ before, after, by simp, ?_⟩
        rw [hplace, Token.stop, hstart, utf8Size_append, Nat.add_assoc]

/-- Each token starts where the one before it stops. -/
lemma isChain (h : Covers start tokens text) :
    tokens.IsChain fun t u => t.stop = u.start := by
  induction tokens generalizing start text with
  | nil => exact .nil
  | cons t tokens ih =>
      obtain ⟨-, -, rest, -, htail⟩ := h
      cases tokens with
      | nil => exact .singleton t
      | cons u tokens => exact .cons_cons htail.1.symm (ih htail)

lemma head?_start (h : Covers start tokens text) : ∀ t ∈ tokens.head?, t.start = start := by
  cases tokens with
  | nil => simp
  | cons t tokens =>
      intro u hu
      obtain rfl : t = u := by simpa using hu
      exact h.1

/-- The last token stops at the end of the text. -/
lemma getLast?_stop (h : Covers start tokens text) :
    ∀ t ∈ tokens.getLast?, t.stop = start + utf8Size text := by
  induction tokens generalizing start text with
  | nil => simp
  | cons t tokens ih =>
      obtain ⟨hstart, -, rest, rfl, htail⟩ := h
      have hstop : t.stop = start + utf8Size t.text := by rw [Token.stop, hstart]
      cases tokens with
      | nil =>
          intro u hu
          obtain rfl : t = u := by simpa using hu
          obtain rfl : rest = [] := htail
          rw [hstop, List.append_nil]
      | cons v tokens =>
          intro u hu
          rw [List.getLast?_cons_cons] at hu
          rw [ih htail u hu, hstop, utf8Size_append, Nat.add_assoc]

end Covers

/-! ## UTF-8 -/

lemma utf8ByteSize_ofList (text : Text) : (String.ofList text).utf8ByteSize = utf8Size text := by
  induction text with
  | nil => rfl
  | cons c cs ih =>
      have hhead : (String.ofList [c]).utf8ByteSize = c.utf8Size := by
        rw [← String.singleton_eq_ofList, String.utf8ByteSize_singleton]
      rw [← List.singleton_append, String.ofList_append, String.utf8ByteSize_append, hhead, ih]
      rfl

/-- Between two parts of a text there is a character boundary of its UTF-8 form. -/
lemma isValid_utf8Size (a b : Text) :
    String.Pos.Raw.IsValid (String.ofList (a ++ b)) ⟨utf8Size a⟩ := by
  refine String.Pos.Raw.isValid_iff_exists_append.mpr
    ⟨String.ofList a, String.ofList b, String.ofList_append, ?_⟩
  rw [← utf8ByteSize_ofList]
  rfl

/-- The bytes of a part of a text are found from its start to its stop. -/
lemma extract_utf8Size (a b c : Text) :
    (String.ofList (a ++ b ++ c)).toByteArray.extract (utf8Size a) (utf8Size a + utf8Size b) =
      (String.ofList b).toByteArray := by
  have hsize : ∀ text : Text, (String.ofList text).toByteArray.size = utf8Size text := by
    intro text
    rw [String.size_toByteArray, utf8ByteSize_ofList]
  have hparts := @ByteArray.extract_append_size_add' (String.ofList a).toByteArray
    ((String.ofList b).toByteArray ++ (String.ofList c).toByteArray) 0 (utf8Size b) (utf8Size a)
    (hsize a).symm
  rw [Nat.add_zero, ByteArray.extract_append_eq_left (hsize b).symm] at hparts
  rw [String.ofList_append, String.ofList_append, String.toByteArray_append,
    String.toByteArray_append, ByteArray.append_assoc, hparts]

/-! ## Bytes -/

/-- The bytes of the UTF-8 form of a character, each as a character of its own. -/
def charBytes (c : Char) : Text :=
  (String.utf8EncodeChar c).map fun b => Char.ofNat b.toNat

/-- The bytes of the UTF-8 form of a text, each as a character of its own. -/
def bytes (text : Text) : Text :=
  text.flatMap charBytes

lemma toNat_ofNat_byte {n : Nat} (h : n < 256) : (Char.ofNat (UInt8.ofNat n).toNat).toNat = n := by
  have hvalid : n.isValidChar := Or.inl (by omega)
  rw [UInt8.toNat_ofNat_of_lt' h, Char.ofNat, dif_pos hvalid]
  rfl

lemma charBytes_of_not_isWide {c : Char} (h : isWide c = false) : charBytes c = [c] := by
  have hlt : c.toNat < 128 := by simpa [isWide] using h
  have hsmall : c.val.toNat ≤ 127 := by change c.toNat ≤ 127; omega
  rw [charBytes, String.utf8EncodeChar, if_pos hsmall, List.map_singleton]
  refine congrArg (fun d => [d]) (Char.toNat_inj.mp ?_)
  exact toNat_ofNat_byte (by change c.toNat < 256; omega)

lemma length_charBytes (c : Char) : (charBytes c).length = c.utf8Size := by
  rw [charBytes, List.length_map, String.length_utf8EncodeChar]

lemma charBytes_ne_nil (c : Char) : charBytes c ≠ [] := by
  rw [← List.length_pos_iff, length_charBytes]
  exact c.utf8Size_pos

/-- All bytes of a wide character are outside ASCII. -/
lemma isWide_of_mem_charBytes {c b : Char} (h : isWide c = true) (hb : b ∈ charBytes c) :
    isWide b = true := by
  have hge : 128 ≤ c.val.toNat := by simpa [isWide] using h
  have hbyte : ∀ n, 128 ≤ n → n < 256 → b = Char.ofNat (UInt8.ofNat n).toNat → isWide b = true := by
    rintro n hn hn' rfl
    rw [isWide, toNat_ofNat_byte hn']
    exact decide_eq_true hn
  rw [charBytes, String.utf8EncodeChar, if_neg (by omega)] at hb
  split_ifs at hb <;> simp only [List.map_cons, List.map_nil, List.mem_cons, List.not_mem_nil,
    or_false] at hb
  · rcases hb with hb | hb <;> exact hbyte _ (by omega) (by omega) hb
  · rcases hb with hb | hb | hb <;> exact hbyte _ (by omega) (by omega) hb
  · rcases hb with hb | hb | hb | hb <;> exact hbyte _ (by omega) (by omega) hb

/-- A run of characters ends where the run of their bytes ends, if all wide
characters belong to it or none. -/
lemma takeWhile_bytes {p : Char → Bool}
    (hp : ∀ c d, isWide c = true → isWide d = true → p c = p d) (text : Text) :
    (bytes text).takeWhile p = bytes (text.takeWhile p) := by
  induction text with
  | nil => rfl
  | cons c cs ih =>
      rw [bytes, List.flatMap_cons, List.takeWhile_cons, ← bytes]
      cases hwide : isWide c with
      | false =>
          rw [charBytes_of_not_isWide hwide, List.singleton_append, List.takeWhile_cons]
          split_ifs
          · rw [ih, bytes, bytes, List.flatMap_cons, charBytes_of_not_isWide hwide]
            rfl
          · rfl
      | true =>
          have hall : ∀ b ∈ charBytes c, p b = p c :=
            fun b hb => hp b c (isWide_of_mem_charBytes hwide hb) hwide
          split_ifs with hc
          · rw [List.takeWhile_append_of_pos fun b hb => (hall b hb).trans hc, ih]
            rfl
          · obtain ⟨b, tail, hbytes⟩ := List.exists_cons_of_ne_nil (charBytes_ne_nil c)
            have hb : p b = p c := hall b (by simp [hbytes])
            rw [hbytes, List.cons_append, List.takeWhile_cons, hb, if_neg hc]
            rfl

/-- Which narrow character a text begins with is seen from its first byte. -/
lemma head?_bytes_eq_some_iff {d : Char} (hd : isWide d = false) (text : Text) :
    (bytes text).head? = some d ↔ text.head? = some d := by
  cases text with
  | nil => rfl
  | cons c cs =>
      cases hwide : isWide c with
      | false => simp [bytes, charBytes_of_not_isWide hwide]
      | true =>
          obtain ⟨b, tail, hbytes⟩ := List.exists_cons_of_ne_nil (charBytes_ne_nil c)
          have hb : isWide b = true := isWide_of_mem_charBytes hwide (by simp [hbytes])
          have hbd : b ≠ d := fun h => by simp [h, hd] at hb
          have hcd : c ≠ d := fun h => by simp [h, hd] at hwide
          simp [bytes, hbytes, hbd, hcd]

/-! ### Literal bodies -/

/-- Whether the delimiters that an enclosure looks for are in ASCII. -/
def Enclosure.isNarrow : Enclosure → Bool
  | quote rules _ _ _ => !isWide rules.opening && !isWide rules.closing
  | code _ _ => true

/-- A wide character is no delimiter, so it changes nothing. -/
lemma Enclosure.step_of_isWide {e : Enclosure} (he : e.isNarrow = true) {c : Char}
    (hc : isWide c = true) (line : Nat) (next : Option Char) :
    e.step line c next = ⟨[e], line, false⟩ := by
  have hne : ∀ d, isWide d = false → c ≠ d := by
    rintro d hd rfl
    simp [hd] at hc
  cases e with
  | quote rules depth inClass start =>
      simp only [isNarrow, Bool.and_eq_true, Bool.not_eq_true'] at he
      cases inClass <;>
        simp [step, hne _ he.1, hne _ he.2, hne '\\' rfl, hne '\n' rfl, hne '#' rfl, hne '[' rfl,
          hne ']' rfl]
  | code depth start =>
      simp [step, hne '\x7b' rfl, hne '\x7d' rfl, hne '\n' rfl, hne '\\' rfl, hne '"' rfl,
        hne '\x60' rfl, hne '\x27' rfl]

/-- Of the next character a step only asks whether it is a line feed or an opening brace. -/
lemma Enclosure.step_congr_next (e : Enclosure) (line : Nat) (c : Char) {next next' : Option Char}
    (hfeed : next = some '\n' ↔ next' = some '\n')
    (hbrace : next = some '\x7b' ↔ next' = some '\x7b') :
    e.step line c next = e.step line c next' := by
  cases e with
  | quote rules depth inClass start => simp only [step, hfeed, hbrace]
  | code depth start => rfl

lemma Enclosure.isNarrow_of_step {e : Enclosure} (he : e.isNarrow = true) (line : Nat) (c : Char)
    (next : Option Char) : ∀ e' ∈ (e.step line c next).enclosures, e'.isNarrow = true := by
  cases e with
  | quote rules depth inClass start =>
      have hquote : ∀ depth inClass, (quote rules depth inClass start).isNarrow = true :=
        fun _ _ => he
      have hcode : (code 0 line).isNarrow = true := rfl
      simp only [step]
      split_ifs <;> first | simp [hquote, hcode] | (cases depth <;> simp [hquote])
  | code depth start =>
      have hcode : ∀ depth, (code depth start).isNarrow = true := fun _ => rfl
      simp only [step]
      split_ifs with hopen hclose hfeed hback hquote hplain
      · simp [hcode]
      · cases depth <;> simp [hcode]
      · simp [hcode]
      · simp [hcode]
      · rcases hquote with rfl | rfl <;> simp [isNarrow, Quote.between, isWide]
      · subst hplain
        simp [isNarrow, Quote.between, isWide]
      · simp [hcode]

/-- Wide characters of a literal body are passed over. -/
lemma readEnclosed_of_isWide {e : Enclosure} (he : e.isNarrow = true) {bs : Text}
    (hbs : ∀ b ∈ bs, isWide b = true) (line : Nat) (es : List Enclosure) (rest : Text) :
    readEnclosed false line (e :: es) (bs ++ rest) =
      (readEnclosed false line (e :: es) rest).extend bs.length := by
  induction bs with
  | nil => simp [Extent.extend]
  | cons b bs ih =>
      rw [List.forall_mem_cons] at hbs
      rw [List.cons_append, readEnclosed, e.step_of_isWide he hbs.1]
      simp only [List.singleton_append, ih hbs.2, Extent.extend, List.length_cons]
      rw [← Nat.add_assoc, Nat.add_comm 1]

/-- The extent with its size counted in bytes instead of characters of the text. -/
def Extent.inBytes (e : Extent) (text : Text) : Extent :=
  { e with size := utf8Size (text.take e.size) }

lemma Extent.extend_inBytes (e : Extent) (c : Char) (cs : Text) :
    (e.inBytes cs).extend c.utf8Size = (e.extend 1).inBytes (c :: cs) := by
  simp [extend, inBytes, Nat.add_comm 1]

lemma Extent.extend_extend (e : Extent) (m n : Nat) : (e.extend m).extend n = e.extend (n + m) := by
  simp [extend, Nat.add_assoc]

/-- A literal body read byte by byte, with one byte hidden after a backslash, ends where it ends
when it is read by characters. -/
theorem readEnclosed_bytes {es : List Enclosure} (hes : ∀ e ∈ es, e.isNarrow = true) (skip : Bool)
    (line : Nat) (text : Text) :
    readEnclosed skip line es (bytes text) = (readEnclosed skip line es text).inBytes text := by
  induction text generalizing skip line es with
  | nil => cases es <;> cases skip <;> rfl
  | cons c cs ih =>
      cases es with
      | nil => cases skip <;> simp [readEnclosed, bytes, Extent.inBytes]
      | cons e es =>
          have he : e.isNarrow = true := hes e (by simp)
          cases skip with
          | true =>
              -- the hidden byte may be the first of several: those after it are passed over
              obtain ⟨b, tail, hbytes⟩ := List.exists_cons_of_ne_nil (charBytes_ne_nil c)
              have hsize : 1 + tail.length = c.utf8Size := by
                rw [← length_charBytes, hbytes, List.length_cons, Nat.add_comm]
              have htail : ∀ d ∈ tail, isWide d = true := by
                intro d hd
                cases hwide : isWide c with
                | false => simp_all [charBytes_of_not_isWide hwide]
                | true => exact isWide_of_mem_charBytes hwide (by simp [hbytes, hd])
              rw [bytes, List.flatMap_cons, hbytes, List.cons_append, ← bytes, readEnclosed,
                readEnclosed, readEnclosed_of_isWide he htail, ih hes, Extent.extend_extend, hsize,
                Extent.extend_inBytes]
          | false =>
              cases hwide : isWide c with
              | true =>
                  have hall : ∀ d ∈ charBytes c, isWide d = true :=
                    fun d hd => isWide_of_mem_charBytes hwide hd
                  rw [bytes, List.flatMap_cons, ← bytes, readEnclosed_of_isWide he hall, ih hes,
                    length_charBytes, Extent.extend_inBytes, readEnclosed,
                    e.step_of_isWide he hwide]
                  rfl
              | false =>
                  have hsize : c.utf8Size = 1 := by
                    rw [← length_charBytes, charBytes_of_not_isWide hwide, List.length_singleton]
                  have hnext : e.step line c (bytes cs).head? = e.step line c cs.head? :=
                    e.step_congr_next line c (head?_bytes_eq_some_iff rfl cs)
                      (head?_bytes_eq_some_iff rfl cs)
                  have hinner : ∀ e' ∈ (e.step line c cs.head?).enclosures ++ es,
                      e'.isNarrow = true := by
                    rw [List.forall_mem_append]
                    exact ⟨Enclosure.isNarrow_of_step he line c cs.head?,
                      fun e' h => hes e' (List.mem_cons_of_mem e h)⟩
                  rw [bytes, List.flatMap_cons, charBytes_of_not_isWide hwide,
                    List.singleton_append, ← bytes, readEnclosed, readEnclosed, hnext,
                    ← Extent.extend_inBytes, hsize]
                  exact congrArg (·.extend 1) (ih hinner _ _)

/-- All delimiters of literals are in ASCII. -/
lemma not_isWide_of_isDelimiter {typed : Bool} {opening : Char}
    (h : isDelimiter typed opening = true) :
    isWide opening = false ∧ isWide (closingDelimiter opening) = false := by
  have hopening : isWide opening = false := by
    cases typed with
    | true =>
        simp only [isDelimiter, if_true, Bool.and_eq_true, Bool.not_eq_true'] at h
        exact h.2
    | false =>
        simp only [isDelimiter, Bool.false_eq_true, if_false, isPunctuation, Bool.and_eq_true,
          decide_eq_true_eq] at h
        have hlast : opening.toNat ≤ '~'.toNat := h.1.1.1.2
        have hlt : opening.toNat < 128 := hlast.trans_lt (by decide)
        simpa [isWide] using hlt
  refine ⟨hopening, ?_⟩
  unfold closingDelimiter
  split_ifs <;> first | rfl | exact hopening

/-! ## Sources -/

/-- The tokens are the source, cut between its characters. -/
structure Cuts (source : String) (tokens : List Token) : Prop where
  text : String.ofList (sourceOf tokens) = source
  first : ∀ t ∈ tokens.head?, t.start = 0
  adjacent : tokens.IsChain fun t u => t.stop = u.start
  last : ∀ t ∈ tokens.getLast?, t.stop = source.utf8ByteSize
  nonempty : ∀ t ∈ tokens, t.text ≠ []
  /-- Tokens start and stop at character boundaries of the UTF-8 form. -/
  boundaries : ∀ t ∈ tokens,
    String.Pos.Raw.IsValid source ⟨t.start⟩ ∧ String.Pos.Raw.IsValid source ⟨t.stop⟩
  bytes : ∀ t ∈ tokens,
    source.toByteArray.extract t.start t.stop = (String.ofList t.text).toByteArray

lemma cuts_of_covers {source : Text} {tokens : List Token} (h : Covers 0 tokens source)
    (htext : sourceOf tokens = source) : Cuts (String.ofList source) tokens := by
  have hsplit : ∀ t ∈ tokens, ∃ before after,
      source = before ++ t.text ++ after ∧ t.start = utf8Size before := by
    intro t ht
    obtain ⟨-, before, after, hsource, hstart⟩ := h.exists_split t ht
    exact ⟨before, after, hsource, by rw [hstart, Nat.zero_add]⟩
  refine ⟨by rw [htext], h.head?_start, h.isChain, ?_, fun t ht => (h.exists_split t ht).1, ?_, ?_⟩
  · intro t ht
    rw [h.getLast?_stop t ht, Nat.zero_add, utf8ByteSize_ofList]
  · intro t ht
    obtain ⟨before, after, rfl, hstart⟩ := hsplit t ht
    have hstop : t.stop = utf8Size (before ++ t.text) := by
      rw [Token.stop, hstart, utf8Size_append]
    rw [hstart, hstop]
    refine ⟨?_, isValid_utf8Size _ after⟩
    rw [List.append_assoc]
    exact isValid_utf8Size before _
  · intro t ht
    obtain ⟨before, after, rfl, hstart⟩ := hsplit t ht
    rw [Token.stop, hstart]
    exact extract_utf8Size before t.text after

/-- Every source is cut into tokens between its characters, whether or not a construct in it ends.
No token is read beyond the end of the text, and where runs of characters and literal bodies are
read byte by byte, they end between two characters. -/
theorem tokenize_cuts (source : String) :
    Cuts source (tokenize source.toList).tokens ∧
      (∀ (ctx : Context) (line : Nat) (c : Char) (cs : Text),
        (ctx.scan line c cs).extent.size ≤ cs.length) ∧
      (∀ (p : Char → Bool) (text : Text), (∀ c d, isWide c = true → isWide d = true → p c = p d) →
        (bytes text).takeWhile p = bytes (text.takeWhile p)) ∧
      (∀ (typed : Bool) (opening : Char) (interpolates hasClasses : Bool) (line : Nat)
        (text : Text), isDelimiter typed opening = true →
        let rules : Quote := ⟨opening, closingDelimiter opening, interpolates, hasClasses⟩
        rules.read line (bytes text) = (rules.read line text).inBytes text) := by
  refine ⟨?_, Context.scan_size_le, fun p text hp => takeWhile_bytes hp text, ?_⟩
  · have htext := sourceOf_tokensFrom {} 0 1 0 source.toList
    have hcuts := cuts_of_covers (covers_tokensFrom {} 0 1 0 source.toList) htext
    rwa [List.drop_zero, String.ofList_toList] at hcuts
  · intro typed opening interpolates hasClasses line text hdelimiter
    obtain ⟨hopening, hclosing⟩ := not_isWide_of_isDelimiter hdelimiter
    refine readEnclosed_bytes (List.forall_mem_singleton.mpr ?_) false line text
    simp [Enclosure.isNarrow, hopening, hclosing]

/-- A backslash hides the first byte of a wide character, and the literal still ends after its
quote, four bytes on. -/
theorem tokenize_cuts_escaped :
    isDelimiter false '"' = true ∧
      (Quote.between '"' true).read 1 (bytes ['\\', 'é', '"', 'y']) = ⟨4, 1, none⟩ ∧
      Cuts "\"\\é\"y" (tokenize "\"\\é\"y".toList).tokens := by
  obtain ⟨hcuts, -, -, hread⟩ := tokenize_cuts "\"\\é\"y"
  refine ⟨by decide, ?_, hcuts⟩
  exact (hread false '"' true false 1 ['\\', 'é', '"', 'y'] (by decide)).trans (by decide)

end ConverterAssembly.Ruby
