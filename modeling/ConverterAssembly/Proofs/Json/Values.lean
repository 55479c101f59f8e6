import ConverterAssembly.Proofs.Json.Grammar

/-!
# Reading values

What a reader makes of a value depends on the value alone: neither on the blanks before it nor on
what follows it.  A reader *settles* a text with a result when it gives that result, a fault
included, whatever delimited text follows, and stops right after the text.

* **Scalars** — strings, numbers and words are settled.
* **Sequences** — readers that settle the parts settle lists and objects, and the result is that of
  the parts one after another (`readItems_following`, `readMembers_following`).
* **Values** — `IsLocal` readers settle every value; `readText`, `readOptional` and `readValue` are
  local.
-/

namespace ConverterAssembly.Json

/-- Whatever delimited text follows, the reader gives the result for the text and stops there. -/
def Settles {α : Type} (read : Reader α) (text : Text) (result : Except Fault α) : Prop :=
  ∀ rest, Delimited rest → read (text ++ rest) = result.map fun a => (a, rest)

/-- What a reader makes of a whole text. -/
def taken {α : Type} (read : Reader α) (text : Text) : Except Fault α :=
  (read text).map Prod.fst

/-- A reader for which only the value counts that it reads. -/
structure IsLocal {α : Type} (read : Reader α) : Prop where
  blanks : ∀ {blanks : Text}, IsBlanks blanks → ∀ text, read (blanks ++ text) = read text
  values : ∀ {text : Text}, IsValue text → Settles read text (taken read text)

variable {α : Type}

lemma Settles.taken_eq {read : Reader α} {text : Text} {result : Except Fault α}
    (h : Settles read text result) : taken read text = result := by
  have hread := h [] delimited_nil
  rw [List.append_nil] at hread
  rw [taken, hread]
  cases result <;> rfl

lemma Settles.self {read : Reader α} {text : Text} {result : Except Fault α}
    (h : Settles read text result) : Settles read text (taken read text) := by
  rw [h.taken_eq]
  exact h

lemma skipBlanks_append {blanks : Text} (h : IsBlanks blanks) (text : Text) :
    skipBlanks (blanks ++ text) = skipBlanks text := by
  rw [skipBlanks, List.dropWhile_append_of_pos h, skipBlanks]

lemma skipBlanks_of_leads {c : Char} (h : Leads c) (cs : Text) :
    skipBlanks (c :: cs) = c :: cs := by
  rw [skipBlanks, List.dropWhile_cons_of_neg (by simp [h.1])]

/-! ## Scalars -/

lemma readStringFrom_length (skipped : Text) (high : Option Nat) (text : Text) :
    readStringFrom skipped.length high (skipped ++ text) = readStringFrom 0 high text := by
  induction skipped with
  | nil => rfl
  | cons c skipped ih => rw [List.length_cons, List.cons_append, readStringFrom, ih]

/-- Inside a string the result is settled, also where the second half of a character is due. -/
lemma exists_readStringFrom {body : Text} (h : IsStringBody body) (high : Option Nat) :
    ∃ result : Except Fault Text, ∀ rest,
      readStringFrom 0 high (body ++ rest) = result.map fun s => (s, rest) := by
  induction h generalizing high with
  | close =>
      cases high with
      | none => exact ⟨.ok [], fun rest => by simp [readStringFrom, Except.map]⟩
      | some n => exact ⟨.error .malformed, fun rest => by simp [readStringFrom, Except.map]⟩
  | @plain c body hquote hbackslash hcontrol _ ih =>
      cases high with
      | none =>
          obtain ⟨result, hresult⟩ := ih none
          refine ⟨result.map (c :: ·), fun rest => ?_⟩
          simp only [List.cons_append, readStringFrom, if_neg hquote, if_neg hcontrol,
            if_neg hbackslash, hresult]
          cases result <;> rfl
      | some n =>
          refine ⟨.error .malformed, fun rest => ?_⟩
          simp [readStringFrom, hbackslash, Except.map]
  | @escape letter body hknown _ ih =>
      obtain ⟨c, hc⟩ := Option.isSome_iff_exists.1 hknown
      have hu : letter ≠ 'u' := by
        rintro rfl
        exact absurd hknown (by decide)
      cases high with
      | none =>
          obtain ⟨result, hresult⟩ := ih none
          refine ⟨result.map (c :: ·), fun rest => ?_⟩
          simp only [List.cons_append, readStringFrom, Char.reduceEq, ↓reduceIte, Char.reduceToNat,
            Nat.reduceLT, List.head?_cons, hc, hresult]
          cases result <;> rfl
      | some n =>
          refine ⟨.error .malformed, fun rest => ?_⟩
          simp [readStringFrom, Except.map]
  | @unit digits body hlength hhex _ ih =>
      obtain ⟨n, hn⟩ := exists_readUnit hlength hhex
      have hskip (high : Option Nat) (text : Text) :
          readStringFrom 4 high (digits ++ text) = readStringFrom 0 high text := by
        rw [← readStringFrom_length digits high text, hlength]
      obtain ⟨plain, hplain⟩ := ih none
      obtain ⟨half, hhalf⟩ := ih (some n)
      cases high with
      | none =>
          refine ⟨if isLowSurrogate n then .error .malformed
            else if isHighSurrogate n then half else plain.map (Char.ofNat n :: ·), fun rest => ?_⟩
          simp only [List.cons_append, List.append_assoc, readStringFrom, Char.reduceEq, ↓reduceIte,
            Char.reduceToNat, Nat.reduceLT, List.head?_cons, bind, Except.bind, List.tail_cons, hn,
            hskip, hhalf, hplain]
          split_ifs
          · rfl
          · rfl
          · cases plain <;> rfl
      | some m =>
          refine ⟨if isLowSurrogate n then plain.map (ofSurrogates m n :: ·)
            else .error .malformed, fun rest => ?_⟩
          simp only [List.cons_append, List.append_assoc, readStringFrom, ne_eq, not_true_eq_false,
            ↓reduceIte, List.head?_cons, bind, Except.bind, List.tail_cons, hn, hskip, hplain]
          split_ifs
          · cases plain <;> rfl
          · rfl

/-- A string is settled from its quote on. -/
lemma exists_readString {body : Text} (h : IsStringBody body) :
    ∃ result : Except Fault Text, ∀ rest,
      readString (body ++ rest) = result.map fun s => (s, rest) :=
  exists_readStringFrom h none

lemma readDigits_append {digits rest : Text} (h : IsDigits digits)
    (hrest : ∀ c ∈ rest.head?, isDigit c = false) :
    readDigits (digits ++ rest) = .ok (digits, rest) := by
  have hempty : digits.isEmpty = false := by simpa using h.nonempty
  simp only [readDigits, takeWhile_isDigit_append h.digits hrest, hempty, Bool.false_eq_true,
    ↓reduceIte, List.drop_left]

lemma exists_readExponent {sign digits : Text} (hsign : sign = [] ∨ sign = ['-'] ∨ sign = ['+'])
    (h : IsDigits digits) :
    ∃ n : Int, ∀ rest, Delimited rest → readExponent (sign ++ digits ++ rest) = .ok (n, rest) := by
  obtain ⟨d, ds, rfl⟩ := List.exists_cons_of_ne_nil h.nonempty
  have hd := h.digits d List.mem_cons_self
  have hread {rest : Text} (hrest : Delimited rest) := readDigits_append h hrest.isDigit_head?
  obtain rfl | rfl | rfl := hsign
  · refine ⟨digitsValue (d :: ds), fun rest hrest => ?_⟩
    have hminus := ne_of_isDigit hd (by decide : isDigit '-' = false)
    have hplus := ne_of_isDigit hd (by decide : isDigit '+' = false)
    rw [List.nil_append, readExponent, hread hrest]
    · rfl
    all_goals
      rintro _ ⟨⟩
      contradiction
  · refine ⟨-digitsValue (d :: ds), fun rest hrest => ?_⟩
    simp only [List.cons_append, List.nil_append, readExponent]
    rw [← List.cons_append, hread hrest]
    rfl
  · refine ⟨digitsValue (d :: ds), fun rest hrest => ?_⟩
    simp only [List.cons_append, List.nil_append, readExponent]
    rw [← List.cons_append, hread hrest]
    rfl

lemma exists_readScale {exponent : Text} (h : IsExponent exponent) (negative : Bool)
    (digits : Text) (places : Option Nat) :
    ∃ result, Settles (readScale negative digits places) exponent result := by
  cases h with
  | absent =>
      refine ⟨unscaled negative digits places, fun rest hrest => ?_⟩
      have he : ¬(rest.head? = some 'e' || rest.head? = some 'E') = true := by
        have hlower := hrest.notMem_head? (.inr (.inr (.inl rfl)) : _ ∨ _ ∨ 'e' = 'e' ∨ _)
        have hupper := hrest.notMem_head? (.inr (.inr (.inr rfl)) : _ ∨ _ ∨ _ ∨ 'E' = 'E')
        simp only [Bool.or_eq_true, decide_eq_true_eq, not_or]
        exact ⟨hlower, hupper⟩
      rw [readScale, List.nil_append, if_neg he]
      cases unscaled negative digits places <;> rfl
  | @power letter sign powers hletter hsign hpowers =>
      obtain ⟨n, hn⟩ := exists_readExponent hsign hpowers
      refine ⟨fraction negative digits (n - places.getD 0), fun rest hrest => ?_⟩
      have he : (((letter :: (sign ++ powers) ++ rest).head? = some 'e' ||
          (letter :: (sign ++ powers) ++ rest).head? = some 'E') : Bool) = true := by
        simpa using hletter
      rw [readScale, if_pos he, List.cons_append, List.tail_cons, hn rest hrest]
      simp only [bind, Except.bind]
      cases fraction negative digits (n - places.getD 0) <;> rfl

lemma exists_readNumber {whole places exponent : Text} (h : IsMagnitude whole places exponent)
    (negative : Bool) :
    ∃ result, Settles (readNumber negative) (whole ++ (places ++ exponent)) result := by
  have hzero : ¬(whole.head? = some '0' && decide (1 < whole.length)) = true := by
    simp only [Bool.and_eq_true, decide_eq_true_eq, not_and]
    intro hhead
    rw [h.zero hhead]
    omega
  have hwhole {rest : Text} (hrest : Delimited rest) :=
    readDigits_append h.digits (h.places.isDigit_head? h.power hrest)
  cases hplaces : h.places with
  | absent =>
      obtain ⟨result, hresult⟩ := exists_readScale h.power negative whole none
      refine ⟨result, fun rest hrest => ?_⟩
      have hpoint : '.' ∉ (exponent ++ rest).head? := h.power.point_notMem_head? hrest
      rw [← hresult rest hrest, List.append_assoc, List.append_assoc, readNumber, hwhole hrest]
      simp only [bind, Except.bind, if_neg hzero, List.nil_append]
      split
      · rename_i heq
        exact absurd (by rw [heq]; rfl) hpoint
      · rfl
  | @places digits hdigits =>
      obtain ⟨result, hresult⟩ := exists_readScale h.power negative (whole ++ digits)
        (some digits.length)
      refine ⟨result, fun rest hrest => ?_⟩
      rw [← hresult rest hrest, List.append_assoc, List.append_assoc, readNumber, hwhole hrest]
      simp only [bind, Except.bind, if_neg hzero, List.cons_append]
      rw [readDigits_append hdigits (h.power.isDigit_head? hrest)]

/-- A scalar is settled from its first character on. -/
lemma IsScalar.exists_readFound {c : Char} {cs : Text} (h : IsScalar (c :: cs)) :
    ∃ result, Settles (readFound c) cs result := by
  cases h with
  | null => exact ⟨.ok .null, fun rest _ => rfl⟩
  | yes => exact ⟨.ok (.boolean true), fun rest _ => rfl⟩
  | no => exact ⟨.ok (.boolean false), fun rest _ => rfl⟩
  | string h =>
      obtain ⟨result, hresult⟩ := exists_readString h
      refine ⟨result.map .string, fun rest _ => ?_⟩
      rw [readFound, if_pos rfl, hresult]
      cases result <;> rfl
  | negative h =>
      obtain ⟨result, hresult⟩ := exists_readNumber h true
      refine ⟨result.map .number, fun rest hrest => ?_⟩
      rw [readFound, if_neg (by decide), if_pos rfl, hresult rest hrest]
      cases result <;> rfl
  | positive h =>
      have hd := h.isDigit_head
      obtain ⟨result, hresult⟩ := exists_readNumber h false
      refine ⟨result.map .number, fun rest hrest => ?_⟩
      have hread := hresult rest hrest
      simp only [List.cons_append] at hread
      rw [readFound, if_neg (ne_of_isDigit hd (by decide)),
        if_neg (ne_of_isDigit hd (by decide)), if_pos hd, hread]
      cases result <;> rfl

/-- A value that is not wanted gives the same fault whatever follows. -/
lemma IsValue.exists_mismatch {c : Char} {cs : Text} (h : IsValue (c :: cs)) (wanted : Text) :
    ∃ fault, ∀ rest, Delimited rest → mismatch wanted c (cs ++ rest) = fault := by
  cases h with
  | scalar h =>
      obtain ⟨result, hresult⟩ := h.exists_readFound
      cases result with
      | error fault =>
          refine ⟨fault, fun rest hrest => ?_⟩
          rw [mismatch, hresult rest hrest]
          rfl
      | ok found =>
          refine ⟨.misfit (.wrongType found wanted), fun rest hrest => ?_⟩
          rw [mismatch, hresult rest hrest]
          rfl
  | list _ _ => exact ⟨.misfit (.wrongType .list wanted), fun rest _ => rfl⟩
  | object _ _ _ => exact ⟨.misfit (.wrongType .map wanted), fun rest _ => rfl⟩

/-- A value that begins with a quote is a string. -/
lemma IsValue.isStringBody {cs : Text} (h : IsValue ('"' :: cs)) : IsStringBody cs := by
  cases h with
  | scalar h =>
      cases h with
      | string h => exact h
      | positive h => exact absurd h.isDigit_head (by decide)

/-- A value that begins as null does is null. -/
lemma IsValue.eq_null {cs : Text} (h : IsValue ('n' :: cs)) : cs = ['u', 'l', 'l'] := by
  cases h with
  | scalar h =>
      cases h with
      | null => rfl
      | positive h => exact absurd h.isDigit_head (by decide)

/-! ## Texts -/

/-- A reader is local if it passes over blanks and settles every value at its first character. -/
lemma IsLocal.of_leads {read : Reader α}
    (hblanks : ∀ {blanks : Text}, IsBlanks blanks → ∀ text, read (blanks ++ text) = read text)
    (hvalues : ∀ {c cs}, Leads c → IsValue (c :: cs) → ∃ result, Settles read (c :: cs) result) :
    IsLocal read where
  blanks := hblanks
  values h := by
    obtain ⟨c, cs, rfl, hlead⟩ := h.leads
    obtain ⟨result, hresult⟩ := hvalues hlead h
    exact hresult.self

lemma isLocal_readText (wanted : Text) : IsLocal (readText wanted) := by
  refine .of_leads (fun hblanks text => ?_) (fun {c cs} hlead h => ?_)
  · rw [readText, readText, skipBlanks_append hblanks]
  · by_cases hquote : c = '"'
    · subst hquote
      obtain ⟨result, hresult⟩ := exists_readString h.isStringBody
      refine ⟨result, fun rest _ => ?_⟩
      rw [readText, List.cons_append, skipBlanks_of_leads hlead]
      simp only [if_pos, hresult]
    · obtain ⟨fault, hfault⟩ := h.exists_mismatch wanted
      refine ⟨.error fault, fun rest hrest => ?_⟩
      rw [readText, List.cons_append, skipBlanks_of_leads hlead]
      simp only [if_neg hquote, hfault rest hrest, Except.map]

lemma isLocal_readOptional {read : Reader α} (h : IsLocal read) : IsLocal (readOptional read) := by
  refine .of_leads (fun hblanks text => ?_) (fun {c cs} hlead hvalue => ?_)
  · rw [readOptional, readOptional, skipBlanks_append hblanks, h.blanks hblanks]
  · by_cases hnull : c = 'n'
    · subst hnull
      obtain rfl := hvalue.eq_null
      exact ⟨.ok none, fun rest _ => rfl⟩
    · refine ⟨(taken read (c :: cs)).map some, fun rest hrest => ?_⟩
      rw [readOptional, List.cons_append, skipBlanks_of_leads hlead, ← List.cons_append,
        h.values hvalue rest hrest]
      split
      · rename_i heq
        exact absurd (List.cons.inj heq).1 hnull
      · cases taken read (c :: cs) <;> rfl

/-! ## Sequences -/

lemma Following.next_nil {first : Bool} {text : Text} (h : Following first [] text) {closing : Char}
    (hclosing : closing = ']' ∨ closing = '\x7d') (rest : Text) :
    next closing first (text ++ closing :: rest) = .ok (.closed rest) := by
  have hblank : isBlank closing = false := by obtain rfl | rfl := hclosing <;> decide
  cases h with
  | closed hblanks =>
      rw [next, skipBlanks_append hblanks, skipBlanks,
        List.dropWhile_cons_of_neg (by simp [hblank])]
      simp only [if_pos]

/-- One step to the next part leaves the parts after it. -/
lemma Following.next_cons {first : Bool} {part text : Text} {parts : List Text}
    (h : Following first (part :: parts) text) {c : Char} {cs : Text} (hpart : part = c :: cs)
    (hlead : Leads c) {closing : Char} (hclosing : closing = ']' ∨ closing = '\x7d') :
    ∃ later, Following false parts later ∧ ∀ rest,
      next closing first (text ++ closing :: rest) =
        .ok (.item (part ++ (later ++ closing :: rest))) := by
  have hne : c ≠ closing := by
    obtain rfl | rfl := hclosing
    · exact hlead.2.1
    · exact hlead.2.2
  subst hpart
  cases h with
  | @first blanks _ later _ hblanks htail =>
      refine ⟨later, htail, fun rest => ?_⟩
      simp only [List.append_assoc]
      rw [next, skipBlanks_append hblanks, List.cons_append, skipBlanks_of_leads hlead]
      simp only [if_neg hne, if_pos]
  | @later blanks blanks' _ later _ hblanks hblanks' htail =>
      refine ⟨later, htail, fun rest => ?_⟩
      have hcomma : ',' ≠ closing := by obtain rfl | rfl := hclosing <;> decide
      have hleads : Leads ',' := by decide
      simp only [List.append_assoc, List.cons_append]
      rw [next, skipBlanks_append hblanks, skipBlanks_of_leads hleads]
      simp only [if_neg hcomma, Bool.false_eq_true, ↓reduceIte]
      rw [skipBlanks_append hblanks', skipBlanks_of_leads hlead]
      simp only [if_neg hne]

lemma Following.endList {text : Text} (h : Following false [] text) (rest : Text) :
    Json.endList (text ++ ']' :: rest) = .ok rest := by
  cases h with
  | closed hblanks =>
      rw [Json.endList, skipBlanks_append hblanks]
      rfl

lemma Following.endList_cons {part text : Text} {parts : List Text}
    (h : Following false (part :: parts) text) (rest : Text) :
    Json.endList (text ++ rest) = .error .malformed := by
  cases h with
  | later hblanks _ _ =>
      rw [Json.endList, List.append_assoc, skipBlanks_append hblanks]
      rfl

lemma Following.length_le {first : Bool} {parts : List Text} {text : Text}
    (h : Following first parts text) (hparts : ∀ part ∈ parts, part ≠ []) :
    parts.length ≤ text.length := by
  induction h with
  | closed _ => simp
  | @first blanks part text parts _ _ ih =>
      obtain ⟨hpart, hparts⟩ := List.forall_mem_cons.1 hparts
      have := ih hparts
      have := List.length_pos_iff.2 hpart
      simp only [List.length_append, List.length_cons]
      omega
  | @later blanks blanks' part text parts _ _ _ ih =>
      obtain ⟨hpart, hparts⟩ := List.forall_mem_cons.1 hparts
      have := ih hparts
      simp only [List.length_append, List.length_cons]
      omega

/-- The elements of a list are read one after another up to its bracket. -/
lemma readItemsFrom_following {item : Reader α} (hitem : IsLocal item) {first : Bool}
    {items : List Text} {text : Text} (h : Following first items text)
    (hvalues : ∀ item ∈ items, IsValue item) {bound : Nat} (hbound : items.length < bound)
    (rest : Text) :
    readItemsFrom item bound first (text ++ ']' :: rest) =
      (items.mapM (taken item)).map fun as => (as, rest) := by
  induction items generalizing bound first text with
  | nil =>
      obtain ⟨bound, rfl⟩ : ∃ b, bound = b + 1 := ⟨bound - 1, by omega⟩
      rw [readItemsFrom, h.next_nil (.inl rfl)]
      rfl
  | cons value items ih =>
      obtain ⟨bound, rfl⟩ : ∃ b, bound = b + 1 := ⟨bound - 1, by omega⟩
      obtain ⟨hvalue, hvalues⟩ := List.forall_mem_cons.1 hvalues
      obtain ⟨c, cs, hcs, hlead⟩ := hvalue.leads
      obtain ⟨later, hlater, hnext⟩ := h.next_cons hcs hlead (.inl rfl)
      have hread := hitem.values hvalue _ (hlater.delimited (.inl rfl) rest)
      have htail := ih hlater hvalues (by simpa using hbound)
      rw [readItemsFrom, hnext rest, List.mapM_cons]
      simp only [bind, Except.bind, hread]
      cases taken item value with
      | error fault => rfl
      | ok a =>
          simp only [Except.map, htail]
          cases items.mapM (taken item) <;> rfl

/-- A list is read element by element. -/
lemma readItems_following {item : Reader α} (hitem : IsLocal item) {items : List Text} {body : Text}
    (h : Following true items body) (hvalues : ∀ item ∈ items, IsValue item) (rest : Text) :
    readItems item (body ++ ']' :: rest) =
      (items.mapM (taken item)).map fun as => (as, rest) := by
  have hlength := h.length_le fun item hmem => by
    obtain ⟨c, cs, rfl, -⟩ := (hvalues item hmem).leads
    exact List.cons_ne_nil c cs
  refine readItemsFrom_following hitem h hvalues ?_ rest
  rw [List.length_append, List.length_cons]
  omega

lemma readKey_append {key : Text} (h : IsString key) (rest : Text) :
    readKey (key ++ rest) = (taken readKey key).map fun name => (name, rest) := by
  obtain ⟨body, rfl, hbody⟩ := h
  obtain ⟨result, hresult⟩ := exists_readString hbody
  have hsettles : Settles readKey ('"' :: body) result := fun rest _ => hresult rest
  rw [hsettles.taken_eq]
  exact hresult rest

/-- What the readers make of the key and the value of a member. -/
def takenMember (read : Reader α) (member : Text × Text) : Except Fault (Text × α) := do
  let name ← taken readKey member.1
  let a ← taken read member.2
  .ok (name, a)

lemma afterColon_append {blanks : Text} (h : IsBlanks blanks) (text : Text) :
    afterColon (blanks ++ ':' :: text) = .ok text := by
  rw [afterColon, skipBlanks_append h, skipBlanks_of_leads (by decide)]
  rfl

lemma IsMember.leads {member : Text × Text} {text : Text} (h : IsMember member text) :
    ∃ c cs, text = c :: cs ∧ Leads c := by
  obtain ⟨blanks, blanks', -, -, ⟨body, hkey, -⟩, rfl⟩ := h
  rw [hkey]
  exact ⟨_, _, rfl, by decide⟩

/-- The members of an object are read one after another up to its brace. -/
lemma readMembersFrom_following {read : Reader α} (hread : IsLocal read) {first : Bool}
    {members : List (Text × Text)} {parts : List Text} {text : Text}
    (h : Following first parts text) (hmembers : members.Forall₂ IsMember parts)
    (hvalues : ∀ member ∈ members, IsValue member.2) {bound : Nat} (hbound : parts.length < bound)
    (rest : Text) :
    readMembersFrom read bound first (text ++ '\x7d' :: rest) =
      (members.mapM (takenMember read)).map fun as => (as, rest) := by
  induction hmembers generalizing bound first text with
  | nil =>
      obtain ⟨bound, rfl⟩ : ∃ b, bound = b + 1 := ⟨bound - 1, by omega⟩
      rw [readMembersFrom, h.next_nil (.inr rfl)]
      rfl
  | @cons member part members parts hmember _ ih =>
      obtain ⟨bound, rfl⟩ : ∃ b, bound = b + 1 := ⟨bound - 1, by omega⟩
      obtain ⟨hvalue, hvalues⟩ := List.forall_mem_cons.1 hvalues
      obtain ⟨c, cs, hcs, hlead⟩ := hmember.leads
      obtain ⟨later, hlater, hnext⟩ := h.next_cons hcs hlead (.inr rfl)
      obtain ⟨blanks, blanks', hblanks, hblanks', hkey, rfl⟩ := hmember
      have hsettled := hread.values hvalue _ (hlater.delimited (.inr rfl) rest)
      have htail := ih hlater hvalues (by simpa using hbound)
      rw [readMembersFrom, hnext rest, List.mapM_cons, takenMember]
      simp only [bind, Except.bind, List.append_assoc, List.cons_append, readKey_append hkey]
      cases taken readKey member.1 with
      | error fault => rfl
      | ok name =>
          simp only [Except.map, afterColon_append hblanks, hread.blanks hblanks', hsettled]
          cases taken read member.2 with
          | error fault => rfl
          | ok a =>
              simp only [htail]
              cases members.mapM (takenMember read) <;> rfl

/-- An object is read member by member. -/
lemma readMembers_following {read : Reader α} (hread : IsLocal read)
    {members : List (Text × Text)} {parts : List Text} {body : Text}
    (h : Following true parts body) (hmembers : members.Forall₂ IsMember parts)
    (hvalues : ∀ member ∈ members, IsValue member.2) (rest : Text) :
    readMembers read (body ++ '\x7d' :: rest) =
      (members.mapM (takenMember read)).map fun as => (as, rest) := by
  have hlength := h.length_le fun part hmem => by
    obtain ⟨member, -, hmember⟩ := exists_of_forall₂ hmembers hmem
    obtain ⟨c, cs, rfl, -⟩ := hmember.leads
    exact List.cons_ne_nil c cs
  refine readMembersFrom_following hread h hmembers hvalues ?_ rest
  rw [List.length_append, List.length_cons]
  omega

/-! ## Any value -/

lemma IsScalar.head_ne {c : Char} {cs : Text} (h : IsScalar (c :: cs)) : c ≠ '[' ∧ c ≠ '\x7b' := by
  obtain ⟨d, ds, heq, -, hlist, hobject, -⟩ := h.exists_scalarSize
  obtain ⟨rfl, -⟩ := List.cons.inj heq
  exact ⟨hlist, hobject⟩

/-- A scalar is read the same at any depth. -/
lemma IsScalar.settles_readValue {c : Char} {cs : Text} (h : IsScalar (c :: cs)) (hlead : Leads c)
    {result : Except Fault Found} (hfound : Settles (readFound c) cs result) (depth : Nat) :
    Settles (readValue depth) (c :: cs) (result.map Found.value) := by
  intro rest hrest
  obtain ⟨hlist, hobject⟩ := h.head_ne
  rw [readValue.eq_def, List.cons_append]
  simp only [skipBlanks_of_leads hlead, if_neg hlist, if_neg hobject, hfound rest hrest]
  cases result <;> rfl

lemma Following.settles_readValue {items : List Text} {body : Text}
    (h : Following true items body) (hvalues : ∀ item ∈ items, IsValue item) {depth : Nat}
    (hdepth : IsLocal (readValue depth)) :
    Settles (readValue (depth + 1)) ('[' :: (body ++ [']']))
      ((items.mapM (taken (readValue depth))).map .array) := by
  intro rest _
  have hlead : Leads '[' := by decide
  rw [readValue.eq_def, List.cons_append, List.append_assoc, List.singleton_append]
  simp only [skipBlanks_of_leads hlead, ↓reduceIte, readItems_following hdepth h hvalues]
  cases items.mapM (taken (readValue depth)) <;> rfl

lemma Following.settles_readValue_object {members : List (Text × Text)} {parts : List Text}
    {body : Text} (h : Following true parts body) (hmembers : members.Forall₂ IsMember parts)
    (hvalues : ∀ member ∈ members, IsValue member.2) {depth : Nat}
    (hdepth : IsLocal (readValue depth)) :
    Settles (readValue (depth + 1)) ('\x7b' :: (body ++ ['\x7d']))
      ((members.mapM (takenMember (readValue depth))).map fun ms => .object (sortMembers ms)) := by
  intro rest _
  have hne : ('\x7b' : Char) ≠ '[' := by decide
  have hlead : Leads '\x7b' := by decide
  rw [readValue.eq_def, List.cons_append, List.append_assoc, List.singleton_append]
  simp only [skipBlanks_of_leads hlead, if_neg hne, ↓reduceIte,
    readMembers_following hdepth h hmembers hvalues]
  cases members.mapM (takenMember (readValue depth)) <;> rfl

/-- Reading any value is local at every depth. -/
lemma isLocal_readValue (depth : Nat) : IsLocal (readValue depth) := by
  have hblanks (depth : Nat) {blanks : Text} (h : IsBlanks blanks) (text : Text) :
      readValue depth (blanks ++ text) = readValue depth text := by
    rw [readValue.eq_def, readValue.eq_def depth text]
    simp only [skipBlanks_append h]
  induction depth with
  | zero =>
      refine .of_leads (hblanks 0) (fun {c cs} hlead hvalue => ?_)
      cases hvalue with
      | scalar h =>
          obtain ⟨result, hresult⟩ := h.exists_readFound
          exact ⟨_, h.settles_readValue hlead hresult 0⟩
      | list _ _ => exact ⟨.error .malformed, fun rest _ => rfl⟩
      | object _ _ _ => exact ⟨.error .malformed, fun rest _ => rfl⟩
  | succ depth ih =>
      refine .of_leads (hblanks _) (fun {c cs} hlead hvalue => ?_)
      cases hvalue with
      | scalar h =>
          obtain ⟨result, hresult⟩ := h.exists_readFound
          exact ⟨_, h.settles_readValue hlead hresult _⟩
      | list h hvalues => exact ⟨_, h.settles_readValue hvalues ih⟩
      | object h hmembers hvalues => exact ⟨_, h.settles_readValue_object hmembers hvalues ih⟩

/-! ## Lists and objects by their parts -/

/-- A list with the given values as its elements. -/
structure IsList (text : Text) (items : List Text) : Prop where
  body : ∃ body, Following true items body ∧ text = '[' :: (body ++ [']'])
  values : ∀ item ∈ items, IsValue item

/-- A member with the given name, however it is spelled, and the given value. -/
def IsNamed (member : Text × Text) (text : Text) : Prop :=
  ∃ key, IsMember (key, member.2) text ∧ taken readKey key = .ok member.1

/-- An object whose members have the given names and values. -/
structure IsObject (text : Text) (members : List (Text × Text)) : Prop where
  body : ∃ parts body, Following true parts body ∧ members.Forall₂ IsNamed parts ∧
    text = '\x7b' :: (body ++ ['\x7d'])
  values : ∀ member ∈ members, IsValue member.2

/-- A document that holds one object with the given members. -/
def IsDocument (document : Text) (members : List (Text × Text)) : Prop :=
  ∃ blanks object blanks', IsBlanks blanks ∧ IsBlanks blanks' ∧ IsObject object members ∧
    document = blanks ++ (object ++ blanks')

lemma IsList.isValue {text : Text} {items : List Text} (h : IsList text items) : IsValue text := by
  obtain ⟨body, hbody, rfl⟩ := h.body
  exact .list hbody h.values

/-- The keys of named members as they are spelled. -/
lemma exists_keys {members : List (Text × Text)} {parts : List Text}
    (h : members.Forall₂ IsNamed parts) :
    ∃ keyed : List (Text × Text), keyed.Forall₂ IsMember parts ∧
      keyed.Forall₂ (fun k m => taken readKey k.1 = .ok m.1 ∧ k.2 = m.2) members := by
  induction h with
  | nil => exact ⟨[], .nil, .nil⟩
  | @cons member part members parts hnamed _ ih =>
      obtain ⟨keyed, hparts, hmembers⟩ := ih
      obtain ⟨key, hmember, hkey⟩ := hnamed
      exact ⟨(key, member.2) :: keyed, .cons hmember hparts, .cons ⟨hkey, rfl⟩ hmembers⟩

lemma IsObject.isValue {text : Text} {members : List (Text × Text)} (h : IsObject text members) :
    IsValue text := by
  obtain ⟨parts, body, hbody, hnamed, rfl⟩ := h.body
  obtain ⟨keyed, hparts, hmembers⟩ := exists_keys hnamed
  refine .object hbody hparts fun k hk => ?_
  obtain ⟨m, hm, -, heq⟩ := exists_of_forall₂ hmembers.flip hk
  rw [heq]
  exact h.values m hm

/-- What a reader makes of named members. -/
lemma mapM_takenMember {keyed members : List (Text × Text)}
    (h : keyed.Forall₂ (fun k m => taken readKey k.1 = .ok m.1 ∧ k.2 = m.2) members)
    (read : Reader α) :
    keyed.mapM (takenMember read) =
      members.mapM fun m => (taken read m.2).map fun a => (m.1, a) := by
  induction h with
  | nil => rfl
  | @cons k m keyed members hkm _ ih =>
      rw [List.mapM_cons, List.mapM_cons, ih, takenMember, hkm.1, hkm.2]
      cases taken read m.2 <;> rfl

end ConverterAssembly.Json
