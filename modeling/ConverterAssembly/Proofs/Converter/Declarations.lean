import ConverterAssembly.Proofs.Ruby.Paths
import ConverterAssembly.Proofs.Ruby.Standing
import ConverterAssembly.Converter.Source

/-!
# Helper code that declares its module

A generated class refers to `Helpers` as soon as there is helper code, so the code has to open that
module.  The check looks for the words in the text.

**Search.**  A code is rejected if the words `module Helpers` stand nowhere in it as whole words
with a blank or a comment after them (`declaresHelpers_iff`).

**Tokens.**  Words that the search finds open the module if the tokens of the code have a keyword
there and no blank outside ASCII goes on with the name (`opensHelpers_iff`).  Inside a comment or a
literal they open nothing, and the code is accepted all the same.
-/

namespace ConverterAssembly

open Text Ruby

/-! ## Search -/

/-- The words `module Helpers` stand at the place, with a blank or a comment after them. -/
structure MentionsHelpers (code : Text) (place : Nat) : Prop where
  words : ∃ c rest, code.drop place = "module Helpers".toList ++ c :: rest ∧
    (isBlank c = true ∨ c = '#')
  standsFree : StandsFree code place

lemma beginsHelpers_iff (text : Text) : beginsHelpers text = true ↔
    ∃ c rest, text = "module Helpers".toList ++ c :: rest ∧ (isBlank c = true ∨ c = '#') := by
  rw [beginsHelpers]
  split
  · rename_i c rest hdrop
    rw [dropStart?_eq_some_iff] at hdrop
    simp only [hdrop, List.append_cancel_left_eq, List.cons.injEq, Bool.or_eq_true,
      decide_eq_true_eq]
    constructor
    · exact fun h => ⟨c, rest, ⟨rfl, rfl⟩, h⟩
    · rintro ⟨d, after, ⟨rfl, rfl⟩, hafter⟩
      exact hafter
  · rename_i hnone
    simp only [Bool.false_eq_true, false_iff]
    rintro ⟨c, rest, htext, -⟩
    exact hnone c rest (dropStart?_eq_some_iff.2 htext)

/-- The search tries every place that no word character stands before. -/
lemma declaresHelpersFrom_iff (inWord : Bool) (text : Text) :
    declaresHelpersFrom inWord text = true ↔
    ∃ a b, text = a ++ b ∧ beginsHelpers b = true ∧
    (a.getLast?.map isWordChar).getD inWord = false := by
  induction text generalizing inWord with
  | nil =>
      simp only [declaresHelpersFrom, Bool.false_eq_true, false_iff]
      rintro ⟨a, b, hab, hbegins, -⟩
      obtain ⟨-, rfl⟩ := List.append_eq_nil_iff.1 hab.symm
      exact absurd hbegins (by decide)
  | cons c cs ih =>
      have hlast (a : Text) : ((c :: a).getLast?.map isWordChar).getD inWord =
          (a.getLast?.map isWordChar).getD (isWordChar c) := by
        rw [List.getLast?_cons]
        cases a.getLast? <;> rfl
      rw [declaresHelpersFrom, Bool.or_eq_true, Bool.and_eq_true, Bool.not_eq_true', ih]
      constructor
      · rintro (⟨hin, hbegins⟩ | ⟨a, b, rfl, hbegins, hfree⟩)
        · exact ⟨[], c :: cs, rfl, hbegins, hin⟩
        · exact ⟨c :: a, b, rfl, hbegins, by rw [hlast, hfree]⟩
      · rintro ⟨a, b, hab, hbegins, hfree⟩
        cases a with
        | nil => exact .inl ⟨hfree, by rwa [hab]⟩
        | cons d a =>
            obtain ⟨rfl, rfl⟩ := List.cons.inj hab
            exact .inr ⟨a, b, rfl, hbegins, by rw [← hlast, hfree]⟩

/-- The search finds the words wherever they are mentioned. -/
lemma declaresHelpers_iff (code : Text) :
    declaresHelpers code = true ↔ ∃ place, MentionsHelpers code place := by
  have hfree (a : Text) : (a.getLast?.map isWordChar).getD false = false ↔
      ∀ c ∈ a.getLast?, isWordChar c = false := by
    cases a.getLast? <;> simp
  rw [declaresHelpers, declaresHelpersFrom_iff]
  constructor
  · rintro ⟨a, b, rfl, hbegins, hlast⟩
    refine ⟨a.length, ?_, ?_⟩
    · rw [List.drop_left]
      exact (beginsHelpers_iff b).1 hbegins
    · rw [StandsFree, List.take_left]
      exact (hfree a).1 hlast
  · rintro ⟨place, hwords, hstands⟩
    exact ⟨code.take place, code.drop place, (List.take_append_drop place code).symm,
      (beginsHelpers_iff _).2 hwords, (hfree _).2 hstands⟩

/-! ## Tokens -/

/-- The tokens that open the module. -/
def helpersOpener : List Lexeme :=
  [⟨.keyword, "module".toList⟩, ⟨.space, " ".toList⟩, ⟨.ident, "Helpers".toList⟩]

/-- The tokens of the code open the module at the place, and a blank or a comment comes next. -/
def OpensHelpers (code : Text) (place : Nat) : Prop :=
  ∃ before after, lexemesOf code = before ++ (helpersOpener ++ after) ∧
    (before.flatMap (·.text)).length = place ∧
    (after.flatMap (·.text)).head?.any (fun c => isBlank c || c = '#') = true

/-- A keyword of the code begins at the place. -/
def KeywordAt (code : Text) (place : Nat) : Prop :=
  ∃ before keyword after, lexemesOf code = before ++ keyword :: after ∧
    (before.flatMap (·.text)).length = place ∧ keyword.kind = .keyword

/-- From a context, a word comes first and then the rest. -/
lemma exists_lexemes_word (ctx : Context) (c : Char) (p rest : Text) (h : isName (c :: p) = true)
    (hrest : endsWord rest = true) (hc : c ≠ '_') :
    ∃ ctx' : Context, ctx'.naming = (!ctx.naming && c :: p = "def".toList) ∧
      ctx.lexemes (c :: p ++ rest) = wordLexeme ctx.naming (c :: p) :: ctx'.lexemes rest := by
  have hscan := @Context.scan_word ctx 0 c p rest h hrest fun _ => hc
  refine ⟨ctx.after (ctx.scan 0 c (p ++ rest)) (c :: p), ?_, ?_⟩
  · rw [hscan, Context.after, wordLexeme]
    dsimp only
    split_ifs <;> simp
  · rw [List.cons_append, Context.lexemes_cons, hscan, List.take_left, List.drop_left]
    rfl

/-- From a context, the blanks before something else come first and then the rest. -/
lemma exists_lexemes_space (ctx : Context) {c : Char} (hc : isGap c = false) (rest : Text) :
    ∃ ctx' : Context, ctx'.naming = ctx.naming ∧
      ctx.lexemes (' ' :: c :: rest) = ⟨.space, [' ']⟩ :: ctx'.lexemes (c :: rest) := by
  have hscan : ctx.scan 0 ' ' (c :: rest) = ctx.plain 0 .space 0 := by
    rw [ctx.scan_gap 0 (by decide), List.takeWhile_cons_of_neg (by simp [hc])]
    rfl
  refine ⟨ctx.after (ctx.scan 0 ' ' (c :: rest)) [' '], ?_, ?_⟩
  · rw [hscan]
    simp [Context.after, Context.plain]
  · rw [Context.lexemes_cons, hscan]
    rfl

/-- A blank or a comment ends a word, unless it is a blank outside ASCII. -/
lemma endsWord_of_isBlank {c : Char} (hc : isBlank c = true ∨ c = '#') (hwide : isWide c = false)
    (rest : Text) : endsWord (c :: rest) = true := by
  obtain ⟨hends, hcolon⟩ : endsWord [c] = true ∧ c ≠ ':' := by
    refine ascii_cases (P := fun c => isBlank c = true ∨ c = '#' → isWide c = false →
      endsWord [c] = true ∧ c ≠ ':') (by decide) ?_ c hc hwide
    intro c hwide _ hnot
    exact absurd (hwide.symm.trans hnot) (by decide)
  simpa [endsWord, hcolon] using hends

/-- A keyword that begins at the words opens the module. -/
lemma MentionsHelpers.opens {code : Text} {place : Nat} (h : MentionsHelpers code place)
    (hkeyword : KeywordAt code place)
    (hwide : ∀ c ∈ (code.drop (place + 14)).head?, isWide c = false) :
    OpensHelpers code place := by
  obtain ⟨⟨c, rest, hwords, hc⟩, -⟩ := h
  obtain ⟨before, keyword, after, hlexemes, hplace, hkind⟩ := hkeyword
  have hnext : code.drop (place + 14) = c :: rest := by
    rw [← List.drop_drop, hwords]
    rfl
  have hends := endsWord_of_isBlank hc (hwide c (by rw [hnext]; rfl)) rest
  rw [Context.lexemes_tokenize] at hlexemes
  obtain ⟨x, y, ctx, hcode, hreads, hy⟩ := exists_reads_of_append hlexemes (.inr (by simp))
  have hyeq : y = "module Helpers".toList ++ c :: rest := by
    rw [← hwords, ← hplace, ← hreads.text_eq, hcode, List.drop_left]
  obtain ⟨ctx₁, hnaming₁, hmodule⟩ := exists_lexemes_word ctx 'm' "odule".toList
    (' ' :: ("Helpers".toList ++ c :: rest)) (by decide) rfl (by decide)
  obtain ⟨ctx₂, hnaming₂, hspace⟩ := exists_lexemes_space ctx₁ (c := 'H') (by decide)
    ("elpers".toList ++ c :: rest)
  obtain ⟨ctx₃, -, hname⟩ := exists_lexemes_word ctx₂ 'H' "elpers".toList
    (c :: rest) (by decide) hends (by decide)
  have hall : ctx.lexemes y = wordLexeme ctx.naming "module".toList :: ⟨.space, [' ']⟩ ::
      wordLexeme ctx₂.naming "Helpers".toList :: ctx₃.lexemes (c :: rest) := by
    rw [hyeq]
    exact hmodule.trans (congrArg _ (hspace.trans (congrArg _ hname)))
  -- a method's name is no keyword
  have hnaming : ctx.naming = false := by
    rw [hy, List.cons.injEq] at hall
    rw [hall.1, wordLexeme] at hkind
    cases hnaming : ctx.naming with
    | false => rfl
    | true => simp [hnaming] at hkind
  have hnaming' : ctx₂.naming = false := by
    rw [hnaming₂, hnaming₁, hnaming]
    decide
  refine ⟨before, ctx₃.lexemes (c :: rest), ?_, hplace, ?_⟩
  · rw [Context.lexemes_tokenize, hlexemes, ← hy, hall, hnaming, hnaming']
    rfl
  · rw [Context.flatMap_lexemes]
    simpa using hc

/-- A word takes in all characters that go on with its name. -/
lemma nameSize_le_scanWord (ctx : Context) (c : Char) (cs : Text) :
    nameSize cs ≤ (ctx.scanWord 0 c cs).extent.size := by
  rw [Context.scanWord]
  dsimp only
  split_ifs <;> simp [Context.plain]

/-- No character outside ASCII comes after a whole word. -/
lemma not_isWide_of_lexemes {ctx : Context} {kind : Kind} {c d : Char} {p rest : Text}
    {ls : List Lexeme} (hname : isName (c :: p) = true) (hc : c ≠ '_')
    (h : ctx.lexemes (c :: p ++ d :: rest) = ⟨kind, c :: p⟩ :: ls) : isWide d = false := by
  simp only [isName, Bool.and_eq_true, List.all_eq_true] at hname
  by_contra hwide
  rw [Bool.not_eq_false] at hwide
  have hchar : isNameChar d = true := by simp [isNameChar, isNameStart, hwide]
  have hsize := nameSize_le_scanWord ctx c (p ++ d :: rest)
  rw [nameSize, List.takeWhile_append_of_pos hname.2, List.takeWhile_cons_of_pos hchar] at hsize
  rw [List.cons_append, Context.lexemes_cons, Context.scan_name hname.1 fun _ => hc] at h
  have hlength := congrArg List.length (Lexeme.mk.inj (List.cons.inj h).1).2
  simp only [List.length_cons, List.length_append, List.length_take] at hsize hlength
  omega

/-- Where the tokens open the module, the text has its words and a keyword begins there. -/
lemma OpensHelpers.words {code : Text} {place : Nat} (h : OpensHelpers code place) :
    ∃ c rest, code.drop place = "module Helpers".toList ++ c :: rest ∧
      (isBlank c = true ∨ c = '#') ∧ isWide c = false ∧ KeywordAt code place := by
  obtain ⟨before, after, hlexemes, hplace, hnext⟩ := h
  obtain ⟨c, rest, hafter⟩ : ∃ c rest, after.flatMap (·.text) = c :: rest :=
    List.exists_cons_of_ne_nil fun hnil => by simp [hnil] at hnext
  have hc : isBlank c = true ∨ c = '#' := by simpa [hafter] using hnext
  have hcode : code = before.flatMap (·.text) ++ ("module Helpers".toList ++ c :: rest) := by
    have hcover := Context.flatMap_lexemes {} code
    rw [← Context.lexemes_tokenize, hlexemes, List.flatMap_append, List.flatMap_append, hafter]
      at hcover
    exact hcover.symm
  have hdrop : code.drop place = "module Helpers".toList ++ c :: rest := by
    conv_lhs => rw [hcode]
    rw [← hplace, List.drop_left]
  refine ⟨c, rest, hdrop, hc, ?_, before, ⟨.keyword, "module".toList⟩, _, hlexemes, hplace, rfl⟩
  have hsplit : ({} : Context).lexemes code =
      (before ++ [⟨.keyword, "module".toList⟩, ⟨.space, " ".toList⟩]) ++
      ⟨.ident, "Helpers".toList⟩ :: after := by
    rw [← Context.lexemes_tokenize, hlexemes, List.append_assoc]
    rfl
  obtain ⟨x, y, ctx, -, -, hy⟩ := exists_reads_of_append hsplit (.inr (by simp))
  have hyeq : y = 'H' :: "elpers".toList ++ c :: rest := by
    rw [← ctx.flatMap_lexemes y, hy, List.flatMap_cons, hafter]
    rfl
  rw [hyeq] at hy
  exact not_isWide_of_lexemes (by decide) (by decide) hy

/-- A place opens the module and stands free exactly if the search finds it, a keyword begins there,
and the module's name ends with its words. -/
lemma opensHelpers_iff (code : Text) (place : Nat) :
    OpensHelpers code place ∧ StandsFree code place ↔ MentionsHelpers code place ∧
      KeywordAt code place ∧ ∀ c ∈ (code.drop (place + 14)).head?, isWide c = false := by
  constructor
  · rintro ⟨hopens, hfree⟩
    obtain ⟨c, rest, hwords, hc, hwide, hkeyword⟩ := hopens.words
    refine ⟨⟨⟨c, rest, hwords, hc⟩, hfree⟩, hkeyword, ?_⟩
    rw [← List.drop_drop, hwords]
    simpa using hwide
  · rintro ⟨hmentions, hkeyword, hwide⟩
    exact ⟨hmentions.opens hkeyword hwide, hmentions.standsFree⟩

/-! ## Check -/

/-- A configuration is rejected exactly if it has helper code that is not blank and mentions the
module nowhere, so the helper code of a class mentions it.  What is mentioned is opened exactly
where a keyword of the code begins, unless a blank outside ASCII goes on with the name. -/
theorem Converter.ofConfig_eq_error_iff (config : ConverterConfig) :
    (Converter.ofConfig config = .error .missingHelpersModule ↔
      ∃ code, config.helpersCode = some code ∧ allBlank code = false ∧
        ∀ place, ¬MentionsHelpers code place) ∧
      (∀ converter, Converter.ofConfig config = .ok converter →
        ∀ code ∈ converter.helpers, ∃ place, MentionsHelpers code place) ∧
      ∀ code place, OpensHelpers code place ∧ StandsFree code place ↔ MentionsHelpers code place ∧
        KeywordAt code place ∧ ∀ c ∈ (code.drop (place + 14)).head?, isWide c = false := by
  have hhelpers (code : Text) : config.helpers? = some code ↔
      config.helpersCode = some code ∧ allBlank code = false := by
    rw [ConverterConfig.helpers?, Option.filter_eq_some_iff, Bool.not_eq_true']
  refine ⟨?_, ?_, opensHelpers_iff⟩
  · rw [Converter.ofConfig]
    cases hcode : config.helpers? with
    | none =>
        simp only [reduceCtorEq, false_iff]
        rintro ⟨code, hsome, hblank, -⟩
        rw [(hhelpers code).2 ⟨hsome, hblank⟩] at hcode
        cases hcode
    | some code =>
        obtain ⟨hsome, hblank⟩ := (hhelpers code).1 hcode
        have hdeclares := declaresHelpers_iff code
        simp only [hsome, Option.some.injEq, exists_eq_left', hblank, true_and, ← not_exists,
          ← hdeclares]
        split_ifs with h <;> simp [h]
  · rintro converter hok code hcode
    rw [Converter.ofConfig] at hok
    split at hok
    · obtain rfl := Except.ok.inj hok
      cases hcode
    · rename_i found hfound
      split_ifs at hok with hdeclares
      obtain rfl := Except.ok.inj hok
      obtain rfl := Option.some.inj hcode
      exact (declaresHelpers_iff _).1 hdeclares

/-- A comment that mentions the module is enough, though no token opens it. -/
theorem Converter.ofConfig_accepts_comment :
    let code := "# module Helpers is elsewhere\nx = 1\n".toList
    let config : ConverterConfig := { className := "C".toList, helpersCode := some code }
    Converter.ofConfig config = .ok ⟨config, some code⟩ ∧ ∀ place, ¬OpensHelpers code place := by
  intro code config
  refine ⟨by decide +kernel, fun place hopens => ?_⟩
  obtain ⟨before, after, hlexemes, -⟩ := hopens
  have hnone : ∀ l ∈ lexemesOf code, l.kind ≠ .keyword := by decide +kernel
  exact hnone ⟨.keyword, "module".toList⟩ (by simp [hlexemes, helpersOpener]) rfl

end ConverterAssembly
