import ConverterAssembly.Proofs.Converter.Parts
import ConverterAssembly.Proofs.Ruby.Outline
import ConverterAssembly.Ruby.Check

/-!
# Configured texts are literals and nothing else

A configuration gives texts for the backends to register for, for the traits and for the other
backend.  Each becomes one literal token of the source, whatever it holds, and no other token
depends on it.  So two configurations that differ in these texts alone give sources that are checked
alike.

**Templates.**  A template is a list of tokens in which some are left open (`Slot.value`); `fill`
puts literals for given texts there.

**Reading.**  Both sources fill the template of their head and initializer
(`oneTemplate_initializer`), and what follows is read from contexts that are alike.

**Checking.**  `checkFrom_akin`: the nesting check does not look into literals.
-/

namespace ConverterAssembly

open Ruby

/-! ## Templates -/

/-- A token of a template. -/
inductive Slot where
  /-- A given token. -/
  | fixed (lexeme : Lexeme)
  /-- The literal for a text that is still to be given. -/
  | value
deriving DecidableEq, Repr

/-- The literal for a text. -/
def literalFor (value : Text) : Lexeme := ⟨.literal, stringLiteral value⟩

/-- The tokens of a template with literals for the texts, in order; there have to be as many texts
as the template leaves open. -/
def fill : List (Slot × Nat) → (values : List Text) → Option (List (Lexeme × Nat))
  | [], [] => some []
  | [], _ :: _ => none
  | (.fixed lexeme, line) :: slots, values => (fill slots values).map ((lexeme, line) :: ·)
  | (.value, _) :: _, [] => none
  | (.value, line) :: slots, value :: values =>
    (fill slots values).map ((literalFor value, line) :: ·)

/-- The lexemes of a template without its lines. -/
inductive Fills : List Slot → List Text → List Lexeme → Prop
  | nil : Fills [] [] []
  | fixed {slots : List Slot} {values : List Text} {ls : List Lexeme} (l : Lexeme)
      (h : Fills slots values ls) : Fills (.fixed l :: slots) values (l :: ls)
  | value {slots : List Slot} {values : List Text} {ls : List Lexeme} (v : Text)
      (h : Fills slots values ls) : Fills (.value :: slots) (v :: values) (literalFor v :: ls)

namespace Fills

variable {slots slots' : List Slot} {values values' : List Text} {ls ls' : List Lexeme}

lemma append (h : Fills slots values ls) (h' : Fills slots' values' ls') :
    Fills (slots ++ slots') (values ++ values') (ls ++ ls') := by
  induction h with
  | nil => exact h'
  | fixed l _ ih => exact .fixed l ih
  | value v _ ih => exact .value v ih

lemma of_fixed (ls : List Lexeme) : Fills (ls.map .fixed) [] ls := by
  induction ls with
  | nil => exact .nil
  | cons l ls ih => exact .fixed l ih

end Fills

/-- The slots with the lines on which they start, all line feeds counted. -/
def atLines (line : Nat) : List Slot → List (Slot × Nat)
  | [] => []
  | .fixed l :: slots => (.fixed l, line) :: atLines (line + l.text.count '\n') slots
  | .value :: slots => (.value, line) :: atLines line slots

/-- The number of line feeds in a template. -/
def feeds : List Slot → Nat
  | [] => 0
  | .fixed l :: slots => l.text.count '\n' + feeds slots
  | .value :: slots => feeds slots

lemma count_stringLiteral (value : Text) : (stringLiteral value).count '\n' = 0 :=
  List.count_eq_zero.mpr (feed_not_mem_stringLiteral value)

lemma Fills.fill_atLines {slots : List Slot} {values : List Text} {ls : List Lexeme}
    (h : Fills slots values ls) (line : Nat) :
    fill (atLines line slots) values = some (placed line ls) := by
  induction h generalizing line with
  | nil => rfl
  | fixed l _ ih => simp [atLines, fill, ih, placed]
  | value v _ ih => simp [atLines, fill, ih, placed, literalFor, count_stringLiteral]

lemma Fills.count_feeds {slots : List Slot} {values : List Text} {ls : List Lexeme}
    (h : Fills slots values ls) : (ls.flatMap (·.text)).count '\n' = feeds slots := by
  induction h with
  | nil => rfl
  | fixed l _ ih => rw [List.flatMap_cons, List.count_append, ih, feeds]
  | value v _ ih =>
      rw [List.flatMap_cons, List.count_append, ih, feeds, literalFor, count_stringLiteral,
        Nat.zero_add]

/-- Given tokens after a template are kept. -/
lemma fill_append_fixed {slots : List (Slot × Nat)} {values : List Text}
    {tokens : List (Lexeme × Nat)} (h : fill slots values = some tokens)
    (rest : List (Lexeme × Nat)) :
    fill (slots ++ rest.map fun t => (.fixed t.1, t.2)) values = some (tokens ++ rest) := by
  induction slots generalizing values tokens with
  | nil =>
      cases values with
      | nil =>
          obtain rfl := Option.some.inj h
          induction rest with
          | nil => rfl
          | cons t rest ih => simpa [fill] using ih
      | cons v values => simp [fill] at h
  | cons slot slots ih =>
      obtain ⟨slot, line⟩ := slot
      cases slot with
      | fixed l =>
          obtain ⟨tokens', h', rfl⟩ := Option.map_eq_some_iff.mp h
          simp [fill, ih h']
      | value =>
          cases values with
          | nil => simp [fill] at h
          | cons v values =>
              obtain ⟨tokens', h', rfl⟩ := Option.map_eq_some_iff.mp h
              simp [fill, ih h']

/-! ## Checking -/

/-- The same lexeme, or two literals for texts. -/
def Akin (l l' : Lexeme) : Prop :=
  l = l' ∨ ∃ v v', l = literalFor v ∧ l' = literalFor v'

namespace Akin

variable {l l' : Lexeme} (h : Akin l l')
include h

lemma isOperator_eq (spelling : Text) : l.isOperator spelling = l'.isOperator spelling := by
  rcases h with rfl | ⟨v, v', rfl, rfl⟩ <;> rfl

lemma outline_eq : l.outline = l'.outline := by
  rcases h with rfl | ⟨v, v', rfl, rfl⟩ <;> rfl

lemma isTrivia_eq : l.isTrivia = l'.isTrivia := by
  rcases h with rfl | ⟨v, v', rfl, rfl⟩ <;> rfl

end Akin

/-- The roles of tokens do not depend on what the literals hold. -/
lemma roles_akin {ls ls' : List Lexeme} (hls : List.Forall₂ Akin ls ls') :
    roles ls = roles ls' := by
  have houtline : ls.map (·.outline) = ls'.map (·.outline) := by
    induction hls with
    | nil => rfl
    | cons hl _ ih => rw [List.map_cons, List.map_cons, hl.outline_eq, ih]
  rw [← roles_map_outline ls, houtline, roles_map_outline]

/-- The check looks at the lines and the roles of tokens alone. -/
lemma checkFrom_zip {tokens tokens' : List Token} (h : tokens.map (·.line) = tokens'.map (·.line))
    (roles : List Role) (frames : List Frame) (line : Nat) :
    checkFrom frames line (tokens.zip roles) = checkFrom frames line (tokens'.zip roles) := by
  induction tokens generalizing tokens' roles frames line with
  | nil =>
      obtain rfl : tokens' = [] := by simpa using h.symm
      rfl
  | cons t tokens ih =>
      obtain ⟨t', tokens', rfl⟩ : ∃ t' ts, tokens' = t' :: ts :=
        List.exists_cons_of_ne_nil (by rintro rfl; simp at h)
      rw [List.map_cons, List.map_cons, List.cons.injEq] at h
      cases roles with
      | nil => rfl
      | cons role roles =>
          rw [List.zip_cons_cons, List.zip_cons_cons, checkFrom, checkFrom, h.1]
          split
          · exact ih h.2 _ _ _
          · rfl

/-- Tokens on the same lines that differ in literals alone are checked alike. -/
lemma checkFrom_akin {tokens tokens' : List Token}
    (hlines : tokens.map (·.line) = tokens'.map (·.line))
    (hls : List.Forall₂ Akin (tokens.map (·.toLexeme)) (tokens'.map (·.toLexeme))) :
    checkFrom [] 1 (withRoles tokens) = checkFrom [] 1 (withRoles tokens') := by
  rw [withRoles, withRoles, roles_akin hls]
  exact checkFrom_zip hlines _ _ _

/-- Two lists of tokens of one template are on the same lines and differ in literals alone. -/
lemma fill_akin {template : List (Slot × Nat)} {values values' : List Text}
    {tokens tokens' : List (Lexeme × Nat)} (h : fill template values = some tokens)
    (h' : fill template values' = some tokens') :
    tokens.map (·.2) = tokens'.map (·.2) ∧
      List.Forall₂ Akin (tokens.map (·.1)) (tokens'.map (·.1)) := by
  induction template generalizing values values' tokens tokens' with
  | nil =>
      have hnil : ∀ {values tokens}, fill [] values = some tokens → tokens = [] := by
        intro values tokens h
        cases values with
        | nil => exact (Option.some.inj h).symm
        | cons v values => simp [fill] at h
      rw [hnil h, hnil h']
      exact ⟨rfl, .nil⟩
  | cons slot template ih =>
      obtain ⟨slot, line⟩ := slot
      cases slot with
      | fixed l =>
          obtain ⟨tokens, hfill, rfl⟩ := Option.map_eq_some_iff.mp h
          obtain ⟨tokens', hfill', rfl⟩ := Option.map_eq_some_iff.mp h'
          obtain ⟨hlines, hakin⟩ := ih hfill hfill'
          exact ⟨by simp [hlines], .cons (.inl rfl) hakin⟩
      | value =>
          cases values with
          | nil => simp [fill] at h
          | cons v values =>
              cases values' with
              | nil => simp [fill] at h'
              | cons v' values' =>
                  obtain ⟨tokens, hfill, rfl⟩ := Option.map_eq_some_iff.mp h
                  obtain ⟨tokens', hfill', rfl⟩ := Option.map_eq_some_iff.mp h'
                  obtain ⟨hlines, hakin⟩ := ih hfill hfill'
                  exact ⟨by simp [hlines], .cons (.inr ⟨v, v', rfl, rfl⟩) hakin⟩

lemma map_fst_placed (line : Nat) (ls : List Lexeme) : (placed line ls).map (·.1) = ls := by
  induction ls generalizing line with
  | nil => rfl
  | cons l ls ih => simp [placed, ih]

lemma Fills.akin {slots : List Slot} {values values' : List Text} {ls ls' : List Lexeme}
    (h : Fills slots values ls) (h' : Fills slots values' ls') : List.Forall₂ Akin ls ls' := by
  have := (fill_akin (h.fill_atLines 1) (h'.fill_atLines 1)).2
  rwa [map_fst_placed, map_fst_placed] at this

/-- Sources of one template are checked alike, if they end alike. -/
lemma checkSyntax_eq_of_fill {source source' : Text} {template : List (Slot × Nat)}
    {values values' : List Text}
    (h : fill template values = some ((tokenize source).tokens.map fun t => (t.toLexeme, t.line)))
    (h' : fill template values' =
      some ((tokenize source').tokens.map fun t => (t.toLexeme, t.line)))
    (herror : (tokenize source).error = (tokenize source').error) :
    checkSyntax source = checkSyntax source' := by
  obtain ⟨hlines, hakin⟩ := fill_akin h h'
  simp only [List.map_map] at hlines hakin
  rw [checkSyntax, checkSyntax, ← herror, checkFrom_akin hlines hakin]

/-! ## Reading -/

/-- What the names assigned later on depend on is the same, literals apart. -/
structure SameNames (a b : Context) : Prop where
  locals : a.locals = b.locals
  afterDot : a.afterDot = b.afterDot
  last : Option.Rel Akin a.last b.last

lemma SameNames.after {a b : Context} (h : SameNames a b) {scan scan' : Scan} {text text' : Text}
    (hl : Akin ⟨scan.kind, text⟩ ⟨scan'.kind, text'⟩) :
    SameNames (a.after scan text) (b.after scan' text') := by
  obtain ⟨hlocals, hafterDot, hlast⟩ := h
  have htarget : (a.last.any fun l => l.text = ['.'] || l.text = ['&', '.']) =
      (b.last.any fun l => l.text = ['.'] || l.text = ['&', '.']) := by
    generalize a.last = last at hlast ⊢
    generalize b.last = last' at hlast ⊢
    cases hlast with
    | none => rfl
    | some hlast => rcases hlast with rfl | ⟨v, v', rfl, rfl⟩ <;> rfl
  refine ⟨?_, ?_, ?_⟩
  · simp only [Context.after, Context.localsAfter, ← hl.isOperator_eq, ← hafterDot, ← hlocals]
    generalize a.last = last at hlast ⊢
    generalize b.last = last' at hlast ⊢
    cases hlast with
    | none => rfl
    | some hlast => rcases hlast with rfl | ⟨v, v', rfl, rfl⟩ <;> simp [literalFor]
  · simp only [Context.after, ← hl.isTrivia_eq, hafterDot, htarget]
  · simp only [Context.after, ← hl.isTrivia_eq]
    split_ifs
    · exact hlast
    · exact .some hl

/-- Parts that differ in literals alone assign the same names. -/
lemma SameNames.reads {a a' b b' : Context} {rest rest' text text' : Text} {ls ls' : List Lexeme}
    (h : SameNames a b) (ha : Reads rest a text ls a') (hb : Reads rest' b text' ls' b')
    (hls : List.Forall₂ Akin ls ls') : SameNames a' b' := by
  induction ha generalizing b text' ls' with
  | nil =>
      cases hls
      cases hb
      exact h
  | cons _ _ _ _ ih =>
      cases hls with
      | cons hl hls =>
          cases hb with
          | cons _ _ _ tail => exact ih (h.after hl) tail hls

/-- Where a text starts in the source matters only to the places of its tokens. -/
lemma tokensFrom_start (ctx : Context) (start start' line skip : Nat) (text : Text) :
    (tokensFrom ctx start line skip text).tokens.map (fun t => (t.toLexeme, t.line)) =
        (tokensFrom ctx start' line skip text).tokens.map (fun t => (t.toLexeme, t.line)) ∧
      (tokensFrom ctx start line skip text).error =
        (tokensFrom ctx start' line skip text).error := by
  induction text generalizing ctx start start' line skip with
  | nil => cases skip <;> exact ⟨rfl, rfl⟩
  | cons c cs ih =>
      cases skip with
      | succ skip => exact ih ctx start start' line skip
      | zero =>
          rw [tokensFrom, tokensFrom]
          obtain ⟨htokens, herror⟩ := ih
            (ctx.after (ctx.scan line c cs) (c :: cs.take (ctx.scan line c cs).extent.size))
            (start + Text.utf8Size (c :: cs.take (ctx.scan line c cs).extent.size))
            (start' + Text.utf8Size (c :: cs.take (ctx.scan line c cs).extent.size))
            (ctx.scan line c cs).extent.line (ctx.scan line c cs).extent.size
          simp only [List.map_cons, htokens, herror, and_self]

/-- Two texts with parts that differ in literals alone, and the same text after them. -/
lemma tokenize_passages (rest : Text) {text text' : Text} {slots : List Slot}
    {values values' : List Text} {ls ls' : List Lexeme} (hfills : Fills slots values ls)
    (hfills' : Fills slots values' ls')
    (hpassage : Passage text ls) (hpassage' : Passage text' ls')
    (hflat : ∀ l ∈ ls, l.isFlat = true) (hflat' : ∀ l ∈ ls', l.isFlat = true) :
    (∃ template, fill template values =
        some ((tokenize (text ++ rest)).tokens.map fun t => (t.toLexeme, t.line)) ∧
      fill template values' =
        some ((tokenize (text' ++ rest)).tokens.map fun t => (t.toLexeme, t.line))) ∧
      (tokenize (text ++ rest)).error = (tokenize (text' ++ rest)).error := by
  obtain ⟨ctx, hreads, hctx⟩ := hpassage rest {} (startsLine_initial [])
  obtain ⟨ctx', hreads', hctx'⟩ := hpassage' rest {} (startsLine_initial [])
  obtain ⟨tokens, line, -, htokens, hlines⟩ := tokensFrom_append_of_reads hreads 0 1
  obtain ⟨tokens', line', -, htokens', hlines'⟩ := tokensFrom_append_of_reads hreads' 0 1
  obtain ⟨hplaced, hline⟩ := hlines hflat
  obtain ⟨hplaced', hline'⟩ := hlines' hflat'
  have hsame : line' = line := by
    rw [hline, hline', hreads.text_eq, hreads'.text_eq, hfills.count_feeds, hfills'.count_feeds]
  subst hsame
  have hnames : SameNames ctx ctx' :=
    SameNames.reads ⟨rfl, rfl, .none⟩ hreads hreads' (hfills.akin hfills')
  have halike : ctx'.Alike ctx :=
    .inr ⟨hctx'.toStartsStatement, hctx.toStartsStatement, hnames.locals.symm⟩
  rw [tokensFrom_alike halike (by rw [hctx.atLineStart, hctx'.atLineStart])] at htokens'
  obtain ⟨hrest, herror⟩ := tokensFrom_start ctx (0 + Text.utf8Size text') (0 + Text.utf8Size text)
    line' 0 rest
  refine ⟨⟨atLines 1 slots ++ ((tokensFrom ctx (0 + Text.utf8Size text) line' 0 rest).tokens.map
    fun t => (t.toLexeme, t.line)).map fun t => (.fixed t.1, t.2), ?_, ?_⟩, ?_⟩
  · rw [fill_append_fixed (hfills.fill_atLines 1), tokenize, htokens, List.map_append, hplaced]
  · rw [fill_append_fixed (hfills'.fill_atLines 1), tokenize, htokens', List.map_append, hplaced',
      hrest]
  · rw [tokenize, tokenize, htokens, htokens', herror]

/-! ## Configurations -/

/-- Two lists of lexemes fill one template. -/
def OneTemplate (values values' : List Text) (ls ls' : List Lexeme) : Prop :=
  ∃ slots, Fills slots values ls ∧ Fills slots values' ls'

namespace OneTemplate

variable {v v' w w' : List Text} {ls ls' ms ms' : List Lexeme}

lemma refl (ls : List Lexeme) : OneTemplate [] [] ls ls :=
  ⟨_, .of_fixed ls, .of_fixed ls⟩

lemma literal (value value' : Text) :
    OneTemplate [value] [value'] [literalFor value] [literalFor value'] :=
  ⟨[.value], .value value .nil, .value value' .nil⟩

lemma append (h : OneTemplate v v' ls ls') (h' : OneTemplate w w' ms ms') :
    OneTemplate (v ++ w) (v' ++ w') (ls ++ ms) (ls' ++ ms') := by
  obtain ⟨slots, hfills, hfills'⟩ := h
  obtain ⟨slots', hfills₂, hfills₂'⟩ := h'
  exact ⟨slots ++ slots', hfills.append hfills₂, hfills'.append hfills₂'⟩

end OneTemplate

/-- The text of a backend that is given by its name. -/
def BackendId.givenText? : BackendId → Option Text
  | name value => some value
  | symbol _ => none

/-- The text of a trait that has one. -/
def BackendValue.givenText? : BackendValue → Option Text
  | text value => some value
  | flag _ => none

/-- The texts that a configuration gives, in the order of their literals. -/
def ConverterConfig.values (config : ConverterConfig) : List Text :=
  config.registerFor.filterMap BackendId.givenText? ++
    config.backendInfo.entries.filterMap (·.2.givenText?) ++ config.delegateBackend.toList

/-- Both are names. -/
def BackendId.BothNames : BackendId → BackendId → Prop
  | name _, name _ => True
  | _, _ => False

/-- Both traits have the same key, and equal flags or two texts. -/
def SameTrait : Text × BackendValue → Text × BackendValue → Prop
  | (key, .flag value), (key', .flag value') => key = key' ∧ value = value'
  | (key, .text _), (key', .text _) => key = key'
  | _, _ => False

/-- Two configurations that differ in the texts they give at most. -/
structure ConverterConfig.SameShape (a b : ConverterConfig) : Prop where
  className : a.className = b.className
  transforms : a.transforms = b.transforms
  registerFor : List.Forall₂ BackendId.BothNames a.registerFor b.registerFor
  backendInfo : List.Forall₂ SameTrait a.backendInfo.entries b.backendInfo.entries
  delegateBackend : a.delegateBackend.isSome = b.delegateBackend.isSome

lemma oneTemplate_ids {ids ids' : List BackendId} (h : List.Forall₂ BackendId.BothNames ids ids') :
    OneTemplate (ids.filterMap BackendId.givenText?) (ids'.filterMap BackendId.givenText?)
      (separated (ids.map idLexeme)) (separated (ids'.map idLexeme)) := by
  induction h with
  | nil => exact .refl []
  | @cons id id' ids ids' hid hids ih =>
      match id, id', hid with
      | .name value, .name value', _ =>
          have hliteral := OneTemplate.literal value value'
          cases hids with
          | nil => exact hliteral
          | cons hid hids =>
              exact hliteral.append ((OneTemplate.refl [⟨.comma, [',']⟩, oneSpace]).append ih)

lemma oneTemplate_trait {entry entry' : Text × BackendValue} (h : SameTrait entry entry') :
    OneTemplate entry.2.givenText?.toList entry'.2.givenText?.toList (traitLexemes entry)
      (traitLexemes entry') := by
  match entry, entry', h with
  | (key, .flag value), (_, .flag _), ⟨rfl, rfl⟩ => exact .refl (traitLexemes (key, .flag value))
  | (key, .text value), (_, .text value'), rfl =>
      exact (OneTemplate.refl [indentation 4, plainWord key, oneSpace]).append
        (.literal value value')

lemma oneTemplate_traits {entries entries' : List (Text × BackendValue)}
    (h : List.Forall₂ SameTrait entries entries') :
    OneTemplate (entries.filterMap (·.2.givenText?)) (entries'.filterMap (·.2.givenText?))
      (entries.flatMap fun entry => traitLexemes entry ++ [lineFeed])
      (entries'.flatMap fun entry => traitLexemes entry ++ [lineFeed]) := by
  induction h with
  | nil => exact .refl []
  | @cons entry entry' entries entries' hentry hentries ih =>
      have hcons : ∀ (e : Text × BackendValue) es, List.filterMap (·.2.givenText?) (e :: es) =
          (e.2.givenText?.toList ++ []) ++ List.filterMap (·.2.givenText?) es := by
        intro e es
        rw [List.filterMap_cons]
        cases e.2.givenText? <;> rfl
      rw [hcons, hcons]
      exact ((oneTemplate_trait hentry).append (.refl [lineFeed])).append ih

/-- The initializers of two configurations that differ in texts alone fill one template. -/
lemma oneTemplate_initializer {a b : ConverterConfig} (h : a.SameShape b) :
    OneTemplate a.values b.values (initializerLexemes a) (initializerLexemes b) := by
  have hregister : OneTemplate (a.registerFor.filterMap BackendId.givenText?)
      (b.registerFor.filterMap BackendId.givenText?)
      (if a.registerFor.isEmpty then []
        else registrationLexemes a.registerFor ++ [lineFeed] ++ [lineFeed])
      (if b.registerFor.isEmpty then []
        else registrationLexemes b.registerFor ++ [lineFeed] ++ [lineFeed]) := by
    have hids := h.registerFor
    generalize a.registerFor = ids at hids ⊢
    generalize b.registerFor = ids' at hids ⊢
    cases hids with
    | nil => exact .refl []
    | cons hid hids =>
        have happend :=
          ((OneTemplate.refl [indentation 2, plainWord "register_for".toList, oneSpace]).append
            (oneTemplate_ids (.cons hid hids))).append (.refl [lineFeed, lineFeed])
        simpa [registrationLexemes] using happend
  have hdelegate : OneTemplate a.delegateBackend.toList b.delegateBackend.toList
      (a.delegateBackend.elim [] fun backend =>
        [lineFeed] ++ (delegateLexemes backend ++ [lineFeed]) ++ lexemesOf delegateRest)
      (b.delegateBackend.elim [] fun backend =>
        [lineFeed] ++ (delegateLexemes backend ++ [lineFeed]) ++ lexemesOf delegateRest) := by
    have hsome := h.delegateBackend
    generalize a.delegateBackend = delegate at hsome ⊢
    generalize b.delegateBackend = delegate' at hsome ⊢
    rcases delegate with - | value <;> rcases delegate' with - | value'
    · exact .refl []
    · exact absurd hsome (by simp)
    · exact absurd hsome (by simp)
    · have happend := ((OneTemplate.refl (lineFeed :: (delegateLexemes value).take 13)).append
        (.literal value value')).append
        (.refl ((delegateLexemes value).drop 14 ++ [lineFeed] ++ lexemesOf delegateRest))
      simpa [delegateLexemes, literalFor] using happend
  have happend := ((((hregister.append (.refl (lexemesOf constructorHead))).append
    (oneTemplate_traits h.backendInfo)).append hdelegate).append
    (.refl (lexemesOf constructorEnd))).append (.refl [lineFeed])
  simp only [List.append_nil] at happend
  exact happend

/-! ## Lines -/

lemma isFlat_of_feed_not_mem {ls : List Lexeme} (h : '\n' ∉ ls.flatMap (·.text)) :
    ∀ l ∈ ls, l.isFlat = true := by
  intro l hl
  have hno : '\n' ∉ l.text := fun hmem => h (List.mem_flatMap.mpr ⟨l, hl, hmem⟩)
  simp [Lexeme.isFlat, hno]

lemma isFlat_of_isPart {before after : List Frame} {text : Text}
    (h : isPart before text after = true) : ∀ l ∈ lexemesOf text, l.isFlat = true := by
  intro l hl
  obtain ⟨-, rfl | ⟨hno, -⟩⟩ := Lexeme.keepsLine_iff.mp (keepsLine_of_isPart h l hl)
  · rfl
  · simp [Lexeme.isFlat, hno]

lemma isFlat_head {names : List Text} (hnames : ∀ name ∈ names, isConstantName name = true) :
    ∀ l ∈ headLexemes names, l.isFlat = true := by
  have hfeed : ∀ name ∈ names, '\n' ∉ name :=
    fun name h => not_mem_of_isName (isName_of_isConstantName (hnames name h)) (by decide)
  have hprologue : '\n' ∉ (prologueLexemes names.dropLast).flatMap (·.text) := by
    rw [prologueLexemes, List.flatMap_append, text_intersperse, List.flatMap_assoc]
    simp only [List.mem_append, List.mem_flatMap, not_or, not_exists, not_and, List.map_map]
    constructor
    · intro name hname
      have hno := hfeed name (List.mem_of_mem_dropLast hname)
      simpa [plainWord, wordLexeme, oneSpace] using hno
    · refine Text.not_mem_join (by decide) ?_
      intro word hword
      obtain ⟨name, -, rfl⟩ := List.mem_map.mp hword
      exact (by decide : '\n' ∉ "end".toList)
  have hclass : '\n' ∉ (classLexemes names).flatMap (·.text) := by
    rw [text_classLexemes]
    simp only [List.mem_append, not_or]
    exact ⟨⟨by decide, Text.not_mem_join (by decide) hfeed⟩, by decide⟩
  have hcomment := isFlat_of_isPart isPart_headComment
  have hline : ∀ l ∈ [lineFeed], l.isFlat = true := by decide
  simp only [headLexemes, List.forall_mem_append]
  exact ⟨⟨⟨hcomment, isFlat_of_feed_not_mem hprologue, hline⟩, isFlat_of_feed_not_mem hclass,
    hline⟩, hline⟩

lemma isFlat_initializer {config : ConverterConfig}
    (hkeys : ∀ entry ∈ config.backendInfo.entries, isName entry.1 = true) :
    ∀ l ∈ initializerLexemes config, l.isFlat = true := by
  have hline : ∀ l ∈ [lineFeed], l.isFlat = true := by decide
  have hregister : '\n' ∉ (registrationLexemes config.registerFor).flatMap (·.text) := by
    rw [text_registrationLexemes, List.mem_append, not_or]
    exact ⟨by decide, feed_not_mem_ids⟩
  have htrait : ∀ entry ∈ config.backendInfo.entries,
      '\n' ∉ (traitLexemes entry).flatMap (·.text) := by
    intro entry hentry
    rw [text_traitLexemes, List.mem_append, not_or]
    exact ⟨by decide, feed_not_mem_trait (hkeys entry hentry)⟩
  have hdelegate : ∀ backend, '\n' ∉ (delegateLexemes backend).flatMap (·.text) := by
    intro backend
    simp [delegateLexemes, indentation, plainWord, wordLexeme, oneSpace, List.replicate,
      feed_not_mem_stringLiteral]
  simp only [initializerLexemes, List.forall_mem_append]
  refine ⟨⟨⟨⟨⟨?_, isFlat_of_isPart isPart_constructorHead⟩, ?_⟩, ?_⟩,
    isFlat_of_isPart isPart_constructorEnd⟩, hline⟩
  · split_ifs
    · simp
    · simp only [List.forall_mem_append]
      exact ⟨⟨isFlat_of_feed_not_mem hregister, hline⟩, hline⟩
  · intro l hl
    obtain ⟨entry, hentry, hl⟩ := List.mem_flatMap.mp hl
    rcases List.mem_append.mp hl with hl | hl
    · exact isFlat_of_feed_not_mem (htrait entry hentry) l hl
    · exact hline l hl
  · cases config.delegateBackend with
    | none => simp
    | some backend =>
        simp only [Option.elim_some, List.forall_mem_append]
        exact ⟨⟨hline, isFlat_of_feed_not_mem (hdelegate backend), hline⟩,
          isFlat_of_isPart isPart_delegateRest⟩

/-! ## Two configurations -/

lemma keys_of_sameTrait {entries entries' : List (Text × BackendValue)}
    (h : List.Forall₂ SameTrait entries entries') : entries.map (·.1) = entries'.map (·.1) := by
  induction h with
  | nil => rfl
  | @cons entry entry' entries entries' hentry _ ih =>
      match entry, entry', hentry with
      | (_, .flag _), (_, .flag _), ⟨rfl, _⟩ => simp [ih]
      | (_, .text _), (_, .text _), rfl => simp [ih]

lemma isWritable_of_bothNames {ids ids' : List BackendId}
    (h : List.Forall₂ BackendId.BothNames ids ids') :
    (∀ id ∈ ids, id.isWritable = true) ∧ ∀ id ∈ ids', id.isWritable = true := by
  induction h with
  | nil => simp
  | @cons id id' ids ids' hid _ ih =>
      match id, id', hid with
      | .name _, .name _, _ => simpa [BackendId.isWritable] using ih

/-- The source after the initializer. -/
def restOfClass (config : ConverterConfig) : Text :=
  lineOf [convertPart config.delegateBackend.isSome] ++ transformsPart false config.transforms ++
    lineOf [supportPart] ++ lineOf ["end".toList]

lemma generate_without_helpers {config : ConverterConfig} (h : config.helpers? = none) :
    Converter.generate config = .ok (lineOf [headPart config.className] ++
      lineOf [initializerPart config] ++ restOfClass config) := by
  simp [Converter.generate, Converter.ofConfig, h, Except.map, Converter.source, restOfClass]

/-- Configured texts are literals and nothing else.  The sources of two configurations that differ
in texts alone have the same tokens on the same lines, with the literals for the texts in the same
places, and the nesting check finds the same in both. -/
theorem generate_of_sameShape {a b : ConverterConfig} (ha : a.helpers? = none)
    (hb : b.helpers? = none) (h : a.SameShape b) (hclass : IsClassName a.className)
    (hkeys : ∀ key ∈ a.backendInfo.keys, isName key = true) :
    ∃ source source', Converter.generate a = .ok source ∧ Converter.generate b = .ok source' ∧
      (∃ template,
        fill template a.values =
          some ((tokenize source).tokens.map fun t => (t.toLexeme, t.line)) ∧
        fill template b.values =
          some ((tokenize source').tokens.map fun t => (t.toLexeme, t.line))) ∧
      checkSyntax source = checkSyntax source' := by
  obtain ⟨names, hne, hnames, hjoin⟩ := hclass
  obtain ⟨hids, hids'⟩ := isWritable_of_bothNames h.registerFor
  have hentries : ∀ entry ∈ a.backendInfo.entries, isName entry.1 = true :=
    fun entry hentry => hkeys _ (List.mem_map.mpr ⟨entry, hentry, rfl⟩)
  have hentries' : ∀ entry ∈ b.backendInfo.entries, isName entry.1 = true := by
    intro entry hentry
    refine hkeys _ ?_
    rw [BackendInfo.keys, keys_of_sameTrait h.backendInfo]
    exact List.mem_map.mpr ⟨entry, hentry, rfl⟩
  have hhead := passage_head hne hnames
  rw [← hjoin] at hhead
  have hhead' := hhead
  rw [h.className] at hhead'
  have hrest : restOfClass b = restOfClass a := by
    rw [restOfClass, restOfClass, h.delegateBackend, h.transforms]
  obtain ⟨slots, hfills, hfills'⟩ := (OneTemplate.refl (headLexemes names)).append
    (oneTemplate_initializer h)
  rw [List.nil_append] at hfills hfills'
  have hflat : ∀ l ∈ headLexemes names ++ initializerLexemes a, l.isFlat = true :=
    List.forall_mem_append.mpr ⟨isFlat_head hnames, isFlat_initializer hentries⟩
  have hflat' : ∀ l ∈ headLexemes names ++ initializerLexemes b, l.isFlat = true :=
    List.forall_mem_append.mpr ⟨isFlat_head hnames, isFlat_initializer hentries'⟩
  obtain ⟨⟨template, hfill, hfill'⟩, herror⟩ := tokenize_passages (restOfClass a) hfills hfills'
    (hhead.append (passage_initializer hids hentries))
    (hhead'.append (passage_initializer hids' hentries')) hflat hflat'
  refine ⟨_, _, generate_without_helpers ha, generate_without_helpers hb, ?_⟩
  rw [hrest]
  exact ⟨⟨template, hfill, hfill'⟩, checkSyntax_eq_of_fill hfill hfill' herror⟩

/-- A configuration with the given texts, for a class with two malformed transforms. -/
def hostileConfig (backend extension delegate : Text) : ConverterConfig where
  className := "Slim::Html5Converter".toList
  transforms := [⟨"inline image".toList, "end; x = \"".toList⟩, ⟨[], "if (".toList⟩]
  registerFor := [.name backend]
  backendInfo := ⟨[("outfilesuffix".toList, .text extension),
    ("supports_templates".toList, .flag false)]⟩
  delegateBackend := some delegate

/-- Texts that try to end their literal are read like any other. -/
theorem generate_hostileConfig :
    ∃ source source',
      Converter.generate (hostileConfig "html5".toList ".html".toList "html5".toList) = .ok source ∧
      Converter.generate (hostileConfig "\"; end; #\x7bexit\x7d\n".toList "\\".toList
        "#$0\n=begin\n".toList) = .ok source' ∧ checkSyntax source = checkSyntax source' := by
  have hshape : (hostileConfig "html5".toList ".html".toList "html5".toList).SameShape
      (hostileConfig "\"; end; #\x7bexit\x7d\n".toList "\\".toList "#$0\n=begin\n".toList) :=
    ⟨rfl, rfl, .cons trivial .nil, .cons rfl (.cons ⟨rfl, rfl⟩ .nil), rfl⟩
  have hclass : IsClassName "Slim::Html5Converter".toList :=
    ⟨["Slim".toList, "Html5Converter".toList], by decide, by decide, by decide⟩
  obtain ⟨source, source', hsource, hsource', -, hcheck⟩ :=
    generate_of_sameShape rfl rfl hshape hclass (by decide)
  exact ⟨source, source', hsource, hsource', hcheck⟩

end ConverterAssembly
