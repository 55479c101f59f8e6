import ConverterAssembly.Proofs.Converter.Parts
import ConverterAssembly.Proofs.Ruby.Fragments

/-!
# Valid pieces make a valid class

A class is put together from fixed lines, names, literals and fragments of code.  If the names are
names and every fragment can stand between other lines (`Embeddable`), the nesting check accepts the
source.

**Lines.**  Every part is a passage of whole lines; here are those that `Parts` leaves out, the
helpers and the transforms.

**Nesting.**  Every part closes what it opens, apart from the first line of the class and the last
line of the source (`nests_head`, `nests_initializer`, `nests_transform`, `nests_helpers`).
-/

namespace ConverterAssembly

open Ruby

/-! ## The head -/

lemma isInert_plainWord {name : Text} (h : isNestingWord name = false) :
    (plainWord name).isInert = true := by
  rw [plainWord, wordLexeme, Lexeme.isInert]
  split_ifs <;> simp [h]

/-- All keywords of the nesting are in lower case. -/
lemma not_isConstantName_of_isNestingWord {word : Text} (h : isNestingWord word = true) :
    isConstantName word = false := by
  simp only [isNestingWord, Bool.or_eq_true, List.contains_eq_mem, List.mem_cons, List.not_mem_nil,
    or_false, decide_eq_true_eq] at h
  obtain (((h | h) | h) | h) | rfl | rfl | rfl := h
  · unfold alwaysOpens? at h
    split_ifs at h with h₁ h₂ h₃ h₄ h₅
    all_goals first
      | (subst word; decide)
      | exact absurd h (by decide)
  · unfold leadingOpens? at h
    split_ifs at h with h₁ h₂ h₃ h₄
    all_goals first
      | (subst word; decide)
      | exact absurd h (by decide)
  · unfold alwaysContinues? at h
    split_ifs at h with h₁ h₂ h₃ h₄
    all_goals first
      | (subst word; decide)
      | exact absurd h (by decide)
  · unfold leadingContinues? at h
    split_ifs at h with h₁ h₂
    all_goals first
      | (subst word; decide)
      | exact absurd h (by decide)
  all_goals decide

lemma isInert_constant {name : Text} (h : isConstantName name = true) :
    (plainWord name).isInert = true := by
  refine isInert_plainWord ?_
  by_contra hword
  rw [Bool.not_eq_false] at hword
  rw [not_isConstantName_of_isNestingWord hword] at h
  exact absurd h (by decide)

/-- A line that opens a frame with its first word. -/
lemma nests_opening {word : Lexeme} {frame : Frame} (htrivia : word.isTrivia = false)
    (hrole : ∀ prev ls, roleOf prev false word ls = .opens frame)
    (hheader : ∀ prev, headerAfter prev false word = false) {ls : List Lexeme}
    (hinert : ∀ l ∈ ls, l.isInert = true) {stop : Lexeme}
    (hstop : stop.kind = .newline ∨ stop.kind = .semicolon) :
    Nests [] (word :: ls ++ [stop]) [frame] := by
  intro base following
  obtain ⟨prev, hprev⟩ :=
    framesAfter_of_isInert hinert (some word) (frame :: base) (stop :: following)
  rw [List.append_assoc, List.singleton_append, List.cons_append, framesAfter, hrole, hheader,
    htrivia]
  simp only [Role.apply, List.nil_append, Bool.false_eq_true, if_false, hprev,
    List.singleton_append]
  have hbegins : beginsStatement (some stop) = true := by
    rcases hstop with h | h <;> simp [beginsStatement, h]
  have hstep : framesAfter prev false (frame :: base) (stop :: following) =
      framesAfter (some stop) false (frame :: base) following := by
    rcases hstop with h | h <;> simp [framesAfter, roleOf, headerAfter, h, Role.apply,
      Lexeme.isTrivia]
  rw [hstep, framesAfter_of_beginsStatement hbegins]

/-- The words that close the modules around the class. -/
lemma framesAfter_ends (prev : Option Lexeme) (count : Nat) (base : List Frame)
    (following : List Lexeme) :
    framesAfter prev false (List.replicate count (.block .moduleBody) ++ base)
        (List.replicate count (plainWord "end".toList) ++ lineFeed :: following) =
      framesAfter none false base following := by
  induction count generalizing prev with
  | zero => exact framesAfter_feed prev false base following
  | succ count ih => exact ih (some (plainWord "end".toList))

lemma solid_intersperse {l : Lexeme} (hl : l.kind = .space) (ls : List Lexeme) :
    solid (ls.intersperse l) = solid ls := by
  induction ls with
  | nil => rfl
  | cons x ls ih =>
      cases ls with
      | nil => rfl
      | cons y ls =>
          rw [List.intersperse_cons_cons, ← List.singleton_append, solid_append,
            solid_cons_of_space hl, ih, ← solid_append, List.singleton_append]

/-- The statement that makes the modules exist closes what it opens. -/
lemma nests_prologue {namespaces : List Text}
    (hnames : ∀ name ∈ namespaces, isConstantName name = true) :
    Nests [] (prologueLexemes namespaces ++ [lineFeed]) [] := by
  have hopens : ∀ names : List Text, (∀ name ∈ names, isConstantName name = true) →
      Nests [] (names.flatMap fun name => [plainWord "module".toList, oneSpace, plainWord name,
        ⟨.semicolon, [';']⟩, oneSpace]) (List.replicate names.length (.block .moduleBody)) := by
    intro names hnames
    induction names with
    | nil => exact .nil []
    | cons name names ih =>
        rw [List.forall_mem_cons] at hnames
        have hmodule : Nests [] [plainWord "module".toList, oneSpace, plainWord name,
            ⟨.semicolon, [';']⟩] [.block .moduleBody] := by
          refine @nests_opening _ _ rfl (fun _ _ => rfl) (fun _ => rfl)
            [oneSpace, plainWord name] ?_ _ (.inr rfl)
          simp only [List.forall_mem_cons]
          exact ⟨rfl, isInert_constant hnames.1, by simp⟩
        have hspace : Nests [.block .moduleBody] [oneSpace] [.block .moduleBody] :=
          (Nests.nil _).of_solid_eq rfl
        have hrest := (ih hnames.2).inside [.block .moduleBody]
        rw [List.length_cons, List.replicate_succ', List.flatMap_cons]
        exact (hmodule.append hspace).append hrest
  have hends : Nests (List.replicate namespaces.length (.block .moduleBody))
      (List.replicate namespaces.length (plainWord "end".toList) ++ [lineFeed]) [] := by
    intro base following
    rw [List.append_assoc]
    exact framesAfter_ends none namespaces.length base following
  rw [prologueLexemes, List.append_assoc]
  refine (hopens namespaces hnames).append (hends.of_solid_eq ?_)
  rw [solid_append, solid_append, solid_intersperse rfl, List.map_const']

lemma eq_or_mem_of_mem_intersperse {l s : Lexeme} {ls : List Lexeme} (h : l ∈ ls.intersperse s) :
    l = s ∨ l ∈ ls := by
  induction ls with
  | nil => exact .inr h
  | cons x ls ih =>
      cases ls with
      | nil => exact .inr h
      | cons y ls =>
          rw [List.intersperse_cons_cons, List.mem_cons, List.mem_cons] at h
          rcases h with rfl | rfl | h
          · exact .inr List.mem_cons_self
          · exact .inl rfl
          · exact (ih h).imp_right (List.mem_cons_of_mem x)

lemma nests_class {names : List Text} (hnames : ∀ name ∈ names, isConstantName name = true) :
    Nests [] (classLexemes names ++ [lineFeed]) [.block .classBody] := by
  have hconstants : ∀ l ∈ (names.map plainWord).intersperse scope, l.isInert = true := by
    intro l hl
    rcases eq_or_mem_of_mem_intersperse hl with rfl | hl
    · rfl
    · obtain ⟨name, hname, rfl⟩ := List.mem_map.mp hl
      exact isInert_constant (hnames name hname)
  have hline : ∀ l ∈ (classLexemes names).tail, l.isInert = true :=
    List.forall_mem_cons.mpr ⟨rfl, List.forall_mem_append.mpr ⟨hconstants, by decide⟩⟩
  exact @nests_opening (plainWord "class".toList) _ rfl (fun _ _ => rfl) (fun _ => rfl) _ hline _
    (.inl rfl)

lemma nests_head {names : List Text} (hnames : ∀ name ∈ names, isConstantName name = true) :
    Nests [] (headLexemes names) [.block .classBody] := by
  have hspaces : ∀ name ∈ names.dropLast, isConstantName name = true :=
    fun name h => hnames _ (List.mem_of_mem_dropLast h)
  have hcomment := nests_of_isPart isPart_headComment
  have hfeed : Nests [.block .classBody] [lineFeed] [.block .classBody] := nests_of_run rfl
  exact ((hcomment.append (nests_prologue hspaces)).append (nests_class hnames)).append hfeed

/-! ## The initializer -/

lemma nests_registration (ids : List BackendId) :
    Nests [] (registrationLexemes ids ++ [lineFeed] ++ [lineFeed]) [] := by
  have hids : ∀ l ∈ separated (ids.map idLexeme), l.isInert = true := by
    induction ids with
    | nil => simp [separated]
    | cons id ids ih =>
        cases ids with
        | nil => exact List.forall_mem_singleton.mpr rfl
        | cons id' ids =>
            exact List.forall_mem_cons.mpr ⟨rfl, List.forall_mem_cons.mpr ⟨rfl,
              List.forall_mem_cons.mpr ⟨rfl, ih⟩⟩⟩
  have hline : ∀ l ∈ registrationLexemes ids, l.isInert = true :=
    List.forall_mem_append.mpr ⟨by decide, hids⟩
  exact (nests_of_isInert hline).append (nests_of_run rfl)

lemma nests_traits {entries : List (Text × BackendValue)}
    (h : ∀ entry ∈ entries, entry.1 ∉ keywords) :
    Nests [] (entries.flatMap fun entry => traitLexemes entry ++ [lineFeed]) [] := by
  refine .flatMap fun entry hentry => nests_of_isInert ?_
  have hkey : (plainWord entry.1).isInert = true := by
    simp [plainWord, wordLexeme, h entry hentry, Lexeme.isInert]
  have hdef : entry.1 ≠ "def".toList := by
    intro hdef
    exact h entry hentry (by rw [hdef]; decide)
  obtain ⟨key, (_ | _) | value⟩ := entry
  · have hvalue : (valueLexeme (decide (key = "def".toList)) (.flag false)).isInert = true := by
      rw [decide_eq_false hdef]
      decide
    simp only [traitLexemes, List.forall_mem_append, List.forall_mem_cons]
    exact ⟨⟨rfl, hkey, by simp⟩, rfl, hvalue, by simp⟩
  · simp only [traitLexemes, List.forall_mem_append, List.forall_mem_cons]
    exact ⟨⟨rfl, hkey, by simp⟩, by simp⟩
  · simp only [traitLexemes, List.forall_mem_append, List.forall_mem_cons]
    exact ⟨⟨rfl, hkey, by simp⟩, rfl, rfl, by simp⟩

lemma nests_delegate (backend : Text) :
    Nests []
      ([lineFeed] ++ (delegateLexemes backend ++ [lineFeed]) ++ lexemesOf delegateRest) [] := by
  have hline : Nests [] ([lineFeed] ++ (delegateLexemes backend ++ [lineFeed])) [] :=
    nests_of_run rfl
  exact hline.append (nests_of_isPart isPart_delegateRest)

/-- The registration and the constructor close what they open. -/
lemma nests_initializer {config : ConverterConfig}
    (hkeys : ∀ entry ∈ config.backendInfo.entries, entry.1 ∉ keywords) :
    Nests [] (initializerLexemes config) [] := by
  have hhead := nests_of_isPart isPart_constructorHead
  have hend := nests_of_isPart isPart_constructorEnd
  have hregistration : Nests [] (if config.registerFor.isEmpty then []
      else registrationLexemes config.registerFor ++ [lineFeed] ++ [lineFeed]) [] := by
    split_ifs
    · exact .nil []
    · exact nests_registration config.registerFor
  have htraits := (nests_traits hkeys).inside [.block .method]
  have hdelegate : Nests [.block .method] (config.delegateBackend.elim [] fun backend =>
      [lineFeed] ++ (delegateLexemes backend ++ [lineFeed]) ++ lexemesOf delegateRest)
      [.block .method] := by
    cases config.delegateBackend with
    | none => exact .nil _
    | some backend => exact (nests_delegate backend).inside [.block .method]
  exact ((((hregistration.append hhead).append htraits).append hdelegate).append hend).append
    (nests_of_run rfl)

/-! ## Fragments -/

/-- An embedded fragment is accepted with the blanks before its lines. -/
lemma framesAfter_padded {code : Text} (h : Embeddable code) (width : Nat) :
    framesAfter none false [] (padded width true (lexemesOf code)) = some [] := by
  rw [← framesAfter_solid, solid_padded, framesAfter_solid]
  exact ((checkSyntax_eq_ok_iff code).mp h.accepted).2

/-! ### Helpers -/

/-- The lines before the helper code. -/
def helpersOpening : Text :=
  Text.indent (lineOf [separator "Begin of Helpers".toList]) 2

/-- The lines after the helper code, with the blank line after them. -/
def helpersClosing : Text :=
  Text.indent
    (linesOf
      ["", "# Make Helpers' constants accessible from transform methods.",
       "Helpers.constants.each do |const|",
       "  const_set(const, Helpers.const_get(const))",
       "end", ""] ++
      lineOf [separator "End of Helpers".toList]) 2 ++ ['\n']

lemma isPart_helpersOpening : isPart [] helpersOpening [] = true := by
  decide

lemma isPart_helpersClosing : isPart [] helpersClosing [] = true := by
  decide

/-- The lexemes of the helpers. -/
def helpersLexemes (code : Text) : List Lexeme :=
  lexemesOf helpersOpening ++ (padded 2 true (lexemesOf code) ++ [lineFeed]) ++
    lexemesOf helpersClosing

lemma passage_helpers {code : Text} (h : Embeddable code) :
    Passage (lineOf [helpersPart code]) (helpersLexemes code) := by
  have hparts : ∀ a b : Text, Text.indent (a ++ ['\n'] ++ (code ++ ['\n']) ++ b) 2 =
      Text.indent (a ++ ['\n']) 2 ++ (Text.indent code 2 ++ ['\n']) ++ Text.indent b 2 := by
    intro a b
    have hfeeds : a ++ ['\n'] ++ (code ++ ['\n']) ++ b = a ++ '\n' :: (code ++ '\n' :: b) := by simp
    rw [hfeeds, Text.indent_append_feed, Text.indent_append_feed code,
      Text.indent_append_last_feed code]
    simp only [List.append_assoc]
  have hline : ∀ text : Text, lineOf [text] = text ++ ['\n'] := by simp [lineOf]
  have htext : lineOf [helpersPart code] =
      helpersOpening ++ (Text.indent code 2 ++ ['\n']) ++ helpersClosing := by
    rw [helpersPart, List.append_assoc (lineOf _ ++ lineOf _), hline code,
      hline (separator "Begin of Helpers".toList), hparts, hline, helpersOpening, helpersClosing,
      hline (separator "Begin of Helpers".toList), List.append_assoc]
  rw [htext, helpersLexemes]
  exact ((passage_of_isPart isPart_helpersOpening).append (h.passage (by decide))).append
    (passage_of_isPart isPart_helpersClosing)

lemma nests_helpers {code : Text} (h : Embeddable code) : Nests [] (helpersLexemes code) [] := by
  have hopening := nests_of_isPart isPart_helpersOpening
  have hclosing := nests_of_isPart isPart_helpersClosing
  have hhead : (lexemesOf helpersClosing).head? = some lineFeed := by decide
  obtain ⟨ls, hls⟩ := List.head?_eq_some_iff.mp hhead
  rw [helpersLexemes, List.append_assoc, List.append_assoc, hls, List.singleton_append]
  rw [hls] at hclosing
  exact hopening.append (nests_fragment (framesAfter_padded h 2) rfl hclosing)

/-! ### Transforms -/

/-- The lexemes of the first line of a transform. -/
def signatureLexemes (name : Text) : List Lexeme :=
  [indentation 2, plainWord "def".toList, oneSpace, wordLexeme true name, ⟨.opener .paren, ['(']⟩,
    plainWord "node".toList, ⟨.comma, [',']⟩, oneSpace, plainWord "opts".toList, oneSpace,
    ⟨.operator, ['=']⟩, oneSpace, ⟨.opener .brace, ['\x7b']⟩, ⟨.closer .brace, ['\x7d']⟩,
    ⟨.closer .paren, [')']⟩]

lemma standing_signature {name : Text} (h : isName name = true) (rest : Text) :
    Standing ('\n' :: rest) false (signatureLexemes name) false := by
  have hdef : Stands false (plainWord "def".toList)
      ((oneSpace :: (signatureLexemes name).drop 3).flatMap (·.text) ++ '\n' :: rest) true :=
    stands_word (by decide) rfl false
  have hspace : Stands true oneSpace
      (((signatureLexemes name).drop 3).flatMap (·.text) ++ '\n' :: rest) true := by
    refine stands_space (n := 0) ?_ true
    rw [signatureLexemes, List.drop_succ_cons, List.drop_succ_cons, List.drop_succ_cons,
      List.drop_zero, List.flatMap_cons, List.append_assoc]
    exact not_isGap_of_isName h _
  refine .cons (stands_indentation (by decide) rfl) (.cons hdef (.cons hspace ?_))
  refine .cons (stands_word h rfl true) (.cons (stands_bracket rfl _) ?_)
  refine .cons (stands_plainWord (by decide) (by decide) rfl) (.cons (stands_bracket rfl _) ?_)
  refine .cons (stands_oneSpace rfl) (.cons (stands_plainWord (by decide) (by decide) rfl) ?_)
  refine .cons (stands_oneSpace rfl) (.cons (stands_operator (by decide) (stops_cons.mpr rfl)) ?_)
  refine .cons (stands_oneSpace rfl) (.cons (stands_bracket rfl _)
    (.cons (stands_bracket rfl _) ?_))
  exact .cons (stands_bracket rfl _) (.nil _)

/-- The lines between the first line of a transform and its code. -/
def transformOpening (hasHelpers : Bool) : Text :=
  (if hasHelpers then linesOf ["    node.extend(Helpers)"] else []) ++
    linesOf
      ["    node.instance_eval do",
       "      converter.set_local_variables(binding, opts) unless opts.empty?"]

/-- The lines after the code of a transform. -/
def transformClosing : Text := linesOf ["    end", "  end"]

lemma isPart_transformOpening (hasHelpers : Bool) :
    isPart [.block .method] (transformOpening hasHelpers)
      [.block .doBody, .block .method] = true := by
  cases hasHelpers <;> decide

lemma isPart_transformClosing :
    isPart [.block .doBody, .block .method] transformClosing [] = true := by
  decide

/-- The lexemes of a transform. -/
def transformLexemes (hasHelpers : Bool) (transform : Transform) : List Lexeme :=
  [lineFeed] ++ (signatureLexemes transform.name ++ [lineFeed]) ++
    lexemesOf (transformOpening hasHelpers) ++
    (padded 6 true (lexemesOf transform.code) ++ [lineFeed]) ++ lexemesOf transformClosing

lemma passage_transform (hasHelpers : Bool) {transform : Transform}
    (hname : isName transform.name = true) (hcode : Embeddable transform.code) :
    Passage (transformMethod hasHelpers transform) (transformLexemes hasHelpers transform) := by
  have htext : transformMethod hasHelpers transform = ['\n'] ++
      ((signatureLexemes transform.name).flatMap (·.text) ++ ['\n']) ++
      transformOpening hasHelpers ++ (Text.indent transform.code 6 ++ ['\n']) ++
      transformClosing := by
    simp [transformMethod, transformOpening, transformClosing, lineOf, signatureLexemes,
      indentation, plainWord, wordLexeme, oneSpace, List.replicate]
  rw [htext]
  refine .append (.append (.append (.append passage_feed ?_) ?_) (hcode.passage (by decide))) ?_
  · exact passage_line (fun rest => ⟨_, standing_signature hname rest⟩) rfl
  · exact passage_of_isPart (isPart_transformOpening hasHelpers)
  · exact passage_of_isPart isPart_transformClosing

/-- A transform closes what it opens. -/
lemma nests_transform (hasHelpers : Bool) {transform : Transform}
    (hcode : Embeddable transform.code) :
    Nests [] (transformLexemes hasHelpers transform) [] := by
  have hsignature : Nests [] ([lineFeed] ++ (signatureLexemes transform.name ++ [lineFeed]))
      [.block .method] := nests_of_run rfl
  have hopening := nests_of_isPart (isPart_transformOpening hasHelpers)
  have hclosing : Nests [.block .doBody, .block .method]
      (plainWord "end".toList :: [lineFeed, plainWord "end".toList, lineFeed]) [] :=
        nests_of_run rfl
  have hsolid : solid (lexemesOf transformClosing) =
      plainWord "end".toList :: [lineFeed, plainWord "end".toList, lineFeed] := by decide
  have hfragment := nests_fragment (framesAfter_padded hcode 6) (by decide) hclosing
  rw [transformLexemes, List.append_assoc]
  refine (hsignature.append hopening).append (hfragment.of_solid_eq ?_)
  rw [List.append_assoc, solid_append, solid_append _ (_ ++ _), solid_append [lineFeed], hsolid]
  rfl

/-! ## The whole class -/

/-- The lines before the transforms. -/
def transformsOpening : Text :=
  "  ".toList ++ separator "Begin of generated transformation methods".toList

/-- The lines from the initializer to the transforms. -/
def convertLines (delegates : Bool) : Text :=
  lineOf [convertPart delegates] ++ transformsOpening

lemma isPart_convertLines (delegates : Bool) : isPart [] (convertLines delegates) [] = true := by
  cases delegates <;> decide +kernel

/-- All lines after the transforms. -/
def classClosing : Text :=
  "  ".toList ++ separator "End of generated transformation methods".toList ++
    lineOf [supportPart] ++ lineOf ["end".toList]

lemma isPart_classClosing : isPart [.block .classBody] classClosing [] = true := by
  decide

/-- The lexemes of the source of a class. -/
def sourceLexemes (names : List Text) (converter : Converter) : List Lexeme :=
  headLexemes names ++ converter.helpers.elim [] helpersLexemes ++
    initializerLexemes converter.config ++
    lexemesOf (convertLines converter.config.delegateBackend.isSome) ++
    converter.config.transforms.flatMap (transformLexemes converter.helpers.isSome) ++
    lexemesOf classClosing

/-- What a configuration gives as names are names, and its fragments can stand
between other lines. -/
structure ConverterConfig.HasValidPieces (config : ConverterConfig) : Prop where
  className : IsClassName config.className
  transforms : ∀ transform ∈ config.transforms,
    isName transform.name = true ∧ Embeddable transform.code
  backendInfo : ∀ key ∈ config.backendInfo.keys, isName key = true ∧ key ∉ keywords
  registerFor : ∀ id ∈ config.registerFor, id.isWritable = true
  helpers : ∀ code ∈ config.helpers?, Embeddable code

lemma Converter.of_ofConfig {config : ConverterConfig} {converter : Converter}
    (h : Converter.ofConfig config = .ok converter) :
    converter.config = config ∧ converter.helpers = config.helpers? := by
  rw [Converter.ofConfig] at h
  cases hhelpers : config.helpers? with
  | none =>
      rw [hhelpers] at h
      obtain rfl := Except.ok.inj h
      exact ⟨rfl, rfl⟩
  | some code =>
      rw [hhelpers] at h
      dsimp only at h
      split_ifs at h
      obtain rfl := Except.ok.inj h
      exact ⟨rfl, rfl⟩

lemma passage_source {converter : Converter} {names : List Text} (hne : names ≠ [])
    (hnames : ∀ name ∈ names, isConstantName name = true)
    (hjoin : converter.config.className = Text.join "::".toList names)
    (htransforms : ∀ transform ∈ converter.config.transforms,
      isName transform.name = true ∧ Embeddable transform.code)
    (hkeys : ∀ entry ∈ converter.config.backendInfo.entries, isName entry.1 = true)
    (hids : ∀ id ∈ converter.config.registerFor, id.isWritable = true)
    (hhelpers : ∀ code ∈ converter.helpers, Embeddable code) :
    Passage converter.source (sourceLexemes names converter) := by
  have htext : converter.source = lineOf [headPart converter.config.className] ++
      converter.helpers.elim [] (fun code => lineOf [helpersPart code]) ++
      lineOf [initializerPart converter.config] ++
      convertLines converter.config.delegateBackend.isSome ++
      converter.config.transforms.flatMap (transformMethod converter.helpers.isSome) ++
      classClosing := by
    rw [Converter.source, transformsPart, convertLines, transformsOpening, classClosing]
    cases converter.helpers <;> simp
  rw [htext, sourceLexemes, hjoin]
  refine .append (.append (.append (.append (.append (passage_head hne hnames) ?_) ?_) ?_) ?_) ?_
  · cases hcode : converter.helpers with
    | none => exact passage_nil
    | some code => exact passage_helpers (hhelpers code hcode)
  · exact passage_initializer hids hkeys
  · exact passage_of_isPart (isPart_convertLines _)
  · refine .flatMap fun transform htransform => ?_
    obtain ⟨hname, hcode⟩ := htransforms transform htransform
    exact passage_transform converter.helpers.isSome hname hcode
  · exact passage_of_isPart isPart_classClosing

lemma nests_source {converter : Converter} {names : List Text}
    (hnames : ∀ name ∈ names, isConstantName name = true)
    (htransforms : ∀ transform ∈ converter.config.transforms, Embeddable transform.code)
    (hkeys : ∀ entry ∈ converter.config.backendInfo.entries, entry.1 ∉ keywords)
    (hhelpers : ∀ code ∈ converter.helpers, Embeddable code) :
    Nests [] (sourceLexemes names converter) [] := by
  have hhelpers' : Nests [] (converter.helpers.elim [] helpersLexemes) [] := by
    cases hcode : converter.helpers with
    | none => exact .nil []
    | some code => exact nests_helpers (hhelpers code hcode)
  have hconvert := nests_of_isPart (isPart_convertLines converter.config.delegateBackend.isSome)
  have htransforms' : Nests [] (converter.config.transforms.flatMap
      (transformLexemes converter.helpers.isSome)) [] :=
    .flatMap fun transform h => nests_transform converter.helpers.isSome (htransforms transform h)
  have hclosing := nests_of_isPart isPart_classClosing
  have hbody := ((hhelpers'.append (nests_initializer hkeys)).append hconvert).append htransforms'
  have hall := ((nests_head hnames).append (hbody.inside [.block .classBody])).append hclosing
  simpa only [sourceLexemes, List.append_assoc] using hall

/-- Valid pieces make a valid class. -/
theorem checkSyntax_source {config : ConverterConfig} {converter : Converter}
    (h : Converter.ofConfig config = .ok converter) (hpieces : config.HasValidPieces) :
    checkSyntax converter.source = .ok () := by
  obtain ⟨rfl, hhelpers⟩ := Converter.of_ofConfig h
  obtain ⟨names, hne, hnames, hjoin⟩ := hpieces.className
  have hcode : ∀ code ∈ converter.helpers, Embeddable code := by
    rw [hhelpers]
    exact hpieces.helpers
  have hkeys : ∀ entry ∈ converter.config.backendInfo.entries,
      isName entry.1 = true ∧ entry.1 ∉ keywords :=
    fun entry hentry => hpieces.backendInfo _ (List.mem_map.mpr ⟨entry, hentry, rfl⟩)
  have hpassage := passage_source hne hnames hjoin hpieces.transforms (fun e he => (hkeys e he).1)
    hpieces.registerFor hcode
  have hnests := nests_source hnames (fun t ht => (hpieces.transforms t ht).2)
    (fun e he => (hkeys e he).2) hcode
  obtain ⟨herror, hlexemes⟩ := hpassage.tokenize
  rw [checkSyntax_eq_ok_iff, hlexemes]
  refine ⟨herror, ?_⟩
  simpa [framesAfter] using hnests [] []

/-- A configuration with a helper block, two transforms, and all kinds of given texts. -/
def sampleConfig : ConverterConfig where
  className := "Slim::Html5Converter".toList
  transforms :=
    [⟨"paragraph".toList,
      "if title?\n  @out.push title; end\n\n\tputs [1, 2].map do |n|\n n\nend".toList⟩,
      ⟨"inline_anchor".toList, []⟩]
  helpersCode := some "module Helpers\n  def tag(name) = name\nend".toList
  registerFor := [.name "a \"b\"\n".toList, .symbol "html5".toList, .symbol "end".toList]
  backendInfo := ⟨[("basebackend".toList, .text "#\x7bx\x7d".toList),
    ("supports".toList, .flag false), ("templates".toList, .flag true)]⟩
  delegateBackend := some "html5".toList

theorem checkSyntax_sampleConfig : ∃ converter, Converter.ofConfig sampleConfig = .ok converter ∧
    checkSyntax converter.source = .ok () := by
  have hpieces : sampleConfig.HasValidPieces := by
    refine ⟨?_, ?_, by decide, by decide +kernel, ?_⟩
    · exact ⟨["Slim".toList, "Html5Converter".toList], by decide, by decide, by decide⟩
    · have hcheck : ∀ transform ∈ sampleConfig.transforms,
          isName transform.name = true ∧ isEmbeddable transform.code = true := by decide
      exact fun transform h => (hcheck transform h).imp_right embeddable_of_isEmbeddable
    · have hhelpers : sampleConfig.helpers? = sampleConfig.helpersCode := by decide
      rw [hhelpers]
      rintro code ⟨⟩
      exact embeddable_of_isEmbeddable (by decide)
  exact ⟨⟨sampleConfig, sampleConfig.helpersCode⟩, by decide,
    checkSyntax_source (by decide +kernel) hpieces⟩

end ConverterAssembly
