import ConverterAssembly.Proofs.Ruby.Nesting
import ConverterAssembly.Proofs.Ruby.Standing
import ConverterAssembly.Converter.Source

/-!
# The parts of a class, line by line

Each part of the source of a converter class is a sequence of whole lines.  Here every line that
holds something of the configuration is read: what is given as a name is one word, and what is given
as a text is one literal.  All other lines are fixed, and they are read by computation.
-/

namespace ConverterAssembly

open Ruby

/-! ## Names -/

/-- The name of a constant: an upper-case letter, or a character outside
ASCII, and name characters. -/
def isConstantName : Text → Bool
  | [] => false
  | c :: p => (('A' ≤ c && c ≤ 'Z') || isWide c) && p.all isNameChar

/-- The name of a class with the names of the modules around it. -/
def IsClassName (className : Text) : Prop :=
  ∃ names, names ≠ [] ∧ (∀ name ∈ names, isConstantName name = true) ∧
    className = Text.join "::".toList names

lemma isName_of_isConstantName {name : Text} (h : isConstantName name = true) :
    isName name = true := by
  cases name with
  | nil => simp [isConstantName] at h
  | cons c p =>
      simp only [isConstantName, Bool.and_eq_true, Bool.or_eq_true] at h
      rw [isName, Bool.and_eq_true]
      refine ⟨?_, h.2⟩
      rcases h.1 with hc | hc
      · simp only [isNameStart, isAsciiLetter, Bool.or_eq_true, Bool.and_eq_true]
        exact .inl (.inl (.inr hc))
      · simp [isNameStart, hc]

/-- A constant has no name of a keyword but `BEGIN` and `END`, which open and close nothing. -/
lemma ne_of_isConstantName {name : Text} (h : isConstantName name = true) {word : Text}
    (hword : isConstantName word = false) : name ≠ word := by
  rintro rfl
  rw [h] at hword
  exact absurd hword (by decide)

/-- A name begins with no blank. -/
lemma not_isGap_of_isName {name : Text} (h : isName name = true) (rest : Text) :
    (name ++ rest).head?.any isGap = false := by
  obtain ⟨c, p, rfl, hc, -⟩ := exists_of_isName h
  by_contra hgap
  simp only [List.cons_append, List.head?_cons, Option.any_some, Bool.not_eq_false, isGap,
    Bool.or_eq_true, decide_eq_true_eq, or_assoc] at hgap
  rcases hgap with rfl | rfl | rfl | rfl | rfl <;> exact absurd hc (by decide)

/-! ## The head -/

/-- The lexeme of a word where no method name is expected. -/
def plainWord (name : Text) : Lexeme :=
  wordLexeme false name

/-- A single space. -/
def oneSpace : Lexeme := ⟨.space, [' ']⟩

def scope : Lexeme := ⟨.operator, [':', ':']⟩

/-- The lexemes of the statement that makes the modules exist. -/
def prologueLexemes (namespaces : List Text) : List Lexeme :=
  namespaces.flatMap (fun name => [plainWord "module".toList, oneSpace, plainWord name,
    ⟨.semicolon, [';']⟩, oneSpace]) ++
    (namespaces.map fun _ => plainWord "end".toList).intersperse oneSpace

/-- The lexemes of the first line of the class. -/
def classLexemes (names : List Text) : List Lexeme :=
  [plainWord "class".toList, oneSpace] ++ (names.map plainWord).intersperse scope ++
    [oneSpace, ⟨.operator, ['<']⟩, oneSpace, scope, plainWord "Asciidoctor".toList, scope,
      plainWord "Converter".toList, scope, plainWord "Base".toList]

lemma text_intersperse (ls : List Lexeme) (l : Lexeme) :
    (ls.intersperse l).flatMap (·.text) = Text.join l.text (ls.map (·.text)) := by
  induction ls with
  | nil => rfl
  | cons x ls ih =>
      cases ls with
      | nil => simp [Text.join]
      | cons y ls =>
          rw [List.map_cons, Text.join_cons _ _ (by simp), ← ih]
          simp

lemma text_names (names : List Text) :
    ((names.map plainWord).intersperse scope).flatMap (·.text) = Text.join "::".toList names := by
  rw [text_intersperse, List.map_map]
  congr 1
  exact List.map_id'' (fun _ => rfl) names

lemma not_isGap_of_plainWord {name : Text} (h : isName name = true) (ls : List Lexeme)
    (rest : Text) : ((plainWord name :: ls).flatMap (·.text) ++ rest).head?.any isGap = false := by
  rw [List.flatMap_cons, List.append_assoc]
  exact not_isGap_of_isName h _

lemma stands_plainWord {name rest : Text} (h : isName name = true) (hdef : name ≠ "def".toList)
    (hrest : endsWord rest = true) : Stands false (plainWord name) rest false := by
  have := stands_word h hrest false
  rwa [decide_eq_false hdef, Bool.and_false] at this

lemma stands_oneSpace {rest : Text} (hrest : rest.head?.any isGap = false) :
    Stands false oneSpace rest false :=
  stands_space (n := 0) hrest false

/-- The names of a class and of the modules around it, one after another. -/
lemma standing_names {names : List Text} (hnames : ∀ name ∈ names, isConstantName name = true)
    {rest : Text} (hrest : endsWord rest = true) :
    Standing rest false ((names.map plainWord).intersperse scope) false := by
  induction names with
  | nil => exact .nil false
  | cons name names ih =>
      rw [List.forall_mem_cons] at hnames
      have hname := isName_of_isConstantName hnames.1
      have hdef := ne_of_isConstantName hnames.1 (by decide : isConstantName "def".toList = false)
      cases names with
      | nil => exact .cons (stands_plainWord hname hdef hrest) (.nil false)
      | cons name' names =>
          refine .cons (stands_plainWord hname hdef ?_) (.cons (stands_scope false _) (ih hnames.2))
          simp [scope, endsWord]
          decide

lemma standing_class {names : List Text} (hne : names ≠ [])
    (hnames : ∀ name ∈ names, isConstantName name = true) (rest : Text) :
    Standing ('\n' :: rest) false (classLexemes names) false := by
  rw [classLexemes, List.append_assoc]
  refine @Standing.append _ false _ _ _ _ ?_
    (@Standing.append _ false _ _ _ _ (standing_names hnames rfl) ?_)
  · refine .cons (stands_plainWord (by decide) (by decide) rfl)
      (.cons (stands_oneSpace ?_) (.nil _))
    obtain ⟨name, names, rfl⟩ := List.exists_cons_of_ne_nil hne
    have hname := isName_of_isConstantName (hnames name (by simp))
    rw [List.flatMap_append, text_names]
    by_cases hnil : names = []
    · subst hnil
      have hjoin : Text.join "::".toList [name] = name := by simp [Text.join]
      rw [hjoin, List.flatMap_nil, List.nil_append, List.append_assoc]
      exact not_isGap_of_isName hname _
    · rw [Text.join_cons _ _ hnil, List.flatMap_nil, List.nil_append]
      simp only [List.append_assoc]
      exact not_isGap_of_isName hname _
  · refine .cons (stands_oneSpace rfl) (.cons (stands_operator (by decide) ?_) ?_)
    · exact stops_cons.mpr rfl
    refine .cons (stands_oneSpace rfl) (.cons (stands_scope false _) ?_)
    refine .cons (stands_plainWord (by decide) (by decide) rfl) (.cons (stands_scope false _) ?_)
    refine .cons (stands_plainWord (by decide) (by decide) rfl) (.cons (stands_scope false _) ?_)
    exact .cons (stands_plainWord (by decide) (by decide) rfl) (.nil _)

lemma text_classLexemes (names : List Text) : (classLexemes names).flatMap (·.text) =
    "class ".toList ++ Text.join "::".toList names ++
    " < ::Asciidoctor::Converter::Base".toList := by
  rw [classLexemes, List.flatMap_append, List.flatMap_append, text_names]
  rfl

/-- The words that close the modules around the class. -/
lemma standing_ends (names : List Text) (rest : Text) : Standing ('\n' :: rest) false
    ((names.map fun _ => plainWord "end".toList).intersperse oneSpace) false := by
  induction names with
  | nil => exact .nil false
  | cons name names ih =>
      cases names with
      | nil => exact .cons (stands_plainWord (by decide) (by decide) rfl) (.nil false)
      | cons name' names =>
          refine .cons (stands_plainWord (by decide) (by decide) rfl) (.cons ?_ ih)
          refine stands_oneSpace ?_
          cases names <;> rfl

/-- The modules around the class, one after another. -/
lemma standing_prologue {namespaces : List Text}
    (hnames : ∀ name ∈ namespaces, isConstantName name = true) (rest : Text) :
    Standing ('\n' :: rest) false (prologueLexemes namespaces) false := by
  rw [prologueLexemes]
  have hends := standing_ends namespaces rest
  -- the words that close stay as they are while the modules are read
  generalize hlist : (namespaces.map fun _ => plainWord "end".toList).intersperse oneSpace = ends
    at hends ⊢
  have hhead : (ends.flatMap (·.text) ++ '\n' :: rest).head?.any isGap = false := by
    rw [← hlist]
    match namespaces with
    | [] => rfl
    | [_] => rfl
    | _ :: _ :: _ => rfl
  clear hlist
  induction namespaces with
  | nil => exact hends
  | cons name namespaces ih =>
      rw [List.forall_mem_cons] at hnames
      have hname := isName_of_isConstantName hnames.1
      have hdef := ne_of_isConstantName hnames.1 (by decide : isConstantName "def".toList = false)
      refine .cons (stands_plainWord (by decide) (by decide) rfl) (.cons (stands_oneSpace ?_) ?_)
      · exact not_isGap_of_plainWord hname _ _
      refine .cons (stands_plainWord hname hdef rfl) (.cons (stands_semicolon _) ?_)
      refine .cons (stands_oneSpace ?_) (ih hnames.2)
      cases namespaces with
      | nil => exact hhead
      | cons name' namespaces => rfl

lemma text_prologueLexemes {names : List Text}
    (hnames : ∀ name ∈ names, isConstantName name = true) (hne : names ≠ []) :
    (prologueLexemes names.dropLast).flatMap (·.text) =
      namespacePrologue (Text.join "::".toList names) := by
  have hsplit : Text.splitOn "::".toList (Text.join "::".toList names) = names :=
    Text.splitOn_join hne fun name h =>
      not_mem_of_isName (isName_of_isConstantName (hnames _ h)) (by decide)
  have hfilter : names.dropLast.filter (fun s => !s.isEmpty) = names.dropLast := by
    refine List.filter_eq_self.mpr ?_
    intro name hname
    have := hnames name (List.mem_of_mem_dropLast hname)
    cases name with
    | nil => simp [isConstantName] at this
    | cons c p => rfl
  rw [namespacePrologue, hsplit, hfilter]
  generalize names.dropLast = namespaces
  cases namespaces with
  | nil => rfl
  | cons name namespaces =>
      have hend : (List.map (fun _ => "end".toList) (name :: namespaces)) ≠ [] := by simp
      rw [if_neg (by simp), Text.join_append _ _ hend, prologueLexemes, List.flatMap_append,
        text_intersperse, List.map_map, List.flatMap_map, List.flatMap_assoc]
      congr 1
      refine List.flatMap_congr fun name _ => ?_
      simp [plainWord, wordLexeme, oneSpace]

/-- The comment at the head of the file. -/
def headComment : Text := linesOf ["# This file has been generated!", ""]

lemma isPart_headComment : isPart [] headComment [] = true := by
  decide

/-- The lexemes of the head. -/
def headLexemes (names : List Text) : List Lexeme :=
  lexemesOf headComment ++ (prologueLexemes names.dropLast ++ [lineFeed]) ++
    (classLexemes names ++ [lineFeed]) ++ [lineFeed]

lemma passage_head {names : List Text} (hne : names ≠ [])
    (hnames : ∀ name ∈ names, isConstantName name = true) :
    Passage (lineOf [headPart (Text.join "::".toList names)]) (headLexemes names) := by
  have htext : lineOf [headPart (Text.join "::".toList names)] = headComment ++
      ((prologueLexemes names.dropLast).flatMap (·.text) ++ ['\n']) ++
      ((classLexemes names).flatMap (·.text) ++ ['\n']) ++ ['\n'] := by
    rw [text_prologueLexemes hnames hne, text_classLexemes]
    simp [lineOf, headPart, headComment]
  rw [htext]
  refine .append (.append (.append (passage_of_isPart isPart_headComment) ?_) ?_) passage_feed
  · have hspaces : ∀ name ∈ names.dropLast, isConstantName name = true :=
      fun name h => hnames _ (List.mem_of_mem_dropLast h)
    refine passage_line (fun rest => ⟨_, standing_prologue hspaces rest⟩) ?_
    cases names.dropLast <;> rfl
  · exact passage_line (fun rest => ⟨_, standing_class hne hnames rest⟩) rfl

/-! ## The initializer -/

/-- Spaces at the start of a line. -/
def indentation (width : Nat) : Lexeme := ⟨.space, List.replicate width ' '⟩

lemma stands_indentation {width : Nat} (hwidth : 0 < width) {rest : Text}
    (hrest : rest.head?.any isGap = false) : Stands false (indentation width) rest false := by
  obtain ⟨n, rfl⟩ := Nat.exists_eq_succ_of_ne_zero (Nat.pos_iff_ne_zero.mp hwidth)
  exact stands_space hrest false

/-- Lexemes with a comma and a space between neighbours. -/
def separated : List Lexeme → List Lexeme
  | [] => []
  | [l] => [l]
  | l :: l' :: ls => l :: ⟨.comma, [',']⟩ :: oneSpace :: separated (l' :: ls)

lemma text_separated (ls : List Lexeme) :
    (separated ls).flatMap (·.text) = Text.join ", ".toList (ls.map (·.text)) := by
  induction ls with
  | nil => rfl
  | cons l ls ih =>
      cases ls with
      | nil => simp [separated, Text.join]
      | cons l' ls =>
          rw [List.map_cons, Text.join_cons _ _ (by simp), ← ih]
          simp [separated, oneSpace]

/-- The literal of a backend. -/
def idLexeme (id : BackendId) : Lexeme := ⟨.literal, id.literal⟩

/-- A backend whose literal is one token: a name, or a symbol that names no operator. -/
def BackendId.isWritable : BackendId → Bool
  | name _ => true
  | symbol value => !operatorMethods.contains value

lemma stands_id {id : BackendId} (h : id.isWritable = true) {rest : Text}
    (hrest : endsSymbol rest = true) : Stands false (idLexeme id) rest false := by
  cases id with
  | name value => exact stands_stringLiteral value rest false
  | symbol value =>
      have hvalue : value ∉ operatorMethods := by simpa [BackendId.isWritable] using h
      exact stands_symbolLiteral hvalue hrest false

lemma head?_separated (id : BackendId) (ids : List BackendId) (rest : Text) :
    ((separated ((id :: ids).map idLexeme)).flatMap (·.text) ++ rest).head?.any isGap = false := by
  cases ids with
  | nil => cases id <;> rfl
  | cons id' ids => cases id <;> rfl

lemma standing_ids {ids : List BackendId} (h : ∀ id ∈ ids, id.isWritable = true) (rest : Text) :
    Standing ('\n' :: rest) false (separated (ids.map idLexeme)) false := by
  induction ids with
  | nil => exact .nil false
  | cons id ids ih =>
      rw [List.forall_mem_cons] at h
      cases ids with
      | nil => exact .cons (stands_id h.1 rfl) (.nil false)
      | cons id' ids =>
          refine .cons (stands_id h.1 rfl) (.cons (stands_bracket rfl _) (.cons ?_ (ih h.2)))
          exact stands_oneSpace (head?_separated id' ids _)

/-- The lexemes of the registration. -/
def registrationLexemes (ids : List BackendId) : List Lexeme :=
  [indentation 2, plainWord "register_for".toList, oneSpace] ++ separated (ids.map idLexeme)

lemma standing_registration {ids : List BackendId} (hne : ids ≠ [])
    (h : ∀ id ∈ ids, id.isWritable = true) (rest : Text) :
    Standing ('\n' :: rest) false (registrationLexemes ids) false := by
  refine @Standing.append _ false _ _ _ _ ?_ (standing_ids h rest)
  refine .cons (stands_indentation (by decide) rfl) (.cons ?_ (.cons (stands_oneSpace ?_) (.nil _)))
  · exact stands_plainWord (by decide) (by decide) rfl
  · obtain ⟨id, ids, rfl⟩ := List.exists_cons_of_ne_nil hne
    exact head?_separated id ids _

/-! ### Traits -/

/-- The lexeme of the argument of a trait, which is a name after `def`. -/
def valueLexeme (naming : Bool) : BackendValue → Lexeme
  | .flag value => wordLexeme naming (if value then "true" else "false").toList
  | .text value => ⟨.literal, stringLiteral value⟩

/-- The lexemes of the statement that declares a trait. -/
def traitLexemes (entry : Text × BackendValue) : List Lexeme :=
  [indentation 4, plainWord entry.1] ++
    match entry.2 with
    | .flag true => []
    | value => [oneSpace, valueLexeme (entry.1 = "def".toList) value]

lemma text_traitLexemes (entry : Text × BackendValue) :
    (traitLexemes entry).flatMap (·.text) = "  ".toList ++ traitStatement entry := by
  rcases entry with ⟨key, (_ | _) | value⟩ <;>
    simp [traitLexemes, traitStatement, indentation, plainWord, wordLexeme, oneSpace, valueLexeme,
      BackendValue.literal, List.replicate]

lemma standing_trait {entry : Text × BackendValue} (h : isName entry.1 = true) (rest : Text) :
    ∃ naming', Standing ('\n' :: rest) false (traitLexemes entry) naming' := by
  obtain ⟨key, value⟩ := entry
  have hkey : ∀ ls naming', endsWord (List.flatMap (·.text) ls ++ '\n' :: rest) = true →
      Standing ('\n' :: rest) (decide (key = "def".toList)) ls naming' →
      Standing ('\n' :: rest) false ([indentation 4, plainWord key] ++ ls) naming' := by
    intro ls naming' hls hstanding
    refine .cons (stands_indentation (by decide) (not_isGap_of_plainWord h ls _))
      (.cons ?_ hstanding)
    exact stands_word h hls false
  cases value with
  | flag value =>
      cases value with
      | true => exact ⟨_, hkey [] _ rfl (.nil _)⟩
      | false =>
          have hvalue := stands_word (by decide : isName "false".toList = true)
            (by rfl : endsWord ('\n' :: rest) = true) (key = "def".toList)
          exact ⟨_, hkey _ _ rfl (.cons (stands_space (n := 0) rfl _) (.cons hvalue (.nil _)))⟩
  | text value =>
      have hvalue := stands_stringLiteral value ('\n' :: rest) (key = "def".toList)
      exact ⟨_, hkey _ _ rfl (.cons (stands_space (n := 0) rfl _) (.cons hvalue (.nil _)))⟩

/-! ### Delegation -/

/-- The lexemes of the statement that names the other backend. -/
def delegateLexemes (backend : Text) : List Lexeme :=
  [indentation 4, plainWord "delegate_backend".toList, oneSpace, ⟨.operator, ['=']⟩, oneSpace,
    ⟨.opener .paren, ['(']⟩, plainWord "opts".toList, ⟨.opener .square, ['[']⟩,
    ⟨.literal, ":delegate_backend".toList⟩, ⟨.closer .square, [']']⟩, oneSpace,
    ⟨.operator, ['|', '|']⟩, oneSpace, ⟨.literal, stringLiteral backend⟩, ⟨.closer .paren, [')']⟩,
    ⟨.operator, ['.']⟩, wordLexeme true "to_s".toList]

lemma standing_delegate (backend rest : Text) :
    Standing ('\n' :: rest) false (delegateLexemes backend) false := by
  refine .cons (stands_indentation (by decide) rfl)
    (.cons (stands_plainWord (by decide) (by decide) rfl) ?_)
  refine .cons (stands_oneSpace rfl) (.cons (stands_operator (by decide) (stops_cons.mpr rfl)) ?_)
  refine .cons (stands_oneSpace rfl) (.cons (stands_bracket rfl _) ?_)
  refine .cons (stands_plainWord (by decide) (by decide) rfl) (.cons (stands_bracket rfl _) ?_)
  refine .cons (@stands_symbol "delegate_backend".toList _ _ (by decide) (.inl rfl) rfl false) ?_
  refine .cons (stands_bracket rfl _) (.cons (stands_oneSpace rfl) ?_)
  refine .cons (stands_operator (by decide) (stops_cons.mpr rfl)) (.cons (stands_oneSpace rfl) ?_)
  refine .cons (stands_stringLiteral backend _ false) (.cons (stands_bracket rfl _) ?_)
  exact .cons (stands_dot (by simp [wordLexeme]))
    (.cons (stands_word (by decide) rfl true) (.nil _))

/-! ### The whole initializer -/

/-- The fixed lines after the statement that names the other backend. -/
def delegateRest : Text :=
  linesOf
    ["    factory = ::Asciidoctor::Converter::Factory", "",
     "    converter = factory.create(delegate_backend, backend_info)",
     "    @delegate_converter = if converter == self",
     "      factory.new.create(delegate_backend, backend_info)",
     "    else",
     "      converter",
     "    end"]

lemma isPart_delegateRest : isPart [] delegateRest [] = true := by
  decide +kernel

lemma feed_not_mem_ids {ids : List BackendId} :
    '\n' ∉ Text.join ", ".toList (ids.map BackendId.literal) := by
  refine Text.not_mem_join (by decide) ?_
  intro literal hliteral
  obtain ⟨value | value, -, rfl⟩ := List.mem_map.mp hliteral
  · exact feed_not_mem_stringLiteral value
  · exact feed_not_mem_symbolLiteral value

lemma text_registrationLexemes (ids : List BackendId) : (registrationLexemes ids).flatMap (·.text) =
    "  register_for ".toList ++ Text.join ", ".toList (ids.map BackendId.literal) := by
  rw [registrationLexemes, List.flatMap_append, text_separated, List.map_map]
  rfl

lemma feed_not_mem_trait {entry : Text × BackendValue} (h : isName entry.1 = true) :
    '\n' ∉ traitStatement entry := by
  have hkey : '\n' ∉ entry.1 := not_mem_of_isName h (by decide)
  rcases entry with ⟨key, (_ | _) | value⟩
  all_goals simp_all [traitStatement, BackendValue.literal, feed_not_mem_stringLiteral]

/-- A registration with the blank line after it. -/
lemma passage_registration {ids : List BackendId} (hne : ids ≠ [])
    (h : ∀ id ∈ ids, id.isWritable = true) :
    Passage (Text.indent (lineOf ["register_for ".toList,
        Text.join ", ".toList (ids.map BackendId.literal)] ++ ['\n']) 2)
      (registrationLexemes ids ++ [lineFeed] ++ [lineFeed]) := by
  set joined := Text.join ", ".toList (ids.map BackendId.literal) with hjoined
  have hindent : Text.indent (lineOf ["register_for ".toList, joined] ++ ['\n']) 2 =
      ((registrationLexemes ids).flatMap (·.text) ++ ['\n']) ++ ['\n'] := by
    have hfeed : '\n' ∉ "register_for ".toList ++ joined := by
      rw [List.mem_append, not_or]
      exact ⟨by decide, feed_not_mem_ids⟩
    have hline := Text.indent_line hfeed (by simp) 2
    have hparts : lineOf ["register_for ".toList, joined] ++ ['\n'] =
        ("register_for ".toList ++ joined) ++ '\n' :: ['\n'] := by simp [lineOf]
    rw [hparts, Text.indent_append_feed, hline, text_registrationLexemes]
    rfl
  rw [hindent]
  exact (passage_line (fun rest => ⟨_, standing_registration hne h rest⟩) rfl).append passage_feed

/-- The statements that declare the traits. -/
lemma passage_traits {entries : List (Text × BackendValue)} (hne : entries ≠ [])
    (h : ∀ entry ∈ entries, isName entry.1 = true) :
    Passage (Text.indent (Text.join ['\n'] (entries.map traitStatement) ++ ['\n']) 2)
      (entries.flatMap fun entry => traitLexemes entry ++ [lineFeed]) := by
  have hentry : ∀ entry ∈ entries, Text.indent (traitStatement entry ++ ['\n']) 2 =
      (traitLexemes entry).flatMap (·.text) ++ ['\n'] := by
    intro entry hentry
    have hne : traitStatement entry ≠ [] := by
      rcases entry with ⟨key, (_ | _) | value⟩ <;> simp [traitStatement]
    rw [Text.indent_line (feed_not_mem_trait (h entry hentry)) hne, text_traitLexemes]
    rfl
  rw [Text.join_append_separator ['\n'] (by simpa using hne), Text.indent_flatMap, List.flatMap_map,
    List.flatMap_congr hentry]
  refine .flatMap fun entry hentry => passage_line (standing_trait (h entry hentry)) ?_
  rfl

/-- The statements that find the other converter. -/
lemma passage_delegate (backend : Text) :
    Passage (Text.indent (delegateStatements backend ++ ['\n']) 2)
      ([lineFeed] ++ (delegateLexemes backend ++ [lineFeed]) ++ lexemesOf delegateRest) := by
  have hindent : Text.indent (delegateStatements backend ++ ['\n']) 2 =
      ['\n'] ++ ((delegateLexemes backend).flatMap (·.text) ++ ['\n']) ++ delegateRest := by
    let finder := linesOf
      ["  factory = ::Asciidoctor::Converter::Factory", "",
       "  converter = factory.create(delegate_backend, backend_info)",
       "  @delegate_converter = if converter == self",
       "    factory.new.create(delegate_backend, backend_info)",
       "  else",
       "    converter"]
    set statement := "  delegate_backend = (opts[:delegate_backend] || ".toList ++
      stringLiteral backend ++ ").to_s".toList with hstatement
    have hparts : delegateStatements backend ++ ['\n'] =
        [] ++ '\n' :: (statement ++ '\n' :: (finder ++ "  end".toList ++ ['\n'])) := by
      simp only [delegateStatements, lineOf, hstatement, List.flatten_nil, List.flatten_cons,
        List.append_nil, List.nil_append, List.append_assoc, List.cons_append, finder]
    have hfeed : '\n' ∉ statement := by
      simp only [hstatement, List.mem_append, not_or]
      exact ⟨⟨by decide, feed_not_mem_stringLiteral backend⟩, by decide⟩
    have htext : (delegateLexemes backend).flatMap (·.text) = "  ".toList ++ statement := by
      simp [delegateLexemes, hstatement, indentation, plainWord, wordLexeme, oneSpace,
        List.replicate]
    have hrest : Text.indent (finder ++ "  end".toList ++ ['\n']) 2 = delegateRest := by
      decide +kernel
    rw [hparts, Text.indent_append_feed [], Text.indent_append_feed statement, hrest,
      Text.indent_line hfeed (by simp [hstatement]), htext]
    rfl
  rw [hindent]
  refine (passage_feed.append (passage_line
    (fun rest => ⟨_, standing_delegate backend rest⟩) rfl)).append ?_
  exact passage_of_isPart isPart_delegateRest

/-- The first two lines of the constructor. -/
def constructorHead : Text := linesOf ["  def initialize(backend, opts = \x7b\x7d)", "    super"]

lemma isPart_constructorHead : isPart [] constructorHead [.block .method] = true := by
  decide

/-- The last line of the constructor. -/
def constructorEnd : Text := linesOf ["  end"]

lemma isPart_constructorEnd : isPart [.block .method] constructorEnd [] = true := by
  decide

/-- The lexemes of the initializer, with the blank line after it. -/
def initializerLexemes (config : ConverterConfig) : List Lexeme :=
  (if config.registerFor.isEmpty then []
    else registrationLexemes config.registerFor ++ [lineFeed] ++ [lineFeed]) ++
    lexemesOf constructorHead ++
    (config.backendInfo.entries.flatMap fun entry => traitLexemes entry ++ [lineFeed]) ++
    (config.delegateBackend.elim [] fun backend =>
      [lineFeed] ++ (delegateLexemes backend ++ [lineFeed]) ++ lexemesOf delegateRest) ++
    lexemesOf constructorEnd ++ [lineFeed]

lemma passage_initializer {config : ConverterConfig}
    (hids : ∀ id ∈ config.registerFor, id.isWritable = true)
    (hkeys : ∀ entry ∈ config.backendInfo.entries, isName entry.1 = true) :
    Passage (lineOf [initializerPart config]) (initializerLexemes config) := by
  have htext : lineOf [initializerPart config] =
      ((registration? config.registerFor).toList.flatMap fun part =>
        Text.indent (part ++ ['\n']) 2) ++
      constructorHead ++
      ((traits? config.backendInfo).toList.flatMap fun part => Text.indent (part ++ ['\n']) 2) ++
      ((config.delegateBackend.map delegateStatements).toList.flatMap
        fun part => Text.indent (part ++ ['\n']) 2) ++
      constructorEnd ++ ['\n'] := by
    have hjoin : ∀ parts : List Text,
        Text.join ['\n'] (parts ++ ["end".toList, []]) =
          (parts ++ ["end".toList]).flatMap (· ++ ['\n']) := by
      intro parts
      rw [Text.join_append _ _ (by simp), List.flatMap_append]
      rfl
    have hhead : Text.indent ("def initialize(backend, opts = \x7b\x7d)".toList ++ ['\n']) 2 ++
        Text.indent ("  super".toList ++ ['\n']) 2 = constructorHead := by decide
    have hend : Text.indent ("end".toList ++ ['\n']) 2 = constructorEnd := by decide
    rw [initializerPart, hjoin, Text.indent_flatMap]
    simp only [lineOf, List.flatten_cons, List.flatten_nil, List.append_nil, List.flatMap_append,
      List.flatMap_cons, List.flatMap_nil, hhead, hend]
  rw [htext, initializerLexemes]
  refine .append (.append (.append (.append (.append ?_ ?_) ?_) ?_) ?_) passage_feed
  · by_cases hempty : config.registerFor = []
    · rw [registration?, hempty]
      exact passage_nil
    · have hfalse : config.registerFor.isEmpty = false := by simpa using hempty
      rw [registration?, hfalse]
      simpa using passage_registration hempty hids
  · exact passage_of_isPart isPart_constructorHead
  · by_cases hempty : config.backendInfo.entries = []
    · rw [traits?, BackendInfo.isEmpty, hempty]
      exact passage_nil
    · have hfalse : config.backendInfo.entries.isEmpty = false := by simpa using hempty
      rw [traits?, BackendInfo.isEmpty, hfalse]
      simpa using passage_traits hempty hkeys
  · cases config.delegateBackend with
    | none => exact passage_nil
    | some backend => simpa using passage_delegate backend
  · exact passage_of_isPart isPart_constructorEnd

end ConverterAssembly
