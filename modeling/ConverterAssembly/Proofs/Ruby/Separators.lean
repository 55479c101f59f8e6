import ConverterAssembly.Proofs.Ruby.Balance

/-!
# Separators between statements

A line feed and a semicolon both end a statement, and one of them does as much as several.
`statements` is a list of lexemes with this freedom taken out: no blanks, one line feed between two
statements, and none at either end.  The bodies of heredocs belong to a line feed, so that one
stays.

**Definitions.**  Only `def` looks ahead, for the name and the arguments of its method.
`namesMethods` says that no separator comes between a `def` and the name, and then what it finds is
the same in `statements` (`isEndless_statementsFrom`).

**Roles.**  All other roles follow from the tokens before.  So lexemes with the same `statements`
have the same roles (`acting_eq`), and the nesting check comes to the same verdict
(`runRoles_roles_eq`).
-/

namespace ConverterAssembly.Ruby

/-- Whether a lexeme ends a statement. -/
def Lexeme.isBreak (l : Lexeme) : Bool :=
  l.kind = .newline || l.kind = .semicolon

/-- Whether a lexeme ends a statement and holds nothing else. -/
def Lexeme.isSeparator (l : Lexeme) : Bool :=
  l.kind = .semicolon || l = lineFeed

/-- Where a reader stands between statements. -/
inductive Pause where
  /-- Before a statement, with nothing to be written in between. -/
  | fresh
  /-- In a statement. -/
  | within
  /-- Behind the separator after a statement. -/
  | due
deriving DecidableEq

/-- The lexemes without blanks, and with one line feed for the separators between two statements. -/
def statementsFrom : Pause → List Lexeme → List Lexeme
  | _, [] => []
  | pause, l :: ls =>
    if l.kind = .space then statementsFrom pause ls
    else if l.isSeparator then statementsFrom (if pause = .within then .due else pause) ls
    else if l.kind = .newline then l :: statementsFrom .fresh ls
    else (if pause = .due then [lineFeed] else []) ++ l :: statementsFrom .within ls

/-- The statements of a source: its lexemes but for blanks and for the number and the spelling of
the separators between two statements. -/
def statements (ls : List Lexeme) : List Lexeme :=
  statementsFrom .fresh ls

/-! ## Equations -/

section

variable {l : Lexeme} {ls : List Lexeme} (pause : Pause)

lemma statementsFrom_cons_of_space (h : l.kind = .space) :
    statementsFrom pause (l :: ls) = statementsFrom pause ls := by
  rw [statementsFrom, if_pos h]

lemma Lexeme.kind_of_isSeparator (h : l.isSeparator = true) :
    l.kind = .newline ∨ l.kind = .semicolon := by
  simp only [isSeparator, Bool.or_eq_true, decide_eq_true_eq] at h
  rcases h with h | rfl
  · exact .inr h
  · exact .inl rfl

lemma statementsFrom_cons_of_isSeparator (h : l.isSeparator = true) :
    statementsFrom pause (l :: ls) =
      statementsFrom (if pause = .within then .due else pause) ls := by
  have hspace : ¬ l.kind = .space := by
    rcases l.kind_of_isSeparator h with hkind | hkind <;> simp [hkind]
  rw [statementsFrom, if_neg hspace, if_pos h]

/-- A line feed with heredoc bodies stays. -/
lemma statementsFrom_cons_of_newline (h : l.kind = .newline) (hbodies : l ≠ lineFeed) :
    statementsFrom pause (l :: ls) = l :: statementsFrom .fresh ls := by
  rw [statementsFrom, if_neg (by simp [h]), if_neg (by simp [Lexeme.isSeparator, h, hbodies]),
    if_pos h]

/-- What acts is neither a blank nor the end of a statement. -/
def Lexeme.acts (l : Lexeme) : Bool :=
  l.kind ≠ .space && !l.isBreak

lemma Lexeme.acts_iff :
    l.acts = true ↔ l.kind ≠ .space ∧ l.kind ≠ .newline ∧ l.kind ≠ .semicolon := by
  simp [acts, isBreak]

lemma statementsFrom_cons_of_acts (h : l.acts = true) :
    statementsFrom pause (l :: ls) =
      (if pause = .due then [lineFeed] else []) ++ l :: statementsFrom .within ls := by
  obtain ⟨hspace, hnewline, hsemicolon⟩ := Lexeme.acts_iff.1 h
  have hseparator : l.isSeparator = false := by
    simp only [Lexeme.isSeparator, Bool.or_eq_false_iff, decide_eq_false_iff_not]
    exact ⟨hsemicolon, fun hl => hnewline (hl ▸ rfl)⟩
  rw [statementsFrom, if_neg hspace, if_neg (by simp [hseparator]), if_neg hnewline]

/-- The four ways in which the statements of a list depend on its first lexeme. -/
lemma Lexeme.forms (l : Lexeme) :
    l.kind = .space ∨ l.isSeparator = true ∨ (l.kind = .newline ∧ l ≠ lineFeed) ∨
      l.acts = true := by
  by_cases hspace : l.kind = .space
  · exact .inl hspace
  by_cases hseparator : l.isSeparator = true
  · exact .inr (.inl hseparator)
  obtain ⟨hsemicolon, hfeed⟩ : l.kind ≠ .semicolon ∧ l ≠ lineFeed := by
    simpa [isSeparator] using hseparator
  by_cases hnewline : l.kind = .newline
  · exact .inr (.inr (.inl ⟨hnewline, hfeed⟩))
  · exact .inr (.inr (.inr (acts_iff.2 ⟨hspace, hnewline, hsemicolon⟩)))

/-- Behind a separator a break comes first. -/
lemma statementsFrom_due (ls : List Lexeme) :
    statementsFrom .due ls = [] ∨
      ∃ n tail, statementsFrom .due ls = n :: tail ∧ n.kind = .newline := by
  induction ls with
  | nil => exact .inl rfl
  | cons l ls ih =>
      rcases l.forms with hspace | hseparator | ⟨hnewline, hbodies⟩ | hacts
      · rwa [statementsFrom_cons_of_space _ hspace]
      · rwa [statementsFrom_cons_of_isSeparator _ hseparator]
      · rw [statementsFrom_cons_of_newline _ hnewline hbodies]
        exact .inr ⟨l, _, rfl, hnewline⟩
      · rw [statementsFrom_cons_of_acts _ hacts]
        exact .inr ⟨lineFeed, _, rfl, rfl⟩

/-- A separator at the end separates nothing. -/
lemma statementsFrom_append_feed (ls : List Lexeme) :
    statementsFrom pause (ls ++ [lineFeed]) = statementsFrom pause ls := by
  induction ls generalizing pause with
  | nil => exact statementsFrom_cons_of_isSeparator pause rfl
  | cons l ls ih =>
      rw [List.cons_append, statementsFrom, statementsFrom, ih, ih, ih, ih]

lemma statements_append_feed (ls : List Lexeme) : statements (ls ++ [lineFeed]) = statements ls :=
  statementsFrom_append_feed .fresh ls

end

/-! ## Definitions -/

/-- Whether the name of a method comes before the end of the statement; `named` tells that a name
has just been read. -/
def namesMethod (named : Bool) : List Lexeme → Bool
  | [] => named
  | l :: ls =>
    if l.kind = .space then namesMethod named ls
    else if !named then !l.isBreak && namesMethod true ls
    else if l.isOperator ['.'] then namesMethod false ls
    else true

/-- Whether every `def` stands before the name of its method. -/
def namesMethods : List Lexeme → Bool
  | [] => true
  | l :: ls => (!l.isKeyword "def".toList || namesMethod false ls) && namesMethods ls

/-- Whether a definition goes on with a value: `named` tells that a name has just been read. -/
def isEndlessFrom (named : Bool) (following : List Lexeme) : Bool :=
  match afterMethodName named following with
  | none => false
  | some rest =>
    (if rest.head?.any (·.kind = .opener .paren) then afterBrackets 0 rest else some rest).any
      beginsValue

section

variable {l : Lexeme} {ls : List Lexeme}

lemma not_isOperator_of_isBreak (h : l.kind = .newline ∨ l.kind = .semicolon) (spelling : Text) :
    l.isOperator spelling = false := by
  rcases h with h | h <;> simp [Lexeme.isOperator, h]

lemma namesMethod_cons_of_isBreak (h : l.kind = .newline ∨ l.kind = .semicolon) (named : Bool) :
    namesMethod named (l :: ls) = named := by
  have hspace : l.kind ≠ .space := by rcases h with h | h <;> simp [h]
  have hbreak : l.isBreak = true := by simpa [Lexeme.isBreak] using h
  rw [namesMethod, if_neg hspace, not_isOperator_of_isBreak h, hbreak]
  cases named <;> rfl

lemma isEndlessFrom_cons_of_isBreak (h : l.kind = .newline ∨ l.kind = .semicolon) :
    isEndlessFrom true (l :: ls) = false := by
  have hspace : l.kind ≠ .space := by rcases h with h | h <;> simp [h]
  have hparen : l.kind ≠ .opener .paren := by rcases h with h | h <;> simp [h]
  rw [isEndlessFrom, afterMethodName, if_neg hspace, not_isOperator_of_isBreak h]
  simp [hparen, beginsValue_cons_of_ne hspace, not_isOperator_of_isBreak h]

lemma namesMethod_due (named : Bool) (ls : List Lexeme) :
    namesMethod named (statementsFrom .due ls) = named := by
  rcases statementsFrom_due ls with h | ⟨n, tail, h, hn⟩
  · rw [h]
    rfl
  · rw [h, namesMethod_cons_of_isBreak (.inl hn)]

lemma isEndlessFrom_due (ls : List Lexeme) :
    isEndlessFrom true (statementsFrom .due ls) = false := by
  rcases statementsFrom_due ls with h | ⟨n, tail, h, hn⟩
  · rw [h]
    rfl
  · rw [h, isEndlessFrom_cons_of_isBreak (.inl hn)]

/-- The name of a method is found in the statements as well. -/
lemma namesMethod_statementsFrom (named : Bool) (ls : List Lexeme) :
    namesMethod named (statementsFrom .within ls) = namesMethod named ls := by
  induction ls generalizing named with
  | nil => rfl
  | cons l ls ih =>
      rcases l.forms with hspace | hseparator | ⟨hnewline, hbodies⟩ | hacts
      · rw [statementsFrom_cons_of_space _ hspace, ih, namesMethod, if_pos hspace]
      · rw [statementsFrom_cons_of_isSeparator _ hseparator, if_pos rfl, namesMethod_due,
          namesMethod_cons_of_isBreak (l.kind_of_isSeparator hseparator)]
      · rw [statementsFrom_cons_of_newline _ hnewline hbodies,
          namesMethod_cons_of_isBreak (.inl hnewline), namesMethod_cons_of_isBreak (.inl hnewline)]
      · rw [statementsFrom_cons_of_acts _ hacts, if_neg (by decide), List.nil_append, namesMethod,
          namesMethod]
        simp only [ih]

lemma namesMethods_statementsFrom (pause : Pause) (ls : List Lexeme) :
    namesMethods (statementsFrom pause ls) = namesMethods ls := by
  induction ls generalizing pause with
  | nil => rfl
  | cons l ls ih =>
      have hskip : l.kind ≠ .keyword → namesMethods (l :: ls) = namesMethods ls := by
        intro hkind
        simp [namesMethods, Lexeme.isKeyword, hkind]
      rcases l.forms with hspace | hseparator | ⟨hnewline, hbodies⟩ | hacts
      · rw [statementsFrom_cons_of_space _ hspace, ih, hskip (by simp [hspace])]
      · rw [statementsFrom_cons_of_isSeparator _ hseparator, ih, hskip]
        rcases l.kind_of_isSeparator hseparator with h | h <;> simp [h]
      · rw [statementsFrom_cons_of_newline _ hnewline hbodies, hskip (by simp [hnewline]),
          namesMethods, ih]
        simp [Lexeme.isKeyword, hnewline]
      · rw [statementsFrom_cons_of_acts _ hacts]
        split_ifs
        · rw [List.singleton_append, namesMethods, namesMethods, namesMethods, ih,
            namesMethod_statementsFrom]
          rfl
        · rw [List.nil_append, namesMethods, namesMethods, ih, namesMethod_statementsFrom]

lemma beginsValue_statementsFrom (ls : List Lexeme) :
    beginsValue (statementsFrom .within ls) = beginsValue ls := by
  have hbreak : ∀ {l : Lexeme} (tail : List Lexeme), l.kind = .newline ∨ l.kind = .semicolon →
      beginsValue (l :: tail) = false := by
    intro l tail h
    have hspace : l.kind ≠ .space := by rcases h with h | h <;> simp [h]
    rw [beginsValue_cons_of_ne hspace, not_isOperator_of_isBreak h]
  induction ls with
  | nil => rfl
  | cons l ls ih =>
      rcases l.forms with hspace | hseparator | ⟨hnewline, hbodies⟩ | hacts
      · rw [statementsFrom_cons_of_space _ hspace, ih, beginsValue_cons_of_space hspace]
      · rw [statementsFrom_cons_of_isSeparator _ hseparator, if_pos rfl,
          hbreak ls (l.kind_of_isSeparator hseparator)]
        rcases statementsFrom_due ls with h | ⟨n, tail, h, hn⟩
        · rw [h]
          rfl
        · rw [h, hbreak tail (.inl hn)]
      · rw [statementsFrom_cons_of_newline _ hnewline hbodies, hbreak _ (.inl hnewline),
          hbreak _ (.inl hnewline)]
      · have hspace : l.kind ≠ .space := (Lexeme.acts_iff.1 hacts).1
        rw [statementsFrom_cons_of_acts _ hacts, if_neg (by decide), List.nil_append,
          beginsValue_cons_of_ne hspace, beginsValue_cons_of_ne hspace]

/-- Separators in brackets do not matter to what follows the brackets. -/
lemma any_afterBrackets_statementsFrom (pause : Pause) (depth : Nat) (ls : List Lexeme) :
    (afterBrackets depth (statementsFrom pause ls)).any beginsValue =
      (afterBrackets depth ls).any beginsValue := by
  have hskip : ∀ {l : Lexeme} (depth : Nat) (tail : List Lexeme),
      l.kind = .space ∨ l.kind = .newline ∨ l.kind = .semicolon →
      afterBrackets depth (l :: tail) = afterBrackets depth tail := by
    rintro l depth tail (h | h | h) <;> rw [afterBrackets, h]
  induction ls generalizing pause depth with
  | nil => rfl
  | cons l ls ih =>
      rcases l.forms with hspace | hseparator | ⟨hnewline, hbodies⟩ | hacts
      · rw [statementsFrom_cons_of_space _ hspace, ih, hskip _ _ (.inl hspace)]
      · rw [statementsFrom_cons_of_isSeparator _ hseparator, ih,
          hskip _ _ (.inr (l.kind_of_isSeparator hseparator))]
      · rw [statementsFrom_cons_of_newline _ hnewline hbodies, hskip _ _ (.inr (.inl hnewline)), ih,
          hskip _ _ (.inr (.inl hnewline))]
      · have hfeed : ∀ tail, afterBrackets depth
            ((if pause = .due then [lineFeed] else []) ++ tail) =
            afterBrackets depth tail := by
          intro tail
          split_ifs
          · exact hskip depth tail (.inr (.inl rfl))
          · rfl
        rw [statementsFrom_cons_of_acts _ hacts, hfeed, afterBrackets, afterBrackets]
        cases l.kind with
        | closer bracket =>
            dsimp only
            split_ifs
            · exact beginsValue_statementsFrom ls
            · exact ih _ _
        | _ => exact ih _ _

lemma isEndlessFrom_statementsFrom {named : Bool} {ls : List Lexeme}
    (h : namesMethod named ls = true) :
    isEndlessFrom named (statementsFrom .within ls) = isEndlessFrom named ls := by
  induction ls generalizing named with
  | nil => rfl
  | cons l ls ih =>
      rcases l.forms with hspace | hseparator | ⟨hnewline, hbodies⟩ | hacts
      · rw [namesMethod, if_pos hspace] at h
        rw [statementsFrom_cons_of_space _ hspace, ih h, isEndlessFrom, isEndlessFrom,
          afterMethodName, if_pos hspace]
      · have hkind := l.kind_of_isSeparator hseparator
        rw [namesMethod_cons_of_isBreak hkind] at h
        rw [statementsFrom_cons_of_isSeparator _ hseparator, if_pos rfl, h, isEndlessFrom_due,
          isEndlessFrom_cons_of_isBreak hkind]
      · rw [namesMethod_cons_of_isBreak (.inl hnewline)] at h
        rw [statementsFrom_cons_of_newline _ hnewline hbodies, h,
          isEndlessFrom_cons_of_isBreak (.inl hnewline),
          isEndlessFrom_cons_of_isBreak (.inl hnewline)]
      · have hspace : l.kind ≠ .space := (Lexeme.acts_iff.1 hacts).1
        rw [namesMethod, if_neg hspace] at h
        rw [statementsFrom_cons_of_acts _ hacts, if_neg (by decide), List.nil_append, isEndlessFrom,
          isEndlessFrom, afterMethodName, afterMethodName, if_neg hspace]
        split_ifs at h ⊢ with hnamed hdot
        · exact ih (by simpa using (Bool.and_eq_true _ _ ▸ h).2)
        · exact ih h
        · -- the name is complete, and the value comes at once or behind the arguments
          by_cases hparen : l.kind = .opener .paren
          · have hvalue := any_afterBrackets_statementsFrom .within 0 (l :: ls)
            rw [statementsFrom_cons_of_acts _ hacts, if_neg (by decide), List.nil_append] at hvalue
            simpa [hparen] using hvalue
          · simp [hparen, beginsValue_cons_of_ne hspace]

/-- A definition has a value in the statements if it has one in the source. -/
theorem isEndless_statementsFrom (h : namesMethod false ls = true) :
    isEndless (statementsFrom .within ls) = isEndless ls :=
  isEndlessFrom_statementsFrom h

end

/-! ## Roles -/

/-- The lexemes with their roles, after the token `prev`. -/
def parts (prev : Option Lexeme) (inHeader : Bool) (ls : List Lexeme) : List (Lexeme × Role) :=
  ls.zip (rolesFrom prev inHeader ls)

lemma parts_cons (prev : Option Lexeme) (inHeader : Bool) (l : Lexeme) (ls : List Lexeme) :
    parts prev inHeader (l :: ls) = (l, roleOf prev inHeader l ls) ::
      parts (if l.isTrivia then prev else some l) (headerAfter prev inHeader l) ls := rfl

lemma map_fst_parts (prev : Option Lexeme) (inHeader : Bool) (ls : List Lexeme) :
    (parts prev inHeader ls).map (·.1) = ls :=
  List.map_fst_zip (by simp)

lemma map_snd_parts (prev : Option Lexeme) (inHeader : Bool) (ls : List Lexeme) :
    (parts prev inHeader ls).map (·.2) = rolesFrom prev inHeader ls :=
  List.map_snd_zip (by simp)

/-- The lexemes with their roles, without blanks and breaks. -/
def acting (ps : List (Lexeme × Role)) : List (Lexeme × Role) :=
  ps.filter (·.1.acts)

/-- Blanks and breaks have no role. -/
def Inert (ps : List (Lexeme × Role)) : Prop :=
  ∀ p ∈ ps, p.1.acts = false → p.2 = .neutral

lemma roleOf_of_not_acts {l : Lexeme} (h : l.acts = false) (prev : Option Lexeme) (inHeader : Bool)
    (ls : List Lexeme) : roleOf prev inHeader l ls = .neutral := by
  simp only [Lexeme.acts, Lexeme.isBreak, Bool.and_eq_false_iff, Bool.not_eq_false',
    Bool.or_eq_true, decide_eq_false_iff_not, ne_eq, Decidable.not_not, decide_eq_true_eq] at h
  rcases h with h | h | h <;> simp [roleOf, h]

lemma inert_parts (prev : Option Lexeme) (inHeader : Bool) (ls : List Lexeme) :
    Inert (parts prev inHeader ls) := by
  induction ls generalizing prev inHeader with
  | nil => intro p hp; cases hp
  | cons l ls ih =>
      rw [parts_cons]
      exact List.forall_mem_cons.2 ⟨fun h => roleOf_of_not_acts h .., ih _ _⟩

/-- A separator before a statement is as good as none. -/
lemma parts_of_beginsStatement {prev : Option Lexeme} (h : beginsStatement prev = true)
    (inHeader : Bool) (ls : List Lexeme) : parts prev inHeader ls = parts none inHeader ls := by
  induction ls generalizing inHeader with
  | nil => rfl
  | cons l ls ih =>
      rw [parts_cons, parts_cons, roleOf_of_beginsStatement h, headerAfter_of_beginsStatement h]
      split_ifs
      · rw [ih]
      · rfl

/-- After a break a statement begins, and no loop header is open. -/
lemma parts_cons_of_isBreak {l : Lexeme} (h : l.kind = .newline ∨ l.kind = .semicolon)
    (prev : Option Lexeme) (inHeader : Bool) (ls : List Lexeme) :
    parts prev inHeader (l :: ls) = (l, .neutral) :: parts none false ls := by
  have htrivia : l.isTrivia = false := by rcases h with h | h <;> simp [Lexeme.isTrivia, h]
  have hheader : headerAfter prev inHeader l = false := by
    rcases h with h | h <;> simp [headerAfter, h]
  have hbegins : beginsStatement (some l) = true := by simpa [beginsStatement] using h
  have hacts : l.acts = false := by rcases h with h | h <;> simp [Lexeme.acts, Lexeme.isBreak, h]
  rw [parts_cons, roleOf_of_not_acts hacts, hheader, htrivia, if_neg Bool.false_ne_true,
    parts_of_beginsStatement hbegins]

lemma parts_cons_of_space {l : Lexeme} (h : l.kind = .space) (prev : Option Lexeme)
    (inHeader : Bool) (ls : List Lexeme) :
    parts prev inHeader (l :: ls) = (l, .neutral) :: parts prev inHeader ls := by
  have htrivia : l.isTrivia = true := by simp [Lexeme.isTrivia, h]
  have hheader : headerAfter prev inHeader l = inHeader := by simp [headerAfter, h]
  rw [parts_cons, roleOf_of_not_acts (by simp [Lexeme.acts, h]), hheader, if_pos htrivia]

lemma roleOf_statementsFrom {l : Lexeme} {ls : List Lexeme}
    (h : namesMethods (l :: ls) = true) (prev : Option Lexeme) (inHeader : Bool) :
    roleOf prev inHeader l (statementsFrom .within ls) = roleOf prev inHeader l ls := by
  rw [namesMethods, Bool.and_eq_true] at h
  cases hkind : l.kind with
  | keyword =>
      by_cases hdef : l.text = "def".toList
      · have hname : namesMethod false ls = true := by
          simpa [Lexeme.isKeyword, hkind, hdef] using h.1
        simp only [roleOf, hkind, keywordRole, isEndless_statementsFrom hname]
      · simp only [roleOf, hkind, keywordRole, if_neg hdef]
  | _ => simp only [roleOf, hkind]

lemma acting_cons_of_not_acts {l : Lexeme} (h : l.acts = false) (role : Role)
    (ps : List (Lexeme × Role)) : acting ((l, role) :: ps) = acting ps :=
  List.filter_cons_of_neg (by simp [h])

lemma acting_cons_of_acts {l : Lexeme} (h : l.acts = true) (role : Role)
    (ps : List (Lexeme × Role)) : acting ((l, role) :: ps) = (l, role) :: acting ps :=
  List.filter_cons_of_pos h

/-- What acts has the same role in the statements, read from the same point: in a statement this is
the token before, between two statements it does not matter. -/
lemma acting_statementsFrom {ls : List Lexeme} (h : namesMethods ls = true) (pause : Pause)
    (prev : Option Lexeme) (inHeader : Bool) :
    acting (if pause = .fresh then parts none false (statementsFrom pause ls)
        else parts prev inHeader (statementsFrom pause ls)) =
      acting (if pause = .within then parts prev inHeader ls else parts none false ls) := by
  induction ls generalizing pause prev inHeader with
  | nil => simp [statementsFrom, parts]
  | cons l ls ih =>
      have hls : namesMethods ls = true := by
        rw [namesMethods, Bool.and_eq_true] at h
        exact h.2
      rcases l.forms with hspace | hseparator | ⟨hnewline, hbodies⟩ | hacts
      · have hinert : l.acts = false := by simp [Lexeme.acts, hspace]
        rw [statementsFrom_cons_of_space _ hspace, ih hls, parts_cons_of_space hspace,
          parts_cons_of_space hspace]
        split_ifs <;> rw [acting_cons_of_not_acts hinert]
      · have hkind := l.kind_of_isSeparator hseparator
        have hinert : l.acts = false := by
          rcases hkind with h | h <;> simp [Lexeme.acts, Lexeme.isBreak, h]
        have hrest := ih hls (if pause = .within then .due else pause) prev inHeader
        rw [statementsFrom_cons_of_isSeparator _ hseparator, parts_cons_of_isBreak hkind,
          parts_cons_of_isBreak hkind, ite_self, acting_cons_of_not_acts hinert]
        cases pause <;> exact hrest
      · have hinert : l.acts = false := by simp [Lexeme.acts, Lexeme.isBreak, hnewline]
        have hrest := ih hls .fresh none false
        rw [statementsFrom_cons_of_newline _ hnewline hbodies,
          parts_cons_of_isBreak (.inl hnewline), parts_cons_of_isBreak (.inl hnewline),
          parts_cons_of_isBreak (.inl hnewline), parts_cons_of_isBreak (.inl hnewline), ite_self,
          ite_self, acting_cons_of_not_acts hinert, acting_cons_of_not_acts hinert]
        exact hrest
      · have hstep : ∀ prev inHeader,
            acting (parts prev inHeader (l :: statementsFrom .within ls)) =
              acting (parts prev inHeader (l :: ls)) := by
          intro prev inHeader
          have hrest := ih hls .within (if l.isTrivia then prev else some l)
            (headerAfter prev inHeader l)
          rw [parts_cons, parts_cons, roleOf_statementsFrom h, acting_cons_of_acts hacts,
            acting_cons_of_acts hacts]
          exact congrArg _ hrest
        rw [statementsFrom_cons_of_acts _ hacts]
        cases pause with
        | fresh => exact hstep none false
        | within => exact hstep prev inHeader
        | due =>
            have hfeed := parts_cons_of_isBreak (l := lineFeed) (.inl rfl) prev inHeader
              (l :: statementsFrom .within ls)
            simp only [reduceCtorEq, if_false, if_true, List.singleton_append]
            rw [hfeed, acting_cons_of_not_acts rfl]
            exact hstep none false

/-- **Roles.**  What acts has the same roles in sources with the same statements. -/
theorem acting_eq {a b : List Lexeme} (h : statements a = statements b)
    (ha : namesMethods a = true) :
    acting (parts none false a) = acting (parts none false b) := by
  have hb : namesMethods b = true := by
    rw [← namesMethods_statementsFrom .fresh b, ← statements, ← h, statements,
      namesMethods_statementsFrom, ha]
  have hsame : ∀ {ls : List Lexeme}, namesMethods ls = true →
      acting (parts none false (statements ls)) = acting (parts none false ls) :=
    fun hls => acting_statementsFrom hls .fresh none false
  rw [← hsame ha, ← hsame hb, h]

lemma runRoles_acting {ps : List (Lexeme × Role)} (h : Inert ps) (frames : List Frame) :
    runRoles frames ((acting ps).map (·.2)) = runRoles frames (ps.map (·.2)) := by
  induction ps generalizing frames with
  | nil => rfl
  | cons p ps ih =>
      obtain ⟨l, role⟩ := p
      obtain ⟨hp, hps⟩ := List.forall_mem_cons.1 h
      cases hacts : l.acts with
      | false =>
          obtain rfl : role = .neutral := hp hacts
          rw [acting_cons_of_not_acts hacts, ih hps]
          rfl
      | true =>
          rw [acting_cons_of_acts hacts, List.map_cons, List.map_cons, runRoles, runRoles]
          cases role.apply frames with
          | ok frames' => exact ih hps frames'
          | error problem => rfl

/-- The nesting check runs alike over sources with the same statements. -/
theorem runRoles_roles_eq {a b : List Lexeme} (h : statements a = statements b)
    (ha : namesMethods a = true) (frames : List Frame) :
    runRoles frames (roles a) = runRoles frames (roles b) := by
  have hrun : ∀ ls, runRoles frames (roles ls) =
      runRoles frames ((acting (parts none false ls)).map (·.2)) := by
    intro ls
    rw [runRoles_acting (inert_parts none false ls), map_snd_parts, roles]
  rw [hrun, hrun, acting_eq h ha]

/-- Roles are known from those of what acts. -/
lemma eq_of_acting_eq {ps qs : List (Lexeme × Role)} (hps : Inert ps) (hqs : Inert qs)
    (hlexemes : ps.map (·.1) = qs.map (·.1)) (hacting : acting ps = acting qs) : ps = qs := by
  induction ps generalizing qs with
  | nil =>
      cases qs with
      | nil => rfl
      | cons q qs => simp at hlexemes
  | cons p ps ih =>
      cases qs with
      | nil => simp at hlexemes
      | cons q qs =>
          obtain ⟨l, role⟩ := p
          obtain ⟨l', role'⟩ := q
          obtain ⟨rfl, hrest⟩ : l = l' ∧ ps.map (·.1) = qs.map (·.1) := by simpa using hlexemes
          obtain ⟨hp, hps'⟩ := List.forall_mem_cons.1 hps
          obtain ⟨hq, hqs'⟩ := List.forall_mem_cons.1 hqs
          cases hacts : l.acts with
          | false =>
              obtain rfl : role = .neutral := hp hacts
              obtain rfl : role' = .neutral := hq hacts
              rw [acting_cons_of_not_acts hacts, acting_cons_of_not_acts hacts] at hacting
              rw [ih hps' hqs' hrest hacting]
          | true =>
              rw [acting_cons_of_acts hacts, acting_cons_of_acts hacts, List.cons.injEq] at hacting
              rw [hacting.1, ih hps' hqs' hrest hacting.2]

end ConverterAssembly.Ruby
