import ConverterAssembly.Ruby.Lexer
import Mathlib.Data.List.TakeWhile
import Mathlib.Tactic

/-!
# Where words end

A line feed, a semicolon or a blank ends every word, number and operator.  This file says so for
each function that measures a token by its characters: its answer on a text is its answer on the
part before the first stop, whatever follows.

**Stops.**  `isStop` names the characters, `Stops` the texts that are empty or begin with one.

**Sizes.**  One lemma a function, `f (a ++ q) = f a` for `Stops q`.  Two of them need more: a global
variable and the opener of a heredoc can take a stop in, so their lemmas ask that they do not.
-/

namespace ConverterAssembly.Ruby

/-! ## Stops -/

/-- The characters that end a word, a number or an operator wherever they stand. -/
def isStop (c : Char) : Bool :=
  c = '\n' || c = ';' || isGap c

/-- A text that is empty or begins with a stop. -/
def Stops (text : Text) : Prop :=
  ∀ c, text.head? = some c → isStop c = true

lemma stops_cons {c : Char} {cs : Text} : Stops (c :: cs) ↔ isStop c = true := by
  simp [Stops]

lemma isStop_cases {c : Char} (h : isStop c = true) :
    c = '\n' ∨ c = ';' ∨ c = ' ' ∨ c = '\t' ∨ c = '\r' ∨ c = '\x0b' ∨ c = '\x0c' := by
  simpa [isStop, isGap, or_assoc] using h

lemma isNameChar_of_isStop {c : Char} (h : isStop c = true) : isNameChar c = false := by
  rcases isStop_cases h with rfl | rfl | rfl | rfl | rfl | rfl | rfl <;> decide

lemma takeWhile_append_stops {p : Char → Bool} (hp : ∀ c, isStop c = true → p c = false)
    (a : Text) {q : Text} (hq : Stops q) : (a ++ q).takeWhile p = a.takeWhile p := by
  have hstop : q.takeWhile p = [] := by
    cases q with
    | nil => rfl
    | cons c cs => rw [List.takeWhile_cons_of_neg (by simp [hp c (hq c rfl)])]
  rw [List.takeWhile_append, hstop, List.append_nil]
  split_ifs with h
  · exact ((List.takeWhile_prefix p).eq_of_length h).symm
  · rfl

lemma nameSize_append_stops (a : Text) {q : Text} (hq : Stops q) :
    nameSize (a ++ q) = nameSize a := by
  rw [nameSize, nameSize, takeWhile_append_stops (fun _ => isNameChar_of_isStop) a hq]

lemma any_head?_append_stops {p : Char → Bool} (hp : ∀ c, isStop c = true → p c = false)
    (a : Text) {q : Text} (hq : Stops q) : (a ++ q).head?.any p = a.head?.any p := by
  cases a with
  | nil =>
      cases q with
      | nil => rfl
      | cons c cs => simp [hp c (hq c rfl)]
  | cons c a => rfl

lemma head?_append_stops {c : Char} (hc : isStop c = false) (a : Text) {q : Text} (hq : Stops q) :
    (a ++ q).head? = some c ↔ a.head? = some c := by
  cases a with
  | nil =>
      constructor
      · intro h
        exact absurd (hq c h) (by simp [hc])
      · intro h
        simp at h
  | cons d a => rfl

lemma numberSize_append_stops (a : Text) {q : Text} (hq : Stops q) :
    numberSize (a ++ q) = numberSize a := by
  have hdigit : ∀ c, isStop c = true → isDigit c = false := by
    intro c hc
    rcases isStop_cases hc with rfl | rfl | rfl | rfl | rfl | rfl | rfl <;> decide
  induction a with
  | nil =>
      cases q with
      | nil => rfl
      | cons c cs =>
          have hc := hq c rfl
          have hdot : c ≠ '.' := by
            rintro rfl
            exact absurd hc (by decide)
          simp [numberSize, isNameChar_of_isStop hc, hdot]
  | cons c a ih =>
      simp only [List.cons_append, numberSize]
      rw [any_head?_append_stops hdigit a hq, ih]

/-- What a text begins with does not depend on what follows, if that goes on with a character which
the spelling does not hold. -/
lemma startsWith_append_of_notMem {w q : Text} (hw : ∀ c ∈ q.head?, c ∉ w) (a : Text) :
    Text.startsWith (a ++ q) w = Text.startsWith a w := by
  induction w generalizing a with
  | nil => rfl
  | cons d w ih =>
      cases a with
      | nil =>
          cases q with
          | nil => rfl
          | cons c cs =>
              have hne : d ≠ c := by
                rintro rfl
                exact hw d rfl (by simp)
              simp [Text.startsWith, Text.dropStart?, hne]
      | cons c a =>
          have ih' := ih (fun x hx hmem => hw x hx (by simp [hmem])) a
          simp only [Text.startsWith] at ih' ⊢
          simp only [List.cons_append, Text.dropStart?]
          split_ifs
          · exact ih'
          · rfl

lemma findStart?_append_of_notMem {ws : List Text} {q : Text} (hws : ∀ w ∈ ws, ∀ c ∈ q.head?, c ∉ w)
    (a : Text) : Text.findStart? ws (a ++ q) = Text.findStart? ws a := by
  unfold Text.findStart?
  induction ws with
  | nil => rfl
  | cons w ws ih =>
      rw [List.find?_cons, List.find?_cons, startsWith_append_of_notMem (hws w (by simp)) a,
        ih (fun v hv => hws v (by simp [hv]))]

/-- No spelling in a table holds a stop. -/
lemma startsWith_append_stops {w : Text} (hw : ∀ c ∈ w, isStop c = false) (a : Text) {q : Text}
    (hq : Stops q) : Text.startsWith (a ++ q) w = Text.startsWith a w := by
  refine startsWith_append_of_notMem (fun c hc hmem => ?_) a
  exact absurd (hq c hc) (by simp [hw c hmem])

lemma findStart?_append_stops {ws : List Text} (hws : ∀ w ∈ ws, ∀ c ∈ w, isStop c = false)
    (a : Text) {q : Text} (hq : Stops q) :
    Text.findStart? ws (a ++ q) = Text.findStart? ws a := by
  refine findStart?_append_of_notMem (fun w hw c hc hmem => ?_) a
  exact absurd (hq c hc) (by simp [hws w hw c hmem])

lemma stopless_of_all {w : Text} (h : w.all (fun c => !isStop c) = true) :
    ∀ c ∈ w, isStop c = false := by
  simpa using h

lemma stopless_operators : ∀ w ∈ operators, ∀ c ∈ w, isStop c = false := by
  have h : ∀ w ∈ operators, w.all (fun c => !isStop c) = true := by decide
  exact fun w hw => stopless_of_all (h w hw)

lemma stopless_operatorMethods : ∀ w ∈ operatorMethods, ∀ c ∈ w, isStop c = false := by
  have h : ∀ w ∈ operatorMethods, w.all (fun c => !isStop c) = true := by decide
  exact fun w hw => stopless_of_all (h w hw)

/-- No operator is a name in front of a line feed but one that is a name alone. -/
lemma findStart?_operatorMethods_append_feed (a r : Text) :
    Text.findStart? operatorMethods (a ++ '\n' :: r) = Text.findStart? operatorMethods a :=
  findStart?_append_stops stopless_operatorMethods a (stops_cons.mpr (by decide))

lemma nameSize_le (a : Text) : nameSize a ≤ a.length :=
  (List.takeWhile_sublist _).length_le

lemma memberSize_append_stops (a : Text) {q : Text} (hq : Stops q) :
    memberSize (a ++ q) = memberSize a := by
  have hat := head?_append_stops (show isStop '@' = false by decide) a hq
  simp only [memberSize, hat]
  cases a with
  | nil =>
      cases q with
      | nil => rfl
      | cons c cs =>
          have hc : isNameStart c = false := by
            have := isNameChar_of_isStop (hq c rfl)
            simp only [isNameChar, Bool.or_eq_false_iff] at this
            exact this.1
          simp [hc]
  | cons d a =>
      by_cases hd : d = '@'
      · subst hd
        cases a with
        | nil =>
            cases q with
            | nil => rfl
            | cons c cs =>
                have hc : isNameStart c = false := by
                  have := isNameChar_of_isStop (hq c rfl)
                  simp only [isNameChar, Bool.or_eq_false_iff] at this
                  exact this.1
                simp [hc]
        | cons e a => simp [nameSize_append_stops a hq]
      · simp [hd, nameSize_append_stops a hq]

lemma endsInMark_append_stops (a : Text) {q : Text} (hq : Stops q) :
    endsInMark (a ++ q) = endsInMark a := by
  cases a with
  | nil =>
      cases q with
      | nil => rfl
      | cons c cs =>
          rcases isStop_cases (hq c rfl) with rfl | rfl | rfl | rfl | rfl | rfl | rfl <;> rfl
  | cons c a =>
      simp only [List.cons_append, endsInMark, ne_eq,
        head?_append_stops (show isStop '=' = false by decide) a hq]

lemma symbolEndSize_append_stops (a : Text) {q : Text} (hq : Stops q) :
    symbolEndSize (a ++ q) = symbolEndSize a := by
  cases a with
  | nil =>
      cases q with
      | nil => rfl
      | cons c cs =>
          rcases isStop_cases (hq c rfl) with rfl | rfl | rfl | rfl | rfl | rfl | rfl <;> rfl
  | cons c a =>
      have hmark := endsInMark_append_stops (c :: a) hq
      simp only [List.cons_append] at hmark
      simp only [List.cons_append, symbolEndSize, hmark, ne_eq,
        head?_append_stops (show isStop '=' = false by decide) a hq,
        head?_append_stops (show isStop '>' = false by decide) a hq,
        head?_append_stops (show isStop '~' = false by decide) a hq]

/-- A global variable takes in no stop but a semicolon. -/
lemma globalSize_append_stops (a : Text) {q : Text} (hq : Stops q)
    (h : (globalSize (a ++ q)).2 ≤ a.length ∨ q.head? ≠ some ';') :
    globalSize (a ++ q) = globalSize a := by
  cases q with
  | nil => simp
  | cons s q =>
      have hs := hq s rfl
      cases a with
      | nil =>
          rcases isStop_cases hs with rfl | rfl | rfl | rfl | rfl | rfl | rfl <;>
            simp_all +decide [globalSize]
      | cons c a =>
          have hdigit : ∀ c, isStop c = true → isDigit c = false := by
            intro c hc
            rcases isStop_cases hc with rfl | rfl | rfl | rfl | rfl | rfl | rfl <;> decide
          simp only [List.cons_append, globalSize, nameSize_append_stops a hq,
            takeWhile_append_stops hdigit a hq]
          split_ifs with h1 h2 h3
          · rfl
          · rfl
          · cases a with
            | nil =>
                subst h3
                clear hdigit
                rcases isStop_cases hs with rfl | rfl | rfl | rfl | rfl | rfl | rfl <;>
                  simp_all +decide [globalSize]
            | cons d a => rfl
          · rfl
          · rfl

/-- A run that ends within a text ends there whatever follows. -/
lemma takeWhile_append_of_lt {p : Char → Bool} {a : Text} (h : (a.takeWhile p).length < a.length)
    (q : Text) : (a ++ q).takeWhile p = a.takeWhile p := by
  rw [List.takeWhile_append, if_neg (Nat.ne_of_lt h)]

/-- The rest of the opener of a heredoc, from just after its dash. -/
def heredocName (indented : Bool) (text : Text) : Option (Heredoc × Nat) :=
  match text with
  | [] => none
  | c :: cs =>
    if c = '\x27' || c = '"' || c = '\x60' then
      let terminator := cs.takeWhile fun d => d ≠ c && d ≠ '\n'
      if (cs.drop terminator.length).head? = some c then
        some (⟨terminator, indented⟩, terminator.length + 2)
      else
        none
    else if isNameStart c then
      some (⟨c :: cs.takeWhile isNameChar, indented⟩, nameSize cs + 1)
    else
      none

lemma heredocOpener_eq (text : Text) :
    heredocOpener text =
      if text.head? = some '~' ∨ text.head? = some '-' then
        (heredocName true (text.drop 1)).map fun o => (o.1, o.2 + 1)
      else
        heredocName false text := by
  by_cases h : text.head? = some '~' ∨ text.head? = some '-'
  · have hdash : (decide (text.head? = some '~') || decide (text.head? = some '-')) = true := by
      simpa using h
    rw [if_pos h, heredocOpener, hdash]
    simp only [if_true, heredocName]
    cases text.drop 1 with
    | nil => rfl
    | cons c cs =>
        dsimp only
        split_ifs <;> rfl
  · have hdash : (decide (text.head? = some '~') || decide (text.head? = some '-')) = false := by
      simpa using h
    rw [if_neg h, heredocOpener, hdash]
    cases text with
    | nil => rfl
    | cons c cs => simp [heredocName]

lemma length_takeWhile_lt_of_exists {p : Char → Bool} {a : Text} (h : ∃ c ∈ a, p c = false) :
    (a.takeWhile p).length < a.length := by
  have hlead := List.takeWhile_prefix p (l := a)
  refine lt_of_le_of_ne hlead.length_le fun hlength => ?_
  obtain ⟨c, hc, hbreak⟩ := h
  have hall := List.takeWhile_eq_self_iff.1 (hlead.eq_of_length hlength) c hc
  exact absurd (hbreak.symm.trans hall) (by decide)

/-- A quoted name that is still open at the end of the text is closed by nothing on its line. -/
lemma heredocName_append_stops (indented : Bool) (a : Text) {q : Text} (hq : Stops q)
    (h : (∀ o ∈ heredocName indented (a ++ q), o.2 ≤ a.length) ∨ q.head? = some '\n') :
    heredocName indented (a ++ q) = heredocName indented a := by
  cases a with
  | nil =>
      cases q with
      | nil => rfl
      | cons s q =>
          rcases isStop_cases (hq s rfl) with rfl | rfl | rfl | rfl | rfl | rfl | rfl <;>
            simp +decide [heredocName]
  | cons c a =>
      simp only [List.cons_append, heredocName] at h ⊢
      by_cases hquote : (c = '\x27' || c = '"' || c = '\x60') = true
      · rw [if_pos hquote] at h ⊢
        rw [if_pos hquote]
        set p : Char → Bool := fun d => decide (d ≠ c) && decide (d ≠ '\n') with hp
        by_cases hopen : ∃ d ∈ a, p d = false
        · have hlt := length_takeWhile_lt_of_exists hopen
          have hne : a.drop (a.takeWhile p).length ≠ [] := by simpa using hlt
          rw [takeWhile_append_of_lt hlt q, List.drop_append_of_le_length (Nat.le_of_lt hlt),
            List.head?_append_of_ne_nil _ hne]
        · have hall : ∀ d ∈ a, p d = true := by
            intro d hd
            by_contra hpd
            exact hopen ⟨d, hd, by simpa using hpd⟩
          have hdrop : (a ++ q).drop (a ++ q.takeWhile p).length =
              q.drop (q.takeWhile p).length := by
            rw [List.length_append, ← List.drop_drop, List.drop_left]
          have hq' : (q.drop (q.takeWhile p).length).head? ≠ some c := by
            intro hc
            rcases h with h | h
            · rw [List.takeWhile_append_of_pos hall, hdrop, if_pos hc] at h
              have := h _ rfl
              simp at this
            · cases q with
              | nil => simp at h
              | cons d q =>
                  obtain rfl : d = '\n' := by simpa using h
                  have hn : p '\n' = false := by simp [hp]
                  rw [List.takeWhile_cons, hn] at hc
                  obtain rfl : '\n' = c := by simpa using hc
                  exact absurd hquote (by decide)
          rw [List.takeWhile_append_of_pos hall, List.takeWhile_eq_self_iff.mpr hall]
          rw [hdrop, if_neg hq', if_neg (by simp)]
      · rw [if_neg hquote, if_neg hquote]
        rw [takeWhile_append_stops (fun _ => isNameChar_of_isStop) a hq, nameSize_append_stops a hq]

/-- The opener of a heredoc does not reach over a stop, unless it takes it in. -/
lemma heredocOpener_append_stops (a : Text) {q : Text} (hq : Stops q)
    (h : (∀ o ∈ heredocOpener (a ++ q), o.2 ≤ a.length) ∨ q.head? = some '\n') :
    heredocOpener (a ++ q) = heredocOpener a := by
  simp only [heredocOpener_eq, head?_append_stops (show isStop '~' = false by decide) a hq,
    head?_append_stops (show isStop '-' = false by decide) a hq] at h ⊢
  split_ifs at h ⊢ with hdash
  · cases a with
    | nil => simp at hdash
    | cons c a =>
        simp only [List.cons_append, List.drop_succ_cons, List.drop_zero] at h ⊢
        rw [heredocName_append_stops true a hq]
        refine h.imp_left ?_
        intro h o ho
        have := h (o.1, o.2 + 1) (Option.mem_map_of_mem _ ho)
        simpa using this
  · exact heredocName_append_stops false a hq h

end ConverterAssembly.Ruby
