import ConverterAssembly.Proofs.Ruby.Readers

/-!
# The forms of a token

The scanner picks a rule by the first character, and many rules come to the same: a token of a fixed
size that leaves nothing behind.  `Context.scan_cases` sorts the tokens into twelve forms, so that a
property of all tokens is proved form by form.  It also says once that words lie within the text and
hold no line feed, for which the first two sections measure them.
-/

namespace ConverterAssembly.Ruby

/-! ## Sizes -/

lemma numberSize_le (a : Text) : numberSize a ≤ a.length := by
  induction a with
  | nil => exact Nat.le_refl 0
  | cons c cs ih =>
      rw [numberSize]
      split_ifs
      · exact Nat.succ_le_succ ih
      · exact Nat.zero_le _

lemma globalSize_le (a : Text) : (globalSize a).2 ≤ a.length := by
  cases a with
  | nil => exact Nat.le_refl 0
  | cons c cs =>
      have hname := nameSize_le cs
      have hdigits : (cs.takeWhile isDigit).length ≤ cs.length :=
        (List.takeWhile_sublist _).length_le
      simp only [globalSize, List.length_cons]
      cases cs with
      | nil => split_ifs <;> simp_all [nameSize]
      | cons d ds =>
          simp only [List.head?_cons, List.length_cons] at *
          split_ifs <;> dsimp only <;> omega

lemma memberSize_le (a : Text) : (memberSize a).2 ≤ a.length := by
  simp only [memberSize]
  have hdoubled : (if a.head? = some '@' then 1 else 0) ≤ a.length := by
    cases a with
    | nil => simp
    | cons c cs => split_ifs <;> simp
  generalize (if a.head? = some '@' then 1 else 0) = doubled at hdoubled ⊢
  have hdrop := List.length_drop (i := doubled) (l := a)
  cases h : a.drop doubled with
  | nil => exact hdoubled
  | cons c cs =>
      rw [h, List.length_cons] at hdrop
      have := nameSize_le cs
      dsimp only
      split_ifs <;> dsimp only <;> omega

lemma variableSize_le (sigil : Char) (a : Text) : (variableSize sigil a).2 ≤ a.length := by
  unfold variableSize
  split_ifs
  · exact memberSize_le a
  · exact globalSize_le a

lemma symbolEndSize_le (a : Text) : symbolEndSize a ≤ a.length := by
  cases a with
  | nil => exact Nat.le_refl 0
  | cons c cs =>
      rw [symbolEndSize]
      split_ifs <;> simp

lemma findStart?_length_le {candidates : List Text} {a name : Text}
    (h : Text.findStart? candidates a = some name) : name.length ≤ a.length :=
  (Text.startsWith_iff.mp (List.find?_some h)).length_le

lemma heredocName_le {indented : Bool} {a : Text} {o : Heredoc × Nat}
    (h : heredocName indented a = some o) : o.2 ≤ a.length := by
  cases a with
  | nil => simp [heredocName] at h
  | cons c cs =>
      have hname := nameSize_le cs
      simp only [heredocName] at h
      split_ifs at h with hquote hclosed hname
      · obtain rfl := Option.some.inj h
        have hlt : (cs.takeWhile fun d => d ≠ c && d ≠ '\n').length < cs.length := by
          by_contra hge
          rw [List.drop_eq_nil_of_le (Nat.le_of_not_lt hge)] at hclosed
          simp at hclosed
        simp only [List.length_cons]
        omega
      · obtain rfl := Option.some.inj h
        simp only [List.length_cons]
        omega

lemma heredocOpener_le {a : Text} {o : Heredoc × Nat} (h : heredocOpener a = some o) :
    o.2 ≤ a.length := by
  rw [heredocOpener_eq] at h
  split_ifs at h with hdash
  · obtain ⟨o', ho', rfl⟩ := Option.map_eq_some_iff.mp h
    have hle := heredocName_le ho'
    cases a with
    | nil => simp at hdash
    | cons c cs => simpa using hle
  · exact heredocName_le h

/-! ## Line feeds -/

lemma feed_not_mem_take_takeWhile {p : Char → Bool} (hp : p '\n' = false) (a : Text) :
    '\n' ∉ a.take (a.takeWhile p).length := by
  rw [← List.prefix_iff_eq_take.1 (List.takeWhile_prefix p)]
  intro hmem
  rw [List.mem_takeWhile_imp hmem] at hp
  cases hp

lemma feed_not_mem_take_nameSize (a : Text) : '\n' ∉ a.take (nameSize a) :=
  feed_not_mem_take_takeWhile (by decide) a

/-- One more character is no line feed either. -/
lemma feed_not_mem_take_succ {a : Text} {n : Nat} (h : '\n' ∉ a.take n)
    (hnext : (a.drop n).head? ≠ some '\n') : '\n' ∉ a.take (n + 1) := by
  rw [List.take_add, List.mem_append, not_or]
  refine ⟨h, fun hmem => hnext ?_⟩
  cases hdrop : a.drop n with
  | nil => simp [hdrop] at hmem
  | cons d ds =>
      obtain rfl : '\n' = d := by simpa [hdrop] using hmem
      rfl

lemma feed_not_mem_take_numberSize (a : Text) : '\n' ∉ a.take (numberSize a) := by
  induction a with
  | nil => simp
  | cons c cs ih =>
      rw [numberSize]
      split_ifs with hc
      · rw [List.take_succ_cons, List.mem_cons, not_or]
        refine ⟨?_, ih⟩
        rintro rfl
        exact absurd hc (by simp [isNameChar, isNameStart, isAsciiLetter, isWide, isDigit])
      · simp

lemma feed_not_mem_take_globalSize (a : Text) : '\n' ∉ a.take (globalSize a).2 := by
  cases a with
  | nil => simp
  | cons c cs =>
    have hdigits : '\n' ∉ cs.take (cs.takeWhile isDigit).length :=
        feed_not_mem_take_takeWhile (by decide) cs
    have hname := feed_not_mem_take_nameSize cs
    by_cases hc : c = '\n'
    · subst hc
      have hclass : isNameStart '\n' = false ∧ isDigit '\n' = false ∧
          isPunctuation '\n' = false := by
        decide
      simp [globalSize, hclass]
    have hc' : '\n' ≠ c := fun h => hc h.symm
    simp only [globalSize]
    split_ifs
    · simpa [hc'] using hname
    · simpa [hc'] using hdigits
    · cases cs with
      | nil => simp [hc']
      | cons d ds =>
          by_cases hd : isBlank d = true
          · simp [hd, hc']
          · have hne : '\n' ≠ d := by
              rintro rfl
              exact hd (by decide)
            simp [hd, hc', hne]
    · simp [hc']
    · simp

lemma feed_not_mem_take_memberSize (a : Text) : '\n' ∉ a.take (memberSize a).2 := by
  have hdoubled : '\n' ∉ a.take (if a.head? = some '@' then 1 else 0) := by
    cases a with
    | nil => simp
    | cons c cs => split_ifs with h <;> simp_all
  simp only [memberSize]
  generalize (if a.head? = some '@' then 1 else 0) = doubled at hdoubled ⊢
  cases h : a.drop doubled with
  | nil => exact hdoubled
  | cons c cs =>
      have hname := feed_not_mem_take_nameSize cs
      dsimp only
      split_ifs with hc
      · have hne : '\n' ≠ c := by
          rintro rfl
          exact absurd hc (by decide)
        rw [Nat.add_comm, List.take_add, h, List.mem_append, not_or, List.take_succ_cons,
          List.mem_cons, not_or]
        exact ⟨hdoubled, hne, hname⟩
      · exact hdoubled

lemma feed_not_mem_take_variableSize (sigil : Char) (a : Text) :
    '\n' ∉ a.take (variableSize sigil a).2 := by
  unfold variableSize
  split_ifs
  · exact feed_not_mem_take_memberSize a
  · exact feed_not_mem_take_globalSize a

lemma feed_not_mem_take_symbolEndSize (a : Text) : '\n' ∉ a.take (symbolEndSize a) := by
  cases a with
  | nil => simp
  | cons c cs =>
      rw [symbolEndSize]
      by_cases hc : c = '\n'
      · subst hc
        simp [endsInMark]
      · have hc' : '\n' ≠ c := fun h => hc h.symm
        split_ifs <;> simp [hc']

/-- A spelling from a table holds no line feed, and the token is that spelling. -/
lemma feed_not_mem_of_findStart? {candidates : List Text} {c : Char} {cs name : Text}
    (hstops : ∀ w ∈ candidates, ∀ d ∈ w, isStop d = false) (hc : c ≠ '\n')
    (h : Text.findStart? candidates (c :: cs) = some name) :
    '\n' ∉ c :: cs.take (name.length - 1) := by
  have hstarts := List.prefix_iff_eq_take.1 (Text.startsWith_iff.1 (List.find?_some h))
  have hno : '\n' ∉ name := by
    intro hmem
    exact absurd (hstops name (List.mem_of_find?_eq_some h) '\n' hmem) (by decide)
  cases name with
  | nil => simpa using fun h => hc h.symm
  | cons d ds => rwa [hstarts] at hno

lemma feed_not_mem_take_heredocName {indented : Bool} {a : Text} {o : Heredoc × Nat}
    (h : heredocName indented a = some o) : '\n' ∉ a.take o.2 := by
  cases a with
  | nil => simp [heredocName] at h
  | cons c cs =>
      simp only [heredocName] at h
      split_ifs at h with hquote hclosed hname
      · obtain rfl := Option.some.inj h
        set terminator := cs.takeWhile fun d => d ≠ c && d ≠ '\n'
        have hc : c ≠ '\n' := by
          rintro rfl
          exact absurd hquote (by decide)
        have hbody : '\n' ∉ cs.take terminator.length := feed_not_mem_take_takeWhile (by simp) cs
        rw [List.take_succ_cons, List.mem_cons, not_or]
        refine ⟨hc.symm, feed_not_mem_take_succ hbody ?_⟩
        rw [hclosed]
        simpa using hc
      · obtain rfl := Option.some.inj h
        rw [List.take_succ_cons, List.mem_cons, not_or]
        refine ⟨?_, feed_not_mem_take_nameSize cs⟩
        rintro rfl
        exact absurd hname (by decide)

lemma feed_not_mem_take_heredocOpener {a : Text} {o : Heredoc × Nat}
    (h : heredocOpener a = some o) : '\n' ∉ a.take o.2 := by
  rw [heredocOpener_eq] at h
  split_ifs at h with hdash
  · obtain ⟨o', ho', rfl⟩ := Option.map_eq_some_iff.mp h
    have hno := feed_not_mem_take_heredocName ho'
    cases a with
    | nil => simp at hdash
    | cons c cs =>
        have hc : '\n' ≠ c := by
          rintro rfl
          exact absurd hdash (by simp)
        rw [List.take_succ_cons, List.mem_cons, not_or]
        exact ⟨hc, hno⟩
  · exact feed_not_mem_take_heredocName h

/-! ## Forms -/

/-- The kinds of blanks, separators, comments, documents and the data section; every other token is
a word or a sign. -/
def Kind.isLayout : Kind → Bool
  | .space | .newline | .semicolon | .comment | .document | .data => true
  | _ => false

lemma variableSize_kind (sigil : Char) (text : Text) :
    (variableSize sigil text).1 = .ident ∨ (variableSize sigil text).1 = .operator := by
  unfold variableSize
  split_ifs
  · simp only [memberSize]
    split
    · split_ifs <;> simp
    · exact .inr rfl
  · cases text with
    | nil => exact .inr rfl
    | cons c cs =>
        simp only [globalSize]
        cases cs.head? <;> dsimp only <;> split_ifs <;> simp

namespace Context

/-- A word or a sign that is measured by its characters. -/
def word (ctx : Context) (line : Nat) (kind : Kind) (size : Nat) (naming : Bool) : Scan :=
  { ctx.plain line kind size with naming := naming }

variable {motive : Scan → Prop} (ctx : Context) (line : Nat)

lemma scanWord_cases (c : Char) (cs : Text)
    (word : ∀ kind size naming, kind.isLayout = false → size ≤ cs.length → '\n' ∉ cs.take size →
      motive (ctx.word line kind size naming)) :
    motive (ctx.scanWord line c cs) := by
  have hsize := nameSize_le cs
  have hname := feed_not_mem_take_nameSize cs
  have hlonger : cs.drop (nameSize cs) ≠ [] → nameSize cs + 1 ≤ cs.length := by
    intro hne
    by_contra hge
    exact hne (List.drop_eq_nil_of_le (by omega))
  have hmark : ∀ a : Text, endsInMark a = true → a ≠ [] ∧ a.head? ≠ some '\n' := by
    intro a h
    cases a with
    | nil => simp [endsInMark] at h
    | cons d a =>
        refine ⟨List.cons_ne_nil d a, ?_⟩
        rintro ⟨⟩
        simp [endsInMark] at h
  have hwriter : ∀ a : Text, Text.startsWith a ['=', '('] = true →
      a ≠ [] ∧ a.head? ≠ some '\n' := by
    intro a h
    obtain ⟨rest, rfl⟩ := Text.startsWith_iff.1 h
    simp
  simp only [scanWord]
  split_ifs with h1 h2 h3 h4 h5
  · obtain ⟨hne, hfeed⟩ := hmark _ h1
    exact word _ _ _ rfl (hlonger hne) (feed_not_mem_take_succ hname hfeed)
  · obtain ⟨hne, hfeed⟩ := hwriter _ h3
    exact word _ _ _ rfl (hlonger hne) (feed_not_mem_take_succ hname hfeed)
  · exact word _ _ _ rfl hsize hname
  · simp only [Bool.and_eq_true, decide_eq_true_eq] at h4
    refine word _ _ _ rfl (hlonger ?_) (feed_not_mem_take_succ hname ?_)
    · intro hnil
      simp [hnil] at h4
    · simp [h4.1]
  · exact word _ _ _ rfl hsize hname
  · exact word _ _ _ rfl hsize hname

lemma scanOperator_cases {c : Char} (hc : c ≠ '\n') (cs : Text)
    (word : ∀ kind size naming, kind.isLayout = false → size ≤ cs.length → '\n' ∉ cs.take size →
      motive (ctx.word line kind size naming)) :
    motive (ctx.scanOperator line c cs) := by
  rw [scanOperator]
  split
  · next name hname =>
    have hle := findStart?_length_le hname
    have hno := feed_not_mem_of_findStart? stopless_operators hc hname
    rw [List.length_cons] at hle
    exact word _ _ _ rfl (by omega) (List.not_mem_of_not_mem_cons hno)
  · exact word _ _ _ rfl (Nat.zero_le _) (by simp)

lemma scanColon_cases (cs : Text)
    (word : ∀ kind size naming, kind.isLayout = false → size ≤ cs.length → '\n' ∉ cs.take size →
      motive (ctx.word line kind size naming))
    (quoted : ∀ rules lead, lead ≤ cs.length → '\n' ∉ cs.take lead →
      motive (ctx.scanQuoted line rules lead cs)) :
    motive (ctx.scanColon line cs) := by
  cases cs with
  | nil => exact word _ _ _ rfl (Nat.zero_le _) (by simp)
  | cons d ds =>
      have hone : 1 ≤ (d :: ds).length := by simp
      refine iteInduction (fun hd => word _ _ _ rfl hone (by simp [hd])) fun _ => ?_
      refine iteInduction (fun hd => quoted _ _ hone (by simp [hd])) fun _ => ?_
      refine iteInduction (fun hd => quoted _ _ hone (by simp [hd])) fun _ => ?_
      refine iteInduction (fun hd => ?_) fun _ => ?_
      · have hname := nameSize_le ds
        have hend := symbolEndSize_le (ds.drop (nameSize ds))
        have hfeed : '\n' ≠ d := by
          rintro rfl
          exact absurd hd (by decide)
        rw [List.length_drop] at hend
        refine word _ _ _ rfl (by rw [List.length_cons]; omega) ?_
        rw [Nat.add_right_comm, List.take_succ_cons, List.take_add, List.mem_cons, List.mem_append,
          not_or, not_or]
        exact ⟨hfeed, feed_not_mem_take_nameSize ds, feed_not_mem_take_symbolEndSize _⟩
      refine iteInduction (fun hd => ?_) fun _ => ?_
      · have hsize := Nat.succ_le_succ (variableSize_le d ds)
        have hfeed : '\n' ∉ (d :: ds).take ((variableSize d ds).2 + 1) := by
          rw [List.take_succ_cons, List.mem_cons, not_or]
          refine ⟨?_, feed_not_mem_take_variableSize d ds⟩
          rintro rfl
          exact absurd hd (by decide)
        exact iteInduction (motive := fun kind => motive (ctx.plain line kind _))
          (fun _ => word _ _ _ rfl hsize hfeed) fun _ => word _ _ _ rfl hsize hfeed
      refine iteInduction (fun _ => ?_) fun _ => word _ _ _ rfl (Nat.zero_le _) (by simp)
      split
      · next name hname =>
        refine word _ _ _ rfl (findStart?_length_le hname) ?_
        rw [← List.prefix_iff_eq_take.1 (Text.startsWith_iff.1 (List.find?_some hname))]
        intro hmem
        exact absurd (stopless_operatorMethods name (List.mem_of_find?_eq_some hname) '\n' hmem)
          (by decide)
      · exact word _ _ _ rfl (Nat.zero_le _) (by simp)

lemma scanQuestion_cases (cs : Text)
    (word : ∀ kind size naming, kind.isLayout = false → size ≤ cs.length → '\n' ∉ cs.take size →
      motive (ctx.word line kind size naming))
    (hidden : ∀ ds, cs = '\\' :: '\n' :: ds → motive (ctx.plain line .literal 2)) :
    motive (ctx.scanQuestion line cs) := by
  refine iteInduction (fun _ => ?_) fun _ => word _ _ _ rfl (Nat.zero_le _) (by simp)
  cases cs with
  | nil => exact word _ _ _ rfl (Nat.zero_le _) (by simp)
  | cons d ds =>
      refine iteInduction (fun hd => ?_) fun _ => ?_
      · subst hd
        cases ds with
        | nil => exact word _ 1 _ rfl (by simp) (by simp)
        | cons e ds =>
            by_cases he : e = '\n'
            · exact hidden ds (by rw [he])
            · exact word _ 2 _ rfl (by simp) (by simpa using fun h => he h.symm)
      · refine iteInduction (fun hd => word _ _ _ rfl (by simp) ?_) fun _ =>
          word _ _ _ rfl (Nat.zero_le _) (by simp)
        rw [List.take_succ_cons, List.take_zero, List.mem_singleton]
        rintro rfl
        exact absurd hd (by simp [isBlank])

lemma scanPercent?_cases {cs : Text} {s : Scan} (hs : ctx.scanPercent? line cs = some s)
    (quoted : ∀ rules lead, lead ≤ cs.length → '\n' ∉ cs.take lead →
      motive (ctx.scanQuoted line rules lead cs))
    (flagged : ∀ rules lead, lead ≤ cs.length → '\n' ∉ cs.take lead →
      motive (ctx.scanFlagged line rules lead cs)) :
    motive s := by
  simp only [scanPercent?] at hs
  set type := cs.head?.filter "qQwWiIrsx".toList.contains with htype
  have hletter : '\n' ∉ cs.take (if type.isSome = true then 1 else 0) := by
    cases cs with
    | nil => simp
    | cons d ds =>
        split_ifs with hsome
        · rw [htype, List.head?_cons, Option.isSome_filter] at hsome
          rw [List.take_succ_cons, List.take_zero, List.mem_singleton]
          rintro rfl
          exact absurd hsome (by decide)
        · simp
  generalize (if type.isSome = true then 1 else 0) = lead at hs hletter
  split at hs
  · simp at hs
  · next opening hopening =>
    have hlead : lead + 1 ≤ cs.length := by
      by_contra hge
      rw [List.drop_eq_nil_of_le (by omega)] at hopening
      simp at hopening
    split_ifs at hs with hdelimiter hregexp
    all_goals
      have hno : '\n' ∉ cs.take (lead + 1) := by
        refine feed_not_mem_take_succ hletter ?_
        rw [hopening]
        rintro ⟨⟩
        rw [Bool.and_eq_true, isDelimiter] at hdelimiter
        exact absurd hdelimiter.2 (by split_ifs <;> decide)
    · obtain rfl := Option.some.inj hs
      exact flagged _ _ hlead hno
    · obtain rfl := Option.some.inj hs
      exact quoted _ _ hlead hno

lemma scanHeredoc?_cases {cs : Text} {s : Scan} (hs : ctx.scanHeredoc? line cs = some s)
    (heredoc : ∀ size h, cs.head? = some '<' → size + 1 ≤ cs.length → '\n' ∉ cs.take (size + 1) →
      motive { ctx.plain line .literal (size + 1) with heredocs := ctx.heredocs ++ [h] }) :
    motive s := by
  simp only [scanHeredoc?] at hs
  split_ifs at hs with hopens
  simp only [Bool.and_eq_true, decide_eq_true_eq] at hopens
  obtain ⟨o, ho, rfl⟩ := Option.map_eq_some_iff.mp hs
  have hle := heredocOpener_le ho
  have hno := feed_not_mem_take_heredocOpener ho
  cases cs with
  | nil => simp at hopens
  | cons d ds =>
      obtain rfl : d = '<' := by simpa using hopens.1.1
      exact heredoc _ _ hopens.1.1 (by simpa using hle) (by simpa using hno)

lemma scanSign_cases {c : Char} (hc : c ≠ '\n') (cs : Text)
    (word : ∀ kind size naming, kind.isLayout = false → size ≤ cs.length → '\n' ∉ cs.take size →
      motive (ctx.word line kind size naming))
    (hidden : ∀ ds, c = '?' → cs = '\\' :: '\n' :: ds → motive (ctx.plain line .literal 2))
    (quoted : ∀ rules lead, lead ≤ cs.length → '\n' ∉ cs.take lead →
      motive (ctx.scanQuoted line rules lead cs))
    (flagged : ∀ rules lead, lead ≤ cs.length → '\n' ∉ cs.take lead →
      motive (ctx.scanFlagged line rules lead cs))
    (heredoc : ∀ size h, c = '<' → cs.head? = some '<' → size + 1 ≤ cs.length →
      '\n' ∉ cs.take (size + 1) →
      motive { ctx.plain line .literal (size + 1) with heredocs := ctx.heredocs ++ [h] }) :
    motive (ctx.scanSign line c cs) := by
  refine iteInduction (fun _ => ctx.scanColon_cases line cs word quoted) fun _ => ?_
  refine iteInduction (fun hc => ctx.scanQuestion_cases line cs word fun ds => hidden ds hc)
    fun _ => ?_
  refine iteInduction (fun _ => flagged _ _ (Nat.zero_le _) (by simp)) fun _ => ?_
  refine iteInduction (fun _ => ?_) fun _ => ?_
  · cases hs : ctx.scanPercent? line cs with
    | none => exact ctx.scanOperator_cases line hc cs word
    | some s => exact ctx.scanPercent?_cases line hs quoted flagged
  refine iteInduction (fun hopens => ?_) fun _ => ?_
  · cases hs : ctx.scanHeredoc? line cs with
    | none => exact ctx.scanOperator_cases line hc cs word
    | some s => exact ctx.scanHeredoc?_cases line hs fun size h => heredoc size h hopens
  cases hb : bracketKind? c with
  | some kind =>
      refine word kind 0 false ?_ (Nat.zero_le _) (by simp)
      unfold bracketKind? at hb
      split_ifs at hb <;> obtain rfl := Option.some.inj hb <;> rfl
  | none =>
      refine iteInduction (fun _ => word _ _ true rfl (Nat.zero_le _) (by simp)) fun _ => ?_
      refine iteInduction (fun h => ?_) fun _ => ?_
      · simp only [Bool.and_eq_true, decide_eq_true_eq] at h
        cases cs with
        | nil => simp at h
        | cons d ds =>
            obtain rfl : d = '.' := by simpa using h.2
            exact word _ _ true rfl (by simp) (by simp)
      · exact ctx.scanOperator_cases line hc cs word

/-- Every token has one of twelve forms.  Words, the openers of heredocs and what comes before the
body of a quoted literal hold no line feed; the character literal that hides
one is a form of its own. -/
theorem scan_cases (c : Char) (cs : Text)
    (newline : c = '\n' → motive (ctx.scanNewline line cs))
    (continuation : c = '\\' → cs.head? = some '\n' → motive (ctx.plain (line + 1) .space 1))
    (gap : isGap c = true → motive (ctx.plain line .space (cs.takeWhile isGap).length))
    (semicolon : c = ';' → motive (ctx.plain line .semicolon 0))
    (comment : c = '#' → motive (ctx.plain line .comment (cs.takeWhile (· ≠ '\n')).length))
    (document : ctx.atLineStart = true → isDirective "=begin".toList (c :: cs) = true →
      motive (ctx.scanDocument line cs))
    (data : ctx.atLineStart = true → isDirective "__END__".toList (c :: cs) = true →
      motive (ctx.scanData line cs))
    (word : ∀ kind size naming, kind.isLayout = false → size ≤ cs.length →
      '\n' ∉ c :: cs.take size → motive (ctx.word line kind size naming))
    (hidden : ∀ ds, c = '?' → cs = '\\' :: '\n' :: ds → motive (ctx.plain line .literal 2))
    (quoted : ∀ rules lead, lead ≤ cs.length → '\n' ∉ c :: cs.take lead →
      motive (ctx.scanQuoted line rules lead cs))
    (flagged : ∀ rules lead, lead ≤ cs.length → '\n' ∉ c :: cs.take lead →
      motive (ctx.scanFlagged line rules lead cs))
    (heredoc : ∀ size h, c = '<' → cs.head? = some '<' → size + 1 ≤ cs.length →
      '\n' ∉ cs.take (size + 1) →
      motive { ctx.plain line .literal (size + 1) with heredocs := ctx.heredocs ++ [h] }) :
    motive (ctx.scan line c cs) := by
  rw [scan]
  by_cases hc : c = '\n'
  · subst hc
    have hnone : Text.findStart? operatorMethods ('\n' :: cs) = none :=
      (findStart?_operatorMethods_append_feed [] cs).trans (by decide)
    rw [hnone, ite_self]
    exact newline rfl
  have hcons : ∀ {size}, '\n' ∉ cs.take size → '\n' ∉ c :: cs.take size := by
    intro size hno
    rw [List.mem_cons, not_or]
    exact ⟨fun h => hc h.symm, hno⟩
  have hword := fun kind size naming hkind hsize hno =>
    word kind size naming hkind hsize (hcons hno)
  split
  · next name hname =>
    split_ifs at hname
    have hle := findStart?_length_le hname
    rw [List.length_cons] at hle
    exact word _ _ _ rfl (by omega) (feed_not_mem_of_findStart? stopless_operatorMethods hc hname)
  · refine iteInduction newline fun _ => iteInduction (fun h => ?_) fun _ => ?_
    · simp only [Bool.and_eq_true, decide_eq_true_eq] at h
      exact continuation h.1 h.2
    refine iteInduction gap fun _ => iteInduction semicolon fun _ => ?_
    refine iteInduction comment fun _ => iteInduction (fun h => ?_) fun _ => ?_
    · rw [Bool.and_eq_true] at h
      exact document h.1 h.2
    refine iteInduction (fun h => ?_) fun _ => ?_
    · rw [Bool.and_eq_true] at h
      exact data h.1 h.2
    refine iteInduction (fun _ => hword _ _ _ rfl (numberSize_le cs)
      (feed_not_mem_take_numberSize cs)) fun _ => ?_
    refine iteInduction (fun _ => quoted _ _ (Nat.zero_le _) (hcons (by simp))) fun _ => ?_
    refine iteInduction (fun _ => quoted _ _ (Nat.zero_le _) (hcons (by simp))) fun _ => ?_
    refine iteInduction (fun _ => ?_) fun _ => ?_
    · have hkind : (variableSize c cs).1.isLayout = false := by
        rcases variableSize_kind c cs with h | h <;> rw [h] <;> rfl
      exact hword (variableSize c cs).1 _ false hkind (variableSize_le c cs)
        (feed_not_mem_take_variableSize c cs)
    refine iteInduction (fun _ => ctx.scanWord_cases line c cs hword) fun _ => ?_
    exact ctx.scanSign_cases line hc cs hword hidden
      (fun rules lead hlead hno => quoted rules lead hlead (hcons hno))
      (fun rules lead hlead hno => flagged rules lead hlead (hcons hno)) heredoc

/-- A token lies within the text. -/
theorem scan_size_le (c : Char) (cs : Text) : (ctx.scan line c cs).extent.size ≤ cs.length := by
  have hquoted : ∀ (rules : Quote) (lead : Nat), lead ≤ cs.length →
      lead + (rules.read line (cs.drop lead)).size ≤ cs.length := by
    intro rules lead hlead
    have := readEnclosed_size_le false line [.quote rules 0 false line] (cs.drop lead)
    rw [List.length_drop] at this
    simp only [Quote.read]
    omega
  apply ctx.scan_cases (motive := fun s => s.extent.size ≤ cs.length) line c cs
  case newline =>
    intro _
    rw [scanNewline]
    split_ifs
    · exact Nat.zero_le _
    · exact (readBodies_size_le _ _ _ _).trans_eq (by rw [Text.flatten_lines])
  case continuation =>
    intro _ hhead
    cases cs with
    | nil => simp at hhead
    | cons d ds => simp [plain]
  case gap => exact fun _ => (List.takeWhile_sublist _).length_le
  case semicolon => exact fun _ => Nat.zero_le _
  case comment => exact fun _ => (List.takeWhile_sublist _).length_le
  case document =>
    intro _ _
    have hflat := Text.flatten_lines cs
    simp only [scanDocument, Extent.extend_size]
    cases hl : Text.lines cs with
    | nil => simp [readDocument]
    | cons l ls =>
        have := readDocument_size_le (line + l.count '\n') line ls
        rw [hl] at hflat
        rw [← hflat, List.headD_cons, List.tail_cons, List.flatten_cons, List.length_append]
        omega
  case data => exact fun _ _ => Nat.le_refl _
  case word => exact fun _ _ _ _ hsize _ => hsize
  case hidden =>
    rintro ds - rfl
    simp [plain]
  case quoted => exact fun rules lead hlead _ => hquoted rules lead hlead
  case flagged =>
    intro rules lead hlead _
    have hread := hquoted rules lead hlead
    have hflags :
        (((cs.drop lead).drop (rules.read line (cs.drop lead)).size).takeWhile
          isAsciiLetter).length ≤
          ((cs.drop lead).drop (rules.read line (cs.drop lead)).size).length :=
      (List.takeWhile_sublist _).length_le
    rw [List.length_drop, List.length_drop] at hflags
    simp only [scanFlagged, literal]
    omega
  case heredoc => exact fun _ _ _ _ hsize _ => hsize

end Context

end ConverterAssembly.Ruby
