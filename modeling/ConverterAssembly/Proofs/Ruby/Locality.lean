import ConverterAssembly.Proofs.Ruby.Readers

/-!
# A token does not look over a stop

`Context.scan` reads one token from a text.  The main statement, `scan_append_stops`, says when the
text after a stop does not matter to the token before it.

**Hypothesis.**  `Settled` allows two ways to know that the token ends in time: read in front of the
stop it ends before it, or the stop is a line feed and the token read at the end of the text is
complete.

**Tokens.**  One lemma for each function of the scanner, in the order of their definitions.
-/

namespace ConverterAssembly.Ruby

open Text

/-- When the text `q` after `p` does not matter to a token of which `p` holds all but the first
character `c`: the token `full`, read in front of `q`, ends before `q`, or `q` begins with a line
feed and the token `bare`, read at the end of the text, is complete.  A backslash that hides the
next character is complete only with that character. -/
def Settled (c : Char) (p q : Text) (full bare : Scan) : Prop :=
  (q ≠ [] ∧ full.extent.size ≤ p.length) ∨
    (q.head? = some '\n' ∧ bare.extent.error = none ∧ bare.kind ≠ .data ∧
      (bare.kind = .newline → EndsLine (p.take bare.extent.size)) ∧
      c :: p ≠ ['\\'] ∧ c :: p ≠ ['?', '\\'])

lemma variableSize_append_stops (sigil : Char) (a : Text) {q : Text} (hq : Stops q)
    (h : (variableSize sigil (a ++ q)).2 ≤ a.length ∨ q.head? ≠ some ';') :
    variableSize sigil (a ++ q) = variableSize sigil a := by
  unfold variableSize at h ⊢
  split_ifs at h ⊢
  · exact memberSize_append_stops a hq
  · exact globalSize_append_stops a hq h

namespace Context

variable (ctx : Context) (line : Nat)

lemma scanWord_append_stops (c : Char) (p : Text) {q : Text} (hq : Stops q) :
    ctx.scanWord line c (p ++ q) = ctx.scanWord line c p := by
  have hsize := nameSize_append_stops p hq
  have hdrop : (p ++ q).drop (nameSize p) = p.drop (nameSize p) ++ q :=
    List.drop_append_of_le_length (nameSize_le p)
  have htake : (p ++ q).take (nameSize p) = p.take (nameSize p) :=
    List.take_append_of_le_length (nameSize_le p)
  have hcolon := head?_append_stops (show isStop ':' = false by decide)
  have hwriter : ∀ a : Text, Text.startsWith (a ++ q) ['=', '('] = Text.startsWith a ['=', '('] :=
    fun a => startsWith_append_stops (stopless_of_all (by decide)) a hq
  have hcolon' : ∀ a : Text, a.head? = some ':' →
      (((a ++ q).drop 1).head? = some ':' ↔ (a.drop 1).head? = some ':') := by
    intro a ha
    cases a with
    | nil => simp at ha
    | cons d a => exact hcolon a hq
  simp only [scanWord, hsize, hdrop, htake, endsInMark_append_stops _ hq, hcolon _ hq, hwriter]
  by_cases hlabel : (p.drop (nameSize p)).head? = some ':'
  · simp only [hlabel, ne_eq, hcolon' _ hlabel]
  · simp only [hlabel, decide_false, Bool.false_and]

lemma scanOperator_append_stops (c : Char) (p : Text) {q : Text} (hq : Stops q) :
    ctx.scanOperator line c (p ++ q) = ctx.scanOperator line c p := by
  have h := findStart?_append_stops stopless_operators (c :: p) hq
  rw [List.cons_append] at h
  rw [scanOperator, scanOperator, h]

lemma scanQuoted_append_stops (rules : Quote) {lead : Nat} {c : Char} {p q : Text} (hq : Stops q)
    (hlead : lead ≤ p.length)
    (h : Settled c p q (ctx.scanQuoted line rules lead (p ++ q))
      (ctx.scanQuoted line rules lead p)) :
    ctx.scanQuoted line rules lead (p ++ q) = ctx.scanQuoted line rules lead p := by
  have hread : rules.read line (p.drop lead ++ q) = rules.read line (p.drop lead) := by
    refine readEnclosed_append_stops hq _ _ _ _ ?_
    simp only [Settled, scanQuoted, literal, List.drop_append_of_le_length hlead] at h
    refine h.imp ?_ ?_
    · rintro ⟨hne, hsize⟩
      refine ⟨hne, ?_⟩
      rw [Extent.extend_size] at hsize
      rw [List.length_drop]
      exact Nat.le_sub_of_add_le' hsize
    · rintro ⟨-, herr, -⟩
      exact herr
  rw [scanQuoted, scanQuoted, List.drop_append_of_le_length hlead, hread]

lemma scanFlagged_append_stops (rules : Quote) {lead : Nat} {c : Char} {p q : Text} (hq : Stops q)
    (hlead : lead ≤ p.length)
    (h : Settled c p q (ctx.scanFlagged line rules lead (p ++ q))
      (ctx.scanFlagged line rules lead p)) :
    ctx.scanFlagged line rules lead (p ++ q) = ctx.scanFlagged line rules lead p := by
  have hread : rules.read line (p.drop lead ++ q) = rules.read line (p.drop lead) := by
    refine readEnclosed_append_stops hq _ _ _ _ ?_
    simp only [Settled, scanFlagged, literal, List.drop_append_of_le_length hlead] at h
    refine h.imp ?_ ?_
    · rintro ⟨hne, hsize⟩
      refine ⟨hne, ?_⟩
      rw [List.length_drop]
      change (rules.read line (p.drop lead ++ q)).size ≤ _
      omega
    · rintro ⟨-, herr, -⟩
      exact herr
  have hletter : ∀ c, isStop c = true → isAsciiLetter c = false := by
    intro c hc
    rcases isStop_cases hc with rfl | rfl | rfl | rfl | rfl | rfl | rfl <;> decide
  have hle : (rules.read line (p.drop lead)).size ≤ (p.drop lead).length :=
    readEnclosed_size_le _ _ _ _
  simp only [scanFlagged, List.drop_append_of_le_length hlead, hread,
    List.drop_append_of_le_length hle, takeWhile_append_stops hletter _ hq]

lemma scanNewline_append_stops {p q : Text}
    (h : Settled '\n' p q (ctx.scanNewline line (p ++ q)) (ctx.scanNewline line p)) :
    ctx.scanNewline line (p ++ q) = ctx.scanNewline line p := by
  by_cases hempty : ctx.heredocs.isEmpty = true
  · rw [scanNewline, scanNewline, if_pos hempty, if_pos hempty]
  · simp only [Settled, scanNewline, if_neg hempty] at h ⊢
    rw [readBodies_append]
    refine h.imp_right ?_
    rintro ⟨-, herr, -, hend, -⟩
    exact ⟨herr, hend trivial⟩

lemma scanDocument_append_stops {c : Char} {p q : Text} (hq : Stops q)
    (h : Settled c p q (ctx.scanDocument line (p ++ q)) (ctx.scanDocument line p)) :
    ctx.scanDocument line (p ++ q) = ctx.scanDocument line p := by
  induction p using Text.line_induction with
  | last l hl =>
    exfalso
    rcases h with ⟨hne, hsize⟩ | ⟨-, herr, -⟩
    · obtain ⟨f, r, hqf, hf⟩ := lines_ne_nil hne
      have hf' : 0 < f.length := List.length_pos_of_ne_nil hf
      simp [scanDocument, lines_append_of_no_feed hl hqf] at hsize
      omega
    · by_cases hnil : l = []
      · simp [scanDocument, hnil, lines, readDocument] at herr
      · simp [scanDocument, lines_of_no_feed hl hnil, readDocument] at herr
  | line l p hl _ =>
    rw [List.append_assoc, List.cons_append] at *
    simp only [Settled, scanDocument, lines_line hl, List.headD_cons, List.tail_cons] at h ⊢
    rw [readDocument_append hq]
    refine h.imp ?_ ?_
    · rintro ⟨hne, hsize⟩
      simp only [Extent.extend_size, List.length_append, List.length_cons,
        List.length_nil] at hsize
      exact ⟨hne, by omega⟩
    · rintro ⟨hhead, herr, -⟩
      exact ⟨hhead, herr⟩

lemma scanColon_append_stops {p q : Text} (hq : Stops q)
    (h : Settled ':' p q (ctx.scanColon line (p ++ q)) (ctx.scanColon line p)) :
    ctx.scanColon line (p ++ q) = ctx.scanColon line p := by
  cases p with
  | nil =>
      cases q with
      | nil => rfl
      | cons s q =>
          have hfind := findStart?_append_stops stopless_operatorMethods [] hq
          rw [show Text.findStart? operatorMethods [] = none by decide] at hfind
          rw [List.nil_append] at hfind ⊢
          rcases isStop_cases (hq s rfl) with rfl | rfl | rfl | rfl | rfl | rfl | rfl <;>
            simp +decide [scanColon, hfind]
  | cons d p =>
      have hfind := findStart?_append_stops stopless_operatorMethods (d :: p) hq
      have hdrop : (p ++ q).drop (nameSize p) = p.drop (nameSize p) ++ q :=
        List.drop_append_of_le_length (nameSize_le p)
      rw [List.cons_append] at h hfind ⊢
      simp only [scanColon] at h ⊢
      by_cases hscope : d = ':'
      · simp only [if_pos hscope]
      simp only [if_neg hscope] at h ⊢
      by_cases hdouble : d = '"'
      · simp only [if_pos hdouble] at h ⊢
        exact ctx.scanQuoted_append_stops line _ hq (by simp) h
      simp only [if_neg hdouble] at h ⊢
      by_cases hsingle : d = '\x27'
      · simp only [if_pos hsingle] at h ⊢
        exact ctx.scanQuoted_append_stops line _ hq (by simp) h
      simp only [if_neg hsingle] at h ⊢
      by_cases hname : isNameStart d = true
      · simp only [if_pos hname]
        rw [nameSize_append_stops p hq, hdrop, symbolEndSize_append_stops _ hq]
      simp only [if_neg hname] at h ⊢
      by_cases hsigil : (decide (d = '@') || decide (d = '$')) = true
      · simp only [if_pos hsigil] at h ⊢
        have hvar : variableSize d (p ++ q) = variableSize d p := by
          refine variableSize_append_stops d p hq ?_
          rcases h with ⟨-, hsize⟩ | ⟨hhead, -⟩
          · exact .inl (by simpa [plain] using hsize)
          · exact .inr (by simp [hhead])
        rw [hvar]
      · simp only [if_neg hsigil, hfind]

lemma scanQuestion_append_stops {p q : Text} (hq : Stops q)
    (h : Settled '?' p q (ctx.scanQuestion line (p ++ q)) (ctx.scanQuestion line p)) :
    ctx.scanQuestion line (p ++ q) = ctx.scanQuestion line p := by
  by_cases hop : ctx.expectsOperand = true
  · simp only [scanQuestion, if_pos hop] at h ⊢
    cases p with
    | nil =>
        cases q with
        | nil => rfl
        | cons s q =>
            simp only [List.nil_append] at h ⊢
            have hback : s ≠ '\\' := by
              rintro rfl
              exact absurd (hq '\\' rfl) (by decide)
            rw [if_neg hback] at h ⊢
            -- only a semicolon is not blank, and with it the token would be longer
            split_ifs at h ⊢ with hlit
            · rcases h with ⟨-, hsize⟩ | ⟨hhead, -⟩
              · simp [plain] at hsize
              · obtain rfl : s = '\n' := by simpa using hhead
                exact absurd hlit (by simp [isBlank])
            · rfl
    | cons d p =>
        simp only [List.cons_append] at h ⊢
        by_cases hback : d = '\\'
        · simp only [if_pos hback] at h ⊢
          cases p with
          | cons e p => rfl
          | nil =>
              exfalso
              subst hback
              rcases h with ⟨hne, hsize⟩ | ⟨-, -, -, -, -, hlast⟩
              · cases q with
                | nil => exact hne rfl
                | cons s q => simp [plain] at hsize
              · exact hlast rfl
        · simp only [if_neg hback, any_head?_append_stops (fun _ => isNameChar_of_isStop) p hq]
  · simp only [scanQuestion, if_neg hop]

/-- Whether a quoted or flagged literal: one that begins after a stop is
longer than the text before the stop. -/
lemma not_settled_of_lead {c : Char} {p q : Text} {s : Char} {full bare : Scan}
    (hhead : q.head? = some s) (hs : s ≠ '\n') (hsize : p.length < full.extent.size) :
    ¬ Settled c p q full bare := by
  rintro (⟨-, hle⟩ | ⟨hfeed, -⟩)
  · omega
  · rw [hhead] at hfeed
    exact hs (by simpa using hfeed)

/-- A token that begins with a percent sign. -/
lemma scanPercent?_append_stops {p q : Text} (hq : Stops q)
    (h : Settled '%' p q
      ((ctx.scanPercent? line (p ++ q)).getD (ctx.scanOperator line '%' (p ++ q)))
      ((ctx.scanPercent? line p).getD (ctx.scanOperator line '%' p))) :
    (ctx.scanPercent? line (p ++ q)).getD (ctx.scanOperator line '%' (p ++ q)) =
      (ctx.scanPercent? line p).getD (ctx.scanOperator line '%' p) := by
  have hop := ctx.scanOperator_append_stops line '%' p hq
  have htype : (p ++ q).head?.filter "qQwWiIrsx".toList.contains =
      p.head?.filter "qQwWiIrsx".toList.contains := by
    cases p with
    | nil =>
        cases q with
        | nil => rfl
        | cons s q =>
            rcases isStop_cases (hq s rfl) with rfl | rfl | rfl | rfl | rfl | rfl | rfl <;> rfl
    | cons d p => rfl
  rw [hop] at h ⊢
  simp only [scanPercent?, htype] at h ⊢
  set type := p.head?.filter "qQwWiIrsx".toList.contains with htypedef
  set lead := if type.isSome = true then 1 else 0 with hlead
  have hle : lead ≤ p.length := by
    cases p with
    | nil => simp [hlead, htypedef]
    | cons d p =>
        rw [hlead, List.length_cons]
        split_ifs <;> omega
  rw [List.drop_append_of_le_length hle] at h ⊢
  cases hdrop : p.drop lead with
  | nil =>
      simp only [hdrop, List.nil_append, List.head?_nil, Option.getD_none] at h ⊢
      cases q with
      | nil => rfl
      | cons s q =>
          have hlen : p.length ≤ lead := List.drop_eq_nil_iff.mp hdrop
          simp only [List.head?_cons] at h ⊢
          split_ifs at h ⊢ with hlit hr
          -- the stop would be the delimiter of the literal
          all_goals try rfl
          all_goals
            exfalso
            have hs : s ≠ '\n' := by
              rintro rfl
              simp +decide [isDelimiter] at hlit
            refine not_settled_of_lead (List.head?_cons) hs ?_ h
            simp [scanFlagged, scanQuoted, literal]
            omega
  | cons opening rest =>
      have hne : p ≠ [] := by
        rintro rfl
        simp at hdrop
      have hlt : lead + 1 ≤ p.length := by
        have := congrArg List.length hdrop
        simp at this
        omega
      simp only [hdrop, List.cons_append, List.head?_cons, List.head?_append_of_ne_nil _ hne] at h ⊢
      split_ifs at h ⊢ with hlit hr
      · exact ctx.scanFlagged_append_stops line _ hq hlt h
      · exact ctx.scanQuoted_append_stops line _ hq hlt h
      · rfl

/-- A token that begins with a less-than sign. -/
lemma scanHeredoc?_append_stops {p q : Text} (hq : Stops q)
    (h : Settled '<' p q
      ((ctx.scanHeredoc? line (p ++ q)).getD (ctx.scanOperator line '<' (p ++ q)))
      ((ctx.scanHeredoc? line p).getD (ctx.scanOperator line '<' p))) :
    (ctx.scanHeredoc? line (p ++ q)).getD (ctx.scanOperator line '<' (p ++ q)) =
      (ctx.scanHeredoc? line p).getD (ctx.scanOperator line '<' p) := by
  rw [ctx.scanOperator_append_stops line '<' p hq] at h ⊢
  cases p with
  | nil =>
      have hhead : ([] ++ q).head? ≠ some '<' :=
        fun hc => absurd (hq '<' hc) (by decide)
      simp only [scanHeredoc?, hhead, decide_false, Bool.false_and, List.head?_nil, reduceCtorEq]
      rfl
  | cons d p =>
      have hcons : ∀ cs, ctx.scanHeredoc? line (d :: cs) =
          if (d = '<' ∧ ctx.admitsLiteral (some d) = true) ∧
              ctx.last.any (·.isKeyword "class".toList) = false then
            (heredocOpener cs).map fun o =>
              { ctx.plain line .literal (o.2 + 1) with heredocs := ctx.heredocs ++ [o.1] }
          else none := by
        intro cs
        simp [scanHeredoc?]
      rw [List.cons_append, hcons, hcons] at h ⊢
      split_ifs at h ⊢ with hopens
      · rw [heredocOpener_append_stops p hq]
        rcases h with ⟨-, hsize⟩ | ⟨hhead, -⟩
        · left
          intro o ho
          rw [Option.mem_def] at ho
          rw [ho] at hsize
          simpa [plain] using hsize
        · exact .inr hhead
      · rfl

/-- A slash. -/
lemma scanSlash_append_stops {p q : Text} (hq : Stops q)
    (h : Settled '/' p q (ctx.scanSign line '/' (p ++ q)) (ctx.scanSign line '/' p)) :
    ctx.scanSign line '/' (p ++ q) = ctx.scanSign line '/' p := by
  have hop := ctx.scanOperator_append_stops line '/' p hq
  have hsign : ∀ cs, ctx.scanSign line '/' cs =
      if ctx.admitsLiteral cs.head? then ctx.scanFlagged line ⟨'/', '/', true, true⟩ 0 cs
      else ctx.scanOperator line '/' cs := by
    intro cs
    simp +decide [scanSign, show bracketKind? '/' = none by decide]
  rw [hsign, hsign] at h ⊢
  have hadmits : ctx.admitsLiteral (p ++ q).head? = ctx.admitsLiteral p.head? ∨
      (p = [] ∧ q ≠ [] ∧ q.head? ≠ some '\n' ∧ ctx.admitsLiteral (p ++ q).head? = true) := by
    cases p with
    | cons d p => exact .inl rfl
    | nil =>
        by_cases hb : ctx.beginsArgument q.head? = true
        · refine .inr ⟨rfl, ?_, ?_, by simp [admitsLiteral, hb]⟩
          · rintro rfl
            simp [beginsArgument] at hb
          · intro hn
            simp [beginsArgument, hn, isAsciiBlank] at hb
        · left
          have hnone : ctx.beginsArgument none = false := by simp [beginsArgument]
          rw [Bool.not_eq_true] at hb
          rw [List.nil_append, List.head?_nil, admitsLiteral, admitsLiteral, hnone, hb]
  rcases hadmits with hadmits | ⟨rfl, hne, hfeed, hadmits⟩
  · rw [hadmits, hop] at h ⊢
    split_ifs at h ⊢
    · exact ctx.scanFlagged_append_stops line _ hq (by simp) h
    · rfl
  · -- the stop would be the first character of the literal
    exfalso
    rw [if_pos hadmits] at h
    obtain ⟨s, q, rfl⟩ := List.exists_cons_of_ne_nil hne
    refine not_settled_of_lead List.head?_cons (by simpa using hfeed) ?_ h
    simp [scanFlagged, literal, Quote.read, readEnclosed]

lemma scanSign_append_stops {c : Char} {p q : Text} (hq : Stops q)
    (h : Settled c p q (ctx.scanSign line c (p ++ q)) (ctx.scanSign line c p)) :
    ctx.scanSign line c (p ++ q) = ctx.scanSign line c p := by
  by_cases hslash : c = '/'
  · subst hslash
    exact ctx.scanSlash_append_stops line hq h
  simp only [scanSign, hslash, decide_false, Bool.false_and] at h ⊢
  by_cases hcolon : c = ':'
  · subst hcolon
    simpa using ctx.scanColon_append_stops line hq (by simpa using h)
  by_cases hquestion : c = '?'
  · subst hquestion
    simpa +decide using ctx.scanQuestion_append_stops line hq (by simpa +decide using h)
  by_cases hpercent : c = '%'
  · subst hpercent
    simpa +decide using ctx.scanPercent?_append_stops line hq (by simpa +decide using h)
  by_cases hless : c = '<'
  · subst hless
    simpa +decide using ctx.scanHeredoc?_append_stops line hq (by simpa +decide using h)
  simp only [hcolon, hquestion, hpercent, hless, if_false, Bool.false_eq_true, ne_eq,
    head?_append_stops (show isStop '.' = false by decide) p hq,
    ctx.scanOperator_append_stops line c p hq]

/-- A directive stands alone on its line or before a blank, so a stop can only break it off. -/
lemma isDirective_append_stops {d : Text} (hd : ∀ c ∈ d, isStop c = false) (a : Text) {q : Text}
    (hq : Stops q) (h : a = d → q.head?.all isAsciiBlank = true) :
    isDirective d (a ++ q) = isDirective d a := by
  have hstart := startsWith_append_stops hd a hq
  simp only [Text.startsWith] at hstart
  simp only [isDirective]
  cases hda : Text.dropStart? d a with
  | none =>
      rw [hda, Option.isSome_none] at hstart
      rw [Option.isSome_eq_false_iff.mp hstart |> Option.isNone_iff_eq_none.mp]
  | some r =>
      have ha := Text.dropStart?_eq_some_iff.mp hda
      have hdaq : Text.dropStart? d (a ++ q) = some (r ++ q) := by
        rw [Text.dropStart?_eq_some_iff, ha, List.append_assoc]
      rw [hdaq]
      cases r with
      | nil => simpa using h (by simpa using ha)
      | cons e r => rfl

lemma takeWhile_append_settled {f : Char → Bool} (hf : f '\n' = false) {c : Char} {p q : Text}
    {full bare : Scan} (hfull : full.extent.size = ((p ++ q).takeWhile f).length)
    (h : Settled c p q full bare) : (p ++ q).takeWhile f = p.takeWhile f := by
  by_cases hex : ∃ d ∈ p, f d = false
  · exact takeWhile_append_of_lt (length_takeWhile_lt_of_exists hex) q
  · have hall : ∀ d ∈ p, f d = true := by
      intro d hd
      by_contra hfd
      exact hex ⟨d, hd, by simpa using hfd⟩
    rw [List.takeWhile_append_of_pos hall] at hfull ⊢
    rw [List.takeWhile_eq_self_iff.mpr hall]
    rcases h with ⟨-, hsize⟩ | ⟨hhead, -⟩
    · rw [hfull, List.length_append] at hsize
      have : (q.takeWhile f).length = 0 := by omega
      rw [List.length_eq_zero_iff.mp this, List.append_nil]
    · cases q with
      | nil => simp
      | cons s q =>
          obtain rfl : s = '\n' := by simpa using hhead
          simp [hf]

lemma scanPlain_append_stops {c : Char} {p q : Text} (hq : Stops q)
    (hdir : ctx.atLineStart = true → c :: p = "=begin".toList ∨ c :: p = "__END__".toList →
      q.head?.all isAsciiBlank = true)
    (h : Settled c p q (ctx.scanPlain line c (p ++ q)) (ctx.scanPlain line c p)) :
    ctx.scanPlain line c (p ++ q) = ctx.scanPlain line c p := by
  have hbegin : (ctx.atLineStart && isDirective "=begin".toList (c :: p ++ q)) =
      (ctx.atLineStart && isDirective "=begin".toList (c :: p)) := by
    cases hstart : ctx.atLineStart with
    | false => rfl
    | true =>
        rw [isDirective_append_stops (stopless_of_all (by decide)) _ hq fun hd =>
          hdir hstart (.inl hd)]
  have hdata : (ctx.atLineStart && isDirective "__END__".toList (c :: p ++ q)) =
      (ctx.atLineStart && isDirective "__END__".toList (c :: p)) := by
    cases hstart : ctx.atLineStart with
    | false => rfl
    | true =>
        rw [isDirective_append_stops (stopless_of_all (by decide)) _ hq fun hd =>
          hdir hstart (.inr hd)]
  rw [List.cons_append] at hbegin hdata
  simp only [scanPlain, hbegin, hdata] at h ⊢
  by_cases hfeed : c = '\n'
  · simp only [if_pos hfeed] at h ⊢
    subst hfeed
    exact ctx.scanNewline_append_stops line h
  simp only [if_neg hfeed] at h ⊢
  by_cases hfar : c = '\\' ∧ p = [] ∧ q.head? = some '\n'
  · -- a backslash before the line feed takes it in
    obtain ⟨rfl, rfl, hhead⟩ := hfar
    exfalso
    rcases h with ⟨-, hsize⟩ | ⟨-, -, -, -, hlast, -⟩
    · simp [hhead, plain] at hsize
    · exact hlast rfl
  have hcont : (decide (c = '\\') && decide ((p ++ q).head? = some '\n')) =
      (decide (c = '\\') && decide (p.head? = some '\n')) := by
    cases p with
    | cons d p => rfl
    | nil =>
        by_cases hback : c = '\\'
        · have hhead : q.head? ≠ some '\n' := fun hn => hfar ⟨hback, rfl, hn⟩
          simp [hhead]
        · simp [hback]
  simp only [hcont] at h ⊢
  by_cases hspace : (decide (c = '\\') && decide (p.head? = some '\n')) = true
  · simp only [if_pos hspace]
  simp only [if_neg hspace] at h ⊢
  by_cases hgap : isGap c = true
  · simp only [if_pos hgap] at h ⊢
    rw [takeWhile_append_settled (by decide) rfl h]
  simp only [if_neg hgap] at h ⊢
  by_cases hsemi : c = ';'
  · simp only [if_pos hsemi]
  simp only [if_neg hsemi] at h ⊢
  by_cases hhash : c = '#'
  · simp only [if_pos hhash] at h ⊢
    rw [takeWhile_append_settled (by decide) rfl h]
  simp only [if_neg hhash] at h ⊢
  by_cases hdoc : (ctx.atLineStart && isDirective "=begin".toList (c :: p)) = true
  · simp only [if_pos hdoc] at h ⊢
    exact ctx.scanDocument_append_stops line hq h
  simp only [if_neg hdoc] at h ⊢
  by_cases hend : (ctx.atLineStart && isDirective "__END__".toList (c :: p)) = true
  · exfalso
    simp only [if_pos hend] at h
    rcases h with ⟨hne, hsize⟩ | ⟨-, -, hkind, -⟩
    · have := List.length_pos_of_ne_nil hne
      simp only [scanData, List.length_append] at hsize
      omega
    · exact hkind rfl
  simp only [if_neg hend] at h ⊢
  by_cases hdigit : isDigit c = true
  · simp only [if_pos hdigit, numberSize_append_stops p hq]
  simp only [if_neg hdigit] at h ⊢
  by_cases hdouble : (decide (c = '"') || decide (c = '\x60')) = true
  · simp only [if_pos hdouble] at h ⊢
    exact ctx.scanQuoted_append_stops line _ hq (by simp) h
  simp only [if_neg hdouble] at h ⊢
  by_cases hsingle : c = '\x27'
  · simp only [if_pos hsingle] at h ⊢
    exact ctx.scanQuoted_append_stops line _ hq (by simp) h
  simp only [if_neg hsingle] at h ⊢
  by_cases hsigil : (decide (c = '@') || decide (c = '$')) = true
  · simp only [if_pos hsigil] at h ⊢
    rw [variableSize_append_stops c p hq]
    rcases h with ⟨-, hsize⟩ | ⟨hhead, -⟩
    · exact .inl hsize
    · exact .inr (by simp [hhead])
  simp only [if_neg hsigil] at h ⊢
  by_cases hname : isNameStart c = true
  · simp only [if_pos hname, ctx.scanWord_append_stops line c p hq]
  · simp only [if_neg hname] at h ⊢
    exact ctx.scanSign_append_stops line hq h

/-- A token is read in the same way whatever follows the stop that settles it.  At the start of a
line, a stop that is no blank would keep the words of the directives from being one. -/
theorem scan_append_stops {c : Char} {p q : Text} (hq : Stops q)
    (hdir : ctx.atLineStart = true → c :: p = "=begin".toList ∨ c :: p = "__END__".toList →
      q.head?.all isAsciiBlank = true)
    (h : Settled c p q (ctx.scan line c (p ++ q)) (ctx.scan line c p)) :
    ctx.scan line c (p ++ q) = ctx.scan line c p := by
  have hfind := findStart?_append_stops stopless_operatorMethods (c :: p) hq
  rw [List.cons_append] at hfind
  simp only [scan, hfind] at h ⊢
  cases hname : (if ctx.naming = true then Text.findStart? operatorMethods (c :: p) else none) with
  | some name => rfl
  | none =>
      simp only [hname] at h ⊢
      exact ctx.scanPlain_append_stops line hq hdir h

end Context

end ConverterAssembly.Ruby
