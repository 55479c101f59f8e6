import ConverterAssembly.Proofs.Ruby.Forms

/-!
# Lines are only passed on

The line on which a token starts has no influence on how it is read: it is only passed on to the
tokens after it and to the problems that are met.  So a reading that starts `k` lines further down
is the same reading, with all its lines `k` higher.

**Readers and tokens.**  `scan_shift` says so for one token, and the lemmas before it for the
readers that it calls.
-/

namespace ConverterAssembly.Ruby

/-- The problem `k` lines further down. -/
def SyntaxError.shift (k : Nat) (e : SyntaxError) : SyntaxError :=
  ⟨e.line + k, e.problem⟩

/-- The extent `k` lines further down. -/
def Extent.shift (k : Nat) (e : Extent) : Extent :=
  ⟨e.size, e.line + k, e.error.map (SyntaxError.shift k)⟩

/-- The token `k` lines further down. -/
def Scan.shift (k : Nat) (s : Scan) : Scan :=
  { s with extent := s.extent.shift k }

/-- The enclosure `k` lines further down. -/
def Enclosure.shift (k : Nat) : Enclosure → Enclosure
  | quote rules depth inClass line => quote rules depth inClass (line + k)
  | code depth line => code depth (line + k)

@[simp]
lemma Extent.extend_shift (k count : Nat) (e : Extent) :
    (e.shift k).extend count = (e.extend count).shift k := rfl

/-! ## Readers -/

lemma Enclosure.step_shift (k line : Nat) (c : Char) (next : Option Char) (e : Enclosure) :
    (e.shift k).step (line + k) c next =
      ⟨(e.step line c next).enclosures.map (Enclosure.shift k), (e.step line c next).line + k,
        (e.step line c next).skips⟩ := by
  cases e with
  | quote rules depth inClass start =>
      simp only [Enclosure.shift, Enclosure.step]
      cases depth <;> split_ifs <;> simp [Enclosure.shift] <;> omega
  | code depth start =>
      simp only [Enclosure.shift, Enclosure.step]
      cases depth <;> split_ifs <;> simp [Enclosure.shift] <;> omega

lemma readEnclosed_shift (k : Nat) : ∀ (skip : Bool) (line : Nat) (es : List Enclosure) (a : Text),
    readEnclosed skip (line + k) (es.map (Enclosure.shift k)) a =
      (readEnclosed skip line es a).shift k
  | _, _, [], a => by cases a <;> rfl
  | skip, _, e :: es, [] => by
      have hstart : (e.shift k).startLine = e.startLine + k := by cases e <;> rfl
      cases skip <;> simp [readEnclosed, hstart, Extent.shift, SyntaxError.shift]
  | true, line, e :: es, c :: a => by
      have ih := readEnclosed_shift k false line (e :: es) a
      rw [List.map_cons] at ih ⊢
      rw [readEnclosed, readEnclosed, ih, Extent.extend_shift]
  | false, line, e :: es, c :: a => by
      have ih := readEnclosed_shift k (e.step line c a.head?).skips (e.step line c a.head?).line
        ((e.step line c a.head?).enclosures ++ es) a
      rw [List.map_cons, readEnclosed, readEnclosed, Enclosure.step_shift]
      rw [List.map_append] at ih
      simp only [ih, Extent.extend_shift]

lemma Quote.read_shift (rules : Quote) (k line : Nat) (a : Text) :
    rules.read (line + k) a = (rules.read line a).shift k :=
  readEnclosed_shift k false line [.quote rules 0 false line] a

lemma readBodies_shift (k : Nat) : ∀ (line start : Nat) (hs : List Heredoc) (ls : List Text),
    readBodies (line + k) (start + k) hs ls = (readBodies line start hs ls).shift k
  | _, _, [], ls => by cases ls <;> rfl
  | _, _, _ :: _, [] => rfl
  | line, start, h :: hs, l :: ls => by
      have hline : line + k + l.count '\n' = line + l.count '\n' + k := by omega
      have ihnext := readBodies_shift k (line + l.count '\n') (line + l.count '\n') hs ls
      have ihsame := readBodies_shift k (line + l.count '\n') start (h :: hs) ls
      simp only [readBodies, hline, ihnext, ihsame]
      split_ifs <;> rfl

lemma readDocument_shift (k : Nat) : ∀ (line start : Nat) (ls : List Text),
    readDocument (line + k) (start + k) ls = (readDocument line start ls).shift k
  | _, _, [] => rfl
  | line, start, l :: ls => by
      have hline : line + k + l.count '\n' = line + l.count '\n' + k := by omega
      have ih := readDocument_shift k (line + l.count '\n') start ls
      simp only [readDocument, hline, ih]
      split_ifs <;> rfl

/-! ## Tokens -/

namespace Context

variable (ctx : Context) (k line : Nat)

lemma plain_shift (kind : Kind) (size : Nat) :
    ctx.plain (line + k) kind size = (ctx.plain line kind size).shift k := rfl

lemma scanWord_shift (c : Char) (cs : Text) :
    ctx.scanWord (line + k) c cs = (ctx.scanWord line c cs).shift k := by
  simp only [scanWord, plain_shift]
  split_ifs <;> rfl

lemma scanQuoted_shift (rules : Quote) (lead : Nat) (cs : Text) :
    ctx.scanQuoted (line + k) rules lead cs = (ctx.scanQuoted line rules lead cs).shift k := by
  rw [scanQuoted, scanQuoted, Quote.read_shift]
  rfl

lemma scanFlagged_shift (rules : Quote) (lead : Nat) (cs : Text) :
    ctx.scanFlagged (line + k) rules lead cs = (ctx.scanFlagged line rules lead cs).shift k := by
  simp only [scanFlagged, Quote.read_shift]
  rfl

lemma scanColon_shift (cs : Text) :
    ctx.scanColon (line + k) cs = (ctx.scanColon line cs).shift k := by
  cases cs with
  | nil => rfl
  | cons d ds =>
      simp only [scanColon, plain_shift, scanQuoted_shift]
      cases Text.findStart? operatorMethods (d :: ds) <;> split_ifs <;> rfl

lemma scanQuestion_shift (cs : Text) :
    ctx.scanQuestion (line + k) cs = (ctx.scanQuestion line cs).shift k := by
  cases cs <;> simp only [scanQuestion, plain_shift] <;> split_ifs <;> rfl

lemma scanOperator_shift (c : Char) (cs : Text) :
    ctx.scanOperator (line + k) c cs = (ctx.scanOperator line c cs).shift k := by
  rw [scanOperator, scanOperator]
  cases Text.findStart? operators (c :: cs) <;> rfl

lemma scanPercent?_shift (cs : Text) :
    ctx.scanPercent? (line + k) cs = (ctx.scanPercent? line cs).map (Scan.shift k) := by
  simp only [scanPercent?, scanQuoted_shift, scanFlagged_shift]
  split
  · rfl
  · split_ifs <;> rfl

lemma scanHeredoc?_shift (cs : Text) :
    ctx.scanHeredoc? (line + k) cs = (ctx.scanHeredoc? line cs).map (Scan.shift k) := by
  simp only [scanHeredoc?]
  split_ifs
  · rw [Option.map_map]
    rfl
  · rfl

lemma scanSign_shift (c : Char) (cs : Text) :
    ctx.scanSign (line + k) c cs = (ctx.scanSign line c cs).shift k := by
  have hgetD : ∀ (o : Option Scan) (s : Scan),
      (o.map (Scan.shift k)).getD (s.shift k) = (o.getD s).shift k := by
    intro o s
    cases o <;> rfl
  simp only [scanSign, plain_shift, scanColon_shift, scanQuestion_shift, scanFlagged_shift,
    scanPercent?_shift, scanHeredoc?_shift, scanOperator_shift, hgetD]
  cases bracketKind? c <;> split_ifs <;> rfl

lemma scanNewline_shift (cs : Text) :
    ctx.scanNewline (line + k) cs = (ctx.scanNewline line cs).shift k := by
  have hline : line + k + 1 = line + 1 + k := by omega
  simp only [scanNewline, hline, plain_shift, readBodies_shift]
  split_ifs <;> rfl

lemma scanDocument_shift (cs : Text) :
    ctx.scanDocument (line + k) cs = (ctx.scanDocument line cs).shift k := by
  have hline : line + k + ((Text.lines cs).headD []).count '\n' =
      line + ((Text.lines cs).headD []).count '\n' + k := by omega
  simp only [scanDocument, hline, readDocument_shift]
  rfl

lemma scanData_shift (cs : Text) :
    ctx.scanData (line + k) cs = (ctx.scanData line cs).shift k := by
  have hline : line + k + cs.count '\n' = line + cs.count '\n' + k := by omega
  rw [scanData, scanData, hline]
  rfl

lemma scanPlain_shift (c : Char) (cs : Text) :
    ctx.scanPlain (line + k) c cs = (ctx.scanPlain line c cs).shift k := by
  have hline : line + k + 1 = line + 1 + k := by omega
  simp only [scanPlain, hline, scanNewline_shift, plain_shift, scanDocument_shift, scanData_shift,
    scanQuoted_shift, scanWord_shift, scanSign_shift, apply_ite (Scan.shift k)]

/-- A token that starts `k` lines further down is the same token, with its lines `k` higher. -/
theorem scan_shift (c : Char) (cs : Text) :
    ctx.scan (line + k) c cs = (ctx.scan line c cs).shift k := by
  simp only [scan, plain_shift, scanPlain_shift]
  split <;> rfl

end Context

end ConverterAssembly.Ruby
