import ConverterAssembly.Proofs.Ruby.Fragments
import ConverterAssembly.Ruby.Layout
import Mathlib.Data.List.DropRight

/-!
# Lines with new margins

Where statements are not broken, laying out a source changes nothing but the blanks at the start of
its logical lines.  `Layout.laidOut` gives the tokens of the lines with their new margins, and
`writeLines_eq_laidOut` says that the written text is theirs.

**Roles.**  Blanks have no role and do not change those of other tokens, so lines keep their roles
under new margins (`withRoles_laidOut`).

**Once and for all.**  New margins for lines that have them change nothing
(`laidOut_splitLines_laidOut`), since a margin follows from the tokens after it.
-/

namespace ConverterAssembly.Ruby

/-- Whether a token of a line is not a blank. -/
def isSolid (t : Token × Role) : Bool :=
  t.1.kind ≠ .space

/-- Blanks as a token, where there are any. -/
def blankTokens (text : Text) : List (Token × Role) :=
  if text = [] then [] else [(⟨⟨.space, text⟩, 0, 0⟩, .neutral)]

/-- The margin of a line that starts inside `height` frames. -/
def Layout.margin (layout : Layout) (line : Line) (height : Nat) : Text :=
  if line.isBlank then [] else layout.indentation line height

/-- The tokens of one line with its new margin. -/
def Layout.laidOutLine (layout : Layout) (height : Nat) (line : Line) : List (Token × Role) :=
  blankTokens (layout.margin line height) ++ line.visible ++
    line.terminator.toList.map (·, Role.neutral)

/-- The tokens of lines with new margins, from where `height` frames are open. -/
def Layout.laidOut (layout : Layout) : (height : Nat) → List Line → List (Token × Role)
  | _, [] => []
  | height, line :: rest =>
    layout.laidOutLine height line ++ laidOut layout (heightAfter height line.tokens) rest

/-! ## Lines -/

namespace Layout

variable {layout : Layout}

/-- An indentation is made of one character. -/
lemma eq_indentChar_of_mem_indentation {line : Line} {height : Nat} {c : Char}
    (h : c ∈ layout.indentation line height) : c = layout.indentChar := by
  rw [indentation] at h
  split_ifs at h
  · cases h
  · obtain ⟨unit, hunit, hc⟩ := List.mem_flatten.1 h
    rw [List.eq_of_mem_replicate hunit] at hc
    exact List.eq_of_mem_replicate hc

/-- A line runs to its break. -/
lemma splitLines_append_break {tokens : List (Token × Role)}
    (h : ∀ t ∈ tokens, layout.breaksAt t.1 = false) {n : Token × Role}
    (hn : layout.breaksAt n.1 = true) (rest : List (Token × Role)) :
    layout.splitLines (tokens ++ n :: rest) = ⟨tokens, some n.1⟩ :: layout.splitLines rest := by
  induction tokens with
  | nil => simp [splitLines, hn]
  | cons t tokens ih =>
      obtain ⟨ht, htokens⟩ := List.forall_mem_cons.1 h
      rw [List.cons_append, splitLines, ih htokens]
      simp [ht]

/-- Without a break there is one line. -/
lemma splitLines_of_no_break {tokens : List (Token × Role)} (hne : tokens ≠ [])
    (h : ∀ t ∈ tokens, layout.breaksAt t.1 = false) :
    layout.splitLines tokens = [⟨tokens, none⟩] := by
  induction tokens with
  | nil => exact absurd rfl hne
  | cons t tokens ih =>
      obtain ⟨ht, htokens⟩ := List.forall_mem_cons.1 h
      rw [splitLines, if_neg (by simp [ht])]
      by_cases hnil : tokens = []
      · simp [hnil, splitLines]
      · rw [ih hnil htokens]

lemma mem_of_mem_splitLines {tokens : List (Token × Role)} {line : Line}
    (h : line ∈ layout.splitLines tokens) {t : Token × Role}
    (ht : t ∈ line.tokens) : t ∈ tokens := by
  induction tokens generalizing line with
  | nil => cases h
  | cons u tokens ih =>
      rw [splitLines] at h
      split_ifs at h
      · rcases List.mem_cons.1 h with rfl | h
        · cases ht
        · exact List.mem_cons_of_mem _ (ih h ht)
      · cases hlines : layout.splitLines tokens with
        | nil =>
            rw [hlines] at h
            obtain rfl := List.mem_singleton.1 h
            exact List.mem_cons.2 (.inl (List.mem_singleton.1 ht))
        | cons first lines =>
            rw [hlines] at h ih
            rcases List.mem_cons.1 h with rfl | h
            · rcases List.mem_cons.1 ht with rfl | ht
              · exact List.mem_cons_self
              · exact List.mem_cons_of_mem _ (ih List.mem_cons_self ht)
            · exact List.mem_cons_of_mem _ (ih (List.mem_cons_of_mem _ h) ht)

/-- Where statements are not broken, only line feeds end lines. -/
lemma breaksAt_eq (h : layout.breaksStatements = false) (t : Token) :
    layout.breaksAt t = decide (t.kind = .newline) := by
  simp [breaksAt, h]

end Layout

/-! ## Margins -/

@[simp]
lemma flatMap_blankTokens (text : Text) : (blankTokens text).flatMap (·.1.text) = text := by
  unfold blankTokens
  split_ifs with h
  · rw [h]
    rfl
  · simp

lemma of_mem_blankTokens {text : Text} {t : Token × Role} (h : t ∈ blankTokens text) :
    t = (⟨⟨.space, text⟩, 0, 0⟩, .neutral) := by
  unfold blankTokens at h
  split_ifs at h
  · cases h
  · exact List.mem_singleton.1 h

lemma filter_blankTokens (text : Text) : (blankTokens text).filter isSolid = [] := by
  rw [List.filter_eq_nil_iff]
  intro t ht
  rw [of_mem_blankTokens ht]
  simp [isSolid]

lemma visible_eq (tokens : List (Token × Role)) (terminator : Option Token) :
    Line.visible ⟨tokens, terminator⟩ = tokens.dropWhile (!isSolid ·) := by
  simp [Line.visible, isSolid]

/-- A new margin does not change what is visible. -/
lemma dropWhile_blankTokens_append (text : Text) (tokens : List (Token × Role)) :
    (blankTokens text ++ tokens.dropWhile (!isSolid ·)).dropWhile (!isSolid ·) =
      tokens.dropWhile (!isSolid ·) := by
  rw [List.dropWhile_append_of_pos]
  · exact List.dropWhile_idempotent ..
  · intro t ht
    rw [of_mem_blankTokens ht]
    rfl

lemma filter_dropWhile (tokens : List (Token × Role)) :
    (tokens.dropWhile (!isSolid ·)).filter isSolid = tokens.filter isSolid := by
  induction tokens with
  | nil => rfl
  | cons t tokens ih => by_cases h : isSolid t <;> simp [h, ih]

/-- Blanks do not change the level of a line. -/
lemma levelFrom_dropWhile (level height : Nat) (tokens : List (Token × Role)) :
    levelFrom level height (tokens.dropWhile (!isSolid ·)) = levelFrom level height tokens := by
  induction tokens with
  | nil => rfl
  | cons t tokens ih =>
      by_cases h : t.1.kind = .space
      · have htrivia : t.1.isTrivia = true := by simp [Lexeme.isTrivia, h]
        simpa [isSolid, h, levelFrom, htrivia] using ih
      · simp [isSolid, h]

/-- Blanks open and close nothing. -/
def BlanksNeutral (tokens : List (Token × Role)) : Prop :=
  ∀ t ∈ tokens, t.1.kind = .space → t.2 = .neutral

lemma heightAfter_filter (height : Nat) {tokens : List (Token × Role)} (h : BlanksNeutral tokens) :
    heightAfter height (tokens.filter isSolid) = heightAfter height tokens := by
  induction tokens generalizing height with
  | nil => rfl
  | cons t tokens ih =>
      obtain ⟨ht, htokens⟩ := List.forall_mem_cons.1 h
      by_cases hspace : t.1.kind = .space
      · simpa [isSolid, hspace, heightAfter, ht hspace, Role.heightAfter] using ih height htokens
      · simpa [isSolid, hspace, heightAfter] using ih (t.2.heightAfter height) htokens

namespace Layout

variable {layout : Layout}

/-- New margins open and close nothing. -/
lemma blanksNeutral_laidOut (height : Nat) {tokens : List (Token × Role)}
    (h : BlanksNeutral tokens) :
    BlanksNeutral (layout.laidOut height (layout.splitLines tokens)) := by
  have main : ∀ lines : List Line, (∀ line ∈ lines, BlanksNeutral line.tokens) →
      ∀ height, BlanksNeutral (layout.laidOut height lines) := by
    intro lines
    induction lines with
    | nil => simp [laidOut, BlanksNeutral]
    | cons line lines ih =>
        intro hlines height t ht hspace
        obtain ⟨hline, hlines⟩ := List.forall_mem_cons.1 hlines
        simp only [laidOut, laidOutLine, List.mem_append, List.mem_map] at ht
        obtain ((ht | ht) | ⟨n, -, rfl⟩) | ht := ht
        · rw [of_mem_blankTokens ht]
        · exact hline t ((List.dropWhile_suffix _).subset ht) hspace
        · rfl
        · exact ih hlines _ t ht hspace
  exact main _ (fun line hline t ht => h t (mem_of_mem_splitLines hline ht)) height

/-- A line with a new margin has this margin. -/
lemma laidOut_cons_laidOut (height : Nat) {tokens : List (Token × Role)} (h : BlanksNeutral tokens)
    (terminator : Option Token) (rest : List Line) :
    layout.laidOut height
        (⟨blankTokens (layout.margin ⟨tokens, terminator⟩ height) ++
          Line.visible ⟨tokens, terminator⟩, terminator⟩ :: rest) =
      blankTokens (layout.margin ⟨tokens, terminator⟩ height) ++
        Line.visible ⟨tokens, terminator⟩ ++ terminator.toList.map (·, Role.neutral) ++
        layout.laidOut (heightAfter height tokens) rest := by
  set line : Line := ⟨tokens, terminator⟩ with hline
  set line' : Line := ⟨blankTokens (layout.margin line height) ++ line.visible, terminator⟩
    with hline'
  have hvisible : line'.visible = line.visible := by
    rw [hline', visible_eq, hline, visible_eq, dropWhile_blankTokens_append]
  have hlevel : line'.level height = line.level height := by
    rw [Line.level, ← levelFrom_dropWhile, Line.level, ← levelFrom_dropWhile _ _ line.tokens,
      ← visible_eq line'.tokens terminator, ← visible_eq line.tokens terminator]
    exact congrArg (levelFrom height height) hvisible
  have hmargin : layout.margin line' height = layout.margin line height := by
    unfold margin indentation Line.isBlank Line.isUnindented
    rw [hvisible, hlevel]
  have hheight : heightAfter height line'.tokens = heightAfter height tokens := by
    have hneutral : BlanksNeutral line'.tokens := by
      intro t ht hspace
      rcases List.mem_append.1 ht with ht | ht
      · rw [of_mem_blankTokens ht]
      · exact h t ((List.dropWhile_suffix _).subset ht) hspace
    rw [← heightAfter_filter height hneutral, ← heightAfter_filter height h, hline', hline,
      visible_eq, List.filter_append, filter_blankTokens, filter_dropWhile, List.nil_append]
  rw [laidOut, laidOutLine, hvisible, hmargin, hheight]

end Layout

namespace Layout

variable {layout : Layout} (hbreaks : layout.breaksStatements = false)
include hbreaks

/-- The written text is that of the lines with their new margins. -/
lemma writeLines_eq_laidOut (height : Nat) (tokens : List (Token × Role)) :
    layout.writeLines false height (layout.splitLines tokens) =
      (layout.laidOut height (layout.splitLines tokens)).flatMap (·.1.text) := by
  induction tokens using Text.break_induction (fun t : Token × Role => layout.breaksAt t.1)
      generalizing height with
  | last tokens h =>
      by_cases hnil : tokens = []
      · rw [hnil]
        rfl
      · rw [splitLines_of_no_break hnil h]
        by_cases hblank : (⟨tokens, none⟩ : Line).isBlank = true
        · have hvisible : (⟨tokens, none⟩ : Line).visible = [] := by
            simpa [Line.isBlank] using hblank
          simp [writeLines, laidOut, laidOutLine, margin, hblank, hvisible]
        · simp [writeLines, laidOut, laidOutLine, margin, hblank, Line.body]
  | line tokens n rest h hn ih =>
      have hkind : n.1.kind = .newline := by simpa [breaksAt_eq hbreaks] using hn
      rw [splitLines_append_break h hn]
      by_cases hblank : (⟨tokens, some n.1⟩ : Line).isBlank = true
      · have hvisible : (⟨tokens, some n.1⟩ : Line).visible = [] := by
          simpa [Line.isBlank] using hblank
        simp [writeLines, laidOut, laidOutLine, margin, hblank, hvisible, hkind, ih]
      · simp [writeLines, laidOut, laidOutLine, margin, hblank, Line.body, hkind, ih]

/-- New margins keep all other tokens. -/
lemma filter_laidOut (height : Nat) {tokens : List (Token × Role)}
    (h : ∀ t ∈ tokens, t.1.kind = .newline → t.2 = .neutral) :
    (layout.laidOut height (layout.splitLines tokens)).filter isSolid = tokens.filter isSolid := by
  induction tokens using Text.break_induction (fun t : Token × Role => layout.breaksAt t.1)
      generalizing height with
  | last tokens hlast =>
      by_cases hnil : tokens = []
      · rw [hnil]
        rfl
      · rw [splitLines_of_no_break hnil hlast]
        simp [laidOut, laidOutLine, visible_eq, filter_blankTokens, filter_dropWhile]
  | line tokens n rest hline hn ih =>
      have hkind : n.1.kind = .newline := by simpa [breaksAt_eq hbreaks] using hn
      have hneutral : n.2 = .neutral := h n (by simp) hkind
      have hrest := ih (heightAfter height tokens) fun t ht => h t (by simp [ht])
      have hpair : (n.1, Role.neutral) = n := by rw [← hneutral]
      rw [splitLines_append_break hline hn]
      simp [laidOut, laidOutLine, visible_eq, filter_blankTokens, filter_dropWhile,
        List.filter_cons, hrest, hpair]

/-- A new margin does not break a line. -/
lemma breaksAt_of_mem_margin {height : Nat} {tokens : List (Token × Role)}
    {terminator : Option Token} (h : ∀ t ∈ tokens, layout.breaksAt t.1 = false) :
    ∀ t ∈ blankTokens (layout.margin ⟨tokens, terminator⟩ height) ++
      Line.visible ⟨tokens, terminator⟩, layout.breaksAt t.1 = false := by
  intro t ht
  rcases List.mem_append.1 ht with ht | ht
  · rw [of_mem_blankTokens ht, breaksAt_eq hbreaks]
    rfl
  · exact h t ((List.dropWhile_suffix _).subset ht)

/-- New margins for lines that have them change nothing. -/
lemma laidOut_splitLines_laidOut (height : Nat) {tokens : List (Token × Role)}
    (h : BlanksNeutral tokens) :
    layout.laidOut height (layout.splitLines (layout.laidOut height (layout.splitLines tokens))) =
      layout.laidOut height (layout.splitLines tokens) := by
  induction tokens using Text.break_induction (fun t : Token × Role => layout.breaksAt t.1)
      generalizing height with
  | last tokens hlast =>
      by_cases hnil : tokens = []
      · rw [hnil]
        rfl
      · have hone : ∀ line : Line, layout.laidOut height [line] =
            blankTokens (layout.margin line height) ++ line.visible ++
              line.terminator.toList.map (·, Role.neutral) := fun line => List.append_nil _
        rw [splitLines_of_no_break hnil hlast, hone, Option.toList_none, List.map_nil,
          List.append_nil]
        by_cases hempty : blankTokens (layout.margin ⟨tokens, none⟩ height) ++
            Line.visible ⟨tokens, none⟩ = []
        · rw [hempty]
          rfl
        · rw [splitLines_of_no_break hempty (breaksAt_of_mem_margin hbreaks hlast),
            laidOut_cons_laidOut height h]
          simp [laidOut]
  | line tokens n rest hline hn ih =>
      have htokens : BlanksNeutral tokens := fun t ht => h t (List.mem_append_left _ ht)
      have hrest : BlanksNeutral rest := fun t ht => h t (by simp [ht])
      have hlaid : layout.laidOut height (⟨tokens, some n.1⟩ :: layout.splitLines rest) =
          blankTokens (layout.margin ⟨tokens, some n.1⟩ height) ++
            Line.visible ⟨tokens, some n.1⟩ ++ (n.1, Role.neutral) ::
              layout.laidOut (heightAfter height tokens) (layout.splitLines rest) := by
        rw [laidOut, laidOutLine]
        simp
      rw [splitLines_append_break hline hn, hlaid,
        splitLines_append_break (breaksAt_of_mem_margin hbreaks hline)
        (n := (n.1, Role.neutral)) hn, laidOut_cons_laidOut height htokens, ih _ hrest]
      simp

end Layout

/-! ## Roles -/

/-- Tokens with their roles, after the token `prev`. -/
def withRolesFrom (prev : Option Lexeme) (inHeader : Bool) (tokens : List Token) :
    List (Token × Role) :=
  tokens.zip (rolesFrom prev inHeader (tokens.map (·.toLexeme)))

lemma withRolesFrom_cons (prev : Option Lexeme) (inHeader : Bool) (t : Token)
    (tokens : List Token) :
    withRolesFrom prev inHeader (t :: tokens) =
      (t, roleOf prev inHeader t.toLexeme (tokens.map (·.toLexeme))) ::
        withRolesFrom (if t.isTrivia then prev else some t.toLexeme)
          (headerAfter prev inHeader t.toLexeme) tokens := rfl

lemma solid_map_toLexeme (tokens : List Token) :
    solid (tokens.map (·.toLexeme)) = (tokens.filter (·.kind ≠ .space)).map (·.toLexeme) := by
  rw [solid, List.filter_map]
  rfl

/-- A blank has no role, and what follows has its role without it. -/
lemma withRolesFrom_cons_of_space {t : Token} (h : t.kind = .space) (prev : Option Lexeme)
    (inHeader : Bool) (tokens : List Token) :
    withRolesFrom prev inHeader (t :: tokens) =
      (t, .neutral) :: withRolesFrom prev inHeader tokens := by
  have htrivia : t.isTrivia = true := by simp [Lexeme.isTrivia, h]
  rw [withRolesFrom_cons, roleOf_of_space h, headerAfter_of_space h, if_pos htrivia]

/-- Blanks and line feeds have no role. -/
lemma role_withRolesFrom {prev : Option Lexeme} {inHeader : Bool} {tokens : List Token} :
    ∀ t ∈ withRolesFrom prev inHeader tokens, t.1.kind = .space ∨ t.1.kind = .newline →
      t.2 = .neutral := by
  induction tokens generalizing prev inHeader with
  | nil => simp [withRolesFrom]
  | cons t tokens ih =>
      rw [withRolesFrom_cons]
      refine List.forall_mem_cons.2 ⟨?_, ih⟩
      rintro (h | h)
      · exact roleOf_of_space h ..
      · have hkind : t.kind = .newline := h
        simp [roleOf, hkind]

/-- Without blanks the other roles are the same. -/
lemma filter_withRolesFrom (prev : Option Lexeme) (inHeader : Bool) (tokens : List Token) :
    (withRolesFrom prev inHeader tokens).filter isSolid =
      withRolesFrom prev inHeader (tokens.filter (·.kind ≠ .space)) := by
  induction tokens generalizing prev inHeader with
  | nil => rfl
  | cons t tokens ih =>
      by_cases h : t.kind = .space
      · rw [withRolesFrom_cons_of_space h, List.filter_cons_of_neg (by simp [isSolid, h]),
          List.filter_cons_of_neg (by simp [h]), ih]
      · rw [withRolesFrom_cons, List.filter_cons_of_pos (by simp [isSolid, h]),
          List.filter_cons_of_pos (by simp [h]), withRolesFrom_cons, ih, ← solid_map_toLexeme,
          roleOf_solid]

/-- The roles of the tokens that are not blanks determine all roles. -/
lemma eq_withRolesFrom {prev : Option Lexeme} {inHeader : Bool} {tokens : List (Token × Role)}
    (hneutral : BlanksNeutral tokens)
    (h : tokens.filter isSolid =
      withRolesFrom prev inHeader ((tokens.map (·.1)).filter (·.kind ≠ .space))) :
    tokens = withRolesFrom prev inHeader (tokens.map (·.1)) := by
  induction tokens generalizing prev inHeader with
  | nil => rfl
  | cons t tokens ih =>
      obtain ⟨ht, htokens⟩ := List.forall_mem_cons.1 hneutral
      rw [List.map_cons] at h ⊢
      by_cases hspace : t.1.kind = .space
      · rw [List.filter_cons_of_neg (by simp [isSolid, hspace]),
          List.filter_cons_of_neg (by simp [hspace])] at h
        rw [withRolesFrom_cons_of_space hspace, ← ih htokens h, ← ht hspace]
      · rw [List.filter_cons_of_pos (by simp [isSolid, hspace]),
          List.filter_cons_of_pos (by simp [hspace]), withRolesFrom_cons, List.cons.injEq,
          ← solid_map_toLexeme, roleOf_solid] at h
        rw [withRolesFrom_cons, ← ih htokens h.2, ← h.1]

section

variable {layout : Layout} (hbreaks : layout.breaksStatements = false) (tokens : List Token)
include hbreaks

/-- New margins keep all tokens that are not blanks, with their roles. -/
lemma filter_laidOut_withRoles :
    (layout.laidOut 0 (layout.splitLines (withRoles tokens))).filter isSolid =
      (withRoles tokens).filter isSolid :=
  Layout.filter_laidOut hbreaks 0 fun t ht hkind =>
    @role_withRolesFrom none false tokens t ht (.inr hkind)

/-- Lines keep their roles under new margins. -/
lemma withRoles_laidOut :
    layout.laidOut 0 (layout.splitLines (withRoles tokens)) =
      withRoles ((layout.laidOut 0 (layout.splitLines (withRoles tokens))).map (·.1)) := by
  have hfilter := filter_laidOut_withRoles hbreaks tokens
  set laid := layout.laidOut 0 (layout.splitLines (withRoles tokens)) with hlaid
  have hneutral : BlanksNeutral (withRoles tokens) := fun t ht hspace =>
    @role_withRolesFrom none false tokens t ht (.inl hspace)
  have hroles : laid.filter isSolid = withRolesFrom none false (tokens.filter (·.kind ≠ .space)) :=
    hfilter.trans (filter_withRolesFrom none false tokens)
  have htokens : (laid.map (·.1)).filter (·.kind ≠ .space) = tokens.filter (·.kind ≠ .space) := by
    have hmap := congrArg (List.map (·.1)) hroles
    rw [List.filter_map]
    refine Eq.trans ?_ (hmap.trans (List.map_fst_zip (by simp)))
    rfl
  refine eq_withRolesFrom (Layout.blanksNeutral_laidOut 0 hneutral) ?_
  rw [hroles, htokens]

end

/-! ## Places -/

/-- A token without its place. -/
def Token.strip (t : Token) : Token :=
  ⟨t.toLexeme, 0, 0⟩

/-- A token with its role and without its place. -/
def stripped (t : Token × Role) : Token × Role :=
  (t.1.strip, t.2)

/-- A line without the places of its tokens. -/
def Line.strip (line : Line) : Line :=
  ⟨line.tokens.map stripped, line.terminator.map Token.strip⟩

lemma splitLines_map_stripped (layout : Layout) (tokens : List (Token × Role)) :
    layout.splitLines (tokens.map stripped) = (layout.splitLines tokens).map Line.strip := by
  induction tokens with
  | nil => rfl
  | cons t tokens ih =>
      have hbreaks : layout.breaksAt (stripped t).1 = layout.breaksAt t.1 := rfl
      rw [List.map_cons, Layout.splitLines, Layout.splitLines, ih, hbreaks]
      by_cases h : layout.breaksAt t.1 = true
      · rw [if_pos h, if_pos h]
        rfl
      · rw [if_neg h, if_neg h]
        cases layout.splitLines tokens <;> rfl

lemma levelFrom_map_stripped (level height : Nat) (tokens : List (Token × Role)) :
    levelFrom level height (tokens.map stripped) = levelFrom level height tokens := by
  induction tokens generalizing level height with
  | nil => rfl
  | cons t tokens ih =>
      have htrivia : (stripped t).1.isTrivia = t.1.isTrivia := rfl
      have hrole : (stripped t).2 = t.2 := rfl
      simp only [List.map_cons, levelFrom, htrivia, hrole, ih]

namespace Line

variable (line : Line)

lemma visible_strip : line.strip.visible = line.visible.map stripped := by
  rw [strip, visible, List.dropWhile_map]
  rfl

lemma isBlank_strip : line.strip.isBlank = line.isBlank := by
  rw [isBlank, visible_strip, List.isEmpty_map]
  rfl

lemma indentation_strip (layout : Layout) (height : Nat) :
    layout.indentation line.strip height = layout.indentation line height := by
  have hlevel : line.strip.level height = line.level height :=
    levelFrom_map_stripped height height line.tokens
  have hunindented : line.strip.isUnindented = line.isUnindented := by
    rw [isUnindented, visible_strip, List.head?_map, Option.any_map]
    rfl
  rw [Layout.indentation, Layout.indentation, hlevel, hunindented]

lemma heightAfter_strip (height : Nat) :
    heightAfter height line.strip.tokens = heightAfter height line.tokens := by
  rw [strip, heightAfter, List.foldl_map]
  rfl

end Line

/-- Places do not matter to new margins. -/
lemma laidOut_map_stripped (layout : Layout) (height : Nat) (tokens : List (Token × Role)) :
    layout.laidOut height (layout.splitLines (tokens.map stripped)) =
      (layout.laidOut height (layout.splitLines tokens)).map stripped := by
  rw [splitLines_map_stripped]
  induction layout.splitLines tokens generalizing height with
  | nil => rfl
  | cons line lines ih =>
      have hmargin : layout.margin line.strip height = layout.margin line height := by
        rw [Layout.margin, Layout.margin, line.isBlank_strip, line.indentation_strip]
      have hblank : ∀ text, (blankTokens text).map stripped = blankTokens text := by
        intro text
        unfold blankTokens
        split_ifs <;> rfl
      have hterminator : line.strip.terminator.toList.map (·, Role.neutral) =
          (line.terminator.toList.map (·, Role.neutral)).map stripped := by
        cases hterm : line.terminator <;> simp [Line.strip, hterm, stripped]
      rw [List.map_cons, Layout.laidOut, Layout.laidOut, Layout.laidOutLine, Layout.laidOutLine,
        line.visible_strip, hmargin, line.heightAfter_strip, hterminator, ih]
      simp only [List.map_append, hblank]

/-- Lexemes with their roles, as tokens without places. -/
def unplaced (ls : List Lexeme) : List (Token × Role) :=
  (ls.map fun l => (⟨l, 0, 0⟩ : Token)).zip (roles ls)

lemma map_stripped_withRoles_eq (ts : List Token) :
    (withRoles ts).map stripped = unplaced (ts.map (·.toLexeme)) := by
  rw [unplaced, withRoles, List.map_map, List.zip_map_left]
  rfl

/-- Tokens with the same lexemes have the same roles. -/
lemma map_stripped_withRoles {ts us : List Token}
    (h : ts.map (·.toLexeme) = us.map (·.toLexeme)) :
    (withRoles ts).map stripped = (withRoles us).map stripped := by
  rw [map_stripped_withRoles_eq, map_stripped_withRoles_eq, h]

lemma flatMap_map_stripped (tokens : List (Token × Role)) :
    (tokens.map stripped).flatMap (·.1.text) = tokens.flatMap (·.1.text) :=
  List.flatMap_map ..

end ConverterAssembly.Ruby
