import ConverterAssembly.Proofs.Ruby.Conserved

/-!
# Semicolons at the ends of lines

Before a fragment is laid out, the semicolons that begin or end its lines are dropped, without a
look at what they stand in.  `thinned` is the fragment without them: the wrapper around a fragment
has no part in this (`wrapFragment_eq`).

**Nothing to drop.**  `KeepsSemicolons` is for texts that keep all their semicolons.  It holds of
texts that are put together of such texts line by line.
-/

namespace ConverterAssembly.Ruby

open Text

/-- A fragment without the semicolons that begin or end its lines. -/
def thinned (code : Text) : Text :=
  dropTrailingSemicolons (dropLeadingSemicolons code)

/-! ## In the wrapper -/

lemma dropLeadingSemicolons_append_feed (a b : Text) :
    dropLeadingSemicolons (a ++ '\n' :: b) =
      dropLeadingSemicolons (a ++ ['\n']) ++ dropLeadingSemicolons b := by
  rw [dropLeadingSemicolons, lines_append_feed, List.flatMap_append, dropLeadingSemicolons,
    dropLeadingSemicolons]

lemma dropLeadingSemicolon_append_feed {line : Text} :
    dropLeadingSemicolon (line ++ ['\n']) = dropLeadingSemicolon line ++ ['\n'] := by
  have hdrop : (line ++ ['\n']).dropWhile (fun c => c = ' ' || c = '\t') =
      (line.dropWhile fun c => c = ' ' || c = '\t') ++ ['\n'] := by
    rw [List.dropWhile_append]
    split_ifs with h
    · rw [List.isEmpty_iff.1 h]
      rfl
    · rfl
  rw [dropLeadingSemicolon, dropLeadingSemicolon, hdrop]
  cases line.dropWhile fun c => c = ' ' || c = '\t' with
  | nil => rfl
  | cons c rest =>
      rw [List.cons_append]
      dsimp only
      split_ifs <;> rfl

/-- The line feed of the last line has no part in what it begins with. -/
lemma dropLeadingSemicolons_append_last_feed (a : Text) :
    dropLeadingSemicolons (a ++ ['\n']) = dropLeadingSemicolons a ++ ['\n'] := by
  induction a using line_induction with
  | last l hl =>
      by_cases hne : l = []
      · rw [hne]
        rfl
      · rw [dropLeadingSemicolons, dropLeadingSemicolons, lines_line hl, lines_of_no_feed hl hne,
          lines, List.flatMap_singleton, List.flatMap_singleton, dropLeadingSemicolon_append_feed]
  | line l p hl ih =>
      rw [List.append_assoc, List.cons_append, dropLeadingSemicolons_append_feed, ih,
        dropLeadingSemicolons_append_feed l p, List.append_assoc]

/-- The blanks at the end of a text fall away in front of the end of the wrapper too. -/
lemma trailingBlanks?_append_closing (text : Text) :
    trailingBlanks? (text ++ wrapperClosing) = trailingBlanks? text ∧
      ∀ size ∈ trailingBlanks? text, size ≤ text.length := by
  set blanks := text.takeWhile isBlank with hblanks
  have hle : blanks.length ≤ text.length := (List.takeWhile_prefix _).length_le
  rw [trailingBlanks?, trailingBlanks?, List.takeWhile_append, ← hblanks]
  by_cases hall : blanks.length = text.length
  · -- the blanks reach to the line feed of the wrapper, which is the last of them
    have hclosing : wrapperClosing.takeWhile isBlank = ['\n'] := by decide
    have hsame : blanks = text := (List.takeWhile_prefix _).eq_of_length hall
    rw [if_pos hall, hclosing]
    simp only [hsame, List.drop_length, List.isEmpty_nil, if_true]
    have hrest : (text ++ wrapperClosing).drop (text ++ ['\n']).length = "end\n".toList := by
      rw [show wrapperClosing = ['\n'] ++ "end\n".toList from rfl, ← List.append_assoc,
        List.drop_left]
    rw [hrest]
    simp
  · rw [if_neg hall, List.drop_append_of_le_length hle]
    have hmore : text.drop blanks.length ≠ [] := by
      rw [ne_eq, List.drop_eq_nil_iff]
      omega
    have hempty : ∀ more : Text, (text.drop blanks.length ++ more).isEmpty = false := by
      intro more
      simp [hmore]
    have hempty' := hempty []
    rw [List.append_nil] at hempty'
    rw [hempty, hempty']
    refine ⟨rfl, fun size hsize => ?_⟩
    simp only [Bool.false_eq_true, if_false, Option.mem_def] at hsize
    split_ifs at hsize
    obtain rfl := Option.some.inj hsize
    omega

lemma dropTrailingSemicolonsFrom_append_closing {skip : Nat} {text : Text}
    (h : skip ≤ text.length) :
    dropTrailingSemicolonsFrom skip (text ++ wrapperClosing) =
      dropTrailingSemicolonsFrom skip text ++ wrapperClosing := by
  induction text generalizing skip with
  | nil =>
      obtain rfl : skip = 0 := Nat.le_zero.1 h
      rfl
  | cons c text ih =>
      cases skip with
      | succ skip => exact ih (Nat.le_of_succ_le_succ h)
      | zero =>
          obtain ⟨hsame, hsize⟩ := trailingBlanks?_append_closing text
          rw [List.cons_append, dropTrailingSemicolonsFrom, dropTrailingSemicolonsFrom, hsame]
          by_cases hc : c = ';'
          · rw [if_pos hc, if_pos hc]
            cases hblanks : trailingBlanks? text with
            | none => exact congrArg (c :: ·) (ih (Nat.zero_le _))
            | some size => exact ih (hsize size hblanks)
          · rw [if_neg hc, if_neg hc]
            exact congrArg (c :: ·) (ih (Nat.zero_le _))

lemma dropTrailingSemicolonsFrom_append_of_not_mem {a : Text} (h : ';' ∉ a) (b : Text) :
    dropTrailingSemicolonsFrom 0 (a ++ b) = a ++ dropTrailingSemicolonsFrom 0 b := by
  induction a with
  | nil => rfl
  | cons c a ih =>
      rw [List.mem_cons, not_or] at h
      rw [List.cons_append, dropTrailingSemicolonsFrom, if_neg (fun hc => h.1 hc.symm), ih h.2,
        List.cons_append]

/-- The wrapper stands around the fragment without the semicolons at the ends of its lines. -/
theorem wrapFragment_eq (code : Text) :
    wrapFragment code = wrapperOpening ++ (thinned code ++ wrapperClosing) := by
  have hopening : ∀ text, dropLeadingSemicolons (wrapperOpening ++ text) =
      wrapperOpening ++ dropLeadingSemicolons text := by
    intro text
    rw [show wrapperOpening = "module M_".toList ++ ['\n'] from rfl, List.append_assoc,
      List.singleton_append, dropLeadingSemicolons_append_feed]
    rfl
  have hclosing : dropLeadingSemicolons (code ++ wrapperClosing) =
      dropLeadingSemicolons code ++ wrapperClosing := by
    rw [show wrapperClosing = '\n' :: "end\n".toList from rfl, dropLeadingSemicolons_append_feed,
      dropLeadingSemicolons_append_last_feed, List.append_assoc]
    rfl
  rw [wrapFragment, List.append_assoc, hopening, hclosing, dropTrailingSemicolons,
    dropTrailingSemicolonsFrom_append_of_not_mem (by decide),
    dropTrailingSemicolonsFrom_append_closing (Nat.zero_le _)]
  rfl

/-! ## Nothing to drop -/

/-- No semicolon of the text begins or ends a line. -/
structure KeepsSemicolons (text : Text) : Prop where
  leading : dropLeadingSemicolons text = text
  trailing : dropTrailingSemicolons text = text

instance (text : Text) : Decidable (KeepsSemicolons text) :=
  decidable_of_iff (dropLeadingSemicolons text = text ∧ dropTrailingSemicolons text = text)
    ⟨fun h => ⟨h.1, h.2⟩, fun h => ⟨h.1, h.2⟩⟩

lemma dropLeadingSemicolon_suffix (line : Text) : dropLeadingSemicolon line <:+ line := by
  obtain ⟨lead, hline, -⟩ := exists_lead_dropLeadingSemicolon line
  exact ⟨lead, hline.symm⟩

lemma length_dropTrailingSemicolonsFrom_le (skip : Nat) (text : Text) :
    (dropTrailingSemicolonsFrom skip text).length ≤ text.length := by
  fun_induction dropTrailingSemicolonsFrom skip text with
  | case1 => exact Nat.le_refl _
  | case2 skip c cs ih => exact ih.trans (Nat.le_succ _)
  | case3 cs size hsize ih => exact ih.trans (Nat.le_succ _)
  | case4 cs hnone ih => exact Nat.succ_le_succ ih
  | case5 c cs hc ih => exact Nat.succ_le_succ ih

/-- Where nothing is dropped, no semicolon is. -/
lemma of_dropTrailingSemicolons_cons {c : Char} {cs : Text}
    (h : dropTrailingSemicolonsFrom 0 (c :: cs) = c :: cs) :
    (c = ';' → trailingBlanks? cs = none) ∧ dropTrailingSemicolonsFrom 0 cs = cs := by
  rw [dropTrailingSemicolonsFrom] at h
  by_cases hc : c = ';'
  · rw [if_pos hc] at h
    cases hblanks : trailingBlanks? cs with
    | none =>
        rw [hblanks] at h
        exact ⟨fun _ => rfl, (List.cons.inj h).2⟩
    | some size =>
        rw [hblanks] at h
        have hlength := length_dropTrailingSemicolonsFrom_le size cs
        have := congrArg List.length h
        simp only [List.length_cons] at this
        omega
  · rw [if_neg hc] at h
    exact ⟨fun hc' => absurd hc' hc, (List.cons.inj h).2⟩

lemma dropTrailingSemicolons_cons {c : Char} {cs : Text}
    (hc : c = ';' → trailingBlanks? cs = none) :
    dropTrailingSemicolonsFrom 0 (c :: cs) = c :: dropTrailingSemicolonsFrom 0 cs := by
  rw [dropTrailingSemicolonsFrom]
  split_ifs with h
  · rw [hc h]
  · rfl

/-- A semicolon stays if something on its line follows it. -/
lemma trailingBlanks?_eq_none_iff (text : Text) :
    trailingBlanks? text = none ↔
      (text.takeWhile isBlank).length < text.length ∧ '\n' ∉ text.takeWhile isBlank := by
  have hle : (text.takeWhile isBlank).length ≤ text.length := (List.takeWhile_prefix _).length_le
  have hempty : (text.drop (text.takeWhile isBlank).length).isEmpty = true ↔
      ¬ (text.takeWhile isBlank).length < text.length := by
    rw [List.isEmpty_iff, List.drop_eq_nil_iff]
    omega
  rw [trailingBlanks?]
  simp only [hempty, List.contains_eq_mem, decide_eq_true_eq]
  split_ifs with h hfeed <;> simp_all

lemma trailingBlanks?_append {text : Text} (h : trailingBlanks? text = none) (more : Text) :
    trailingBlanks? (text ++ more) = none := by
  rw [trailingBlanks?_eq_none_iff] at h ⊢
  rw [takeWhile_append_of_lt h.1, List.length_append]
  exact ⟨by omega, h.2⟩

lemma trailingBlanks?_of_append_feed {text : Text} (h : trailingBlanks? (text ++ ['\n']) = none) :
    trailingBlanks? text = none := by
  rw [trailingBlanks?_eq_none_iff] at h ⊢
  rw [List.takeWhile_append] at h
  split_ifs at h with hall
  · exact absurd (List.mem_append_right _ (by decide)) h.2
  · have hle : (text.takeWhile isBlank).length ≤ text.length := (List.takeWhile_prefix _).length_le
    exact ⟨by omega, h.2⟩

namespace KeepsSemicolons

variable {a b : Text}

lemma thinned_eq (h : KeepsSemicolons a) : thinned a = a := by
  rw [thinned, h.leading, h.trailing]

/-- Whole lines keep their semicolons in front of others. -/
lemma append (ha : KeepsSemicolons a) (hb : KeepsSemicolons b) (hends : a.getLast? = some '\n') :
    KeepsSemicolons (a ++ b) := by
  constructor
  · obtain ⟨init, rfl⟩ := List.getLast?_eq_some_iff.1 hends
    rw [List.append_assoc, List.singleton_append, dropLeadingSemicolons_append_feed, ha.leading,
      hb.leading, List.append_assoc, List.singleton_append]
  · have happend : ∀ a : Text, dropTrailingSemicolonsFrom 0 a = a →
        dropTrailingSemicolonsFrom 0 (a ++ b) = a ++ dropTrailingSemicolonsFrom 0 b := by
      intro a
      induction a with
      | nil => exact fun _ => rfl
      | cons c a ih =>
          intro h
          obtain ⟨hc, hrest⟩ := of_dropTrailingSemicolons_cons h
          rw [List.cons_append, dropTrailingSemicolons_cons fun h =>
            trailingBlanks?_append (hc h) b, ih hrest, List.cons_append]
    have htrailing := happend a ha.trailing
    rwa [show dropTrailingSemicolonsFrom 0 b = b from hb.trailing] at htrailing

/-- A margin does not change what a line begins with. -/
lemma behind_margin (h : KeepsSemicolons a) {margin : Text} (hmargin : ∀ c ∈ margin, c = ' ') :
    KeepsSemicolons (margin ++ a) := by
  have hsemicolon : ';' ∉ margin := fun hc => absurd (hmargin _ hc) (by decide)
  have hfeed : '\n' ∉ margin := fun hc => absurd (hmargin _ hc) (by decide)
  have htrailing : dropTrailingSemicolons (margin ++ a) = margin ++ a := by
    rw [dropTrailingSemicolons, dropTrailingSemicolonsFrom_append_of_not_mem hsemicolon]
    exact congrArg (margin ++ ·) h.trailing
  refine ⟨?_, htrailing⟩
  by_cases hnil : a = []
  · have hline : ∀ text : Text, (∀ c ∈ text, c = ' ') → dropLeadingSemicolon text = text := by
      intro text htext
      have hdrop : text.dropWhile (fun c => c = ' ' || c = '\t') = [] := by
        rw [List.dropWhile_eq_nil_iff]
        intro c hc
        simp [htext c hc]
      rw [dropLeadingSemicolon, hdrop]
    rw [hnil, List.append_nil, dropLeadingSemicolons]
    by_cases hne : margin = []
    · rw [hne]
      rfl
    · rw [lines_of_no_feed hfeed hne, List.flatMap_singleton, hline margin hmargin]
  · obtain ⟨first, rest, hlines, -⟩ := lines_ne_nil hnil
    have hleading := h.leading
    have htext : a = first ++ rest.flatten := by rw [← flatten_lines a, hlines, List.flatten_cons]
    rw [dropLeadingSemicolons, hlines, List.flatMap_cons] at hleading
    rw [dropLeadingSemicolons, lines_append_of_no_feed hfeed hlines, List.flatMap_cons]
    -- the first line keeps its beginning, or the whole would be shorter
    have hrest : (rest.flatMap dropLeadingSemicolon).length ≤ rest.flatten.length := by
      rw [List.length_flatMap, List.length_flatten]
      exact List.sum_le_sum fun line _ => (dropLeadingSemicolon_suffix line).length_le
    have hfirst : dropLeadingSemicolon first = first := by
      refine (dropLeadingSemicolon_suffix first).eq_of_length ?_
      have hlength := congrArg List.length hleading
      have hshorter := (dropLeadingSemicolon_suffix first).length_le
      have htotal := congrArg List.length htext
      rw [List.length_append] at hlength htotal
      omega
    have hdrop : (margin ++ first).dropWhile (fun c => c = ' ' || c = '\t') =
        first.dropWhile fun c => c = ' ' || c = '\t' := by
      rw [List.dropWhile_append_of_pos]
      intro c hc
      simp [hmargin c hc]
    have hline : dropLeadingSemicolon (margin ++ first) = margin ++ first := by
      rw [dropLeadingSemicolon, hdrop]
      rw [dropLeadingSemicolon] at hfirst
      cases hcs : first.dropWhile fun c => c = ' ' || c = '\t' with
      | nil => rfl
      | cons c cs =>
          rw [hcs] at hfirst
          dsimp only at hfirst ⊢
          split_ifs at hfirst ⊢
          · have hlength := (List.dropWhile_suffix (fun c => c = ' ' || c = '\t')
              (l := first)).length_le
            rw [hcs, hfirst, List.length_cons] at hlength
            omega
          · rfl
    rw [hfirst] at hleading
    rw [hline, List.append_assoc, hleading]

/-- The last line feed has no part in this. -/
lemma of_append_feed (h : KeepsSemicolons (a ++ ['\n'])) : KeepsSemicolons a := by
  constructor
  · have hleading := h.leading
    rw [dropLeadingSemicolons_append_last_feed] at hleading
    exact List.append_cancel_right hleading
  · have htrailing := h.trailing
    clear h
    rw [dropTrailingSemicolons] at htrailing ⊢
    induction a with
    | nil => rfl
    | cons c a ih =>
        obtain ⟨hc, hrest⟩ := of_dropTrailingSemicolons_cons htrailing
        rw [dropTrailingSemicolons_cons fun h => trailingBlanks?_of_append_feed (hc h), ih hrest]

end KeepsSemicolons

end ConverterAssembly.Ruby
