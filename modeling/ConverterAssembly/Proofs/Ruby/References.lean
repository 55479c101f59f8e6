import ConverterAssembly.Proofs.Ruby.Conserved
import ConverterAssembly.Ruby.Reference

/-!
# References in readable code

A reference is made of word characters and colons, and a character of another kind ends it wherever
it stands.  So the references in a text are those in its runs of such characters
(`referencesFrom_eq_flatMap_runs`), and laying out a fragment, which keeps the runs, keeps the
references (`findReferences_prettyPrint`).
-/

namespace ConverterAssembly.Ruby

open Text

/-- Characters that references are made of. -/
def isReferenceChar (c : Char) : Bool :=
  isWordChar c || c = ':'

/-- A name that is made of word characters. -/
def IsWord (name : Text) : Prop :=
  name ≠ [] ∧ ∀ c ∈ name, isWordChar c = true

instance : DecidablePred IsWord := fun name =>
  decidable_of_iff (name ≠ [] ∧ name.all isWordChar = true)
    (and_congr_right' List.all_eq_true)

/-! ## Filler is in no reference -/

/-- The code points of the blanks. -/
def blankPoints : List Nat :=
  List.range' 0x9 5 ++ [0x20, 0x85, 0xA0, 0x1680] ++ List.range' 0x2000 11 ++
    [0x2028, 0x2029, 0x202F, 0x205F, 0x3000]

lemma toNat_mem_blankPoints {c : Char} (h : isBlank c = true) : c.toNat ∈ blankPoints := by
  simp only [isBlank, Bool.or_eq_true, Bool.and_eq_true, decide_eq_true_eq, beq_iff_eq] at h
  simp only [blankPoints, List.mem_append, List.mem_range'_1, List.mem_cons, List.not_mem_nil]
  omega

lemma isWordChar_of_isBlank {c : Char} (h : isBlank c = true) : isWordChar c = false := by
  have hpoints : ∀ n ∈ blankPoints, ((alphabeticRanges.has n || decimalDigitRanges.has n ||
      connectorRanges.has n || markRanges.has n || n == 0x200C || n == 0x200D) &&
        !recentRanges.has n) = false := by decide +kernel
  exact hpoints c.toNat (toNat_mem_blankPoints h)

lemma isReferenceChar_of_isFiller {c : Char} (h : isFiller c = true) :
    isReferenceChar c = false := by
  simp only [isFiller, Bool.or_eq_true, decide_eq_true_eq] at h
  rcases h with ((h | rfl) | rfl) | rfl
  · have hcolon : c ≠ ':' := by
      rintro rfl
      exact absurd h (by decide)
    simp [isReferenceChar, isWordChar_of_isBlank h, hcolon]
  · decide +kernel
  · decide +kernel
  · decide +kernel

/-! ## Segments -/

lemma isWordChar_colon : isWordChar ':' = false := by decide +kernel

lemma segmentsSize_of_word {inWord : Bool} {c : Char} (h : (inWord && isWordChar c) = true)
    (cs : Text) : segmentsSize inWord (c :: cs) = segmentsSize true cs + 1 := by
  rw [segmentsSize.eq_def]
  simp only [h, ↓reduceIte]

lemma segmentsSize_scope (inWord : Bool) (d : Char) (ds : Text) :
    segmentsSize inWord (':' :: ':' :: d :: ds) =
      if isWordChar d then segmentsSize true ds + 3 else 0 := by
  rw [segmentsSize.eq_def]
  simp only [isWordChar_colon, Bool.and_false, Bool.false_eq_true, ↓reduceIte]

/-- Where neither the word goes on nor a scope follows, the segments end. -/
lemma segmentsSize_eq_zero {inWord : Bool} {text : Text}
    (hword : ∀ c ∈ text.head?, (inWord && isWordChar c) = false)
    (hscope : ∀ d ds, text ≠ ':' :: ':' :: d :: ds) : segmentsSize inWord text = 0 := by
  cases text with
  | nil => rw [segmentsSize.eq_def]
  | cons c cs =>
      rw [segmentsSize.eq_def]
      simp only [hword c rfl, Bool.false_eq_true, ↓reduceIte]
      split
      · rename_i d ds
        exact absurd rfl (hscope d ds)
      · rfl

/-- A text goes on with the word, or with a scope and one more character, or with no segment. -/
theorem segments_induction {P : Bool → Text → Prop}
    (word : ∀ inWord c cs, (inWord && isWordChar c) = true → P true cs → P inWord (c :: cs))
    (scope : ∀ inWord d ds, P true ds → P inWord (':' :: ':' :: d :: ds))
    (stop : ∀ inWord text, (∀ c ∈ text.head?, (inWord && isWordChar c) = false) →
      (∀ d ds, text ≠ ':' :: ':' :: d :: ds) → P inWord text) (inWord : Bool) (text : Text) :
    P inWord text := by
  induction hn : text.length using Nat.strong_induction_on generalizing inWord text with
  | _ n ih =>
      by_cases hword : ∃ c cs, text = c :: cs ∧ (inWord && isWordChar c) = true
      · obtain ⟨c, cs, rfl, h⟩ := hword
        exact word inWord c cs h (ih cs.length (by simp [← hn]) true cs rfl)
      · by_cases hscope : ∃ d ds, text = ':' :: ':' :: d :: ds
        · obtain ⟨d, ds, rfl⟩ := hscope
          exact scope inWord d ds (ih ds.length (by simp [← hn]; omega) true ds rfl)
        · refine stop inWord text (fun c hc => ?_) (fun d ds h => hscope ⟨d, ds, h⟩)
          obtain ⟨cs, rfl⟩ : ∃ cs, text = c :: cs := List.head?_eq_some_iff.1 hc
          by_contra h
          exact hword ⟨c, cs, rfl, by simpa using h⟩

lemma segmentsSize_le (inWord : Bool) (text : Text) : segmentsSize inWord text ≤ text.length := by
  induction inWord, text using segments_induction with
  | word inWord c cs h ih =>
      rw [segmentsSize_of_word h, List.length_cons]
      omega
  | scope inWord d ds ih =>
      rw [segmentsSize_scope]
      split_ifs
      · simp only [List.length_cons]
        omega
      · omega
  | stop inWord text hword hscope =>
      rw [segmentsSize_eq_zero hword hscope]
      omega

/-! ## References end at a break -/

section

variable {c : Char} (hc : isReferenceChar c = false)
include hc

lemma isWordChar_of_break : isWordChar c = false := by
  simp only [isReferenceChar, Bool.or_eq_false_iff] at hc
  exact hc.1

lemma ne_colon_of_break : c ≠ ':' := by
  simp only [isReferenceChar, Bool.or_eq_false_iff, decide_eq_false_iff_not] at hc
  exact hc.2

lemma segmentsSize_append_break (inWord : Bool) (a b : Text) :
    segmentsSize inWord (a ++ c :: b) = segmentsSize inWord a := by
  have hword := isWordChar_of_break hc
  have hcolon := ne_colon_of_break hc
  induction inWord, a using segments_induction with
  | word inWord d cs h ih =>
      rw [List.cons_append, segmentsSize_of_word h, segmentsSize_of_word h, ih]
  | scope inWord d ds ih =>
      rw [List.cons_append, List.cons_append, List.cons_append, segmentsSize_scope,
        segmentsSize_scope, ih]
  | stop inWord a hno hscope =>
      rw [segmentsSize_eq_zero hno hscope]
      match a with
      | [] =>
          refine segmentsSize_eq_zero ?_ ?_
          · simp [hword]
          · intro d ds h
            exact hcolon (List.cons.inj h).1
      | [d] =>
          refine segmentsSize_eq_zero (by simpa using hno) ?_
          intro e ds h
          exact hcolon (List.cons.inj (List.cons.inj h).2).1
      | [d, e] =>
          by_cases hde : d = ':' ∧ e = ':'
          · obtain ⟨rfl, rfl⟩ := hde
            rw [List.cons_append, List.cons_append, List.nil_append, segmentsSize_scope, hword]
            rfl
          · refine segmentsSize_eq_zero (by simpa using hno) ?_
            rintro f ds ⟨⟩
            exact hde ⟨rfl, rfl⟩
      | d :: e :: f :: ds =>
          refine segmentsSize_eq_zero (by simpa using hno) ?_
          rintro g gs ⟨⟩
          exact hscope f ds rfl

lemma dropStart?_append_break {name : Text} (hname : ∀ d ∈ name, isReferenceChar d = true)
    (a b : Text) : dropStart? name (a ++ c :: b) = (dropStart? name a).map (· ++ c :: b) := by
  induction name generalizing a with
  | nil => rfl
  | cons d name ih =>
      obtain ⟨hd, hname⟩ := List.forall_mem_cons.1 hname
      cases a with
      | nil =>
          have hne : d ≠ c := by
            rintro rfl
            rw [hc] at hd
            cases hd
          simp only [List.nil_append, dropStart?, if_neg hne, Option.map_none]
      | cons e a =>
          rw [List.cons_append, dropStart?, dropStart?]
          split_ifs
          · exact ih hname a
          · rfl

lemma referenceSize?_append_break {name : Text} (hname : IsWord name) (a b : Text) :
    referenceSize? (a ++ c :: b) name = referenceSize? a name := by
  have hchars : ∀ d ∈ name, isReferenceChar d = true := by
    intro d hd
    simp [isReferenceChar, hname.2 d hd]
  rw [referenceSize?, referenceSize?, dropStart?_append_break hc hchars]
  cases dropStart? name a with
  | none => rfl
  | some rest =>
      have hboundary : isBoundary (name.getLastD ':') (rest ++ c :: b).head? =
          isBoundary (name.getLastD ':') rest.head? := by
        cases rest with
        | nil => simp [isBoundary, isWordChar_of_break hc]
        | cons d rest => rfl
      simp only [Option.map_some, segmentsSize_append_break hc, hboundary]

end

lemma referenceSize?_le {text name : Text} {size : Nat} (h : referenceSize? text name = some size) :
    size ≤ text.length := by
  rw [referenceSize?] at h
  split at h
  · cases h
  · rename_i rest hrest
    have hsegments := segmentsSize_le false rest
    have hlength := congrArg List.length (dropStart?_eq_some_iff.1 hrest)
    rw [List.length_append] at hlength
    simp only at h
    split_ifs at h
    obtain rfl := Option.some.inj h
    omega

lemma referencesFrom_drop (namespaces : List Text) (skip : Nat) (text : Text) :
    referencesFrom namespaces skip text = referencesFrom namespaces 0 (text.drop skip) := by
  induction text generalizing skip with
  | nil => cases skip <;> simp [referencesFrom]
  | cons c cs ih =>
      cases skip with
      | zero => rfl
      | succ skip => exact ih skip

section

variable {namespaces : List Text} (hnames : ∀ name ∈ namespaces, IsWord name)
include hnames

lemma findSome?_referenceSize?_append_break {c : Char} (hc : isReferenceChar c = false)
    (a b : Text) :
    namespaces.findSome? (referenceSize? (a ++ c :: b)) =
      namespaces.findSome? (referenceSize? a) := by
  induction namespaces with
  | nil => rfl
  | cons name namespaces ih =>
      obtain ⟨hname, hnames⟩ := List.forall_mem_cons.1 hnames
      rw [List.findSome?_cons, List.findSome?_cons, referenceSize?_append_break hc hname, ih hnames]

/-- A break divides the references. -/
lemma referencesFrom_append_break {c : Char} (hc : isReferenceChar c = false) (a b : Text) :
    referencesFrom namespaces 0 (a ++ c :: b) =
      referencesFrom namespaces 0 a ++ referencesFrom namespaces 0 b := by
  have hcolons : ∀ d ∈ [':', ':'], isReferenceChar d = true :=
    List.all_eq_true.1 (by decide +kernel)
  induction hn : a.length using Nat.strong_induction_on generalizing a with
  | _ n ih =>
      cases a with
      | nil =>
          have hdrop : dropStart? [':', ':'] (c :: b) = none := by
            rw [dropStart?, if_neg (ne_colon_of_break hc).symm]
          simp only [List.nil_append, referencesFrom, hdrop]
      | cons d a =>
          have htail := ih a.length (by simp [← hn]) a rfl
          have hdrop := dropStart?_append_break hc hcolons (d :: a) b
          rw [List.cons_append] at hdrop
          simp only [List.cons_append, referencesFrom, hdrop]
          cases hrest : dropStart? [':', ':'] (d :: a) with
          | none => simpa using htail
          | some rest =>
              simp only [Option.map_some, findSome?_referenceSize?_append_break hnames hc]
              cases hsize : namespaces.findSome? (referenceSize? rest) with
              | none => simpa using htail
              | some size =>
                  obtain ⟨name, -, hsome⟩ := List.exists_of_findSome?_eq_some hsize
                  have hle := referenceSize?_le hsome
                  have hlength := congrArg List.length (dropStart?_eq_some_iff.1 hrest)
                  simp only [List.length_cons, List.length_append, List.length_nil] at hlength
                  have hshort : size + 1 ≤ a.length := by omega
                  simp only [referencesFrom_drop namespaces (size + 1)]
                  rw [List.drop_append_of_le_length hshort, List.take_append_of_le_length hshort,
                    ih (a.drop (size + 1)).length (by simp [← hn]) _ rfl, List.cons_append]

/-- The references in a text are those in its runs. -/
theorem referencesFrom_eq_flatMap_runs (text : Text) :
    referencesFrom namespaces 0 text =
      (runs isReferenceChar text).flatMap (referencesFrom namespaces 0) := by
  have hkept (a : Text) (ha : ∀ c ∈ a, isReferenceChar c = true) : referencesFrom namespaces 0 a =
      (runs isReferenceChar a).flatMap (referencesFrom namespaces 0) := by
    by_cases hne : a = []
    · rw [hne, runs_nil]
      rfl
    · rw [runs_of_kept hne ha, List.flatMap_singleton]
  induction text using break_induction (fun c => !isReferenceChar c) with
  | last a ha => exact hkept a (by simpa using ha)
  | line a c b ha hc ih =>
      have hbreak : isReferenceChar c = false := by simpa using hc
      rw [referencesFrom_append_break hnames hbreak, runs_append_break hbreak, List.flatMap_append,
        ← ih, hkept a (by simpa using ha)]

/-- A fragment in readable form holds the references of the fragment, in the same order. -/
theorem findReferences_prettyPrint (code : Text) (indentCount : Nat) :
    findReferences (prettyPrint code indentCount) namespaces = findReferences code namespaces := by
  have hend : (runs isReferenceChar "end".toList).flatMap (referencesFrom namespaces 0) = [] := by
    rw [runs_of_kept (by decide) (List.all_eq_true.1 (by decide +kernel)), List.flatMap_singleton]
    rfl
  rw [findReferences, findReferences, referencesFrom_eq_flatMap_runs hnames,
    referencesFrom_eq_flatMap_runs hnames code]
  obtain h | h := runs_prettyPrint (fun c hc => isReferenceChar_of_isFiller hc) code indentCount
  · rw [h]
  · rw [h, List.flatMap_append, hend, List.append_nil]

end

end ConverterAssembly.Ruby
