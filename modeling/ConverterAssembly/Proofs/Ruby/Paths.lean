import ConverterAssembly.Proofs.Ruby.References

/-!
# Which references are found

`findReferences` reads a code from the left and passes over what it has found.  Here the references
are said in terms of places in the code, without reading it.

**Paths.**  A path is `::` and a word, once or more often.  `LongestPath` is the longest path at a
place; it is the one after which no path can go on (`longestPath_iff`).

**References.**  A reference is a longest path that begins with a namespace (`ReferenceAt`).
References can stand inside each other, and then they end together (`ReferenceAt.nested`).

**Search.**  The search finds those references that stand in no other (`exists_places`).  A
reference is absolute if no word character stands before it; none of those is missed, but a path
like `Foo::Slim` gives its tail, which is none.
-/

namespace ConverterAssembly.Ruby

open Text

/-! ## Paths -/

/-- The path of some words: `::` before each of them. -/
def pathOf (words : List Text) : Text :=
  words.flatMap fun word => ':' :: ':' :: word

/-- The text begins with the path of the words, and with no longer one. -/
structure LongestPath (words : List Text) (text : Text) : Prop where
  areWords : ∀ word ∈ words, IsWord word
  start : pathOf words <+: text
  longest : ∀ words', (∀ word ∈ words', IsWord word) → pathOf words' <+: text →
    (pathOf words').length ≤ (pathOf words).length

/-- No path goes on here: neither its last word, nor with a further word. -/
structure EndsPath (rest : Text) : Prop where
  word : ∀ c ∈ rest.head?, isWordChar c = false
  scope : ∀ d ds, rest = ':' :: ':' :: d :: ds → isWordChar d = false

@[simp]
lemma pathOf_nil : pathOf [] = [] := rfl

lemma pathOf_cons (word : Text) (words : List Text) :
    pathOf (word :: words) = ':' :: ':' :: (word ++ pathOf words) := rfl

lemma pathOf_cons_append (word : Text) (words : List Text) (rest : Text) :
    pathOf (word :: words) ++ rest = ':' :: ':' :: (word ++ (pathOf words ++ rest)) := by
  simp [pathOf_cons]

lemma pathOf_append (a b : List Text) : pathOf (a ++ b) = pathOf a ++ pathOf b :=
  List.flatMap_append

lemma exists_pathOf_eq {words : List Text} (hwords : ∀ word ∈ words, IsWord word)
    (hne : words ≠ []) :
    ∃ d ds, pathOf words = ':' :: ':' :: d :: ds ∧ isWordChar d = true := by
  obtain ⟨word, words, rfl⟩ := List.exists_cons_of_ne_nil hne
  obtain ⟨hword, hchars⟩ := hwords word List.mem_cons_self
  obtain ⟨d, ds, rfl⟩ := List.exists_cons_of_ne_nil hword
  exact ⟨d, ds ++ pathOf words, rfl, hchars d List.mem_cons_self⟩

/-- A path ends in a word character. -/
lemma isWordChar_of_getLast? {words : List Text} (hwords : ∀ word ∈ words, IsWord word) {c : Char}
    (hc : c ∈ (pathOf words).getLast?) : isWordChar c = true := by
  induction words using List.reverseRecOn with
  | nil => simp at hc
  | append_singleton words word =>
      obtain ⟨hne, hchars⟩ := hwords word (by simp)
      refine hchars c (List.mem_of_getLast? ?_)
      rw [pathOf_append, pathOf_cons, pathOf_nil, List.append_nil, List.getLast?_append_cons,
        List.getLast?_cons_cons, List.getLast?_cons] at hc
      cases hlast : word.getLast? with
      | none => exact absurd (List.getLast?_eq_none_iff.1 hlast) hne
      | some d => simpa [hlast] using hc

/-- Where a path is cut, it goes on with a word character, with a further word after a whole one, or
in the middle of a `::`. -/
lemma pathOf_cut {words : List Text} (hwords : ∀ word ∈ words, IsWord word) {y z : Text}
    (h : pathOf words = y ++ z) (hy : y ≠ []) (hz : z ≠ []) :
    (∃ d ds, z = d :: ds ∧ isWordChar d = true) ∨
      (∃ d ds, z = ':' :: ':' :: d :: ds ∧ isWordChar d = true ∧
        ∀ c ∈ y.getLast?, isWordChar c = true) ∨
      (∃ d ds, z = ':' :: d :: ds ∧ isWordChar d = true ∧ y.getLast? = some ':') := by
  induction words generalizing y with
  | nil => simp_all
  | cons word words ih =>
      rw [List.forall_mem_cons] at hwords
      obtain ⟨⟨hne, hchars⟩, hwords⟩ := hwords
      obtain ⟨d, ds, rfl⟩ := List.exists_cons_of_ne_nil hne
      have hd := hchars d List.mem_cons_self
      rw [pathOf_cons] at h
      match y with
      | [] => exact absurd rfl hy
      | [a] =>
          obtain ⟨rfl, rfl⟩ : ':' = a ∧ ':' :: (d :: ds ++ pathOf words) = z := by simpa using h
          exact .inr (.inr ⟨d, _, rfl, hd, rfl⟩)
      | [a, b] =>
          obtain ⟨rfl, rfl, rfl⟩ : ':' = a ∧ ':' = b ∧ d :: ds ++ pathOf words = z := by
            simpa using h
          exact .inl ⟨d, _, rfl, hd⟩
      | a :: b :: e :: y =>
          obtain ⟨rfl, rfl, hrest⟩ : ':' = a ∧ ':' = b ∧
              (d :: ds) ++ pathOf words = (e :: y) ++ z := by
            simpa using h
          have hlast : (':' :: ':' :: e :: y).getLast? = (e :: y).getLast? := by
            simp [List.getLast?_cons]
          rw [hlast]
          rcases List.append_eq_append_iff.1 hrest with ⟨y', hy', hwords'⟩ | ⟨z', hword, rfl⟩
          · by_cases hnil : y' = []
            · -- a cut after the word
              rw [hnil, List.append_nil] at hy'
              rw [hnil, List.nil_append] at hwords'
              have hwordsne : words ≠ [] := by
                rintro rfl
                exact hz hwords'.symm
              obtain ⟨f, fs, hpath, hf⟩ := exists_pathOf_eq hwords hwordsne
              refine .inr (.inl ⟨f, fs, hwords'.symm.trans hpath, hf, ?_⟩)
              intro c hc
              rw [hy'] at hc
              exact hchars c (List.mem_of_getLast? hc)
            · rw [hy', List.getLast?_append_of_ne_nil _ hnil]
              exact ih hwords hwords' hnil
          · cases z' with
            | nil =>
                rw [List.append_nil] at hword
                rw [List.nil_append] at hz ⊢
                have hwordsne : words ≠ [] := by
                  rintro rfl
                  exact hz rfl
                obtain ⟨f, fs, hpath, hf⟩ := exists_pathOf_eq hwords hwordsne
                refine .inr (.inl ⟨f, fs, hpath, hf, ?_⟩)
                intro c hc
                rw [← hword] at hc
                exact hchars c (List.mem_of_getLast? hc)
            | cons f fs =>
                refine .inl ⟨f, fs ++ pathOf words, rfl, hchars f ?_⟩
                rw [hword]
                simp

/-- What is not a path to its end is longer than every path. -/
lemma EndsPath.length_le {words : List Text} {y rest : Text} (hrest : EndsPath rest)
    (hwords : ∀ word ∈ words, IsWord word) (hy : ∀ c ∈ y.getLast?, isWordChar c = true)
    (hne : y ≠ []) (h : pathOf words <+: y ++ rest) : (pathOf words).length ≤ y.length := by
  by_contra hlong
  obtain ⟨z, hz⟩ : ∃ z, pathOf words = y ++ z :=
    (List.prefix_of_prefix_length_le (List.prefix_append y rest) h (by omega)).imp fun z hz =>
      hz.symm
  have hzne : z ≠ [] := by
    rintro rfl
    rw [hz, List.append_nil] at hlong
    exact hlong le_rfl
  rw [hz, List.prefix_append_right_inj] at h
  obtain ⟨later, hlater⟩ := h
  rcases pathOf_cut hwords hz hne hzne with
    ⟨d, ds, rfl, hd⟩ | ⟨d, ds, rfl, hd, -⟩ | ⟨d, ds, rfl, -, hlast⟩
  · rw [hrest.word d (by simp [← hlater])] at hd
    cases hd
  · rw [hrest.scope d (ds ++ later) (by simp [← hlater])] at hd
    cases hd
  · have := hy ':' hlast
    rw [isWordChar_colon] at this
    cases this

/-- A path is the longest exactly if none goes on after it. -/
lemma longestPath_iff {words : List Text} (hwords : ∀ word ∈ words, IsWord word) (hne : words ≠ [])
    (rest : Text) : LongestPath words (pathOf words ++ rest) ↔ EndsPath rest := by
  constructor
  · intro h
    refine ⟨fun c hc => ?_, fun d ds hrest => ?_⟩
    · by_contra hword
      obtain ⟨words, word, rfl⟩ := (List.eq_nil_or_concat' words).resolve_left hne
      obtain ⟨rest, rfl⟩ := List.head?_eq_some_iff.1 hc
      have hlonger : pathOf (words ++ [word ++ [c]]) = pathOf (words ++ [word]) ++ [c] := by
        simp [pathOf_append, pathOf_cons]
      have hall : ∀ w ∈ words ++ [word ++ [c]], IsWord w := by
        simp only [List.forall_mem_append, List.forall_mem_singleton] at hwords ⊢
        refine ⟨hwords.1, by simp, ?_⟩
        simp only [List.forall_mem_append, List.forall_mem_singleton]
        exact ⟨hwords.2.2, by simpa using hword⟩
      have := h.longest _ hall (by rw [hlonger]; simp)
      rw [hlonger, List.length_append] at this
      simp at this
    · by_contra hword
      have hlonger : pathOf (words ++ [[d]]) = pathOf words ++ [':', ':', d] := by
        simp [pathOf_append, pathOf_cons]
      have hall : ∀ w ∈ words ++ [[d]], IsWord w := by
        simp only [List.forall_mem_append, List.forall_mem_singleton]
        exact ⟨hwords, by simp, by simpa using hword⟩
      have := h.longest _ hall (by rw [hlonger, hrest]; simp)
      rw [hlonger, List.length_append] at this
      simp at this
  · intro h
    obtain ⟨d, ds, hpath, -⟩ := exists_pathOf_eq hwords hne
    exact ⟨hwords, List.prefix_append _ _, fun words' hwords' hstart =>
      h.length_le hwords' (fun c hc => isWordChar_of_getLast? hwords hc) (by simp [hpath]) hstart⟩

lemma LongestPath.pathOf_eq {a b : List Text} {text : Text} (ha : LongestPath a text)
    (hb : LongestPath b text) : pathOf a = pathOf b := by
  have hlength := Nat.le_antisymm (hb.longest a ha.areWords ha.start)
    (ha.longest b hb.areWords hb.start)
  exact (List.prefix_of_prefix_length_le ha.start hb.start hlength.le).eq_of_length hlength

/-! ## Segments are the words of a path -/

/-- A text that is cut behind its segments: the rest of a word, a path, and what follows them. -/
structure SegmentsCut (inWord : Bool) (text word : Text) (words : List Text)
    (rest : Text) : Prop where
  text_eq : text = word ++ (pathOf words ++ rest)
  size_eq : segmentsSize inWord text = (word ++ pathOf words).length
  wordChars : ∀ c ∈ word, isWordChar c = true
  eq_nil : inWord = false → word = []
  areWords : ∀ word ∈ words, IsWord word
  word : ∀ c ∈ rest.head?, isWordChar c = true → inWord = false ∧ words = []
  scope : ∀ d ds, rest = ':' :: ':' :: d :: ds → isWordChar d = false

lemma exists_segmentsCut (inWord : Bool) (text : Text) :
    ∃ word words rest, SegmentsCut inWord text word words rest := by
  induction inWord, text using segments_induction with
  | word inWord c cs h ih =>
      obtain ⟨word, words, rest, hcut⟩ := ih
      rw [Bool.and_eq_true] at h
      refine ⟨c :: word, words, rest, ?_, ?_, List.forall_mem_cons.2 ⟨h.2, hcut.wordChars⟩, ?_,
        hcut.areWords, fun e he hword => ?_, hcut.scope⟩
      · rw [hcut.text_eq]
        rfl
      · rw [segmentsSize_of_word (by simp [h]), hcut.size_eq]
        rfl
      · simp [h.1]
      · cases (hcut.word e he hword).1
  | scope inWord d ds ih =>
      by_cases hd : isWordChar d = true
      · obtain ⟨word, words, rest, hcut⟩ := ih
        have hword : IsWord (d :: word) := ⟨by simp, List.forall_mem_cons.2 ⟨hd, hcut.wordChars⟩⟩
        refine ⟨[], (d :: word) :: words, rest, ?_, ?_, by simp, fun _ => rfl,
          List.forall_mem_cons.2 ⟨hword, hcut.areWords⟩, fun e he h => ?_, hcut.scope⟩
        · rw [hcut.text_eq]
          simp [pathOf_cons]
        · rw [segmentsSize_scope, if_pos hd, hcut.size_eq]
          simp [pathOf_cons]
        · cases (hcut.word e he h).1
      · refine ⟨[], [], ':' :: ':' :: d :: ds, rfl, ?_, by simp, fun _ => rfl, by simp, ?_, ?_⟩
        · rw [segmentsSize_scope, if_neg hd]
          rfl
        · simp [isWordChar_colon]
        · rintro e es ⟨⟩
          exact Bool.not_eq_true _ ▸ hd
  | stop inWord text hword hscope =>
      refine ⟨[], [], text, rfl, ?_, by simp, fun _ => rfl, by simp, fun c hc h => ⟨?_, rfl⟩,
        fun d ds h => absurd h (hscope d ds)⟩
      · rw [segmentsSize_eq_zero hword hscope]
        rfl
      · simpa [h] using hword c hc

/-- A word ends where no word character follows. -/
lemma isBoundary_getLastD {name : Text} (hname : IsWord name) (right : Option Char) :
    isBoundary (name.getLastD ':') right = !right.any isWordChar := by
  have hlast : isWordChar (name.getLastD ':') = true := by
    rw [List.getLastD_eq_getLast?, List.getLast?_eq_getLast_of_ne_nil hname.1]
    exact hname.2 _ (List.getLast_mem hname.1)
  rw [isBoundary, hlast]
  cases right.any isWordChar <;> rfl

/-- The size of a reference into a namespace is that of the longest path which begins with it. -/
lemma referenceSize?_eq_some_iff {name : Text} (hname : IsWord name) (text : Text) (size : Nat) :
    referenceSize? text name = some size ↔
      ∃ words, LongestPath (name :: words) (':' :: ':' :: text) ∧
        (pathOf (name :: words)).length = size + 2 := by
  rw [referenceSize?]
  cases hdrop : dropStart? name text with
  | none =>
      simp only [reduceCtorEq, false_iff]
      rintro ⟨words, hlongest, -⟩
      obtain ⟨rest, hrest⟩ := hlongest.start
      rw [pathOf_cons_append] at hrest
      have htext : text = name ++ (pathOf words ++ rest) := by simpa using hrest.symm
      rw [dropStart?_eq_some_iff.2 htext] at hdrop
      cases hdrop
  | some after =>
      obtain rfl := dropStart?_eq_some_iff.1 hdrop
      obtain ⟨word, words, rest, hcut⟩ := exists_segmentsCut false after
      obtain rfl := hcut.eq_nil rfl
      obtain rfl : after = pathOf words ++ rest := hcut.text_eq
      have hsize : segmentsSize false (pathOf words ++ rest) = (pathOf words).length := hcut.size_eq
      by_cases hgrows : ∃ c ∈ rest.head?, isWordChar c = true
      · -- the name is a part of a longer word
        obtain ⟨c, hc, hword⟩ := hgrows
        obtain rfl := (hcut.word c hc hword).2
        have hnone : isBoundary (name.getLastD ':') rest.head? = false := by
          rw [isBoundary_getLastD hname, Option.mem_def.1 hc]
          simp [hword]
        rw [pathOf_nil, List.nil_append, List.length_nil] at hsize
        simp only [pathOf_nil, List.nil_append, hsize, hnone, lt_irrefl, decide_false, Bool.or_self,
          Bool.false_eq_true, ↓reduceIte, reduceCtorEq, false_iff]
        rintro ⟨words, hlongest, -⟩
        obtain ⟨rest', hrest'⟩ := hlongest.start
        have hends := (longestPath_iff hlongest.areWords (by simp) rest').1 (hrest' ▸ hlongest)
        rw [pathOf_cons_append] at hrest'
        obtain rfl : pathOf words ++ rest' = rest := by simpa using hrest'
        cases words with
        | nil => rw [hends.word c hc] at hword; cases hword
        | cons word words =>
            obtain rfl : ':' = c := by simpa [pathOf_cons] using hc
            rw [isWordChar_colon] at hword
            cases hword
      · have hends : EndsPath rest :=
          ⟨fun c hc => by simpa using not_exists.1 hgrows c ∘ And.intro hc, hcut.scope⟩
        have hall : ∀ w ∈ name :: words, IsWord w := List.forall_mem_cons.2 ⟨hname, hcut.areWords⟩
        have hlongest := (longestPath_iff hall (by simp) rest).2 hends
        rw [pathOf_cons_append] at hlongest
        have hcheck : (0 < (pathOf words).length || isBoundary (name.getLastD ':')
            (pathOf words ++ rest).head?) = true := by
          cases words with
          | nil =>
              rw [pathOf_nil, List.nil_append, isBoundary_getLastD hname]
              cases hhead : rest.head? with
              | none => rfl
              | some c => simp [hends.word c hhead]
          | cons word words => simp [pathOf_cons]
        have hlength : (pathOf (name :: words)).length =
            name.length + (pathOf words).length + 2 := by
          simp [pathOf_cons]
        simp only [hsize, hcheck, ↓reduceIte, Option.some.injEq]
        constructor
        · rintro rfl
          exact ⟨words, hlongest, hlength⟩
        · rintro ⟨words', hlongest', hlength'⟩
          rw [hlongest'.pathOf_eq hlongest] at hlength'
          omega

/-! ## References -/

/-- The text begins with a path whose first word is a namespace, taken as long as possible. -/
def StartsReference (namespaces : List Text) (text path : Text) : Prop :=
  ∃ name words, name ∈ namespaces ∧ path = pathOf (name :: words) ∧ LongestPath (name :: words) text

/-- A reference stands at a place of the code. -/
def ReferenceAt (namespaces : List Text) (code : Text) (place : Nat) (path : Text) : Prop :=
  StartsReference namespaces (code.drop place) path

/-- No word character stands before the place, so a path there is no tail of a longer one. -/
def StandsFree (code : Text) (place : Nat) : Prop :=
  ∀ c ∈ (code.take place).getLast?, isWordChar c = false

/-- No reference that begins before the place reaches past it. -/
def IsOutermost (namespaces : List Text) (code : Text) (place : Nat) : Prop :=
  ∀ place' path', ReferenceAt namespaces code place' path' → place' < place →
    place' + path'.length ≤ place

section

variable {namespaces : List Text} {text path path' : Text}

lemma StartsReference.eq (h : StartsReference namespaces text path)
    (h' : StartsReference namespaces text path') : path = path' := by
  obtain ⟨name, words, -, rfl, hlongest⟩ := h
  obtain ⟨name', words', -, rfl, hlongest'⟩ := h'
  exact hlongest.pathOf_eq hlongest'

/-- The text is the reference, and then no path goes on. -/
lemma StartsReference.exists_rest (h : StartsReference namespaces text path) :
    ∃ words rest, words ≠ [] ∧ (∀ word ∈ words, IsWord word) ∧ path = pathOf words ∧
      text = path ++ rest ∧ EndsPath rest := by
  obtain ⟨name, words, -, rfl, hlongest⟩ := h
  obtain ⟨rest, rfl⟩ := hlongest.start
  exact ⟨name :: words, rest, by simp, hlongest.areWords, rfl, rfl,
    (longestPath_iff hlongest.areWords (by simp) rest).1 hlongest⟩

/-- A reference begins with the scope operator, and a name follows. -/
lemma StartsReference.exists_cons (h : StartsReference namespaces text path) :
    ∃ d ds rest, path = ':' :: ':' :: d :: ds ∧ text = path ++ rest := by
  obtain ⟨words, rest, hne, hwords, rfl, rfl, -⟩ := h.exists_rest
  obtain ⟨d, ds, hpath, -⟩ := exists_pathOf_eq hwords hne
  exact ⟨d, ds, rest, hpath, rfl⟩

lemma StartsReference.exists_scope (h : StartsReference namespaces text path) :
    ∃ rest, text = ':' :: ':' :: rest := by
  obtain ⟨d, ds, rest, rfl, rfl⟩ := h.exists_cons
  exact ⟨d :: ds ++ rest, rfl⟩

lemma StartsReference.length_gt (h : StartsReference namespaces text path) : 2 < path.length := by
  obtain ⟨d, ds, rest, rfl, -⟩ := h.exists_cons
  simp

/-- Two references, of which the second begins inside the first, end together
or the second ends before. -/
lemma ReferenceAt.nested {code : Text} {place place' : Nat}
    (h : ReferenceAt namespaces code place path) (h' : ReferenceAt namespaces code place' path')
    (hafter : place < place')
    (hinside : place' < place + path.length) : place' + path'.length ≤ place + path.length := by
  obtain ⟨words, rest, hne, hwords, rfl, hcode, hends⟩ := h.exists_rest
  obtain ⟨words', rest', -, hwords', rfl, hcode', -⟩ := h'.exists_rest
  obtain ⟨size, rfl⟩ : ∃ size, place' = place + size := ⟨place' - place, by omega⟩
  have hcut : pathOf words' <+: (pathOf words).drop size ++ rest := by
    rw [← List.drop_append_of_le_length (by omega), ← hcode, List.drop_drop, hcode']
    exact List.prefix_append _ _
  have hlast : ∀ c ∈ ((pathOf words).drop size).getLast?, isWordChar c = true := by
    intro c hc
    refine isWordChar_of_getLast? hwords ?_
    rw [List.getLast?_drop, if_neg (by omega)] at hc
    exact hc
  have hle := hends.length_le hwords' hlast (by simp; omega) hcut
  rw [List.length_drop] at hle
  omega

/-- A reference that stands free begins in no other. -/
lemma ReferenceAt.isOutermost {code : Text} {place : Nat}
    (h : ReferenceAt namespaces code place path) (hfree : StandsFree code place) :
    IsOutermost namespaces code place := by
  intro place' path' h' hbefore
  by_contra hinside
  obtain ⟨words, rest, hne, hwords, rfl, hcode, -⟩ := h'.exists_rest
  obtain ⟨after, hafter⟩ := h.exists_scope
  obtain ⟨size, rfl⟩ : ∃ size, place = place' + size := ⟨place - place', by omega⟩
  have hdrop : (pathOf words).drop size ++ rest = ':' :: ':' :: after := by
    rw [← List.drop_append_of_le_length (by omega), ← hcode, List.drop_drop, hafter]
  have htakene : (pathOf words).take size ≠ [] :=
    List.ne_nil_of_length_pos (by rw [List.length_take]; omega)
  have hdropne : (pathOf words).drop size ≠ [] :=
    List.ne_nil_of_length_pos (by rw [List.length_drop]; omega)
  have hlast : (code.take (place' + size)).getLast? = ((pathOf words).take size).getLast? := by
    rw [List.take_add, List.getLast?_append_of_ne_nil] <;>
      rw [hcode, List.take_append_of_le_length (by omega)]
    exact htakene
  rcases pathOf_cut hwords (List.take_append_drop size (pathOf words)).symm htakene hdropne with
    ⟨d, ds, hz, hd⟩ | ⟨d, ds, hz, -, hword⟩ | ⟨d, ds, hz, hd, -⟩
  · -- inside a word
    obtain rfl : d = ':' := by rw [hz] at hdrop; exact (List.cons.inj hdrop).1
    rw [isWordChar_colon] at hd
    cases hd
  · -- behind a word
    obtain ⟨c, hc⟩ := Option.isSome_iff_exists.1 (List.getLast?_isSome.2 htakene)
    have := hword c hc
    rw [hfree c (hlast ▸ hc)] at this
    cases this
  · -- inside a scope
    obtain rfl : d = ':' := by rw [hz] at hdrop; exact (List.cons.inj (List.cons.inj hdrop).2).1
    rw [isWordChar_colon] at hd
    cases hd

/-- Behind a reference that begins in no other, no reference is open. -/
lemma IsOutermost.behind {code : Text} {place : Nat} (hplace : IsOutermost namespaces code place)
    (h : ReferenceAt namespaces code place path) :
    IsOutermost namespaces code (place + path.length) := by
  intro place' path' h' hbefore
  rcases lt_trichotomy place' place with hlt | rfl | hgt
  · have := hplace place' path' h' hlt
    omega
  · rw [h.eq h']
  · exact h.nested h' hgt hbefore

/-- Where no reference begins, none is open a character later. -/
lemma IsOutermost.succ {code : Text} {place : Nat} (hplace : IsOutermost namespaces code place)
    (hnone : ∀ path, ¬ReferenceAt namespaces code place path) :
    IsOutermost namespaces code (place + 1) := by
  intro place' path' h' hbefore
  rcases Nat.lt_succ_iff_lt_or_eq.1 hbefore with hlt | rfl
  · have := hplace place' path' h' hlt
    omega
  · exact absurd h' (hnone path')

end

/-! ## The search -/

section

variable {namespaces : List Text} (hnames : ∀ name ∈ namespaces, IsWord name)
include hnames

/-- The search recognises a reference where one stands. -/
lemma findSome?_referenceSize?_eq_some_iff (text : Text) (size : Nat) :
    namespaces.findSome? (referenceSize? text) = some size ↔
      ∃ path, StartsReference namespaces (':' :: ':' :: text) path ∧ path.length = size + 2 := by
  have hsound {size : Nat} (h : namespaces.findSome? (referenceSize? text) = some size) :
      ∃ path, StartsReference namespaces (':' :: ':' :: text) path ∧ path.length = size + 2 := by
    obtain ⟨name, hname, hsize⟩ := List.exists_of_findSome?_eq_some h
    obtain ⟨words, hlongest, hlength⟩ := (referenceSize?_eq_some_iff
      (hnames name hname) text size).1 hsize
    exact ⟨_, ⟨name, words, hname, rfl, hlongest⟩, hlength⟩
  refine ⟨hsound, ?_⟩
  rintro ⟨path, hstarts, hlength⟩
  obtain ⟨found, hfound⟩ : ∃ found, namespaces.findSome? (referenceSize? text) = some found := by
    obtain ⟨name, words, hname, rfl, hlongest⟩ := hstarts
    refine Option.isSome_iff_exists.1 (List.findSome?_isSome_iff.2 ⟨name, hname, ?_⟩)
    rw [(referenceSize?_eq_some_iff (hnames name hname) text size).2 ⟨words, hlongest, hlength⟩]
    rfl
  obtain ⟨path', hstarts', hlength'⟩ := hsound hfound
  rw [hstarts.eq hstarts'] at hlength
  rw [hfound, show found = size by omega]

/-- At a reference, the search takes it and goes on behind it. -/
lemma referencesFrom_of_startsReference {text path : Text}
    (h : StartsReference namespaces text path) :
    referencesFrom namespaces 0 text = path ::
      referencesFrom namespaces 0 (text.drop path.length) := by
  obtain ⟨after, rfl⟩ := h.exists_scope
  obtain ⟨words, rest, -, -, -, htext, -⟩ := h.exists_rest
  obtain ⟨size, hsize⟩ : ∃ size, path.length = size + 2 :=
    Nat.exists_eq_add_of_le' h.length_gt.le
  have hfound := (findSome?_referenceSize?_eq_some_iff hnames after size).2 ⟨path, h, hsize⟩
  have hpath : path = (':' :: ':' :: after).take (size + 2) := by
    rw [htext, ← hsize, List.take_left]
  simp only [referencesFrom, dropStart?, ↓reduceIte, hfound]
  rw [referencesFrom_drop, hsize, hpath]
  rfl

/-- Where no reference stands, the search goes on with the next character. -/
lemma referencesFrom_of_not {c : Char} {cs : Text}
    (h : ∀ path, ¬StartsReference namespaces (c :: cs) path) :
    referencesFrom namespaces 0 (c :: cs) = referencesFrom namespaces 0 cs := by
  rw [referencesFrom]
  cases hdrop : dropStart? [':', ':'] (c :: cs) with
  | none => rfl
  | some after =>
      have htext : c :: cs = ':' :: ':' :: after := dropStart?_eq_some_iff.1 hdrop
      cases hfound : namespaces.findSome? (referenceSize? after) with
      | none => simp only [hfound]
      | some size =>
          obtain ⟨path, hstarts, -⟩ := (findSome?_referenceSize?_eq_some_iff hnames after size).1
            hfound
          exact absurd (htext ▸ hstarts) (h path)

/-- From a place into which no reference reaches, the search finds the
outermost references, from the left. -/
lemma exists_places (code : Text) (place : Nat) (hplace : IsOutermost namespaces code place) :
    ∃ found : List (Nat × Text), found.Pairwise (fun a b => a.1 < b.1) ∧
      (∀ place' path, (place', path) ∈ found ↔
        place ≤ place' ∧ ReferenceAt namespaces code place' path ∧
        IsOutermost namespaces code place') ∧
      referencesFrom namespaces 0 (code.drop place) = found.map Prod.snd := by
  induction hn : code.length - place using Nat.strong_induction_on generalizing place with
  | _ n ih =>
      cases hcode : code.drop place with
      | nil =>
          refine ⟨[], List.Pairwise.nil, fun place' path => ?_, rfl⟩
          simp only [List.not_mem_nil, false_iff]
          rintro ⟨hle, href, -⟩
          obtain ⟨after, hafter⟩ := href.exists_scope
          have hlength := congrArg List.length hafter
          have hshort := congrArg List.length hcode
          simp only [List.length_drop, List.length_cons, List.length_nil] at hlength hshort
          omega
      | cons c cs =>
          have hshort := congrArg List.length hcode
          rw [List.length_drop, List.length_cons] at hshort
          by_cases hstarts : ∃ path, ReferenceAt namespaces code place path
          · obtain ⟨path, href⟩ := hstarts
            have hlong := href.length_gt
            obtain ⟨found, hsorted, hmem, hfound⟩ :=
              ih _ (by omega) (place + path.length) (hplace.behind href) rfl
            refine ⟨(place, path) :: found, List.pairwise_cons.2 ⟨?_, hsorted⟩, ?_, ?_⟩
            · rintro ⟨place', path'⟩ hin
              have := ((hmem place' path').1 hin).1
              simp only
              omega
            · intro place' path'
              rw [List.mem_cons, hmem, Prod.mk.injEq]
              constructor
              · rintro (⟨rfl, rfl⟩ | ⟨hle, hfirst⟩)
                · exact ⟨le_rfl, href, hplace⟩
                · exact ⟨by omega, hfirst⟩
              · rintro ⟨hle, href', hout⟩
                rcases hle.eq_or_lt with rfl | hlt
                · exact .inl ⟨rfl, href'.eq href⟩
                · exact .inr ⟨hout place path href hlt, href', hout⟩
            · rw [← hcode, referencesFrom_of_startsReference hnames href, List.drop_drop, hfound]
              rfl
          · rw [not_exists] at hstarts
            obtain ⟨found, hsorted, hmem, hfound⟩ :=
              ih _ (by omega) (place + 1) (hplace.succ hstarts) rfl
            refine ⟨found, hsorted, fun place' path' => ?_, ?_⟩
            · rw [hmem]
              refine and_congr_left fun ⟨href', _⟩ => ⟨fun hle => by omega, fun hle => ?_⟩
              rcases hle.eq_or_lt with rfl | hlt
              · exact absurd href' (hstarts path')
              · exact hlt
            · have hrest : code.drop (place + 1) = cs := by
                rw [← List.drop_drop, hcode, List.drop_one, List.tail_cons]
              have hnone : ∀ path, ¬StartsReference namespaces (c :: cs) path := by
                intro path
                rw [← hcode]
                exact hstarts path
              rw [referencesFrom_of_not hnames hnone, ← hfound, hrest]

/-- The search depends on which namespaces there are, not on their order. -/
lemma referencesFrom_congr {namespaces' : List Text}
    (hmem : ∀ name, name ∈ namespaces' ↔ name ∈ namespaces) (text : Text) :
    referencesFrom namespaces' 0 text = referencesFrom namespaces 0 text := by
  have hnames' : ∀ name ∈ namespaces', IsWord name := fun name h => hnames name ((hmem name).1 h)
  have hsame (text path : Text) :
      StartsReference namespaces' text path ↔ StartsReference namespaces text path := by
    simp only [StartsReference, hmem]
  induction hn : text.length using Nat.strong_induction_on generalizing text with
  | _ n ih =>
      by_cases hstarts : ∃ path, StartsReference namespaces text path
      · obtain ⟨path, hpath⟩ := hstarts
        have hlong := hpath.length_gt
        obtain ⟨words, rest, -, -, -, rfl, -⟩ := hpath.exists_rest
        rw [referencesFrom_of_startsReference hnames hpath,
          referencesFrom_of_startsReference hnames' ((hsame _ _).2 hpath), List.drop_left,
          ih rest.length (by rw [← hn, List.length_append]; omega) rest rfl]
      · cases text with
        | nil => rfl
        | cons c cs =>
            rw [referencesFrom_of_not hnames fun path h => hstarts ⟨path, h⟩,
              referencesFrom_of_not hnames' fun path h => hstarts ⟨path, (hsame _ _).1 h⟩,
              ih cs.length (by rw [← hn, List.length_cons]; omega) cs rfl]

end

/-- Collecting what is not there yet keeps the first of equal entries. -/
lemma foldl_eq_eraseDups {α : Type} [BEq α] [LawfulBEq α] (acc list : List α) :
    list.foldl (fun found a => if found.contains a then found else found ++ [a]) acc =
      acc ++ (list.filter fun a => !acc.contains a).eraseDups := by
  induction list generalizing acc with
  | nil => simp
  | cons a list ih =>
      rw [List.foldl_cons, ih, List.filter_cons]
      cases hacc : acc.contains a with
      | true => simp only [↓reduceIte, Bool.not_true, Bool.false_eq_true]
      | false =>
          have hfilter : (list.filter fun b => !(acc ++ [a]).contains b) =
              (list.filter fun b => !acc.contains b).filter fun b => !b == a := by
            rw [List.filter_filter]
            refine List.filter_congr fun b _ => ?_
            rw [List.contains_append, Bool.not_or, Bool.and_comm]
            simp
          simp only [Bool.false_eq_true, ↓reduceIte, Bool.not_false, List.eraseDups_cons,
            List.append_assoc, List.singleton_append, hfilter]

/-- The references that are reported are those which stand in no other, in order of first appearance
and without repeats.  All that stand free are among them, and the order of the
namespaces does not matter. -/
theorem findReferences_outermost {namespaces : List Text}
    (hnames : ∀ name ∈ namespaces, IsWord name) (code : Text) :
    ∃ found : List (Nat × Text),
      found.Pairwise (fun a b => a.1 < b.1) ∧
      (∀ place path, (place, path) ∈ found ↔
        ReferenceAt namespaces code place path ∧ IsOutermost namespaces code place) ∧
      (∀ place path, ReferenceAt namespaces code place path → StandsFree code place →
        (place, path) ∈ found) ∧
      findReferences code namespaces = (found.map Prod.snd).eraseDups ∧
      ∀ namespaces', (∀ name, name ∈ namespaces' ↔ name ∈ namespaces) →
        findReferences code namespaces' = findReferences code namespaces := by
  have hfirst : IsOutermost namespaces code 0 :=
    fun place' path' _ h => absurd h (Nat.not_lt_zero place')
  obtain ⟨found, hsorted, hmem, hfound⟩ := exists_places hnames code 0 hfirst
  have hmem' (place : Nat) (path : Text) : (place, path) ∈ found ↔
      ReferenceAt namespaces code place path ∧ IsOutermost namespaces code place := by
    rw [hmem, and_iff_right place.zero_le]
  refine ⟨found, hsorted, hmem', fun place path href hfree => ?_, ?_, fun namespaces' hsame => ?_⟩
  · exact (hmem' place path).2 ⟨href, href.isOutermost hfree⟩
  · rw [List.drop_zero] at hfound
    rw [findReferences, foldl_eq_eraseDups, hfound]
    simp
  · rw [findReferences, findReferences, referencesFrom_congr hnames hsame]

/-- Namespaces of which one begins with the other, and paths that hold a namespace twice. -/
theorem findReferences_outermost_nested :
    let namespaces := ["Slim".toList, "Slimmer".toList]
    let code := "::Slimmer::Slim ::Slim::Slim; ::Slimmer::Slim".toList
    (∀ name ∈ namespaces, IsWord name) ∧
      findReferences code namespaces = ["::Slimmer::Slim".toList, "::Slim::Slim".toList] ∧
      ∃ found : List (Nat × Text), found.Pairwise (fun a b => a.1 < b.1) ∧
        (∀ place path, (place, path) ∈ found ↔
          ReferenceAt namespaces code place path ∧ IsOutermost namespaces code place) ∧
        findReferences code namespaces = (found.map Prod.snd).eraseDups := by
  intro namespaces code
  have hnames : ∀ name ∈ namespaces, IsWord name := by decide +kernel
  obtain ⟨found, hsorted, hmem, -, hfound, -⟩ := findReferences_outermost hnames code
  exact ⟨hnames, by decide +kernel, found, hsorted, hmem, hfound⟩

/-- The tail of a longer path is reported though it does not stand free. -/
theorem findReferences_tail :
    let namespaces := ["Slim".toList]
    let code := "Foo::Slim".toList
    findReferences code namespaces = ["::Slim".toList] ∧
      ∀ place path, ReferenceAt namespaces code place path → ¬StandsFree code place := by
  intro namespaces code
  refine ⟨by decide +kernel, fun place path href hfree => ?_⟩
  obtain ⟨after, hafter⟩ := href.exists_scope
  have hscope : (code.drop place).take 2 = [':', ':'] := by rw [hafter]; rfl
  have hlength := congrArg List.length hafter
  rw [List.length_drop, List.length_cons] at hlength
  have honly : ∀ place < code.length, (code.drop place).take 2 = [':', ':'] → place = 3 := by decide
  obtain rfl := honly place (by omega) hscope
  have hletter : isWordChar 'o' = true := by decide +kernel
  rw [hfree 'o' rfl] at hletter
  cases hletter

end ConverterAssembly.Ruby
