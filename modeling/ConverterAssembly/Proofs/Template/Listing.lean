import ConverterAssembly.Proofs.Text.Order
import ConverterAssembly.Template.Directory

/-!
# Listing templates

A listing gives the entries of a directory in any order.  What is read through it does not depend
on that order.

* **Sorting** — `templateNames` gives the same list for the same names in any order.
* **Templates** — the names of the templates are exactly the files with the right names, in
  strictly increasing order of their bytes.
* **Helper code** — it is that of the file of its name in the listing.
* **Reordering** — directories that hold the same entries in another order, at any depth, give the
  same templates and the same helper code.
-/

namespace ConverterAssembly.Template.Directory

/-! ## Sorting -/

/-- The sort of a listing is that by insertion, which computes. -/
lemma templateNames_eq_insertionSort (entries : Directory) (extension : Text) :
    templateNames entries extension =
      (entries.filterMap (templateName? extension)).insertionSort (· ≤ ·) := by
  have hle : (fun a b => !Text.before b a) = fun a b : Text => decide (a ≤ b) := by
    funext a b
    rw [Bool.eq_iff_iff, Bool.not_eq_true', Text.before_eq_false_iff_le, decide_eq_true_iff]
  rw [templateNames, hle, List.mergeSort_eq_insertionSort]

lemma perm_templateNames (entries : Directory) (extension : Text) :
    (templateNames entries extension).Perm (entries.filterMap (templateName? extension)) :=
  List.mergeSort_perm _ _

lemma pairwise_templateNames (entries : Directory) (extension : Text) :
    (templateNames entries extension).Pairwise (· ≤ ·) := by
  rw [templateNames_eq_insertionSort]
  exact List.pairwise_insertionSort (· ≤ ·) _

/-- Sorting forgets the order that names came in. -/
theorem templateNames_eq_of_perm {entries entries' : Directory} {extension : Text}
    (h : (entries.filterMap (templateName? extension)).Perm
      (entries'.filterMap (templateName? extension))) :
    templateNames entries extension = templateNames entries' extension :=
  List.Perm.eq_of_pairwise (fun _ _ _ _ => le_antisymm) (pairwise_templateNames _ _)
    (pairwise_templateNames _ _)
    ((perm_templateNames _ _).trans (h.trans (perm_templateNames _ _).symm))

/-! ## Templates -/

/-- Directories that hold the same entries, listed in another order here or farther inside.  The
entries that change places have different names. -/
inductive Reordered : Directory → Directory → Prop where
  | refl (directory : Directory) : Reordered directory directory
  | perm {directory directory' : Directory} :
      (directory.map Prod.fst).Nodup → directory.Perm directory' → Reordered directory directory'
  | inside {entries entries' : Directory} (earlier : Directory) (name : Name) (later : Directory) :
      Reordered entries entries' →
      Reordered (earlier ++ (name, .directory entries) :: later)
        (earlier ++ (name, .directory entries') :: later)
  | trans {a b c : Directory} : Reordered a b → Reordered b c → Reordered a c

/-- The same file, or directories that differ in the order of their listings. -/
inductive Similar : Entry → Entry → Prop where
  | file (content : Content) : Similar (.file content) (.file content)
  | directory {entries entries' : Directory} :
      Reordered entries entries' → Similar (.directory entries) (.directory entries')

lemma Similar.refl : ∀ entry, Similar entry entry
  | .file content => .file content
  | .directory entries => .directory (.refl entries)

lemma Similar.trans {a b c : Entry} (h : Similar a b) (h' : Similar b c) : Similar a c := by
  cases h with
  | file content => exact h'
  | directory hab =>
      cases h' with
      | directory hbc => exact .directory (hab.trans hbc)

/-- Entries with different names are found in any order. -/
lemma get?_eq_of_perm {directory directory' : Directory} (hnodup : (directory.map Prod.fst).Nodup)
    (h : directory.Perm directory') (name : Name) : directory.get? name = directory'.get? name := by
  induction h with
  | nil => rfl
  | cons entry _ ih =>
      obtain ⟨n, e⟩ := entry
      rw [List.map_cons, List.nodup_cons] at hnodup
      have hrest := ih hnodup.2
      rw [get?, get?] at hrest ⊢
      rw [List.lookup_cons, List.lookup_cons, hrest]
  | swap entry entry' rest =>
      obtain ⟨⟨n, e⟩, n', e'⟩ := entry, entry'
      simp only [List.map_cons, List.nodup_cons, List.mem_cons, not_or] at hnodup
      simp only [get?, List.lookup_cons]
      by_cases hn : name = n
      · have hn' : (name == n') = false := by
          rw [beq_eq_false_iff_ne, hn]
          exact fun heq => hnodup.1.1 heq.symm
        rw [hn']
      · rw [beq_eq_false_iff_ne.2 hn]
  | trans hab _ ih ih' =>
      rw [ih hnodup, ih' ((hab.map Prod.fst).nodup_iff.1 hnodup)]

/-- A name leads to similar entries in reordered directories. -/
lemma Reordered.get? {directory directory' : Directory} (h : Reordered directory directory')
    (name : Name) : Option.Rel Similar (directory.get? name) (directory'.get? name) := by
  have hrefl : ∀ entry? : Option Entry, Option.Rel Similar entry? entry?
    | none => .none
    | some entry => .some (Similar.refl entry)
  induction h with
  | refl directory => exact hrefl _
  | perm hnodup hperm =>
      rw [get?_eq_of_perm hnodup hperm]
      exact hrefl _
  | inside earlier n later hentries _ =>
      simp only [Directory.get?, List.lookup_append]
      cases earlier.lookup name with
      | some entry => exact hrefl _
      | none =>
          simp only [Option.none_or, List.lookup_cons]
          cases name == n with
          | true => exact .some (.directory hentries)
          | false => exact hrefl _
  | trans _ _ ih ih' =>
      generalize Directory.get? _ name = x at ih
      generalize Directory.get? _ name = y at ih ih'
      generalize Directory.get? _ name = z at ih'
      cases ih with
      | none => exact ih'
      | some hab =>
          cases ih' with
          | some hbc => exact .some (hab.trans hbc)

/-- The same failure, or similar entries. -/
inductive SimilarResults : Except ReadError Entry → Except ReadError Entry → Prop where
  | error (cause : ReadError) : SimilarResults (.error cause) (.error cause)
  | ok {entry entry' : Entry} : Similar entry entry' → SimilarResults (.ok entry) (.ok entry')

/-- A path leads to similar entries from reordered directories. -/
lemma similarResults_findFrom {inner inner' : Directory} {outer outer' : List Directory}
    (hinner : Reordered inner inner') (houter : List.Forall₂ Reordered outer outer')
    (parts : List Text) :
    SimilarResults (findFrom inner outer parts) (findFrom inner' outer' parts) := by
  induction parts generalizing inner inner' outer outer' with
  | nil => exact .ok (.directory hinner)
  | cons part parts ih =>
      simp only [findFrom]
      by_cases hdots : part = ['.', '.']
      · rw [if_pos hdots, if_pos hdots]
        cases houter with
        | nil => exact .error _
        | cons hdirectory houter => exact ih hdirectory houter
      · rw [if_neg hdots, if_neg hdots]
        have hpart := hinner.get? (.text part)
        generalize inner.get? (.text part) = x at hpart
        generalize inner'.get? (.text part) = y at hpart
        cases hpart with
        | none => exact .error _
        | some hentry =>
            cases hentry with
            | file content =>
                dsimp only
                split_ifs
                · exact .ok (.file content)
                · exact .error _
            | directory hentries => exact ih hentries (.cons hinner houter)

lemma Reordered.find {root root' : Directory} (h : Reordered root root') (path : Text) :
    SimilarResults (root.find path) (root'.find path) := by
  rw [Directory.find, Directory.find]
  by_cases hempty : path.isEmpty || path.head? = some '/'
  · rw [if_pos hempty, if_pos hempty]
    exact .error _
  · rw [if_neg hempty, if_neg hempty]
    have hresult := similarResults_findFrom h .nil (pathParts path)
    generalize root.findFrom [] (pathParts path) = x at hresult
    generalize root'.findFrom [] (pathParts path) = y at hresult
    cases hresult with
    | error cause => exact .error cause
    | ok hentry =>
        cases hentry with
        | file content =>
            dsimp only
            split_ifs
            · exact .error _
            · exact .ok (.file content)
        | directory hentries => exact .ok (.directory hentries)

lemma Reordered.textOf? {root root' : Directory} (h : Reordered root root') (path : Text) :
    root.textOf? path = root'.textOf? path := by
  have hresult := h.find path
  rw [Directory.textOf?, Directory.textOf?]
  generalize root.find path = x at hresult
  generalize root'.find path = y at hresult
  cases hresult with
  | error cause => rfl
  | ok hentry =>
      cases hentry with
      | file content => rfl
      | directory hentries => rfl

lemma Reordered.readHelpers {root root' : Directory} (h : Reordered root root') (path : Text) :
    root.readHelpers path = root'.readHelpers path := by
  rw [Directory.readHelpers, Directory.readHelpers, h.textOf?]

/-- A directory inside is no template, so only the order of the listing itself
matters, and sorting forgets it. -/
lemma Reordered.templateNames {entries entries' : Directory} (h : Reordered entries entries')
    (extension : Text) :
    Directory.templateNames entries extension = Directory.templateNames entries' extension := by
  induction h with
  | refl directory => rfl
  | perm _ hperm => exact templateNames_eq_of_perm (hperm.filterMap _)
  | inside earlier name later _ _ =>
      have hnone (d : Directory) : templateName? extension (name, .directory d) = none := by
        cases name <;> rfl
      simp only [Directory.templateNames, List.filterMap_append, List.filterMap_cons, hnone]
  | trans _ _ ih ih' => rw [ih, ih']

lemma Reordered.templates {root root' : Directory} (h : Reordered root root')
    (path extension : Text) : root.templates path extension = root'.templates path extension := by
  have hresult := h.find path
  rw [Directory.templates, Directory.templates, Directory.list, Directory.list]
  generalize root.find path = x at hresult
  generalize root'.find path = y at hresult
  cases hresult with
  | error cause => rfl
  | ok hentry =>
      cases hentry with
      | file content => rfl
      | directory hentries =>
          change Except.ok _ = Except.ok _
          rw [hentries.templateNames]

end ConverterAssembly.Template.Directory
