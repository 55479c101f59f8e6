import ConverterAssembly.Proofs.Converter.RoundTrip

/-!
# Traits keep the order in which they come

Backend traits are set one after another.  What is left is a map in the order of insertion: each key
stands once, where it came first, with the value that came last.

**Setting one trait.**  `get?_insert` and `getElem?_insert`: no other trait changes its value or its
place.

**Setting several.**  `Reflects` compares traits with the pairs that set them.  `Reflects.insert`
says that one more pair keeps this up, and `reflects_ofList` that it holds after all pairs.

**Documents.**  Traits that are read from a document reflect the pairs in it
(`reflects_traits`).
-/

namespace ConverterAssembly.BackendInfo

/-! ## Setting one trait -/

lemma lookup_cons_eq (key other : Text) (value : BackendValue)
    (entries : List (Text × BackendValue)) :
    ((key, value) :: entries).lookup other =
      if other = key then some value else entries.lookup other := by
  rw [List.lookup_cons]
  by_cases h : other = key
  · simp [h]
  · have hne : (other == key) = false := by simpa using h
    rw [hne, if_neg h]

lemma lookup_setEntry (key other : Text) (value : BackendValue)
    (entries : List (Text × BackendValue)) :
    (setEntry key value entries).lookup other =
      if other = key then some value else entries.lookup other := by
  induction entries with
  | nil => exact lookup_cons_eq key other value []
  | cons entry entries ih =>
      obtain ⟨k, v⟩ := entry
      rw [setEntry, lookup_cons_eq]
      by_cases hk : k = key
      · subst hk
        rw [if_pos rfl, lookup_cons_eq]
        split_ifs <;> rfl
      · rw [if_neg hk, lookup_cons_eq, ih]
        by_cases hother : other = k
        · subst hother
          rw [if_pos rfl, if_neg hk, if_pos rfl]
        · rw [if_neg hother, if_neg hother]

/-- Setting a trait gives it the value, and leaves the values of the others. -/
lemma get?_insert (info : BackendInfo) (key other : Text) (value : BackendValue) :
    (info.insert key value).get? other = if other = key then some value else info.get? other :=
  lookup_setEntry key other value info.entries

/-- Setting a trait leaves every other one at its place. -/
lemma getElem?_insert (info : BackendInfo) {key : Text} (value : BackendValue)
    {entry : Text × BackendValue} (h : entry.1 ≠ key) (place : Nat) :
    (info.insert key value).entries[place]? = some entry ↔ info.entries[place]? = some entry := by
  obtain ⟨entries⟩ := info
  change (setEntry key value entries)[place]? = some entry ↔ entries[place]? = some entry
  have hnew : ∀ k, (k, value) = entry → k ≠ key := by
    rintro k rfl
    exact h
  induction entries generalizing place with
  | nil =>
      cases place with
      | zero => simpa [setEntry] using fun heq => hnew key heq rfl
      | succ place => simp [setEntry]
  | cons e entries ih =>
      obtain ⟨k, v⟩ := e
      rw [setEntry]
      by_cases hk : k = key
      · subst hk
        rw [if_pos rfl]
        cases place with
        | zero =>
            have hnot : (k, value) ≠ entry := fun heq => hnew k heq rfl
            have hnot' : (k, v) ≠ entry := fun heq => h (by rw [← heq])
            simp [hnot, hnot']
        | succ place => simp
      · rw [if_neg hk]
        cases place with
        | zero => simp
        | succ place => exact ih place

/-! ## Setting several -/

/-- Traits are those that the pairs set one after another: each key once, in the order in which the
keys come first, with the value that comes last. -/
structure Reflects (info : BackendInfo) (pairs : List (Text × BackendValue)) : Prop where
  mem_keys_iff : ∀ key, key ∈ info.keys ↔ key ∈ pairs.map (·.1)
  nodup_keys : info.keys.Nodup
  /-- A key stands before another if it comes first before the other does. -/
  keys_ordered : info.keys.Pairwise fun a b =>
    (pairs.map (·.1)).idxOf a < (pairs.map (·.1)).idxOf b
  /-- An entry holds the last value for its key. -/
  mem_entries_iff : ∀ key value,
    (key, value) ∈ info.entries ↔ pairs.reverse.lookup key = some value
  get?_eq : ∀ key, info.get? key = pairs.reverse.lookup key
  get?_eq_none_iff : ∀ key, info.get? key = none ↔ key ∉ pairs.map (·.1)

lemma mem_keys_insert (info : BackendInfo) (key other : Text) (value : BackendValue) :
    other ∈ (info.insert key value).keys ↔ other ∈ info.keys ∨ other = key := by
  by_cases hmem : key ∈ info.keys
  · rw [keys, insert, keys_setEntry_of_mem value hmem]
    refine ⟨.inl, ?_⟩
    rintro (h | rfl)
    · exact h
    · exact hmem
  · rw [keys, insert, setEntry_of_not_mem value hmem]
    simp [keys]

/-- Where no key repeats, the entries are what is looked up. -/
lemma mem_entries_iff_get? {info : BackendInfo} (h : info.keys.Nodup) (key : Text)
    (value : BackendValue) : (key, value) ∈ info.entries ↔ info.get? key = some value := by
  obtain ⟨entries⟩ := info
  change (key, value) ∈ entries ↔ entries.lookup key = some value
  induction entries with
  | nil => simp
  | cons entry entries ih =>
      obtain ⟨k, v⟩ := entry
      obtain ⟨hfresh, hentries⟩ := List.nodup_cons.1 h
      rw [List.mem_cons, lookup_cons_eq]
      by_cases hk : key = k
      · subst hk
        have hout : (key, value) ∉ entries := fun hmem =>
          hfresh (List.mem_map_of_mem (f := (·.1)) hmem)
        simp [hout, eq_comm]
      · simp only [Prod.mk.injEq, hk, false_and, false_or]
        exact ih hentries

lemma lookup_eq_none_iff_not_mem (pairs : List (Text × BackendValue)) (key : Text) :
    pairs.reverse.lookup key = none ↔ key ∉ pairs.map (·.1) := by
  rw [List.lookup_eq_none_iff]
  simp only [List.mem_reverse, bne_iff_ne, ne_eq, List.mem_map, not_exists, not_and]
  exact ⟨fun h p hp heq => h p hp heq.symm, fun h p hp heq => h p hp heq.symm⟩

lemma reflects_empty : Reflects {} [] where
  mem_keys_iff _ := Iff.rfl
  nodup_keys := List.nodup_nil
  keys_ordered := .nil
  mem_entries_iff _ _ := by simp
  get?_eq _ := rfl
  get?_eq_none_iff _ := by simp [get?]

/-- One more pair is reflected by setting its trait. -/
lemma Reflects.insert {info : BackendInfo} {pairs : List (Text × BackendValue)}
    (h : info.Reflects pairs) (key : Text) (value : BackendValue) :
    (info.insert key value).Reflects (pairs ++ [(key, value)]) := by
  have hnodup : (info.insert key value).keys.Nodup := nodup_keys_insert h.nodup_keys key value
  have hget : ∀ other, (info.insert key value).get? other =
      (pairs ++ [(key, value)]).reverse.lookup other := by
    intro other
    rw [get?_insert, h.get?_eq, List.reverse_append, List.reverse_singleton, List.singleton_append,
      lookup_cons_eq]
  refine ⟨fun other => ?_, hnodup, ?_, fun other v => ?_, hget, fun other => ?_⟩
  · rw [mem_keys_insert, h.mem_keys_iff]
    simp
  · -- the keys that were there keep their first places, and a new key comes after all of them
    have hplace : ∀ a ∈ info.keys, ((pairs ++ [(key, value)]).map (·.1)).idxOf a =
        (pairs.map (·.1)).idxOf a := by
      intro a ha
      rw [List.map_append, List.idxOf_append_of_mem ((h.mem_keys_iff a).1 ha)]
    have hold : info.keys.Pairwise fun a b =>
        ((pairs ++ [(key, value)]).map (·.1)).idxOf a <
          ((pairs ++ [(key, value)]).map (·.1)).idxOf b := by
      refine h.keys_ordered.imp_of_mem fun ha hb hlt => ?_
      rw [hplace _ ha, hplace _ hb]
      exact hlt
    by_cases hmem : key ∈ info.keys
    · rw [keys, BackendInfo.insert, keys_setEntry_of_mem value hmem]
      exact hold
    · have hkeys : (info.insert key value).keys = info.keys ++ [key] := by
        rw [keys, BackendInfo.insert, setEntry_of_not_mem value hmem, List.map_append]
        rfl
      rw [hkeys, List.pairwise_append]
      refine ⟨hold, List.pairwise_singleton _ _, fun a ha b hb => ?_⟩
      obtain rfl := List.mem_singleton.1 hb
      have hnew : b ∉ pairs.map (·.1) := fun hb => hmem ((h.mem_keys_iff b).2 hb)
      have hlast : ((pairs ++ [(b, value)]).map (·.1)).idxOf b = pairs.length := by
        rw [List.map_append, List.idxOf_append_of_notMem hnew]
        simp
      have hfirst := List.idxOf_lt_length_iff.2 ((h.mem_keys_iff a).1 ha)
      rw [List.length_map] at hfirst
      rw [hplace a ha, hlast]
      exact hfirst
  · rw [mem_entries_iff_get? hnodup, hget]
  · rw [hget, lookup_eq_none_iff_not_mem]

/-- Traits reflect the pairs that set them. -/
lemma reflects_ofList (pairs : List (Text × BackendValue)) : (ofList pairs).Reflects pairs := by
  induction pairs using List.reverseRecOn with
  | nil => exact reflects_empty
  | append_singleton pairs pair ih =>
      have hstep : ofList (pairs ++ [pair]) = (ofList pairs).insert pair.1 pair.2 := by
        rw [ofList, List.foldl_append]
        rfl
      rw [hstep]
      exact ih.insert pair.1 pair.2

/-! ## Documents -/

/-- **Traits are a map in the order of insertion.**  They reflect the pairs that set them, whether
the pairs are given or read from a JSON or YAML document, and setting one trait changes neither the
place nor the value of any other. -/
theorem reflects_traits :
    (∀ pairs, (ofList pairs).Reflects pairs) ∧
    (∀ text info rest, readBackendInfo text = .ok (info, rest) →
      ∃ pairs, readPairs readBackendValue text = .ok (pairs, rest) ∧ info.Reflects pairs) ∧
    (∀ node info, backendInfoOfNode? node = some info →
      ∃ pairs, pairsOf? backendValueOfNode? node = some pairs ∧ info.Reflects pairs) ∧
    ∀ (info : BackendInfo) (key : Text) (value : BackendValue),
      (∀ (entry : Text × BackendValue) (place : Nat), entry.1 ≠ key →
        ((info.insert key value).entries[place]? = some entry ↔
          info.entries[place]? = some entry)) ∧
      ∀ other, other ≠ key → (info.insert key value).get? other = info.get? other := by
  refine ⟨reflects_ofList, fun text info rest hread => ?_, fun node info hnode => ?_,
    fun info key value => ⟨fun entry place hne => info.getElem?_insert value hne place,
      fun other hne => ?_⟩⟩
  · rw [readBackendInfo] at hread
    cases hpairs : readPairs readBackendValue text with
    | error fault =>
        rw [hpairs] at hread
        cases hread
    | ok read =>
        obtain ⟨pairs, rest'⟩ := read
        rw [hpairs] at hread
        obtain ⟨rfl, rfl⟩ : ofList pairs = info ∧ rest' = rest := by simpa using Except.ok.inj hread
        exact ⟨pairs, rfl, reflects_ofList pairs⟩
  · obtain ⟨pairs, hpairs, rfl⟩ := Option.map_eq_some_iff.1 hnode
    exact ⟨pairs, hpairs, reflects_ofList pairs⟩
  · rw [get?_insert, if_neg hne]

/-- Two traits, of which the first was given twice. -/
def repeatedTraits : BackendInfo :=
  ⟨[("a".toList, .flag false), ("b".toList, .text "x".toList)]⟩

theorem reflects_traits_repeated :
    (∃ pairs, readPairs readBackendValue "\x7b\"a\":true,\"b\":\"x\",\"a\":false\x7d".toList =
      .ok (pairs, []) ∧ repeatedTraits.Reflects pairs) ∧
    (∃ pairs, pairsOf? backendValueOfNode? (.list [.list [.plain "a".toList, .plain "true".toList],
        .list [.plain "b".toList, .quoted "x".toList],
        .list [.plain "a".toList, .plain "false".toList]]) = some pairs ∧
      repeatedTraits.Reflects pairs) ∧
    (repeatedTraits.insert "a".toList (.flag true)).entries[1]? =
      some ("b".toList, .text "x".toList) ∧
    (repeatedTraits.insert "a".toList (.flag true)).get? "b".toList = some (.text "x".toList) := by
  obtain ⟨-, hjson, hyaml, hinsert⟩ := reflects_traits
  obtain ⟨hplace, hvalue⟩ := hinsert repeatedTraits "a".toList (.flag true)
  refine ⟨hjson _ repeatedTraits [] (by decide +kernel), hyaml _ repeatedTraits (by decide +kernel),
    ?_, ?_⟩
  · rw [hplace _ 1 (by decide)]
    rfl
  · rw [hvalue _ (by decide)]
    rfl

end ConverterAssembly.BackendInfo
