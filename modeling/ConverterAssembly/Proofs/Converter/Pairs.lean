import ConverterAssembly.Converter.Document
import ConverterAssembly.Proofs.Document.Record
import ConverterAssembly.Proofs.Json.Values

/-!
# Reading the parts of a configuration

The readers of transforms, traits and registrations are local, and what they make of a value follows
from its parts.

* **Composition** — a local reader followed by a check is local.
* **Pairs** — a pair is a list of two; a collection of pairs is an object or a list of pairs, and
  gives the same in both forms (`taken_readPairs_object`, `taken_readPairs_list`).
* **Depth** — only lists and objects mind how deep they stand.
-/

namespace ConverterAssembly

open Json (Fault Reader taken IsLocal IsValue IsList IsObject Following Settles)

variable {α β : Type}

/-! ## Composition -/

/-- Reads with a reader and then checks what was read. -/
def checked (read : Reader α) (check : α → Except Fault β) : Reader β := fun text =>
  read text >>= fun result => (check result.1).map fun b => (b, result.2)

lemma settles_checked {read : Reader α} {text : Text} {result : Except Fault α}
    (h : Settles read text result) (check : α → Except Fault β) :
    Settles (checked read check) text (result >>= check) := by
  intro rest hrest
  rw [checked, h rest hrest]
  cases result with
  | error fault => rfl
  | ok a => rfl

lemma isLocal_checked {read : Reader α} (h : IsLocal read) (check : α → Except Fault β) :
    IsLocal (checked read check) where
  blanks hblanks text := by rw [checked, checked, h.blanks hblanks]
  values hvalue := (settles_checked (h.values hvalue) check).self

lemma taken_checked {read : Reader α} (h : IsLocal read) {text : Text} (hvalue : IsValue text)
    (check : α → Except Fault β) : taken (checked read check) text = taken read text >>= check :=
  (settles_checked (h.values hvalue) check).taken_eq

/-! ## Pairs -/

/-- The parts of a pair are read in turn. -/
lemma exists_readPart {part : Reader α} (hpart : IsLocal part) (count : Nat) {x body : Text}
    {items : List Text} (h : Following (decide (count = 0)) (x :: items) body) (hx : IsValue x) :
    ∃ later, Following false items later ∧ ∀ rest,
      readPart count part (body ++ ']' :: rest) =
        (taken part x).map fun a => (a, later ++ ']' :: rest) := by
  obtain ⟨c, cs, hcs, hlead⟩ := hx.leads
  obtain ⟨later, hlater, hnext⟩ := h.next_cons hcs hlead (.inl rfl)
  refine ⟨later, hlater, fun rest => ?_⟩
  rw [readPart, hnext rest]
  exact hpart.values hx _ (hlater.delimited (.inl rfl) rest)

lemma readPart_nil (part : Reader α) (count : Nat) {body : Text}
    (h : Following (decide (count = 0)) [] body) (rest : Text) :
    readPart count part (body ++ ']' :: rest) =
      .error (.misfit (.wrongLength count wantedPair)) := by
  rw [readPart, h.next_nil (.inl rfl)]
  rfl

/-- What is made of a list where a pair is wanted. -/
def pairOf (value : Reader α) : List Text → Except Fault (Text × α)
  | [] => .error (.misfit (.wrongLength 0 wantedPair))
  | [x] => do
    let _ ← taken (Json.readText wantedText) x
    .error (.misfit (.wrongLength 1 wantedPair))
  | x :: y :: items => do
    let key ← taken (Json.readText wantedText) x
    let a ← taken value y
    if items.isEmpty then .ok (key, a) else .error .malformed

lemma settles_readPair_list {value : Reader α} (hvalue : IsLocal value) {items : List Text}
    {body : Text} (h : Following true items body) (hitems : ∀ item ∈ items, IsValue item) :
    Settles (readPair value) ('[' :: (body ++ [']'])) (pairOf value items) := by
  intro rest _
  have hlead : Json.Leads '[' := by decide
  rw [readPair, List.cons_append, Json.skipBlanks_of_leads hlead, List.append_assoc,
    List.singleton_append]
  simp only [↓reduceIte]
  match items, h, hitems with
  | [], h, _ =>
      rw [readPart_nil _ 0 h]
      rfl
  | x :: items, h, hitems =>
      obtain ⟨hx, hitems⟩ := List.forall_mem_cons.1 hitems
      obtain ⟨later, hlater, hread⟩ := exists_readPart (Json.isLocal_readText wantedText) 0 h hx
      rw [hread rest]
      match items, hlater, hitems with
      | [], hlater, _ =>
          rw [pairOf]
          cases taken (Json.readText wantedText) x with
          | error fault => rfl
          | ok key =>
              simp only [bind, Except.bind, Except.map]
              rw [readPart_nil _ 1 hlater]
      | y :: items, hlater, hitems =>
          obtain ⟨hy, hitems⟩ := List.forall_mem_cons.1 hitems
          obtain ⟨last, hlast, hread'⟩ := exists_readPart hvalue 1 hlater hy
          rw [pairOf]
          cases taken (Json.readText wantedText) x with
          | error fault => rfl
          | ok key =>
              simp only [bind, Except.bind, Except.map, hread' rest]
              cases taken value y with
              | error fault => rfl
              | ok a =>
                  cases items with
                  | nil => simp only [hlast.endList]; rfl
                  | cons z items => simp only [hlast.endList_cons]; rfl

lemma isLocal_readPair {value : Reader α} (hvalue : IsLocal value) : IsLocal (readPair value) := by
  refine .of_leads (fun hblanks text => ?_) (fun {c cs} hlead h => ?_)
  · rw [readPair, readPair, Json.skipBlanks_append hblanks]
  · by_cases hlist : c = '['
    · subst hlist
      cases h with
      | list h hitems => exact ⟨_, settles_readPair_list hvalue h hitems⟩
      | scalar h => exact absurd rfl h.head_ne.1
    · obtain ⟨fault, hfault⟩ := h.exists_mismatch wantedPair
      refine ⟨.error fault, fun rest hrest => ?_⟩
      rw [readPair, List.cons_append, Json.skipBlanks_of_leads hlead]
      simp only [if_neg hlist, hfault rest hrest, Except.map]

section

variable {value : (depth : Nat) → Reader α} (hvalue : ∀ depth, IsLocal (value depth))

include hvalue

lemma settles_readPairs_list {items : List Text} {body : Text} (h : Following true items body)
    (hitems : ∀ item ∈ items, IsValue item) :
    Settles (readPairs value) ('[' :: (body ++ [']']))
      (items.mapM (taken (readPair (value (nestingInRecord - 2))))) := by
  intro rest _
  have hlead : Json.Leads '[' := by decide
  rw [readPairs, List.cons_append, Json.skipBlanks_of_leads hlead, List.append_assoc,
    List.singleton_append]
  simp only [↓reduceIte, Json.readItems_following (isLocal_readPair (hvalue _)) h hitems]

lemma settles_readPairs_object {keyed : List (Text × Text)} {parts : List Text} {body : Text}
    (h : Following true parts body) (hparts : keyed.Forall₂ Json.IsMember parts)
    (hkeyed : ∀ member ∈ keyed, IsValue member.2) :
    Settles (readPairs value) ('\x7b' :: (body ++ ['\x7d']))
      (keyed.mapM (Json.takenMember (value (nestingInRecord - 1)))) := by
  intro rest _
  have hlead : Json.Leads '\x7b' := by decide
  have hne : ('\x7b' : Char) ≠ '[' := by decide
  rw [readPairs, List.cons_append, Json.skipBlanks_of_leads hlead, List.append_assoc,
    List.singleton_append]
  simp only [if_neg hne, ↓reduceIte, Json.readMembers_following (hvalue _) h hparts hkeyed]

lemma isLocal_readPairs : IsLocal (readPairs value) := by
  refine .of_leads (fun hblanks text => ?_) (fun {c cs} hlead h => ?_)
  · rw [readPairs, readPairs, Json.skipBlanks_append hblanks]
  · cases h with
    | list h hitems => exact ⟨_, settles_readPairs_list hvalue h hitems⟩
    | object h hparts hkeyed => exact ⟨_, settles_readPairs_object hvalue h hparts hkeyed⟩
    | scalar h =>
        obtain ⟨result, hresult⟩ := h.exists_readFound
        obtain ⟨hlist, hobject⟩ := h.head_ne
        refine ⟨result >>= fun found => if found = .null then .ok []
          else .error (.misfit (.wrongType found wantedPairs)), fun rest hrest => ?_⟩
        rw [readPairs, List.cons_append, Json.skipBlanks_of_leads hlead]
        simp only [if_neg hlist, if_neg hobject, hresult rest hrest]
        cases result with
        | error fault => rfl
        | ok found => cases found <;> rfl

/-- A list of pairs gives its pairs. -/
lemma taken_readPairs_list {text : Text} {items : List Text} (h : IsList text items) :
    taken (readPairs value) text =
      items.mapM (taken (readPair (value (nestingInRecord - 2)))) := by
  obtain ⟨body, hbody, rfl⟩ := h.body
  exact (settles_readPairs_list hvalue hbody h.values).taken_eq

/-- A map gives its members. -/
lemma taken_readPairs_object {text : Text} {members : List (Text × Text)}
    (h : IsObject text members) :
    taken (readPairs value) text = members.mapM fun m =>
      (taken (value (nestingInRecord - 1)) m.2).map fun a => (m.1, a) := by
  obtain ⟨parts, body, hbody, hnamed, rfl⟩ := h.body
  obtain ⟨keyed, hparts, hmembers⟩ := Json.exists_keys hnamed
  have hkeyed : ∀ k ∈ keyed, IsValue k.2 := by
    intro k hk
    obtain ⟨m, hm, -, heq⟩ := Json.exists_of_forall₂ hmembers.flip hk
    exact heq ▸ h.values m hm
  rw [(settles_readPairs_object hvalue hbody hparts hkeyed).taken_eq,
    Json.mapM_takenMember hmembers]

end

/-- Two steps that succeed are two successful steps. -/
lemma exists_of_map_eq_ok {ε : Type} {x : Except ε α} {f : α → β} {b : β} (h : x.map f = .ok b) :
    ∃ a, x = .ok a ∧ f a = b := by
  cases x with
  | error _ => exact nomatch h
  | ok a => exact ⟨a, rfl, Except.ok.inj h⟩

lemma readTransforms_eq : readTransforms =
    checked (readPairs fun _ => Json.readText wantedText) fun pairs => .ok (transformsOf pairs) :=
  rfl

lemma isLocal_readTransforms : IsLocal readTransforms := by
  rw [readTransforms_eq]
  exact isLocal_checked (isLocal_readPairs fun _ => Json.isLocal_readText wantedText) _

/-! ## Traits and registrations -/

/-- What is neither a list nor an object is read the same at any depth. -/
lemma taken_readValue_of_ok {text : Text} (h : IsValue text) {depth : Nat} {json : Json}
    (hjson : taken (Json.readValue depth) text = .ok json) (hlist : ∀ items, json ≠ .array items)
    (hobject : ∀ members, json ≠ .object members) (depth' : Nat) :
    taken (Json.readValue depth') text = .ok json := by
  obtain ⟨c, cs, rfl, hlead⟩ := h.leads
  cases h with
  | scalar h =>
      obtain ⟨result, hresult⟩ := h.exists_readFound
      rw [(h.settles_readValue hlead hresult _).taken_eq] at hjson ⊢
      exact hjson
  | list h hitems =>
      cases depth with
      | zero => exact nomatch hjson
      | succ depth =>
          rw [(h.settles_readValue hitems (Json.isLocal_readValue depth)).taken_eq] at hjson
          obtain ⟨items, -, heq⟩ := exists_of_map_eq_ok hjson
          exact absurd heq.symm (hlist items)
  | object h hmembers hvalues =>
      cases depth with
      | zero => exact nomatch hjson
      | succ depth =>
          rw [(h.settles_readValue_object hmembers hvalues
            (Json.isLocal_readValue depth)).taken_eq] at hjson
          obtain ⟨members, -, heq⟩ := exists_of_map_eq_ok hjson
          exact absurd heq.symm (hobject _)

/-- The check that a value fits one of the alternatives of a choice. -/
def chosen (choice : Text) (of? : Json → Option α) (json : Json) : Except Fault α :=
  match of? json with
  | some a => .ok a
  | none => .error (.misfit (.noVariant choice))

lemma chosen_eq_ok_iff {choice : Text} {of? : Json → Option α} {json : Json} {a : α} :
    chosen choice of? json = .ok a ↔ of? json = some a := by
  rw [chosen]
  cases of? json <;> simp

lemma readBackendValue_eq (depth : Nat) : readBackendValue depth =
    checked (Json.readValue depth) (chosen "BackendValue".toList backendValueOf?) := by
  funext text
  rw [readBackendValue, checked]
  refine congrArg _ (funext fun ⟨json, rest⟩ => ?_)
  simp only [chosen]
  cases backendValueOf? json <;> rfl

lemma isLocal_readBackendValue (depth : Nat) : IsLocal (readBackendValue depth) := by
  rw [readBackendValue_eq]
  exact isLocal_checked (Json.isLocal_readValue depth) _

/-- The value of a trait is read the same at any depth. -/
lemma taken_readBackendValue_of_ok {text : Text} (h : IsValue text) {depth : Nat}
    {value : BackendValue} (hvalue : taken (readBackendValue depth) text = .ok value)
    (depth' : Nat) : taken (readBackendValue depth') text = .ok value := by
  rw [readBackendValue_eq, taken_checked (Json.isLocal_readValue _) h] at hvalue ⊢
  obtain ⟨json, hjson, hcheck⟩ := Document.of_bind_eq_ok hvalue
  have hlist (items : List Json) : json ≠ .array items := by
    rintro rfl
    exact nomatch hcheck
  have hobject (members : List (Text × Json)) : json ≠ .object members := by
    rintro rfl
    exact nomatch hcheck
  rw [taken_readValue_of_ok h hjson hlist hobject depth']
  exact hcheck

lemma readBackendInfo_eq : readBackendInfo =
    checked (readPairs readBackendValue) fun pairs => .ok (.ofList pairs) :=
  rfl

lemma isLocal_readBackendInfo : IsLocal readBackendInfo := by
  rw [readBackendInfo_eq]
  exact isLocal_checked (isLocal_readPairs isLocal_readBackendValue) _

lemma readRegistrations_eq : readRegistrations =
    checked (Json.readValue nestingInRecord) (chosen "OneOrMany".toList registrationsOf?) := by
  funext text
  rw [readRegistrations, checked]
  refine congrArg _ (funext fun ⟨json, rest⟩ => ?_)
  simp only [chosen]
  cases registrationsOf? json <;> rfl

lemma isLocal_readRegistrations : IsLocal readRegistrations := by
  rw [readRegistrations_eq]
  exact isLocal_checked (Json.isLocal_readValue _) _

lemma taken_readRegistrations_eq_ok_iff {text : Text} (h : IsValue text) {ids : List BackendId} :
    taken readRegistrations text = .ok ids ↔
      ∃ json, taken (Json.readValue nestingInRecord) text = .ok json ∧
        registrationsOf? json = some ids := by
  rw [readRegistrations_eq, taken_checked (Json.isLocal_readValue _) h]
  constructor
  · intro hids
    obtain ⟨json, hjson, hcheck⟩ := Document.of_bind_eq_ok hids
    exact ⟨json, hjson, chosen_eq_ok_iff.1 hcheck⟩
  · rintro ⟨json, hjson, hids⟩
    rw [hjson]
    exact chosen_eq_ok_iff.2 hids

/-- A list is read by its elements, one level deeper. -/
lemma taken_readValue_list {text : Text} {items : List Text} (h : IsList text items) :
    taken (Json.readValue nestingInRecord) text =
      (items.mapM (taken (Json.readValue (nestingInRecord - 1)))).map .array := by
  obtain ⟨body, hbody, rfl⟩ := h.body
  exact (hbody.settles_readValue h.values (Json.isLocal_readValue (nestingInRecord - 1))).taken_eq

lemma taken_readRegistrations_nil {text : Text} (h : IsList text []) :
    taken readRegistrations text = .ok [] :=
  (taken_readRegistrations_eq_ok_iff h.isValue).2 ⟨.array [], taken_readValue_list h, rfl⟩

/-- A list of one backend is read as the backend alone is. -/
lemma taken_readRegistrations_single {text x : Text} (h : IsList text [x]) {ids : List BackendId}
    (hids : taken readRegistrations text = .ok ids) : taken readRegistrations x = .ok ids := by
  have hx := h.values x List.mem_cons_self
  rw [taken_readRegistrations_eq_ok_iff h.isValue, taken_readValue_list h] at hids
  rw [taken_readRegistrations_eq_ok_iff hx]
  obtain ⟨json, hjson, hids⟩ := hids
  obtain ⟨items, hitems, rfl⟩ := exists_of_map_eq_ok hjson
  rw [List.mapM_cons] at hitems
  obtain ⟨item, hitem, hitems⟩ := Document.of_bind_eq_ok hitems
  obtain rfl : [item] = items := Except.ok.inj hitems
  cases item with
  | string s =>
      refine ⟨.string s, ?_, hids⟩
      exact taken_readValue_of_ok hx hitem (fun _ => nofun) (fun _ => nofun) _
  | _ => exact nomatch hids

end ConverterAssembly
