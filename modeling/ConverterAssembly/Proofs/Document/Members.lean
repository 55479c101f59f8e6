import ConverterAssembly.Document.Record
import ConverterAssembly.Proofs.Json.Values

/-!
# Records by their members

A record is read from an object member by member.  `Record.take` is this reading on names and values
alone, without the text around them, and `ofJson_document` says that a document gives what its
members give.

* **Documents** — from the text of an object to its members.
* **Order** — where different fields do not touch what the others set, members may come in any order
  (`take_perm`).
* **Single members** — unknown members, and members that leave the record as it is.
-/

namespace ConverterAssembly.Document

open Json (taken IsLocal IsValue IsNamed IsDocument)

variable {σ : Type}

namespace Record

/-- Takes members by their names and values; the fields called `seen` have been taken. -/
def take (record : Record σ) :
    (seen : List Text) → σ → List (Text × Text) → Except Json.Fault σ
  | seen, state, [] =>
    match record.missing? seen with
    | some field => .error (.misfit (.missingField field.name))
    | none => .ok state
  | seen, state, (name, value) :: members =>
    match record.find? name with
    | none => take record seen state members
    | some field =>
      if seen.contains field.name then .error (.misfit (.duplicateField field.name))
      else do
        let state ← taken (field.readJson state) value
        take record (field.name :: seen) state members

/-! ## Documents -/

lemma readMembersFrom_following {record : Record σ}
    (hlocal : ∀ field ∈ record.fields, ∀ state, IsLocal (field.readJson state)) {first : Bool}
    {members : List (Text × Text)} {parts : List Text} {text : Text}
    (h : Json.Following first parts text) (hmembers : members.Forall₂ IsNamed parts)
    (hvalues : ∀ member ∈ members, IsValue member.2) {bound : Nat} (hbound : parts.length < bound)
    (seen : List Text) (state : σ) (rest : Text) :
    record.readMembersFrom bound first seen state (text ++ '\x7d' :: rest) =
      (record.take seen state members).map fun final => (final, rest) := by
  induction hmembers generalizing bound first text seen state with
  | nil =>
      obtain ⟨bound, rfl⟩ : ∃ b, bound = b + 1 := ⟨bound - 1, by omega⟩
      rw [readMembersFrom, h.next_nil (.inr rfl), take]
      simp only [bind, Except.bind]
      cases record.missing? seen <;> rfl
  | @cons member part members parts hnamed _ ih =>
      obtain ⟨bound, rfl⟩ : ∃ b, bound = b + 1 := ⟨bound - 1, by omega⟩
      obtain ⟨hvalue, hvalues⟩ := List.forall_mem_cons.1 hvalues
      obtain ⟨key, hmember, hname⟩ := hnamed
      obtain ⟨c, cs, hcs, hlead⟩ := hmember.leads
      obtain ⟨later, hlater, hnext⟩ := h.next_cons hcs hlead (.inr rfl)
      obtain ⟨blanks, blanks', hblanks, hblanks', hkey, rfl⟩ := hmember
      have hdelimited := hlater.delimited (.inr rfl) rest
      have htail := ih hlater hvalues (by simpa using hbound)
      rw [readMembersFrom, hnext rest, take]
      simp only [bind, Except.bind, List.append_assoc, List.cons_append, Json.readKey_append hkey,
        hname, Except.map]
      cases hfind : record.find? member.1 with
      | none =>
          have hskip : Json.skipValue (blanks' ++ (member.2 ++ (later ++ '\x7d' :: rest))) =
              .ok (later ++ '\x7d' :: rest) := by
            rw [Json.skipValue, Json.skipFrom_blanks hblanks' (.inl (by decide)), ← Json.skipValue]
            exact Json.skipValue_append hvalue hdelimited
          simp only [Json.afterColon_append hblanks, hskip, htail]
          rfl
      | some field =>
          have hfield := hlocal field (List.mem_of_find?_eq_some hfind) state
          simp only
          split_ifs
          · rfl
          · simp only [Json.afterColon_append hblanks, hfield.blanks hblanks',
              hfield.values hvalue _ hdelimited]
            cases taken (field.readJson state) member.2 with
            | error fault => rfl
            | ok next => simp only [Except.map, htail]

/-- A document gives what its members give. -/
lemma ofJson_document {record : Record σ}
    (hlocal : ∀ field ∈ record.fields, ∀ state, IsLocal (field.readJson state)) {document : Text}
    {members : List (Text × Text)} (h : IsDocument document members) :
    record.ofJson document = record.take [] record.initial members := by
  obtain ⟨blanks, object, blanks', hblanks, hblanks', hobject, rfl⟩ := h
  obtain ⟨parts, body, hbody, hmembers, rfl⟩ := hobject.body
  have hlength := hbody.length_le fun part hpart => by
    obtain ⟨member, -, key, hmember, -⟩ := Json.exists_of_forall₂ hmembers hpart
    obtain ⟨c, cs, rfl, -⟩ := hmember.leads
    exact List.cons_ne_nil c cs
  have hlead : Json.Leads '\x7b' := by decide
  have hbound : parts.length < (body ++ '\x7d' :: blanks').length + 1 := by
    rw [List.length_append, List.length_cons]
    omega
  have hread := readMembersFrom_following hlocal hbody hmembers hobject.values hbound []
    record.initial blanks'
  have hrest : (Json.skipBlanks blanks').isEmpty = true := by
    have hskip := Json.skipBlanks_append hblanks' []
    rw [List.append_nil] at hskip
    rw [hskip]
    rfl
  rw [ofJson, readJson, Json.skipBlanks_append hblanks, List.cons_append,
    Json.skipBlanks_of_leads hlead, List.append_assoc, List.singleton_append]
  simp only [↓reduceIte, hread]
  cases record.take [] record.initial members with
  | error fault => rfl
  | ok final => simp only [Except.map, bind, Except.bind, hrest, ↓reduceIte]

/-! ## Order -/

/-- Only which fields have been taken matters, not their order. -/
lemma take_congr_seen {record : Record σ} {seen seen' : List Text}
    (h : ∀ name, name ∈ seen ↔ name ∈ seen') (state : σ) (members : List (Text × Text)) :
    record.take seen state members = record.take seen' state members := by
  have hcontains {seen seen' : List Text} (h : ∀ name, name ∈ seen ↔ name ∈ seen') (name : Text) :
      seen.contains name = seen'.contains name := by
    rw [Bool.eq_iff_iff, List.contains_iff_mem, List.contains_iff_mem, h]
  induction members generalizing seen seen' state with
  | nil => simp only [take, missing?, hcontains h]
  | cons member members ih =>
      have hcons (name : Text) : ∀ n, n ∈ name :: seen ↔ n ∈ name :: seen' := by
        simp [h]
      simp only [take, hcontains h, ih h, ih (hcons _)]

/-- Reading the fields one after the other gives the same in both orders. -/
def Commute (f g : Field σ) : Prop :=
  ∀ {state a b : σ} {v w : Text}, taken (f.readJson state) v = .ok a →
    taken (g.readJson a) w = .ok b →
    ∃ a', taken (g.readJson state) w = .ok a' ∧ taken (f.readJson a') v = .ok b

lemma take_cons_of_find? {record : Record σ} {name value : Text} {field : Field σ}
    (h : record.find? name = some field) {seen : List Text} {state final : σ}
    {members : List (Text × Text)} :
    record.take seen state ((name, value) :: members) = .ok final ↔
      field.name ∉ seen ∧ ∃ next, taken (field.readJson state) value = .ok next ∧
        record.take (field.name :: seen) next members = .ok final := by
  rw [take, h]
  by_cases hseen : field.name ∈ seen
  · simp [hseen]
  · simp only [List.contains_iff_mem, hseen, not_false_eq_true, true_and, ↓reduceIte]
    cases taken (field.readJson state) value with
    | error fault => simp [bind, Except.bind]
    | ok next => simp [bind, Except.bind]

/-- Members may come in any order. -/
theorem take_perm {record : Record σ}
    (hcommute : ∀ f ∈ record.fields, ∀ g ∈ record.fields, f.name ≠ g.name → Commute f g)
    {members members' : List (Text × Text)} (h : members.Perm members') {seen : List Text}
    {state final : σ} (hfinal : record.take seen state members = .ok final) :
    record.take seen state members' = .ok final := by
  induction h generalizing seen state with
  | nil => exact hfinal
  | @cons member members members' _ ih =>
      obtain ⟨name, value⟩ := member
      cases hfind : record.find? name with
      | none =>
          rw [take, hfind] at hfinal ⊢
          exact ih hfinal
      | some field =>
          rw [take_cons_of_find? hfind] at hfinal ⊢
          obtain ⟨hseen, next, hnext, htail⟩ := hfinal
          exact ⟨hseen, next, hnext, ih htail⟩
  | swap member member' members =>
      obtain ⟨⟨name, value⟩, name', value'⟩ := member, member'
      cases hfind : record.find? name with
      | none =>
          cases hfind' : record.find? name' with
          | none => simpa [take, hfind, hfind'] using hfinal
          | some field' => simpa [take, hfind, hfind'] using hfinal
      | some field =>
          cases hfind' : record.find? name' with
          | none => simpa [take, hfind, hfind'] using hfinal
          | some field' =>
              simp only [take_cons_of_find? hfind, take_cons_of_find? hfind'] at hfinal ⊢
              obtain ⟨hseen', a, ha, hseen, b, hb, htail⟩ := hfinal
              rw [List.mem_cons, not_or] at hseen
              have hne : field'.name ≠ field.name := fun heq => hseen.1 heq.symm
              obtain ⟨a', ha', hb'⟩ := hcommute field' (List.mem_of_find?_eq_some hfind') field
                (List.mem_of_find?_eq_some hfind) hne ha hb
              refine ⟨hseen.2, a', ha', ?_, b, hb', ?_⟩
              · rw [List.mem_cons, not_or]
                exact ⟨hne, hseen'⟩
              · rw [← htail]
                refine take_congr_seen (fun n => ?_) b members
                simp only [List.mem_cons]
                exact or_left_comm
  | trans _ _ ih ih' => exact ih' (ih hfinal)

/-! ## Single members -/

/-- It does not matter whether a field that need not be given has been taken, if no member gives it.
-/
lemma take_cons_seen {record : Record σ} {name : Text}
    (hrequired : ∀ field ∈ record.fields, field.name = name → field.required = false)
    {members : List (Text × Text)}
    (habsent : ∀ member ∈ members, ∀ field, record.find? member.1 = some field → field.name ≠ name)
    (seen : List Text) (state : σ) :
    record.take (name :: seen) state members = record.take seen state members := by
  induction members generalizing seen state with
  | nil =>
      have hmissing : record.missing? (name :: seen) = record.missing? seen := by
        refine List.find?_congr fun field hfield => ?_
        by_cases hname : field.name = name
        · simp [hrequired field hfield hname]
        · simp [hname]
      rw [take, take, hmissing]
  | cons member members ih =>
      obtain ⟨hmember, hmembers⟩ := List.forall_mem_cons.1 habsent
      rw [take, take]
      cases hfind : record.find? member.1 with
      | none => exact ih hmembers seen state
      | some field =>
          have hname := hmember field hfind
          have htail (next : σ) : record.take (field.name :: name :: seen) next members =
              record.take (field.name :: seen) next members := by
            rw [← ih hmembers (field.name :: seen)]
            exact take_congr_seen (fun n => by simp only [List.mem_cons, or_left_comm]) next members
          simp only [List.contains_cons, beq_eq_false_iff_ne.2 hname, Bool.false_or, htail]

/-- A member that leaves the record as it was before any member may be left out or put in, unless
its field has to be given or is given by another member. -/
lemma take_cons_initial {record : Record σ} {name value : Text} {field : Field σ}
    (hfind : record.find? name = some field)
    (hrequired : ∀ f ∈ record.fields, f.name = field.name → f.required = false)
    (hinitial : taken (field.readJson record.initial) value = .ok record.initial)
    {members : List (Text × Text)}
    (habsent : ∀ member ∈ members, ∀ f, record.find? member.1 = some f → f.name ≠ field.name) :
    record.take [] record.initial ((name, value) :: members) =
      record.take [] record.initial members := by
  rw [take, hfind]
  simp only [List.contains_nil, Bool.false_eq_true, ↓reduceIte, hinitial, bind, Except.bind]
  exact take_cons_seen hrequired habsent [] record.initial

end Record

end ConverterAssembly.Document
