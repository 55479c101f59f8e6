import ConverterAssembly.Document.Record
import ConverterAssembly.Proofs.Json.Written

/-!
# Reading records

Two facts about reading a record, for any description of its fields.

**Written objects.**  `Record.Takes` says that the members of an object, in their order, are fields
not seen before whose readers take the written values; then the record is read from the written
object (`Takes.ofJson_write`).

**Invariants.**  What holds of the record before any field is read, and is kept by every field,
holds of every record that a document gives (`ofJson_keeps`, `ofYaml?_keeps`).
-/

namespace ConverterAssembly.Document

/-- A result after two steps comes from a result of the first. -/
lemma of_bind_eq_ok {ε α β : Type} {x : Except ε α} {f : α → Except ε β} {b : β}
    (h : x >>= f = .ok b) : ∃ a, x = .ok a ∧ f a = .ok b := by
  cases x with
  | error e => cases h
  | ok a => exact ⟨a, rfl, h⟩

variable {σ : Type}

namespace Record

/-! ## Written objects -/

/-- From `state`, with the fields `seen` given, the members lead to `final`. -/
inductive Takes (record : Record σ) :
    (seen : List Text) → (state : σ) → List (Text × Json) → (final : σ) → Prop
  | nil {seen : List Text} {state : σ} (complete : record.missing? seen = none) :
      Takes record seen state [] state
  /-- A member that stands for a field not given before. -/
  | member {seen : List Text} {state next final : σ} {name : Text} {value : Json}
      {members : List (Text × Json)} {field : Field σ} (found : record.find? name = some field)
      (fresh : seen.contains field.name = false)
      (reads : Json.Yields (field.readJson state) value.write next)
      (tail : Takes record (field.name :: seen) next members final) :
      Takes record seen state ((name, value) :: members) final

lemma Takes.readMembersFrom_sequel {record : Record σ} {seen : List Text} {state final : σ}
    {members : List (Text × Json)} (h : record.Takes seen state members final) {bound : Nat}
    (hbound : members.length < bound) (first : Bool) (rest : Text) :
    record.readMembersFrom bound first seen state
        (Json.sequel first (Json.writeMembers members) ++ '\x7d' :: rest) = .ok (final, rest) := by
  induction h generalizing bound first with
  | nil complete =>
      obtain ⟨bound, rfl⟩ : ∃ b, bound = b + 1 := ⟨bound - 1, by omega⟩
      simp only [Json.writeMembers, readMembersFrom, bind, Except.bind, complete,
        Json.next_sequel_nil (by decide : Json.isBlank '\x7d' = false)]
  | @member seen state next final name value members field found fresh reads tail ih =>
      obtain ⟨bound, rfl⟩ : ∃ b, bound = b + 1 := ⟨bound - 1, by omega⟩
      have later := ih (by simpa using hbound) false
      have hbegin : Json.Begins '\x7d' (Json.writeMember (name, value)) :=
        (Json.begins_writeString (by decide) name).append _
      simp only [Json.writeMembers, readMembersFrom, bind, Except.bind,
        Json.next_sequel_cons (by decide : ',' ≠ '\x7d') hbegin]
      simp only [Json.writeMember, List.append_assoc, List.cons_append, Json.yields_readKey name _,
        found, fresh, Bool.false_eq_true, ↓reduceIte, Json.afterColon_colon, reads _, later]

/-- A written object whose members lead to a record is read as that record. -/
lemma Takes.ofJson_write {record : Record σ} {members : List (Text × Json)} {final : σ}
    (h : record.Takes [] record.initial members final) :
    record.ofJson (Json.object members).write = .ok final := by
  have size : members.length ≤ (Json.sequel true (Json.writeMembers members)).length := by
    have hbegins : ∀ part ∈ Json.writeMembers members, Json.Begins '\x7d' part := by
      intro part hpart
      rw [Json.writeMembers_eq_map] at hpart
      obtain ⟨m, _, rfl⟩ := List.mem_map.1 hpart
      exact (Json.begins_writeString (by decide) m.1).append _
    have := Json.length_le_sequel hbegins true
    rwa [Json.writeMembers_eq_map, List.length_map, ← Json.writeMembers_eq_map] at this
  have bound : members.length <
      (Json.sequel true (Json.writeMembers members) ++ ['\x7d']).length + 1 := by
    rw [List.length_append]
    omega
  have read := h.readMembersFrom_sequel bound true []
  have nothing : (Json.skipBlanks []).isEmpty = true := rfl
  simp only [ofJson, readJson, Json.write, Json.join_eq_sequel, List.cons_append,
    Json.skipBlanks_cons (by decide : Json.isBlank '\x7b' = false), ↓reduceIte, read, bind,
    Except.bind, nothing]

/-! ## Invariants -/

end Record

/-- Whatever the field is read from, it keeps the property. -/
structure Field.Keeps (field : Field σ) (P : σ → Prop) : Prop where
  json : ∀ {state next : σ} {text rest : Text}, P state →
    field.readJson state text = .ok (next, rest) → P next
  yaml : ∀ {state next : σ} {node : Yaml.Node}, P state →
    field.ofNode? state node = some next → P next

namespace Record

variable {record : Record σ} {P : σ → Prop}

lemma find?_keeps (hfields : ∀ field ∈ record.fields, field.Keeps P) {key : Text} {field : Field σ}
    (h : record.find? key = some field) : field.Keeps P :=
  hfields field (List.mem_of_find?_eq_some h)

lemma readMembersFrom_keeps (hfields : ∀ field ∈ record.fields, field.Keeps P) {bound : Nat}
    {first : Bool} {seen : List Text} {state final : σ} {text rest : Text} (hstate : P state)
    (h : record.readMembersFrom bound first seen state text = .ok (final, rest)) : P final := by
  induction bound generalizing first seen state text with
  | zero => simp [readMembersFrom] at h
  | succ bound ih =>
      rw [readMembersFrom] at h
      obtain ⟨next, _, h⟩ := of_bind_eq_ok h
      cases next with
      | closed after =>
          simp only at h
          split at h
          · cases h
          · cases h
            exact hstate
      | item text =>
          obtain ⟨⟨key, after⟩, _, h⟩ := of_bind_eq_ok h
          simp only at h
          split at h
          · obtain ⟨_, _, h⟩ := of_bind_eq_ok h
            obtain ⟨_, _, h⟩ := of_bind_eq_ok h
            exact ih hstate h
          · rename_i field found
            split_ifs at h
            obtain ⟨_, _, h⟩ := of_bind_eq_ok h
            obtain ⟨⟨next, _⟩, hread, h⟩ := of_bind_eq_ok h
            exact ih ((find?_keeps hfields found).json hstate hread) h

lemma readPositions_keeps {fields : List (Field σ)} (hfields : ∀ field ∈ fields, field.Keeps P)
    {count : Nat} {state final : σ} {text rest : Text} (hstate : P state)
    (h : record.readPositions count fields state text = .ok (final, rest)) : P final := by
  induction fields generalizing count state text with
  | nil =>
      rw [readPositions] at h
      obtain ⟨_, _, h⟩ := of_bind_eq_ok h
      cases h
      exact hstate
  | cons field fields ih =>
      obtain ⟨hfield, hfields⟩ := List.forall_mem_cons.1 hfields
      rw [readPositions] at h
      obtain ⟨next, _, h⟩ := of_bind_eq_ok h
      cases next with
      | closed after =>
          simp only at h
          split_ifs at h
          cases h
          exact hstate
      | item text =>
          obtain ⟨⟨next, _⟩, hread, h⟩ := of_bind_eq_ok h
          exact ih hfields (hfield.json hstate hread) h

/-- Every record that a JSON document gives has the properties that all fields keep. -/
lemma ofJson_keeps (initial : P record.initial) (hfields : ∀ field ∈ record.fields, field.Keeps P)
    {document : Text} {state : σ} (h : record.ofJson document = .ok state) : P state := by
  obtain ⟨⟨final, rest⟩, hread, h⟩ := of_bind_eq_ok h
  simp only at h
  split_ifs at h
  cases h
  unfold readJson at hread
  split at hread
  · cases hread
  · split_ifs at hread
    · exact readMembersFrom_keeps hfields initial hread
    · exact readPositions_keeps hfields initial hread

lemma ofEntries?_keeps (hfields : ∀ field ∈ record.fields, field.Keeps P) {seen : List Text}
    {state final : σ} {entries : List (Yaml.Node × Yaml.Node)} (hstate : P state)
    (h : record.ofEntries? seen state entries = some final) : P final := by
  induction entries generalizing seen state with
  | nil =>
      rw [ofEntries?] at h
      split_ifs at h
      cases h
      exact hstate
  | cons entry entries ih =>
      rw [ofEntries?] at h
      split at h
      · cases h
      · split at h
        · exact ih hstate h
        · rename_i field found
          split_ifs at h
          split at h
          · cases h
          · rename_i next hnext
            exact ih ((find?_keeps hfields found).yaml hstate hnext) h

lemma ofItems?_keeps {fields : List (Field σ)} (hfields : ∀ field ∈ fields, field.Keeps P)
    {state final : σ} {nodes : List Yaml.Node} (hstate : P state)
    (h : ofItems? fields state nodes = some final) : P final := by
  induction fields generalizing state nodes with
  | nil =>
      cases nodes with
      | nil =>
          cases h
          exact hstate
      | cons node nodes => cases h
  | cons field fields ih =>
      obtain ⟨hfield, hfields⟩ := List.forall_mem_cons.1 hfields
      cases nodes with
      | nil =>
          rw [ofItems?] at h
          split_ifs at h
          cases h
          exact hstate
      | cons node nodes =>
          rw [ofItems?] at h
          split at h
          · cases h
          · rename_i next hnext
            exact ih hfields (hfield.yaml hstate hnext) h

/-- Every record that a YAML document gives has the properties that all fields keep. -/
lemma ofYaml?_keeps (initial : P record.initial) (hfields : ∀ field ∈ record.fields, field.Keeps P)
    {document : Text} {state : σ} (h : record.ofYaml? document = some state) : P state := by
  obtain ⟨node, _, hnode⟩ := Option.bind_eq_some_iff.1 h
  cases node with
  | map entries => exact ofEntries?_keeps hfields initial hnode
  | list items => exact ofItems?_keeps hfields initial hnode
  | plain _ => cases hnode
  | quoted _ => cases hnode

end Record

end ConverterAssembly.Document
