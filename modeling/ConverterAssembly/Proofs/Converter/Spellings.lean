import ConverterAssembly.Proofs.Converter.Pairs
import ConverterAssembly.Proofs.Converter.RoundTrip
import ConverterAssembly.Proofs.Document.Members

/-!
# Spellings of a configuration

A configuration can be written down in many ways: its members in any order and under any of their
names, with members in between that mean nothing, collections as maps or as lists of pairs, and
empty ones left out.  `Respelled` relates the members of two documents that differ in such ways, and
both documents give the same configuration (`ofJson_of_respelled`).

* **Spellings** — the relation, on the names and values of members.
* **Values** — respelled values are read alike.
* **Fields** — the fields of a configuration are local and do not touch one another.
* **Documents** — from one step on members to whole documents.
-/

namespace ConverterAssembly.ConverterConfig

open Json (Fault taken IsLocal IsValue IsList IsObject IsDocument IsString)

/-! ## Spellings -/

/-- The parts of a configuration. -/
inductive Part where
  | className
  | transforms
  | helpersCode
  | registerFor
  | backendInfo
  | delegateBackend
deriving DecidableEq

/-- The names that a document can use for a part. -/
def Part.names : Part → List Text
  | className => ["className".toList, "class_name".toList]
  | transforms => ["transforms".toList, "transforms_code".toList, "transformsCode".toList]
  | helpersCode => ["helpersCode".toList, "helpers_code".toList]
  | registerFor => ["registerFor".toList, "register_for".toList]
  | backendInfo => ["backendInfo".toList, "backend_info".toList]
  | delegateBackend => ["delegateBackend".toList, "delegate_backend".toList]

/-- The word for no value. -/
def nullText : Text := "null".toList

/-- A list of pairs with the given keys and values. -/
def IsPairs (text : Text) (pairs : List (Text × Text)) : Prop :=
  ∃ items, IsList text items ∧ items.Forall₂
    (fun item pair => ∃ key, IsString key ∧ taken Json.readKey key = .ok pair.1 ∧
      IsList item [key, pair.2]) pairs

/-- The values that mean the same as leaving the part out. -/
def Part.IsEmpty : Part → Text → Prop
  | className, _ => False
  | transforms, value | backendInfo, value =>
    value = nullText ∨ IsList value [] ∨ IsObject value []
  | registerFor, value => value = nullText ∨ IsList value []
  | helpersCode, value | delegateBackend, value => value = nullText

/-- Two ways to write the value of a part. -/
inductive SameValue : Part → Text → Text → Prop where
  | listed {part : Part} (h : part = .transforms ∨ part = .backendInfo) {value value' : Text}
      {pairs : List (Text × Text)} (map : IsObject value pairs) (list : IsPairs value' pairs) :
      SameValue part value value'
  | mapped {part : Part} (h : part = .transforms ∨ part = .backendInfo) {value value' : Text}
      {pairs : List (Text × Text)} (list : IsPairs value pairs) (map : IsObject value' pairs) :
      SameValue part value value'
  | empty {part : Part} {value value' : Text} (h : part.IsEmpty value) (h' : part.IsEmpty value') :
      SameValue part value value'
  | single {value item : Text} (h : IsList value [item]) : SameValue .registerFor value item

/-- The part is given by none of the members. -/
def Part.IsAbsent (part : Part) (members : List (Text × Text)) : Prop :=
  ∀ member ∈ members, member.1 ∉ part.names

instance (part : Part) : DecidablePred part.IsAbsent := fun members =>
  inferInstanceAs (Decidable (∀ member ∈ members, member.1 ∉ part.names))

/-- Members that say the same. -/
inductive Respelled : List (Text × Text) → List (Text × Text) → Prop where
  | reordered {members members' : List (Text × Text)} (h : members.Perm members') :
      Respelled members members'
  | renamed {part : Part} {name name' : Text} (h : name ∈ part.names) (h' : name' ∈ part.names)
      (value : Text) (members : List (Text × Text)) :
      Respelled ((name, value) :: members) ((name', value) :: members)
  /-- A member that is no part is put in. -/
  | unknown {name : Text} (h : ∀ part : Part, name ∉ part.names) (value : Text)
      (members : List (Text × Text)) : Respelled members ((name, value) :: members)
  | value {part : Part} {name : Text} (h : name ∈ part.names) {value value' : Text}
      (same : SameValue part value value') (members : List (Text × Text)) :
      Respelled ((name, value) :: members) ((name, value') :: members)
  | leftOut {part : Part} {name : Text} (h : name ∈ part.names) {value : Text}
      (empty : part.IsEmpty value) {members : List (Text × Text)} (absent : part.IsAbsent members) :
      Respelled ((name, value) :: members) members
  | putIn {part : Part} {name : Text} (h : name ∈ part.names) {value : Text}
      (empty : part.IsEmpty value) {members : List (Text × Text)} (absent : part.IsAbsent members) :
      Respelled members ((name, value) :: members)
  | trans {a b c : List (Text × Text)} (h : Respelled a b) (h' : Respelled b c) : Respelled a c

/-! ## Values -/

lemma taken_readText_key {key : Text} (h : IsString key) (wanted : Text) :
    taken (Json.readText wanted) key = taken Json.readKey key := by
  obtain ⟨body, rfl, hbody⟩ := h
  rfl

/-- A list of pairs gives its pairs as a map does. -/
lemma taken_readPairs_pairs {α : Type} {value : (depth : Nat) → Json.Reader α}
    (hvalue : ∀ depth, IsLocal (value depth)) {text : Text} {pairs : List (Text × Text)}
    (h : IsPairs text pairs) :
    taken (readPairs value) text = pairs.mapM fun pair =>
      (taken (value (nestingInRecord - 2)) pair.2).map fun a => (pair.1, a) := by
  obtain ⟨items, hlist, hpairs⟩ := h
  rw [taken_readPairs_list hvalue hlist]
  clear hlist
  induction hpairs with
  | nil => rfl
  | @cons item pair items pairs hpair _ ih =>
      obtain ⟨key, hkey, hname, hitem⟩ := hpair
      have htaken : taken (readPair (value (nestingInRecord - 2))) item =
          (taken (value (nestingInRecord - 2)) pair.2).map fun a => (pair.1, a) := by
        obtain ⟨body, hbody, rfl⟩ := hitem.body
        rw [(settles_readPair_list (hvalue _) hbody hitem.values).taken_eq, pairOf,
          taken_readText_key hkey, hname]
        cases taken (value (nestingInRecord - 2)) pair.2 <;> rfl
      rw [List.mapM_cons, List.mapM_cons, ih, htaken]

lemma mapM_eq_ok_of_forall {α β ε : Type} {f g : α → Except ε β} {as : List α} {bs : List β}
    (h : ∀ a ∈ as, ∀ b, f a = .ok b → g a = .ok b) (hbs : as.mapM f = .ok bs) :
    as.mapM g = .ok bs := by
  induction as generalizing bs with
  | nil => exact hbs
  | cons a as ih =>
      obtain ⟨ha, has⟩ := List.forall_mem_cons.1 h
      rw [List.mapM_cons] at hbs ⊢
      obtain ⟨b, hb, hbs⟩ := Document.of_bind_eq_ok hbs
      obtain ⟨bs', htail, hbs⟩ := Document.of_bind_eq_ok hbs
      rw [ha b hb, ih has htail]
      exact hbs

lemma bind_eq_ok_of_forall {α β ε : Type} {x y : Except ε α} {f : α → Except ε β} {b : β}
    (h : ∀ a, x = .ok a → y = .ok a) (hb : x >>= f = .ok b) : y >>= f = .ok b := by
  obtain ⟨a, ha, hb⟩ := Document.of_bind_eq_ok hb
  rw [h a ha]
  exact hb

lemma IsPairs.isValue {text : Text} {pairs : List (Text × Text)} (h : IsPairs text pairs) :
    IsValue text := by
  obtain ⟨items, hlist, -⟩ := h
  exact hlist.isValue

/-- A map and a list with the same pairs are read alike, where the depth of
values does not matter. -/
lemma taken_collection_eq_ok_iff {α β : Type} {value : (depth : Nat) → Json.Reader α}
    (hvalue : ∀ depth, IsLocal (value depth))
    (hdepth : ∀ {text : Text}, IsValue text → ∀ {depth : Nat} {a : α},
      taken (value depth) text = .ok a → ∀ depth', taken (value depth') text = .ok a)
    {map list : Text} {pairs : List (Text × Text)} (hmap : IsObject map pairs)
    (hlist : IsPairs list pairs) (check : List (Text × α) → Except Fault β) {b : β} :
    taken (checked (readPairs value) check) map = .ok b ↔
      taken (checked (readPairs value) check) list = .ok b := by
  rw [taken_checked (isLocal_readPairs hvalue) hmap.isValue,
    taken_checked (isLocal_readPairs hvalue) hlist.isValue,
    taken_readPairs_object hvalue hmap, taken_readPairs_pairs hvalue hlist]
  have main (depth depth' : Nat) : ∀ pair ∈ pairs, ∀ b,
      ((taken (value depth) pair.2).map fun a => (pair.1, a)) = .ok b →
      ((taken (value depth') pair.2).map fun a => (pair.1, a)) = .ok b := by
    intro pair hpair b hb
    obtain ⟨a, ha, rfl⟩ := exists_of_map_eq_ok hb
    rw [hdepth (hmap.values pair hpair) ha depth']
    rfl
  exact ⟨bind_eq_ok_of_forall fun _ => mapM_eq_ok_of_forall (main _ _),
    bind_eq_ok_of_forall fun _ => mapM_eq_ok_of_forall (main _ _)⟩

lemma taken_collection_of_isEmpty {α β : Type} {value : (depth : Nat) → Json.Reader α}
    (hvalue : ∀ depth, IsLocal (value depth)) (check : List (Text × α) → Except Fault β)
    {text : Text} (h : text = nullText ∨ IsList text [] ∨ IsObject text []) :
    taken (checked (readPairs value) check) text = check [] := by
  have hlocal := isLocal_readPairs hvalue
  obtain rfl | hlist | hobject := h
  · have hnull : IsValue nullText := .scalar .null
    rw [taken_checked hlocal hnull]
    rfl
  · rw [taken_checked hlocal hlist.isValue, taken_readPairs_list hvalue hlist]
    rfl
  · rw [taken_checked hlocal hobject.isValue, taken_readPairs_object hvalue hobject]
    rfl

/-! ## Fields -/

/-- The field of a part. -/
def Part.field : Part → Document.Field ConverterConfig
  | className => record.fields.get ⟨0, by decide⟩
  | transforms => record.fields.get ⟨1, by decide⟩
  | helpersCode => record.fields.get ⟨2, by decide⟩
  | registerFor => record.fields.get ⟨3, by decide⟩
  | backendInfo => record.fields.get ⟨4, by decide⟩
  | delegateBackend => record.fields.get ⟨5, by decide⟩

lemma find?_of_mem_names {part : Part} {name : Text} (h : name ∈ part.names) :
    record.find? name = some part.field := by
  cases part <;> simp only [Part.names, List.mem_cons, List.not_mem_nil, or_false] at h <;>
    rcases h with rfl | rfl | rfl <;> rfl

lemma exists_part : ∀ field ∈ record.fields, ∃ part : Part, part.field = field := by
  refine List.forall_mem_cons.2 ⟨⟨.className, rfl⟩, ?_⟩
  refine List.forall_mem_cons.2 ⟨⟨.transforms, rfl⟩, ?_⟩
  refine List.forall_mem_cons.2 ⟨⟨.helpersCode, rfl⟩, ?_⟩
  refine List.forall_mem_cons.2 ⟨⟨.registerFor, rfl⟩, ?_⟩
  refine List.forall_mem_cons.2 ⟨⟨.backendInfo, rfl⟩, ?_⟩
  exact List.forall_mem_singleton.2 ⟨.delegateBackend, rfl⟩

lemma Part.isCalled_field_iff {part : Part} {name : Text} :
    part.field.isCalled name = true ↔ name ∈ part.names := by
  have hnames : part.names = part.field.name :: part.field.aliases := by cases part <;> rfl
  rw [Document.Field.isCalled, hnames, Bool.or_eq_true, decide_eq_true_eq, List.contains_iff_mem,
    List.mem_cons, eq_comm]

lemma exists_part_of_find? {name : Text} {field : Document.Field ConverterConfig}
    (h : record.find? name = some field) :
    ∃ part : Part, name ∈ part.names ∧ part.field = field := by
  rw [Document.Record.find?] at h
  have hcalled := List.find?_some h
  obtain ⟨part, rfl⟩ := exists_part field (List.mem_of_find?_eq_some h)
  exact ⟨part, Part.isCalled_field_iff.1 hcalled, rfl⟩

lemma find?_eq_none_of_unknown {name : Text} (h : ∀ part : Part, name ∉ part.names) :
    record.find? name = none := by
  cases hfind : record.find? name with
  | none => rfl
  | some field =>
      obtain ⟨part, hname, -⟩ := exists_part_of_find? hfind
      exact absurd hname (h part)

lemma Part.field_name_injective {part part' : Part} (h : part.field.name = part'.field.name) :
    part = part' := by
  cases part <;> cases part' <;> first | rfl | exact absurd h (by decide)

lemma Part.IsAbsent.field_name_ne {part : Part} {members : List (Text × Text)}
    (h : part.IsAbsent members) : ∀ member ∈ members, ∀ field,
      record.find? member.1 = some field → field.name ≠ part.field.name := by
  intro member hmember field hfind heq
  obtain ⟨part', hname, rfl⟩ := exists_part_of_find? hfind
  obtain rfl := Part.field_name_injective heq
  exact h member hmember hname

lemma readJson_fieldOf {σ α : Type} (name : String) (aliases : List String) (required : Bool)
    (json : Json.Reader α) (node : Yaml.Node → Option α) (set : σ → α → σ) (state : σ) :
    (fieldOf name aliases required json node set).readJson state =
      checked json fun a => .ok (set state a) :=
  rfl

lemma isLocal_fieldOf {σ α : Type} {name : String} {aliases : List String} {required : Bool}
    {json : Json.Reader α} {node : Yaml.Node → Option α} {set : σ → α → σ} (h : IsLocal json)
    (state : σ) : IsLocal ((fieldOf name aliases required json node set).readJson state) := by
  rw [readJson_fieldOf]
  exact isLocal_checked h _

/-- Every field depends on nothing but its value. -/
lemma isLocal_field : ∀ field ∈ record.fields, ∀ state, IsLocal (field.readJson state) := by
  have htext := Json.isLocal_readText wantedText
  refine List.forall_mem_cons.2 ⟨isLocal_fieldOf htext, ?_⟩
  refine List.forall_mem_cons.2 ⟨isLocal_fieldOf isLocal_readTransforms, ?_⟩
  refine List.forall_mem_cons.2 ⟨isLocal_fieldOf (Json.isLocal_readOptional htext), ?_⟩
  refine List.forall_mem_cons.2 ⟨isLocal_fieldOf isLocal_readRegistrations, ?_⟩
  refine List.forall_mem_cons.2 ⟨isLocal_fieldOf isLocal_readBackendInfo, ?_⟩
  exact List.forall_mem_singleton.2 (isLocal_fieldOf (Json.isLocal_readOptional htext))

/-- What the value of a part does to a configuration. -/
def Part.update : Part → Text → Except Fault (ConverterConfig → ConverterConfig)
  | className, text =>
    (taken (Json.readText wantedText) text).map fun className config => { config with className }
  | transforms, text =>
    (taken readTransforms text).map fun transforms config => { config with transforms }
  | helpersCode, text =>
    (taken (Json.readOptional (Json.readText wantedText)) text).map
      fun helpersCode config => { config with helpersCode }
  | registerFor, text =>
    (taken readRegistrations text).map fun registerFor config => { config with registerFor }
  | backendInfo, text =>
    (taken readBackendInfo text).map fun backendInfo config => { config with backendInfo }
  | delegateBackend, text =>
    (taken (Json.readOptional (Json.readText wantedText)) text).map
      fun delegateBackend config => { config with delegateBackend }

/-- Reading a field is the update by its value. -/
lemma Part.taken_field (part : Part) (config : ConverterConfig) (text : Text) :
    taken (part.field.readJson config) text = (part.update text).map fun f => f config := by
  have main {α : Type} (json : Json.Reader α) (set : ConverterConfig → α → ConverterConfig)
      (h : part.field.readJson config = checked json fun a => .ok (set config a)) :
      taken (part.field.readJson config) text =
        ((taken json text).map fun a config => set config a).map fun f => f config := by
    rw [h, taken, taken, checked]
    cases json text <;> rfl
  cases part with
  | className => exact main _ _ rfl
  | transforms => exact main _ _ rfl
  | helpersCode => exact main _ _ rfl
  | registerFor => exact main _ _ rfl
  | backendInfo => exact main _ _ rfl
  | delegateBackend => exact main _ _ rfl

/-- Different parts do not touch one another. -/
lemma Part.update_comm {part part' : Part} (h : part ≠ part') {v w : Text}
    {f g : ConverterConfig → ConverterConfig} (hf : part.update v = .ok f)
    (hg : part'.update w = .ok g) (config : ConverterConfig) : g (f config) = f (g config) := by
  cases part <;> cases part' <;> first
    | exact absurd rfl h
    | obtain ⟨a, -, rfl⟩ := exists_of_map_eq_ok hf
      obtain ⟨b, -, rfl⟩ := exists_of_map_eq_ok hg
      rfl

lemma commute_field : ∀ f ∈ record.fields, ∀ g ∈ record.fields, f.name ≠ g.name →
    Document.Record.Commute f g := by
  intro f hf g hg hne config a b v w ha hb
  obtain ⟨part, rfl⟩ := exists_part f hf
  obtain ⟨part', rfl⟩ := exists_part g hg
  rw [Part.taken_field] at ha hb
  obtain ⟨update, hupdate, rfl⟩ := exists_of_map_eq_ok ha
  obtain ⟨update', hupdate', rfl⟩ := exists_of_map_eq_ok hb
  refine ⟨update' config, ?_, ?_⟩
  · rw [Part.taken_field, hupdate']
    rfl
  · have hparts : part ≠ part' := fun heq => hne (heq ▸ rfl)
    rw [Part.taken_field, hupdate, Part.update_comm hparts hupdate hupdate']
    rfl

/-- The update by an empty part. -/
def Part.clear : Part → ConverterConfig → ConverterConfig
  | className, config => config
  | transforms, config => { config with transforms := [] }
  | helpersCode, config => { config with helpersCode := none }
  | registerFor, config => { config with registerFor := [] }
  | backendInfo, config => { config with backendInfo := {} }
  | delegateBackend, config => { config with delegateBackend := none }

lemma Part.clear_initial (part : Part) : part.clear record.initial = record.initial := by
  cases part <;> rfl

lemma Part.IsEmpty.update_eq {part : Part} {value : Text} (h : part.IsEmpty value) :
    part.update value = .ok part.clear := by
  have hnull : taken (Json.readOptional (Json.readText wantedText)) nullText = .ok none := rfl
  cases part with
  | className => exact h.elim
  | transforms =>
      rw [Part.update, readTransforms_eq,
        taken_collection_of_isEmpty (fun _ => Json.isLocal_readText wantedText) _ h]
      rfl
  | helpersCode =>
      obtain rfl : value = nullText := h
      rw [Part.update, hnull]
      rfl
  | registerFor =>
      have hempty : taken readRegistrations value = .ok [] := by
        obtain rfl | hlist := h
        · rfl
        · exact taken_readRegistrations_nil hlist
      rw [Part.update, hempty]
      rfl
  | backendInfo =>
      rw [Part.update, readBackendInfo_eq,
        taken_collection_of_isEmpty isLocal_readBackendValue _ h]
      rfl
  | delegateBackend =>
      obtain rfl : value = nullText := h
      rw [Part.update, hnull]
      rfl

/-- A map and a list with the same pairs do the same. -/
lemma Part.update_eq_ok_iff {part : Part} (h : part = .transforms ∨ part = .backendInfo)
    {map list : Text} {pairs : List (Text × Text)} (hmap : IsObject map pairs)
    (hlist : IsPairs list pairs) {f : ConverterConfig → ConverterConfig} :
    part.update map = .ok f ↔ part.update list = .ok f := by
  have main {α : Type} {x y : Except Fault α} {set : α → ConverterConfig → ConverterConfig}
      (hxy : ∀ {a}, x = .ok a ↔ y = .ok a) : x.map set = .ok f ↔ y.map set = .ok f := by
    constructor
    · intro hf
      obtain ⟨a, ha, rfl⟩ := exists_of_map_eq_ok hf
      rw [hxy.1 ha]
      rfl
    · intro hf
      obtain ⟨a, ha, rfl⟩ := exists_of_map_eq_ok hf
      rw [hxy.2 ha]
      rfl
  obtain rfl | rfl := h
  · refine main fun {_} => ?_
    rw [readTransforms_eq]
    exact taken_collection_eq_ok_iff (fun _ => Json.isLocal_readText wantedText)
      (fun _ _ _ h _ => h) hmap hlist _
  · refine main fun {_} => ?_
    rw [readBackendInfo_eq]
    exact taken_collection_eq_ok_iff isLocal_readBackendValue
      (fun h _ _ hvalue => taken_readBackendValue_of_ok h hvalue) hmap hlist _

/-- Two ways to write a value do the same. -/
lemma SameValue.update {part : Part} {value value' : Text} (h : SameValue part value value')
    {f : ConverterConfig → ConverterConfig} (hf : part.update value = .ok f) :
    part.update value' = .ok f := by
  cases h with
  | listed h map list => exact (Part.update_eq_ok_iff h map list).1 hf
  | mapped h list map => exact (Part.update_eq_ok_iff h map list).2 hf
  | empty h h' =>
      rw [h'.update_eq, ← hf, h.update_eq]
  | single h =>
      obtain ⟨ids, hids, rfl⟩ := exists_of_map_eq_ok hf
      rw [Part.update, taken_readRegistrations_single h hids]
      rfl

lemma Part.required_field {part : Part} {value : Text} (h : part.IsEmpty value) :
    ∀ field ∈ record.fields, field.name = part.field.name → field.required = false := by
  intro field hfield hname
  obtain ⟨part', rfl⟩ := exists_part field hfield
  obtain rfl := Part.field_name_injective hname
  cases part' with
  | className => exact h.elim
  | _ => rfl

/-- A member with an empty part may be left out or put in. -/
lemma take_cons_of_isEmpty {part : Part} {name value : Text} (h : name ∈ part.names)
    (empty : part.IsEmpty value) {members : List (Text × Text)} (absent : part.IsAbsent members) :
    record.take [] record.initial ((name, value) :: members) =
      record.take [] record.initial members := by
  refine Document.Record.take_cons_initial (find?_of_mem_names h) (Part.required_field empty) ?_
    absent.field_name_ne
  rw [Part.taken_field, empty.update_eq]
  exact congrArg Except.ok part.clear_initial

/-! ## Documents -/

/-- Members that say the same give the same configuration. -/
lemma Respelled.take {members members' : List (Text × Text)} (h : Respelled members members')
    {config : ConverterConfig} (hconfig : record.take [] record.initial members = .ok config) :
    record.take [] record.initial members' = .ok config := by
  induction h with
  | reordered h => exact Document.Record.take_perm commute_field h hconfig
  | renamed h h' value members =>
      rw [Document.Record.take, find?_of_mem_names h] at hconfig
      rw [Document.Record.take, find?_of_mem_names h']
      exact hconfig
  | unknown h value members =>
      rw [Document.Record.take, find?_eq_none_of_unknown h]
      exact hconfig
  | value h same members =>
      rw [Document.Record.take_cons_of_find? (find?_of_mem_names h)] at hconfig ⊢
      obtain ⟨hseen, next, hnext, htail⟩ := hconfig
      refine ⟨hseen, next, ?_, htail⟩
      rw [Part.taken_field] at hnext ⊢
      obtain ⟨f, hf, rfl⟩ := exists_of_map_eq_ok hnext
      rw [same.update hf]
      rfl
  | leftOut h empty absent =>
      rwa [take_cons_of_isEmpty h empty absent] at hconfig
  | putIn h empty absent =>
      rwa [take_cons_of_isEmpty h empty absent]
  | trans _ _ ih ih' => exact ih' (ih hconfig)

/-- **Documents that say the same give the same configuration.**  Whatever a document with the given
members is read as, every document with respelled members is read as too; how either document uses
blanks and escapes does not matter. -/
theorem ofJson_of_respelled {document document' : Text} {members members' : List (Text × Text)}
    (hdocument : IsDocument document members) (hdocument' : IsDocument document' members')
    (h : Respelled members members') {config : ConverterConfig}
    (hconfig : ofJson document = .ok config) : ofJson document' = .ok config := by
  rw [ofJson, Document.Record.ofJson_document isLocal_field hdocument] at hconfig
  rw [ofJson, Document.Record.ofJson_document isLocal_field hdocument']
  exact h.take hconfig

/-- A character that stands for itself in a string. -/
def isPlain (c : Char) : Bool :=
  c ≠ '"' && c ≠ '\\' && 0x20 ≤ c.toNat

lemma isStringBody_plain {s : Text} (h : s.all isPlain = true) :
    Json.IsStringBody (s ++ ['"']) := by
  induction s with
  | nil => exact .close
  | cons c s ih =>
      simp only [List.all_cons, isPlain, Bool.and_eq_true, decide_eq_true_eq] at h
      obtain ⟨⟨⟨hquote, hbackslash⟩, hcontrol⟩, hs⟩ := h
      exact .plain hquote hbackslash (Nat.not_lt.2 hcontrol) (ih hs)

lemma following_compact (first : Bool) (parts : List Text) :
    Json.Following first parts (Json.sequel first parts) := by
  have hblanks : Json.IsBlanks [] := nofun
  induction parts generalizing first with
  | nil => exact .closed hblanks
  | cons part parts ih =>
      cases first with
      | true => exact .first hblanks (ih false)
      | false => exact .later hblanks hblanks (ih false)

/-- A document without blanks. -/
lemma isDocument_compact (members : List (Text × Text))
    (hnames : ∀ member ∈ members, member.1.all isPlain = true ∧
      taken Json.readKey ('"' :: (member.1 ++ ['"'])) = .ok member.1)
    (hvalues : ∀ member ∈ members, IsValue member.2) :
    IsDocument ('\x7b' :: (Json.sequel true
      (members.map fun m => '"' :: (m.1 ++ ['"']) ++ ':' :: m.2) ++ ['\x7d'])) members := by
  have hblanks : Json.IsBlanks [] := nofun
  refine ⟨[], _, [], hblanks, hblanks, ⟨⟨_, _, following_compact true _, ?_, rfl⟩, hvalues⟩,
    (List.append_nil _).symm⟩
  refine List.forall₂_map_right_iff.2 (List.forall₂_same.2 fun member hmember => ?_)
  obtain ⟨hplain, hkey⟩ := hnames member hmember
  exact ⟨_, ⟨[], [], hblanks, hblanks, ⟨_, rfl, isStringBody_plain hplain⟩, rfl⟩, hkey⟩

/-- A document with its members in another order and under other names, with one that means nothing,
without the empty part and with the only id on its own. -/
theorem ofJson_of_respelled_sample :
    ofJson "\x7b\"class_name\":\"A\",\"registerFor\":[\"x\"],\"transforms\":[]\x7d".toList =
      .ok ((named ['A']).withRegisterFor [.name ['x']]) ∧
    ofJson "\x7b\"z\":null,\"register_for\":\"x\",\"className\":\"A\"\x7d".toList =
      .ok ((named ['A']).withRegisterFor [.name ['x']]) := by
  have hname : IsValue ['"', 'A', '"'] :=
    .scalar (.string (isStringBody_plain (by decide : ['A'].all isPlain = true)))
  have hid : IsValue ['"', 'x', '"'] :=
    .scalar (.string (isStringBody_plain (by decide : ['x'].all isPlain = true)))
  have hids : IsList ['[', '"', 'x', '"', ']'] [['"', 'x', '"']] :=
    ⟨⟨_, following_compact true _, rfl⟩, List.forall_mem_singleton.2 hid⟩
  have hnone : IsList ['[', ']'] [] := ⟨⟨_, following_compact true [], rfl⟩, nofun⟩
  have hread : ofJson
      "\x7b\"class_name\":\"A\",\"registerFor\":[\"x\"],\"transforms\":[]\x7d".toList =
        .ok ((named ['A']).withRegisterFor [.name ['x']]) := by decide +kernel
  have hdocument := isDocument_compact [("class_name".toList, ['"', 'A', '"']),
    ("registerFor".toList, ['[', '"', 'x', '"', ']']), ("transforms".toList, ['[', ']'])]
    (by decide +kernel) (by simp [hname, hids.isValue, hnone.isValue])
  have hdocument' := isDocument_compact [("z".toList, nullText),
    ("register_for".toList, ['"', 'x', '"']), ("className".toList, ['"', 'A', '"'])]
    (by decide +kernel) (by simpa [hname, hid] using .scalar .null)
  refine ⟨hread, ofJson_of_respelled hdocument hdocument' ?_ hread⟩
  have hclass : "class_name".toList ∈ Part.className.names ∧
      "className".toList ∈ Part.className.names := by decide
  have hregister : "registerFor".toList ∈ Part.registerFor.names ∧
      "register_for".toList ∈ Part.registerFor.names := by decide
  have htransforms : "transforms".toList ∈ Part.transforms.names := by decide
  refine .trans (.renamed hclass.1 hclass.2 _ _) ?_
  refine .trans (.reordered (List.reverse_perm _).symm) ?_
  refine .trans (.leftOut htransforms (.inr (.inl hnone)) (by decide)) ?_
  refine .trans (.renamed hregister.1 hregister.2 _ _) ?_
  refine .trans (.value hregister.2 (.single hids) _) ?_
  exact .unknown (fun part => by cases part <;> decide) _ _

end ConverterAssembly.ConverterConfig
