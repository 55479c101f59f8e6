import ConverterAssembly.Converter.Document
import ConverterAssembly.Proofs.Document.Record

/-!
# Round trips of configurations

A configuration is written as JSON and read again.  The only information that the written form does
not keep is whether a backend id is a name or a symbol, so a configuration comes back exactly when
all its ids are canonical.

**Traits.**  The keys of backend traits never repeat, however a configuration is built
(`built_iff_nodup_keys`), so that the written map gives the traits back (`ofList_entries`).

**Reading.**  `ofJson_write_json` gives the configuration that is read for any traits and ids.

**Documents.**  What a document gives has canonical ids and keys that do not repeat
(`WellRead.of_ofJson`, `WellRead.of_ofYaml?`).
-/

namespace ConverterAssembly

/-! ## Traits -/

namespace BackendInfo

lemma setEntry_of_not_mem {key : Text} (value : BackendValue) {entries : List (Text × BackendValue)}
    (h : key ∉ entries.map (·.1)) : setEntry key value entries = entries ++ [(key, value)] := by
  induction entries with
  | nil => rfl
  | cons entry entries ih =>
      rw [List.map_cons, List.mem_cons, not_or] at h
      rw [setEntry, if_neg (fun e => h.1 e.symm), ih h.2, List.cons_append]

lemma keys_setEntry_of_mem {key : Text} (value : BackendValue)
    {entries : List (Text × BackendValue)} (h : key ∈ entries.map (·.1)) :
    (setEntry key value entries).map (·.1) = entries.map (·.1) := by
  induction entries with
  | nil => cases h
  | cons entry entries ih =>
      rw [setEntry]
      split_ifs with he
      · rfl
      · have hmem : key ∈ entries.map (·.1) := by
          rcases List.mem_cons.1 h with rfl | h
          · exact absurd rfl he
          · exact h
        rw [List.map_cons, List.map_cons, ih hmem]

/-- Setting a trait keeps the keys apart. -/
lemma nodup_keys_insert {info : BackendInfo} (h : info.keys.Nodup) (key : Text)
    (value : BackendValue) : (info.insert key value).keys.Nodup := by
  by_cases hmem : key ∈ info.keys
  · rw [keys, insert, keys_setEntry_of_mem value hmem]
    exact h
  · rw [keys, insert, setEntry_of_not_mem value hmem, List.map_append]
    refine List.nodup_append.2 ⟨h, by simp, ?_⟩
    rintro a ha b hb rfl
    have hkey : a = key := by simpa using hb
    exact hmem (hkey ▸ ha)

lemma nodup_keys_ofList (pairs : List (Text × BackendValue)) : (ofList pairs).keys.Nodup := by
  have main : ∀ info : BackendInfo, info.keys.Nodup →
      (pairs.foldl (fun info pair => info.insert pair.1 pair.2) info).keys.Nodup := by
    induction pairs with
    | nil => exact fun _ h => h
    | cons pair pairs ih => exact fun info h => ih _ (nodup_keys_insert h pair.1 pair.2)
  exact main {} List.nodup_nil

/-- Traits whose keys do not repeat are set by their own entries. -/
lemma ofList_entries {info : BackendInfo} (h : info.keys.Nodup) : ofList info.entries = info := by
  -- the entries already set stand before those to come
  have main : ∀ pairs done : List (Text × BackendValue), ((done ++ pairs).map (·.1)).Nodup →
      pairs.foldl (fun info pair => info.insert pair.1 pair.2) (BackendInfo.mk done) =
        ⟨done ++ pairs⟩ := by
    intro pairs
    induction pairs with
    | nil => simp
    | cons pair pairs ih =>
        intro done hnodup
        have fresh : pair.1 ∉ done.map (·.1) := by
          rw [List.map_append, List.nodup_append] at hnodup
          exact fun hmem => hnodup.2.2 _ hmem pair.1 (by simp) rfl
        have step := ih (done ++ [pair]) (by simpa using hnodup)
        simpa [insert, setEntry_of_not_mem pair.2 fresh] using step
  exact main info.entries [] h

end BackendInfo

namespace ConverterConfig

/-- The configurations that are built from a class name by setting one thing after another. -/
inductive Built : ConverterConfig → Prop
  | named (className : Text) : Built (named className)
  | withTransform {config : ConverterConfig} (h : Built config) (name code : Text) :
      Built (config.withTransform name code)
  | withHelpers {config : ConverterConfig} (h : Built config) (code : Text) :
      Built (config.withHelpers code)
  | withRegisterFor {config : ConverterConfig} (h : Built config) (ids : List BackendId) :
      Built (config.withRegisterFor ids)
  | withBackendInfo {config : ConverterConfig} (h : Built config) (key : Text)
      (value : BackendValue) : Built (config.withBackendInfo key value)
  | withDelegateBackend {config : ConverterConfig} (h : Built config) (backend : Text) :
      Built (config.withDelegateBackend backend)

lemma Built.withTransforms {config : ConverterConfig} (h : Built config)
    (transforms : List Transform) :
    Built { config with transforms := config.transforms ++ transforms } := by
  induction transforms generalizing config with
  | nil => simpa using h
  | cons t transforms ih =>
      simpa [ConverterConfig.withTransform] using ih (h.withTransform t.name t.code)

lemma Built.withBackendInfos {config : ConverterConfig} (h : Built config)
    (pairs : List (Text × BackendValue)) :
    Built { config with
      backendInfo :=
        pairs.foldl (fun info pair => info.insert pair.1 pair.2) config.backendInfo } := by
  induction pairs generalizing config with
  | nil => exact h
  | cons pair pairs ih => exact ih (h.withBackendInfo pair.1 pair.2)

/-- Everything can be built whose trait keys do not repeat. -/
lemma built_iff_nodup_keys {config : ConverterConfig} :
    Built config ↔ config.backendInfo.keys.Nodup := by
  constructor
  · intro h
    induction h with
    | named className => exact List.nodup_nil
    | withTransform _ _ _ ih => exact ih
    | withHelpers _ _ ih => exact ih
    | withRegisterFor _ _ ih => exact ih
    | withBackendInfo _ key value ih => exact BackendInfo.nodup_keys_insert ih key value
    | withDelegateBackend _ _ ih => exact ih
  · intro h
    obtain ⟨className, transforms, helpersCode, registerFor, backendInfo, delegateBackend⟩ := config
    have required : Built { className, transforms, registerFor, backendInfo } := by
      have built := (((Built.named className).withTransforms transforms).withRegisterFor
        registerFor).withBackendInfos backendInfo.entries
      have info : backendInfo.entries.foldl (fun info pair => info.insert pair.1 pair.2)
          ({} : BackendInfo) = backendInfo := BackendInfo.ofList_entries h
      simpa [ConverterConfig.named, ConverterConfig.withRegisterFor, info] using built
    cases helpersCode with
    | none =>
        cases delegateBackend with
        | none => exact required
        | some backend => exact required.withDelegateBackend backend
    | some code =>
        cases delegateBackend with
        | none => exact required.withHelpers code
        | some backend => exact (required.withHelpers code).withDelegateBackend backend

/-! ## Reading -/

lemma yields_fieldOf {σ α : Type} {name : String} {aliases : List String} {required : Bool}
    {json : Json.Reader α} {node : Yaml.Node → Option α} {set : σ → α → σ} {text : Text} {a : α}
    (h : Json.Yields json text a) (state : σ) :
    Json.Yields ((fieldOf name aliases required json node set).readJson state) text
      (set state a) := by
  intro rest
  simp only [fieldOf, h rest, bind, Except.bind]

/-- A written map with the given values is read as its pairs. -/
lemma yields_readPairs {α β : Type} {value : (depth : Nat) → Json.Reader β} {json : α → Json}
    {of : α → β} (h : ∀ depth a, Json.Yields (value depth) (json a).write (of a))
    (members : List (Text × α)) :
    Json.Yields (readPairs value) (Json.object (members.map fun m => (m.1, json m.2))).write
      (members.map fun m => (m.1, of m.2)) := by
  intro rest
  have read := Json.yields_readMembers (fun a => (json a).write) of
    (fun m (_ : m ∈ members) => h (nestingInRecord - 1) m.2) rest
  have notList : ('\x7b' : Char) ≠ '[' := by decide
  simp only [readPairs, Json.write, Json.writeMembers_eq_map, List.map_map, Function.comp_def,
    List.cons_append, Json.skipBlanks_cons (by decide : Json.isBlank '\x7b' = false),
    if_neg notList, ↓reduceIte, read]

lemma yields_readTransforms (transforms : List Transform) :
    Json.Yields readTransforms (transformsJson transforms).write transforms := by
  intro rest
  have hcode : ∀ (_ : Nat) (code : Text),
      Json.Yields (Json.readText wantedText) (Json.string code).write code :=
    fun _ code => Json.yields_readText wantedText code
  have read := yields_readPairs hcode (transforms.map fun t => (t.name, t.code)) rest
  rw [List.map_map] at read
  simp only [readTransforms, transformsJson, Function.comp_def] at read ⊢
  simp [read, transformsOf, Function.comp_def, bind, Except.bind]

lemma yields_readBackendValue (depth : Nat) (value : BackendValue) :
    Json.Yields (readBackendValue depth) value.json.write value := by
  intro rest
  cases value with
  | flag b =>
      simp only [readBackendValue, BackendValue.json, Json.yields_readValue_bool depth b rest,
        backendValueOf?, bind, Except.bind]
  | text s =>
      simp only [readBackendValue, BackendValue.json, Json.yields_readValue_string depth s rest,
        backendValueOf?, bind, Except.bind]

lemma yields_readBackendInfo {info : BackendInfo} (h : info.keys.Nodup) :
    Json.Yields readBackendInfo info.json.write info := by
  intro rest
  have read := yields_readPairs yields_readBackendValue info.entries rest
  simp only [readBackendInfo, BackendInfo.json, read, bind, Except.bind, Prod.mk.eta, List.map_id',
    BackendInfo.ofList_entries h]

lemma mapM_backendIdOf?_string (texts : List Text) :
    (texts.map Json.string).mapM backendIdOf? = some (texts.map BackendId.parse) := by
  induction texts with
  | nil => rfl
  | cons s texts ih => simp only [List.map_cons, List.mapM_cons, backendIdOf?, ih, Option.pure_def,
      Option.bind_eq_bind, Option.bind_some]

/-- Ids are read as what their texts stand for. -/
lemma yields_readRegistrations (ids : List BackendId) :
    Json.Yields readRegistrations (registrationsJson ids).write
      (ids.map fun id => .parse id.text) := by
  intro rest
  have written : registrationsJson ids = .array ((ids.map BackendId.text).map .string) := by
    simp [registrationsJson, BackendId.json]
  have read : Json.readValue nestingInRecord _ = .ok _ :=
    Json.yields_readValue_strings (nestingInRecord - 1) (ids.map BackendId.text) rest
  rw [readRegistrations, written, read]
  simp only [bind, Except.bind, registrationsOf?, mapM_backendIdOf?_string]
  rw [List.map_map]
  rfl

/-- What is read from a written configuration: the ids are taken anew from their texts. -/
def reread (config : ConverterConfig) : ConverterConfig :=
  { config with registerFor := config.registerFor.map fun id => .parse id.text }

/-- The name of the class is the only field that a document has to give. -/
lemma name_of_required {field : Document.Field ConverterConfig} (h : field ∈ record.fields)
    (hrequired : field.required = true) : field.name = "className".toList := by
  have all : record.fields.all (fun field => !field.required || field.name = "className".toList) =
      true := by decide
  have named := List.all_eq_true.1 all field h
  rw [hrequired, Bool.not_true, Bool.false_or] at named
  exact of_decide_eq_true named

lemma missing?_eq_none {seen : List Text} (h : "className".toList ∈ seen) :
    record.missing? seen = none := by
  rw [Document.Record.missing?, List.find?_eq_none]
  intro field hfield
  by_cases hrequired : field.required = true
  · simpa [hrequired, name_of_required hfield hrequired] using h
  · simp [hrequired]

/-- The last member may be left out. -/
lemma takes_delegateBackend {seen : List Text} {state final : ConverterConfig}
    (hclass : "className".toList ∈ seen) (hseen : seen.contains "delegateBackend".toList = false)
    (hstate : state.delegateBackend = none) {backend : Option Text}
    (hfinal : final = { state with delegateBackend := backend }) :
    record.Takes seen state (optionalMember "delegateBackend".toList backend) final := by
  subst hfinal
  cases backend with
  | none =>
      have same : { state with delegateBackend := none } = state := by rw [← hstate]
      rw [same]
      exact .nil (missing?_eq_none hclass)
  | some text =>
      refine .member rfl hseen (yields_fieldOf (Json.yields_readOptional_text wantedText text) _) ?_
      exact .nil (missing?_eq_none (List.mem_cons_of_mem _ hclass))

/-- The members of a written configuration are its fields, each given once. -/
lemma takes_json {config : ConverterConfig} (h : config.backendInfo.keys.Nodup) :
    ∃ members, config.json = .object members ∧ record.Takes [] {} members config.reread := by
  refine ⟨_, rfl, ?_⟩
  refine .member rfl rfl (yields_fieldOf (Json.yields_readText wantedText config.className) _) ?_
  refine .member rfl rfl (yields_fieldOf (yields_readTransforms config.transforms) _) ?_
  have registrations := yields_readRegistrations config.registerFor
  have info := yields_readBackendInfo h
  cases hhelpers : config.helpersCode with
  | none =>
      refine .member rfl rfl (yields_fieldOf registrations _) ?_
      refine .member rfl rfl (yields_fieldOf info _) ?_
      exact takes_delegateBackend (by simp [fieldOf]) rfl rfl (by simp [reread, hhelpers])
  | some code =>
      refine .member rfl rfl (yields_fieldOf (Json.yields_readOptional_text wantedText code) _) ?_
      refine .member rfl rfl (yields_fieldOf registrations _) ?_
      refine .member rfl rfl (yields_fieldOf info _) ?_
      exact takes_delegateBackend (by simp [fieldOf]) rfl rfl (by simp [reread, hhelpers])

/-- A written configuration is read with its ids taken anew from their texts. -/
lemma ofJson_write_json {config : ConverterConfig} (h : config.backendInfo.keys.Nodup) :
    ofJson config.json.write = .ok config.reread := by
  obtain ⟨members, hjson, htakes⟩ := takes_json h
  rw [ofJson, hjson]
  exact htakes.ofJson_write

lemma reread_eq_self_iff {config : ConverterConfig} :
    config.reread = config ↔ ∀ id ∈ config.registerFor, id.IsCanonical := by
  have self : config.reread = config ↔
      config.registerFor.map (fun id => BackendId.parse id.text) = config.registerFor.map id := by
    rw [List.map_id]
    constructor
    · exact fun h => congrArg ConverterConfig.registerFor h
    · intro h
      rw [reread, h]
  rw [self, List.map_inj_left]
  constructor
  · intro h id hid
    have parsed : BackendId.parse id.text = id := h id hid
    rw [← parsed]
    exact BackendId.isCanonical_parse id.text
  · exact fun h id hid => BackendId.parse_text_of_isCanonical (h id hid)

/-! ## Documents -/

/-- What every configuration from a document has. -/
structure WellRead (config : ConverterConfig) : Prop where
  canonical : ∀ id ∈ config.registerFor, id.IsCanonical
  nodup_keys : config.backendInfo.keys.Nodup

lemma keeps_fieldOf {σ α : Type} {P : σ → Prop} (Q : α → Prop) {name : String}
    {aliases : List String} {required : Bool} {json : Json.Reader α} {node : Yaml.Node → Option α}
    {set : σ → α → σ} (hjson : ∀ {text rest : Text} {a : α}, json text = .ok (a, rest) → Q a)
    (hnode : ∀ {n : Yaml.Node} {a : α}, node n = some a → Q a)
    (hset : ∀ {state : σ} {a : α}, P state → Q a → P (set state a)) :
    (fieldOf name aliases required json node set).Keeps P where
  json := by
    intro state next text rest hstate h
    obtain ⟨⟨a, _⟩, hread, h⟩ := Document.of_bind_eq_ok h
    cases h
    exact hset hstate (hjson hread)
  yaml := by
    intro state next n hstate h
    obtain ⟨a, hread, rfl⟩ := Option.map_eq_some_iff.1 h
    exact hset hstate (hnode hread)

/-- What holds of every single result holds of all results of a list. -/
lemma forall_mem_of_mapM_eq_some {α β : Type} {f : α → Option β} {Q : β → Prop}
    (hf : ∀ {a b}, f a = some b → Q b) {as : List α} {bs : List β} (h : as.mapM f = some bs) :
    ∀ b ∈ bs, Q b := by
  induction as generalizing bs with
  | nil =>
      cases h
      simp
  | cons a as ih =>
      rw [List.mapM_cons] at h
      obtain ⟨b, hb, h⟩ := Option.bind_eq_some_iff.1 h
      obtain ⟨bs, hbs, h⟩ := Option.bind_eq_some_iff.1 h
      cases h
      exact List.forall_mem_cons.2 ⟨hf hb, ih hbs⟩

lemma isCanonical_of_backendIdOf? {json : Json} {id : BackendId} (h : backendIdOf? json = some id) :
    id.IsCanonical := by
  cases json with
  | string s =>
      cases h
      exact BackendId.isCanonical_parse s
  | _ => cases h

lemma isCanonical_of_backendIdOfNode? {node : Yaml.Node} {id : BackendId}
    (h : backendIdOfNode? node = some id) : id.IsCanonical := by
  unfold backendIdOfNode? at h
  split at h
  · cases h
    exact BackendId.isCanonical_parse _
  · cases h

lemma isCanonical_of_readRegistrations {text rest : Text} {ids : List BackendId}
    (h : readRegistrations text = .ok (ids, rest)) : ∀ id ∈ ids, id.IsCanonical := by
  obtain ⟨⟨json, after⟩, _, h⟩ := Document.of_bind_eq_ok h
  simp only at h
  split at h
  · rename_i found hfound
    cases h
    cases json with
    | string s =>
        cases hfound
        simpa using BackendId.isCanonical_parse s
    | array items => exact forall_mem_of_mapM_eq_some isCanonical_of_backendIdOf? hfound
    | null =>
        cases hfound
        simp
    | _ => cases hfound
  · cases h

lemma isCanonical_of_registrationsOfNode? {node : Yaml.Node} {ids : List BackendId}
    (h : registrationsOfNode? node = some ids) : ∀ id ∈ ids, id.IsCanonical := by
  have scalar : ∀ node : Yaml.Node, (if node.scalar? = some .null then some []
      else (backendIdOfNode? node).map fun id => [id]) = some ids → ∀ id ∈ ids, id.IsCanonical := by
    intro node h
    split_ifs at h
    · cases h
      simp
    · obtain ⟨id, hid, rfl⟩ := Option.map_eq_some_iff.1 h
      simpa using isCanonical_of_backendIdOfNode? hid
  cases node with
  | list items => exact forall_mem_of_mapM_eq_some isCanonical_of_backendIdOfNode? h
  | plain text => exact scalar (.plain text) h
  | quoted text => exact scalar (.quoted text) h
  | map entries => cases h

lemma nodup_keys_of_readBackendInfo {text rest : Text} {info : BackendInfo}
    (h : readBackendInfo text = .ok (info, rest)) : info.keys.Nodup := by
  obtain ⟨⟨pairs, after⟩, _, h⟩ := Document.of_bind_eq_ok h
  cases h
  exact BackendInfo.nodup_keys_ofList pairs

lemma nodup_keys_of_backendInfoOfNode? {node : Yaml.Node} {info : BackendInfo}
    (h : backendInfoOfNode? node = some info) : info.keys.Nodup := by
  obtain ⟨pairs, _, rfl⟩ := Option.map_eq_some_iff.1 h
  exact BackendInfo.nodup_keys_ofList pairs

/-- A field keeps what it does not set. -/
lemma keeps_wellRead_of_eq {α : Type} {name : String} {aliases : List String} {required : Bool}
    {json : Json.Reader α} {node : Yaml.Node → Option α}
    {set : ConverterConfig → α → ConverterConfig}
    (hids : ∀ state a, (set state a).registerFor = state.registerFor)
    (hinfo : ∀ state a, (set state a).backendInfo = state.backendInfo) :
    (fieldOf name aliases required json node set).Keeps WellRead := by
  refine keeps_fieldOf (fun _ => True) (fun _ => trivial) (fun _ => trivial) ?_
  intro state a h _
  exact ⟨hids state a ▸ h.canonical, hinfo state a ▸ h.nodup_keys⟩

/-- Reading any field keeps the ids canonical and the keys apart. -/
lemma keeps_wellRead : ∀ field ∈ record.fields, field.Keeps WellRead := by
  refine List.forall_mem_cons.2 ⟨keeps_wellRead_of_eq (fun _ _ => rfl) (fun _ _ => rfl), ?_⟩
  refine List.forall_mem_cons.2 ⟨keeps_wellRead_of_eq (fun _ _ => rfl) (fun _ _ => rfl), ?_⟩
  refine List.forall_mem_cons.2 ⟨keeps_wellRead_of_eq (fun _ _ => rfl) (fun _ _ => rfl), ?_⟩
  refine List.forall_mem_cons.2 ⟨?_, ?_⟩
  · exact keeps_fieldOf (fun ids => ∀ id ∈ ids, id.IsCanonical)
      isCanonical_of_readRegistrations isCanonical_of_registrationsOfNode?
      (fun h hids => ⟨hids, h.nodup_keys⟩)
  refine List.forall_mem_cons.2 ⟨?_, ?_⟩
  · exact keeps_fieldOf (fun info => info.keys.Nodup)
      nodup_keys_of_readBackendInfo nodup_keys_of_backendInfoOfNode?
      (fun h hinfo => ⟨h.canonical, hinfo⟩)
  exact List.forall_mem_singleton.2 (keeps_wellRead_of_eq (fun _ _ => rfl) (fun _ _ => rfl))

lemma wellRead_initial : WellRead record.initial :=
  ⟨fun _ h => (List.not_mem_nil h).elim, List.nodup_nil⟩

lemma WellRead.of_ofJson {document : Text} {config : ConverterConfig}
    (h : ofJson document = .ok config) : WellRead config :=
  Document.Record.ofJson_keeps wellRead_initial keeps_wellRead h

lemma WellRead.of_ofYaml? {document : Text} {config : ConverterConfig}
    (h : ofYaml? document = some config) : WellRead config :=
  Document.Record.ofYaml?_keeps wellRead_initial keeps_wellRead h

/-! ## The round trip -/

/-- A built configuration comes back from its written form exactly when its ids are canonical; one
that was read from a document has canonical ids, and always comes back. -/
theorem ofJson_write_json_eq_ok_iff :
    (∀ {config : ConverterConfig}, Built config →
      (ofJson config.json.write = .ok config ↔ ∀ id ∈ config.registerFor, id.IsCanonical)) ∧
    (∀ {document : Text} {config : ConverterConfig},
      ofJson document = .ok config ∨ ofYaml? document = some config →
      (∀ id ∈ config.registerFor, id.IsCanonical) ∧ ofJson config.json.write = .ok config) := by
  have main : ∀ {config : ConverterConfig}, config.backendInfo.keys.Nodup →
      (ofJson config.json.write = .ok config ↔ ∀ id ∈ config.registerFor, id.IsCanonical) := by
    intro config h
    rw [ofJson_write_json h, Except.ok.injEq, reread_eq_self_iff]
  refine ⟨fun h => main (built_iff_nodup_keys.1 h), ?_⟩
  intro document config h
  have read : WellRead config := h.elim WellRead.of_ofJson WellRead.of_ofYaml?
  exact ⟨read.canonical, (main read.nodup_keys).2 read.canonical⟩

/-- A name that looks like a symbol is lost, and a symbol that a document gives is not. -/
theorem ofJson_write_json_eq_ok_iff_colon :
    (Built ((named ['A']).withRegisterFor [.name [':', 'x']]) ∧
      ofJson ((named ['A']).withRegisterFor [.name [':', 'x']]).json.write ≠
        .ok ((named ['A']).withRegisterFor [.name [':', 'x']])) ∧
    (ofYaml? "className: A\nregisterFor: ':x'".toList =
        some ((named ['A']).withRegisterFor [.symbol ['x']]) ∧
      ofJson ((named ['A']).withRegisterFor [.symbol ['x']]).json.write =
        .ok ((named ['A']).withRegisterFor [.symbol ['x']])) := by
  have built : Built ((named ['A']).withRegisterFor [.name [':', 'x']]) :=
    (Built.named _).withRegisterFor _
  have read : ofYaml? "className: A\nregisterFor: ':x'".toList =
      some ((named ['A']).withRegisterFor [.symbol ['x']]) := by decide +kernel
  refine ⟨⟨built, fun h => ?_⟩, read, (ofJson_write_json_eq_ok_iff.2 (.inr read)).2⟩
  have canonical := (ofJson_write_json_eq_ok_iff.1 built).1 h (.name [':', 'x']) List.mem_cons_self
  exact absurd canonical (by decide)

end ConverterConfig

end ConverterAssembly
