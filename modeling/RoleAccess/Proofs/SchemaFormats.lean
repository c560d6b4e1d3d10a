import RoleAccess.Proofs.TreeFormats

/-!
# Schemas and variable values read back

Data models and rules hold no operands and no leaves, so they are read back as they are. The
predicates of an entity and the fallbacks of a variable are settled, and with them roles, schemas
and variable values. `RoundTrips` says what this means for whoever writes a value and reads it, and
for whoever reads a document and writes it again.
-/

namespace RoleAccess

/-! ## Data models -/

lemma Field.ofJson?_toJson (f : Field) : ofJson? f.toJson = some f := by
  cases f with
  | column type => cases type <;> rfl
  | relation r =>
    obtain ⟨target, side, counterpart⟩ := r
    cases side <;> cases counterpart <;> rfl

lemma Entity.ofJson?_toJson (e : Entity) : ofJson? e.toJson = some e := by
  have hfields : Json.map? Field.ofJson? (Json.ofMap Field.toJson e.fields) = some e.fields :=
    map?_ofMap_self Field.ofJson?_toJson
  -- the two texts are read by computation, which leaves the map
  calc ofJson? e.toJson
      = (Json.map? Field.ofJson? (Json.ofMap Field.toJson e.fields)).bind
          fun fields => some ⟨e.name, e.primary, fields⟩ := rfl
    _ = some e := by rw [hfields, Option.bind_some]

lemma Model.ofJson?_toJson (m : Model) : ofJson? m.toJson = some m := by
  have hentities : Json.map? Entity.ofJson? (Json.ofMap Entity.toJson m.entities) =
      some m.entities := map?_ofMap_self Entity.ofJson?_toJson
  calc ofJson? m.toJson
      = (Json.map? Entity.ofJson? (Json.ofMap Entity.toJson m.entities)).bind
          fun entities => some ⟨entities⟩ := rfl
    _ = some m := by rw [hentities, Option.bind_some]

/-! ## Rules -/

lemma Subject.ofJson?_toJson (s : Subject) : ofJson? s.toJson = some s := by
  cases s <;> rfl

lemma items?_text (names : List String) :
    (Json.arr (names.map .str)).items? Json.text? = some names :=
  items?_arr_map_self fun _ => rfl

lemma Scope.ofJson?_toJson (s : Scope) : ofJson? s.toJson = some s := by
  cases s with
  | anyRelation enabled => rfl
  | relations names => exact congrArg (Option.map relations) (items?_text names)

lemma Scope.toJson_ne_null (s : Scope) : s.toJson ≠ .null := by
  cases s <;> exact fun h => nomatch h

lemma RuleEntry.ofJson?_toJson (e : RuleEntry) : ofJson? e.toJson = some e := by
  have hlookup : e.toJson.members.lookup "through" = e.through.map Scope.toJson := by
    simp [toJson, Json.members, NameMap.lookup_cons_eq_ite]
  have hthrough : e.toJson.members.optional "through" Scope.ofJson? = some e.through :=
    Members.optional_of_lookup_self hlookup Scope.ofJson?_toJson Scope.toJson_ne_null
  calc ofJson? e.toJson
      = (Subject.ofJson? e.subject.toJson).bind fun subject =>
          (e.toJson.members.optional "through" Scope.ofJson?).bind
            fun through => some ⟨subject, through⟩ := rfl
    _ = some e := by rw [hthrough, Subject.ofJson?_toJson, Option.bind_some, Option.bind_some]

lemma Rule.ofJson?_toJson (r : Rule) : ofJson? r.toJson = some r := by
  cases r with
  | direct subject => rw [toJson, ofJson?, Subject.ofJson?_toJson]
  | byRoute entries =>
    exact congrArg (Option.map byRoute) (items?_arr_map_self RuleEntry.ofJson?_toJson)

lemma Rule.toJson_ne_null (r : Rule) : r.toJson ≠ .null := by
  cases r with
  | direct subject => cases subject <;> exact fun h => nomatch h
  | byRoute entries => exact fun h => nomatch h

namespace OperationRules

lemma optional_rules (o : OperationRules) (action : FieldAction) :
    o.toJson.members.optional action.name (Json.map? Rule.ofJson?) =
      some (o.fields.get action) := by
  have hlookup : o.toJson.members.lookup action.name =
      (o.fields.get action).map (Json.ofMap Rule.toJson) := by
    cases action <;> simp [toJson, Json.members, FieldAction.name, PerAction.get,
      List.lookup_append, NameMap.lookup_cons_eq_ite]
  exact Members.optional_of_lookup_self hlookup (fun _ => map?_ofMap_self Rule.ofJson?_toJson)
    fun _ h => nomatch h

lemma optional_delete (o : OperationRules) :
    o.toJson.members.optional "delete" Rule.ofJson? = some o.delete := by
  have hlookup : o.toJson.members.lookup "delete" = o.delete.map Rule.toJson := by
    simp [toJson, Json.members, List.lookup_append, NameMap.lookup_cons_eq_ite]
  exact Members.optional_of_lookup_self hlookup Rule.ofJson?_toJson Rule.toJson_ne_null

lemma defaulted_customPrimary (o : OperationRules) :
    o.toJson.members.defaulted "customPrimary" false Json.bool? = some o.customPrimary := by
  have hlookup : o.toJson.members.lookup "customPrimary" = some (.bool o.customPrimary) := by
    simp [toJson, Json.members, List.lookup_append]
  rw [Members.defaulted_of_lookup hlookup, Json.bool?]

lemma ofJson?_toJson (o : OperationRules) : ofJson? o.toJson = some o := by
  have hmembers : o.toJson = .obj o.toJson.members := rfl
  have hread : o.toJson.members.optional "read" _ = some o.fields.read := o.optional_rules .read
  have hcreate : o.toJson.members.optional "create" _ = some o.fields.create :=
    o.optional_rules .create
  have hupdate : o.toJson.members.optional "update" _ = some o.fields.update :=
    o.optional_rules .update
  rw [hmembers, ofJson?, Members.ofJson?]
  simp only [hread, hcreate, hupdate, o.optional_delete, o.defaulted_customPrimary,
    Option.bind_eq_bind, Option.bind_some]
  rfl

end OperationRules

/-! ## Roles -/

namespace EntityRules

lemma ofJson?_toJson (e : EntityRules) : ofJson? e.toJson = some e.settled := by
  have hpredicates := (Predicate.settles false).map.read_write e.predicates
  calc ofJson? e.toJson
      = (Json.map? (Predicate.ofJson? false) (Json.ofMap Predicate.toJson e.predicates)).bind
          fun predicates => (OperationRules.ofJson? e.operations.toJson).bind
            fun operations => some ⟨predicates, operations⟩ := rfl
    _ = some e.settled := by
      rw [hpredicates, OperationRules.ofJson?_toJson, Option.bind_some, Option.bind_some, settled]

lemma canonical_of_ofJson? (j : Json) (e : EntityRules) (h : ofJson? j = some e) :
    e.Canonical := by
  obtain ⟨members, -, h⟩ := Option.bind_eq_some_iff.1 h
  obtain ⟨predicates, hpredicates, h⟩ := Option.bind_eq_some_iff.1 h
  obtain ⟨operations, -, h⟩ := Option.bind_eq_some_iff.1 h
  have hcanonical : predicates.Each Predicate.Canonical :=
    Members.of_defaulted hpredicates each_empty (Predicate.settles false).map.canonical_of_read
  cases h
  exact hcanonical

lemma settles : Settles ofJson? toJson settled Canonical where
  read_write := ofJson?_toJson
  canonical_of_read := canonical_of_ofJson?
  settled_of_canonical _ := settled_of_canonical

end EntityRules

namespace VariableDefinition

lemma optional_fallback {members : Members} {fallback : Option ColumnTest}
    (h : members.lookup "fallback" = fallback.map ColumnTest.toJson) :
    members.optional "fallback" (ColumnTest.ofJson? true) =
      some (fallback.map ColumnTest.settled) := by
  refine Members.optional_of_lookup h (ColumnTest.settles true).read_write fun t hnull => ?_
  obtain ⟨name, heq⟩ | ⟨member, heq⟩ := t.toJson_shape <;> rw [heq] at hnull <;> cases hnull

lemma ofJson?_toJson (d : VariableDefinition) : ofJson? d.toJson = some d.settled := by
  cases d with
  | predefined value => cases value <;> rfl
  | entity entityName fallback =>
    have hlookup : (entity entityName fallback).toJson.members.lookup "fallback" =
        fallback.map ColumnTest.toJson := by
      simp [toJson, Json.members, NameMap.lookup_cons_eq_ite]
    calc ofJson? (entity entityName fallback).toJson
        = ((entity entityName fallback).toJson.members.optional "fallback"
            (ColumnTest.ofJson? true)).bind fun fallback => some (entity entityName fallback) := rfl
      _ = some (entity entityName fallback).settled := by
        rw [optional_fallback hlookup, Option.bind_some, settled]
  | condition fallback =>
    have hlookup : (condition fallback).toJson.members.lookup "fallback" =
        fallback.map ColumnTest.toJson := by
      simp [toJson, Json.members, NameMap.lookup_cons_eq_ite]
    calc ofJson? (condition fallback).toJson
        = ((condition fallback).toJson.members.optional "fallback"
            (ColumnTest.ofJson? true)).bind fun fallback => some (condition fallback) := rfl
      _ = some (condition fallback).settled := by
        rw [optional_fallback hlookup, Option.bind_some, settled]

lemma canonical_of_ofJson? (j : Json) (d : VariableDefinition) (h : ofJson? j = some d) :
    d.Canonical := by
  obtain ⟨⟨type, members⟩, -, h⟩ := Option.bind_eq_some_iff.1 h
  dsimp only at h
  split at h
  · obtain ⟨value, -, h⟩ := Option.bind_eq_some_iff.1 h
    cases h
    exact fun _ ht => nomatch ht
  · split at h
    · obtain ⟨entityName, -, h⟩ := Option.bind_eq_some_iff.1 h
      obtain ⟨fallback, hfallback, h⟩ := Option.bind_eq_some_iff.1 h
      cases h
      exact Members.of_optional hfallback (ColumnTest.settles true).canonical_of_read
    · split at h
      · obtain ⟨fallback, hfallback, h⟩ := Option.bind_eq_some_iff.1 h
        cases h
        exact Members.of_optional hfallback (ColumnTest.settles true).canonical_of_read
      · cases h

lemma settles : Settles ofJson? toJson settled Canonical where
  read_write := ofJson?_toJson
  canonical_of_read := canonical_of_ofJson?
  settled_of_canonical _ := settled_of_canonical

end VariableDefinition

namespace Role

/-- An empty list of inherited roles is not written, and is what stands for a missing one. -/
lemma defaulted_inherits (r : Role) :
    r.toJson.members.defaulted "inherits" [] (Json.items? Json.text?) = some r.inherits := by
  obtain ⟨inherits, variablePrefix, definitions, entities⟩ := r
  cases inherits with
  | nil =>
    have hlookup : (toJson ⟨[], variablePrefix, definitions, entities⟩).members.lookup
        "inherits" = none := by
      simp [toJson, Json.members, List.lookup_append, NameMap.lookup_cons_eq_ite]
    rw [Members.defaulted, hlookup]
  | cons name names =>
    exact items?_text (name :: names)

lemma optional_variablePrefix (r : Role) :
    r.toJson.members.optional "variablePrefix" Json.text? = some r.variablePrefix := by
  have hlookup : r.toJson.members.lookup "variablePrefix" = r.variablePrefix.map Json.str := by
    cases h : r.inherits.isEmpty <;>
      simp [toJson, Json.members, List.lookup_append, NameMap.lookup_cons_eq_ite, h]
  exact Members.optional_of_lookup_self hlookup (fun _ => rfl) fun _ h => nomatch h

lemma ofJson?_toJson (r : Role) : ofJson? r.toJson = some r.settled := by
  have hmembers : r.toJson = .obj r.toJson.members := rfl
  have hvariables : r.toJson.members.lookup "variables" =
      some (Json.ofMap VariableDefinition.toJson r.definitions) := by
    cases h : r.inherits.isEmpty <;>
      simp [toJson, Json.members, List.lookup_append, NameMap.lookup_cons_eq_ite, h]
  have hentities : r.toJson.members.lookup "entities" =
      some (Json.ofMap EntityRules.toJson r.entities) := by
    cases h : r.inherits.isEmpty <;>
      simp [toJson, Json.members, List.lookup_append, NameMap.lookup_cons_eq_ite, h]
  rw [hmembers, ofJson?, Members.ofJson?]
  simp only [r.defaulted_inherits, r.optional_variablePrefix,
    Members.defaulted_of_lookup hvariables, Members.defaulted_of_lookup hentities,
    VariableDefinition.settles.map.read_write, EntityRules.settles.map.read_write,
    Option.bind_eq_bind, Option.bind_some]
  rfl

lemma canonical_of_ofJson? (j : Json) (r : Role) (h : ofJson? j = some r) : r.Canonical := by
  obtain ⟨members, -, h⟩ := Option.bind_eq_some_iff.1 h
  obtain ⟨inherits, -, h⟩ := Option.bind_eq_some_iff.1 h
  obtain ⟨variablePrefix, -, h⟩ := Option.bind_eq_some_iff.1 h
  obtain ⟨definitions, hdefinitions, h⟩ := Option.bind_eq_some_iff.1 h
  obtain ⟨entities, hentities, h⟩ := Option.bind_eq_some_iff.1 h
  cases h
  exact ⟨Members.of_defaulted hdefinitions each_empty
      VariableDefinition.settles.map.canonical_of_read,
    Members.of_defaulted hentities each_empty EntityRules.settles.map.canonical_of_read⟩

lemma settles : Settles ofJson? toJson settled Canonical where
  read_write := ofJson?_toJson
  canonical_of_read := canonical_of_ofJson?
  settled_of_canonical _ := settled_of_canonical

end Role

/-! ## Schemas and variable values -/

namespace RoleSchema

lemma ofJson?_toJson (s : RoleSchema) : ofJson? s.toJson = some s.settled := by
  have hroles := Role.settles.map.read_write s.roles
  have hlookup : s.toJson.members.lookup "customPrimary" = s.customPrimary.map Json.bool := by
    simp [toJson, Json.members, NameMap.lookup_cons_eq_ite]
  have hcustom : s.toJson.members.optional "customPrimary" Json.bool? = some s.customPrimary :=
    Members.optional_of_lookup_self hlookup (fun _ => rfl) fun _ h => nomatch h
  calc ofJson? s.toJson
      = (Json.map? Role.ofJson? (Json.ofMap Role.toJson s.roles)).bind fun roles =>
          (s.toJson.members.optional "customPrimary" Json.bool?).bind
            fun customPrimary => some ⟨roles, customPrimary⟩ := rfl
    _ = some s.settled := by rw [hroles, hcustom, Option.bind_some, Option.bind_some, settled]

lemma canonical_of_ofJson? (j : Json) (s : RoleSchema) (h : ofJson? j = some s) :
    s.Canonical := by
  obtain ⟨members, -, h⟩ := Option.bind_eq_some_iff.1 h
  obtain ⟨roles, hroles, h⟩ := Option.bind_eq_some_iff.1 h
  obtain ⟨customPrimary, -, h⟩ := Option.bind_eq_some_iff.1 h
  have hcanonical : roles.Each Role.Canonical :=
    Members.of_defaulted hroles each_empty Role.settles.map.canonical_of_read
  cases h
  exact hcanonical

lemma settles : Settles ofJson? toJson settled Canonical where
  read_write := ofJson?_toJson
  canonical_of_read := canonical_of_ofJson?
  settled_of_canonical _ := settled_of_canonical

end RoleSchema

namespace Schema

lemma ofJson?_toJson (s : Schema) : ofJson? s.toJson = some s.settled := by
  calc ofJson? s.toJson
      = (Model.ofJson? s.model.toJson).bind fun model =>
          (RoleSchema.ofJson? s.acl.toJson).bind fun acl => some ⟨model, acl⟩ := rfl
    _ = some s.settled := by
      rw [Model.ofJson?_toJson, RoleSchema.settles.read_write, Option.bind_some,
        Option.bind_some, settled]

lemma canonical_of_ofJson? (j : Json) (s : Schema) (h : ofJson? j = some s) : s.Canonical := by
  obtain ⟨members, -, h⟩ := Option.bind_eq_some_iff.1 h
  obtain ⟨model, -, h⟩ := Option.bind_eq_some_iff.1 h
  obtain ⟨acl, hacl, h⟩ := Option.bind_eq_some_iff.1 h
  have hcanonical : acl.Canonical :=
    Members.of_defaulted hacl each_empty RoleSchema.settles.canonical_of_read
  cases h
  exact hcanonical

lemma settles : Settles ofJson? toJson settled Canonical where
  read_write := ofJson?_toJson
  canonical_of_read := canonical_of_ofJson?
  settled_of_canonical _ := settled_of_canonical

end Schema

namespace VariableValue

lemma ofJson?_toJson (v : VariableValue) : ofJson? v.toJson = some v.settled := by
  cases v with
  | test t =>
    rw [toJson, ofJson?, if_pos rfl, (ColumnTest.settles false).read_write, Option.map_some,
      settled]
  | condition c =>
    rw [toJson, ofJson?, if_neg (by decide), if_pos rfl, Condition.settles.read_write,
      Option.map_some, settled]

lemma canonical_of_ofJson? (j : Json) (v : VariableValue) (h : ofJson? j = some v) :
    v.Canonical := by
  unfold ofJson? at h
  split at h
  · split at h
    · obtain ⟨t, ht, rfl⟩ := Option.map_eq_some_iff.1 h
      exact (ColumnTest.settles false).canonical_of_read _ t ht
    · split at h
      · obtain ⟨c, hc, rfl⟩ := Option.map_eq_some_iff.1 h
        exact Condition.settles.canonical_of_read _ c hc
      · cases h
  · cases h

lemma settles : Settles ofJson? toJson settled Canonical where
  read_write := ofJson?_toJson
  canonical_of_read := canonical_of_ofJson?
  settled_of_canonical _ := settled_of_canonical

end VariableValue

/-! ## Round trips -/

/-- What a value is after it has been written and read, and a document after it has been read and
written. -/
structure RoundTrips {α : Type} (read : Json → Option α) (write : α → Json)
    (Canonical : α → Prop) : Prop where
  reread : ∀ a, ∃ b, read (write a) = some b ∧ Canonical b ∧ (b = a ↔ Canonical a)
  canonical : ∀ j a, read j = some a → Canonical a
  reread_of_read : ∀ j, ((read j).map write).bind read = read j
  rewrite_idempotent : ∀ j,
    ((read j).map write).bind (fun k => (read k).map write) = (read j).map write

lemma Settles.roundTrips {α : Type} {read : Json → Option α} {write : α → Json} {f : α → α}
    {Canonical : α → Prop} (h : Settles read write f Canonical) :
    RoundTrips read write Canonical := by
  have hcanonical : ∀ a, Canonical (f a) := fun a => h.canonical_of_read _ _ (h.read_write a)
  have hreread : ∀ j a, read j = some a → read (write a) = some a := fun j a ha => by
    rw [h.read_write, h.settled_of_canonical a (h.canonical_of_read j a ha)]
  constructor
  case reread =>
    intro a
    exact ⟨f a, h.read_write a, hcanonical a, fun heq => heq ▸ hcanonical a,
      h.settled_of_canonical a⟩
  case canonical => exact h.canonical_of_read
  case reread_of_read =>
    intro j
    cases hj : read j with
    | none => rfl
    | some a => rw [Option.map_some, Option.bind_some, hreread j a hj]
  case rewrite_idempotent =>
    intro j
    cases hj : read j with
    | none => rfl
    | some a => rw [Option.map_some, Option.bind_some, hreread j a hj, Option.map_some]

/-- Schemas, conditions and variable values are always read back, as themselves if they are
canonical and else as a canonical value. Only canonical values are read at all, so reading once,
writing and reading again changes nothing. -/
theorem documents_round_trip :
    RoundTrips Schema.ofJson? Schema.toJson Schema.Canonical ∧
    RoundTrips Condition.ofJson? Condition.toJson Condition.Canonical ∧
    RoundTrips VariableValue.ofJson? VariableValue.toJson VariableValue.Canonical :=
  ⟨Schema.settles.roundTrips, Condition.settles.roundTrips, VariableValue.settles.roundTrips⟩

/-- A text that spells a UUID comes back as the UUID. -/
example :
    Condition.ofJson? (Condition.column "id" (.compare .eq
      (.text "00000000-0000-0000-0000-000000000000"))).toJson =
    some (.column "id" (.compare .eq (.uuid ⟨List.replicate 32 0, rfl⟩))) := by
  decide +kernel

/-- A column variable called `never` comes back as the test. -/
example :
    Predicate.ofJson? false (Predicate.columnVariable "id" "never").toJson =
      some (.column "id" .never) := by
  decide +kernel

end RoleAccess
