import RoleAccess.Proofs.PrimaryUnion
import RoleAccess.Proofs.RowMeaning

/-!
# A field and its row

A query filters the rows of an entity, and asks for a field only what that filter does not ask
already. Beside the condition on the row nothing is lost by this: what is left of the condition on a
field means there what all of it means. In compiled permissions the answers for an entity, its rows
and its fields also fit together, since the primary key covers every other field.
-/

namespace RoleAccess

universe u

/-! ## The truth of answers -/

/-- Whether an answer lets a row pass, where `truth` tells which predicates the row satisfies. -/
def Access.Holds (truth : Predicate → Prop) : Access → Prop
  | denied => False
  | allowed => True
  | conditional ps => ∀ p ∈ ps, truth p

/-- Whether a grant opens a row, where `truth` tells which predicates the row satisfies. An absent
grant opens nothing, and neither does one with an empty list. -/
def Grant.Opens (truth : Predicate → Prop) : Option Grant → Prop
  | none => False
  | some allow => True
  | some (rows ps) => ps ≠ [] ∧ ∀ p ∈ ps, truth p

lemma Access.holds_ofGrant {truth : Predicate → Prop} (g : Option Grant) :
    (ofGrant g).Holds truth ↔ Grant.Opens truth g := by
  rcases g with _ | _ | (_ | _) <;> simp [ofGrant, Holds, Grant.Opens]

lemma Grant.opens_iff {truth : Predicate → Prop} (g : Option Grant) :
    Opens truth g ↔ Access.ofGrant g ≠ .denied ∧ ∀ p ∈ listed g, truth p := by
  rcases g with _ | _ | (_ | _) <;> simp [Opens, Access.ofGrant, listed, predicates]

lemma occursIn_iff {l r : List Predicate} : occursIn l r = true ↔ ∀ p ∈ l, p ∈ r := by
  simp [occursIn]

/-! ## The condition on a field -/

namespace Permissions

variable {p : Permissions} {entity field : String} {action : FieldAction} {route : Route}
  {truth : Predicate → Prop}

lemma fieldAccess_eq_access :
    p.fieldAccess (.fields action) entity field route =
      p.grants.access entity (.field action field) route := by
  unfold fieldAccess GrantTable.access GrantTable.grant? GrantTable.map?
  cases p.grants.entity? entity with
  | none => rfl
  | some g => rfl

/-- On a row that the answer for the row lets pass, what is left of the condition on a field means
what all of it means: the predicates that fell away hold there anyway. -/
lemma holds_fieldCondition_iff {op : Operation}
    (hrow : (p.primaryAccess op entity route).Holds truth) :
    (p.fieldCondition op entity field route).Holds truth ↔
      (p.fieldAccess op entity field route).Holds truth := by
  unfold fieldCondition
  generalize p.fieldAccess op entity field route = own
  generalize p.primaryAccess op entity route = row at hrow ⊢
  match own, row with
  | .denied, _ => exact Iff.rfl
  | .allowed, _ => exact Iff.rfl
  | .conditional ps, .denied => exact hrow.elim
  | .conditional ps, .allowed => exact Iff.rfl
  | .conditional ps, .conditional qs =>
    by_cases h : occursIn ps qs = true
    · have hown : ∀ q ∈ ps, truth q := fun q hq => hrow q (occursIn_iff.1 h q hq)
      simp only [if_pos h]
      exact iff_of_true trivial hown
    · simp only [if_neg h]

end Permissions

namespace RowFilter

variable {f : RowFilter} {entity field : String} {action : FieldAction}

lemma permits_iff_opens {Row : Type u} (I : Reading Row) (item : Item) (row : Row) :
    f.Permits I entity item row ↔
      Grant.Opens (f.Satisfies I entity row) (f.permissions.grants.grant? entity item .root) := by
  rw [Grant.opens_iff]
  exact ⟨fun h => ⟨h.granted, h.satisfied⟩, fun h => ⟨h.1, h.2⟩⟩

lemma Permits.exists_entity {Row : Type u} {I : Reading Row} {item : Item} {row : Row}
    (h : f.Permits I entity item row) : ∃ g, f.permissions.grants.entity? entity = some g := by
  cases hg : f.permissions.grants.entity? entity with
  | none =>
    refine absurd ?_ h.granted
    simp [GrantTable.access, GrantTable.grant?, GrantTable.map?, hg, Access.ofGrant]
  | some g => exact ⟨g, rfl⟩

lemma create_eq_refusal (hprimary : f.permissions.primary? entity = none) (op : Operation)
    (fields : List String) : f.create entity op fields none = .refusal none := by
  simp only [create_none, direct, demand, hprimary]

lemma holds_create_iff {Row : Type u} (I : Interpretation Row) (row : Row) {primary name : String}
    {fields : List String} (hprimary : f.permissions.primary? entity = some primary)
    (hrequired : Operation.required (.fields action) primary fields = [.field action name]) :
    (f.create entity (.fields action) fields none).Holds I row ↔
      Grant.Opens (f.Satisfies I entity row)
        (f.permissions.grants.grant? entity (.field action name) .root) := by
  rw [create_none, holds_direct_iff I row hprimary, hrequired, List.forall_mem_singleton,
    ← permits_iff_opens]
  exact ⟨fun h => h.2, fun h => ⟨h.exists_entity, h⟩⟩

/-- The row filter is the answer for the row on direct access, with the bindings injected. -/
lemma holds_row_iff {Row : Type u} (I : Interpretation Row) (row : Row) :
    (f.row entity (.fields action)).Holds I row ↔
      (f.permissions.entityAccess (.fields action) entity .root).Holds
        (f.Satisfies I entity row) := by
  have hanswer : f.permissions.entityAccess (.fields action) entity .root =
      f.permissions.primaryAccess (.fields action) entity .root := rfl
  rw [RowFilter.row, hanswer, Permissions.primaryAccess]
  cases hprimary : f.permissions.primary? entity with
  | none =>
    rw [create_eq_refusal hprimary]
    exact iff_of_false (Condition.not_holds_refusal I none row) id
  | some primary =>
    rw [holds_create_iff I row hprimary rfl, ← Access.holds_ofGrant]
    simp only [Permissions.fieldAccess_eq_access, GrantTable.access]

/-- Beside the condition on the row, what is left of the condition on a field asks for the same as
the filter of the field, and on every route for the same as the grant of the field does, whichever
predicates a row satisfies. -/
theorem fieldCondition_beside_row (f : RowFilter) (entity field : String) (action : FieldAction) :
    (∀ (Row : Type u) (I : Interpretation Row) (row : Row),
      (f.row entity (.fields action)).Holds I row ∧
          (f.permissions.fieldCondition (.fields action) entity field .root).Holds
            (f.Satisfies I entity row) ↔
        (f.row entity (.fields action)).Holds I row ∧
          (f.create entity (.fields action) [field] none).Holds I row) ∧
    ∀ (route : Route) (truth : Predicate → Prop),
      (f.permissions.entityAccess (.fields action) entity route).Holds truth ∧
          (f.permissions.fieldCondition (.fields action) entity field route).Holds truth ↔
        (f.permissions.entityAccess (.fields action) entity route).Holds truth ∧
          Grant.Opens truth (f.permissions.grants.grant? entity (.field action field) route) := by
  have hfield : ∀ route (truth : Predicate → Prop),
      (f.permissions.entityAccess (.fields action) entity route).Holds truth →
        ((f.permissions.fieldCondition (.fields action) entity field route).Holds truth ↔
          Grant.Opens truth (f.permissions.grants.grant? entity (.field action field) route)) := by
    intro route truth hrow
    rw [Permissions.holds_fieldCondition_iff hrow, Permissions.fieldAccess_eq_access,
      GrantTable.access, Access.holds_ofGrant]
  refine ⟨fun Row I row => and_congr_right fun hrow => ?_,
    fun route truth => and_congr_right (hfield route truth)⟩
  have hanswer := (holds_row_iff I row).1 hrow
  rw [hfield .root _ hanswer]
  cases hprimary : f.permissions.primary? entity with
  | none =>
    simp only [Permissions.entityAccess, Permissions.primaryAccess, hprimary] at hanswer
    exact hanswer.elim
  | some primary => exact (holds_create_iff I row hprimary rfl).symm

/-- Published articles are for the readers of their site, and the titles of published articles for
all readers. -/
def articlesOnSite : RowFilter where
  permissions :=
    let published : Predicate := .column "isPublished" (.compare .eq (.bool true))
    let ofSite : Predicate := .columnVariable "site" "reader__site"
    let row : GrantMap := { root := some (.rows [published, ofSite]) }
    let title : GrantMap := { root := some (.rows [published]) }
    { model := Model.insert {} (Entity.new "Article")
      grants := ⟨NameMap.empty.insert "Article"
        { fields := ⟨.empty, (NameMap.empty.insert "id" row).insert "title" title, .empty⟩ }⟩
      defaultCustomPrimary := false }
  injector := ⟨{}, NameMap.empty.insert "reader__site" (.test (.oneOf [.int 1]))⟩

/-- The filter of the row asks all that the title asks for, so nothing is left of its condition. -/
theorem row_covers_title :
    let published : Condition := .column "isPublished" (.compare .eq (.bool true))
    let row := articlesOnSite.row "Article" (.fields .read)
    let title := articlesOnSite.create "Article" (.fields .read) ["title"] none
    row = .and [published, .column "site" (.oneOf [.int 1])] ∧ title = published ∧
      articlesOnSite.permissions.fieldCondition (.fields .read) "Article" "title" .root =
        .allowed ∧
      ∀ (Row : Type) (I : Interpretation Row) (r : Row),
        row.Holds I r ↔ row.Holds I r ∧ title.Holds I r := by
  intro published row title
  have hnothing : articlesOnSite.permissions.fieldCondition (.fields .read) "Article" "title"
      .root = .allowed := by decide
  refine ⟨by decide, by decide, hnothing, fun Row I r => ?_⟩
  have hbeside := (fieldCondition_beside_row articlesOnSite "Article" "title" .read).1 Row I r
  rw [hnothing] at hbeside
  exact (and_iff_left trivial).symm.trans hbeside

end RowFilter

/-! ## Answers that fit together -/

/-- A row's answer covers that of a field: it gives all rows if the field does, and if the field has
a list, all rows or a list that holds the field's. -/
def Access.CoveredBy : Access → Access → Prop
  | denied, _ => True
  | allowed, row => row = allowed
  | conditional ps, row => row = allowed ∨ ∃ qs, row = conditional qs ∧ ∀ p ∈ ps, p ∈ qs

lemma Access.coveredBy_ofGrant {grant bound : Option Grant}
    (h : ∀ g, grant = some g → g.CoveredBy bound) : (ofGrant grant).CoveredBy (ofGrant bound) := by
  obtain ⟨hallowed, hconditional⟩ := ofGrant_of_covered h
  cases hgrant : ofGrant grant with
  | denied => trivial
  | allowed => exact hallowed hgrant
  | conditional ps => exact hconditional ps hgrant

lemma Access.CoveredBy.ne_denied {own row : Access} (h : own.CoveredBy row) (hown : own ≠ denied) :
    row ≠ denied := by
  rintro rfl
  cases own with
  | denied => exact hown rfl
  | allowed => cases h
  | conditional ps =>
    rcases h with h | ⟨_, h, _⟩
    · cases h
    · cases h

namespace Permissions

variable {p : Permissions} {op : Operation} {entity field : String} {action : FieldAction}
  {route : Route}

lemma hasExtraCondition_eq_false_iff
    (hcovered : (p.fieldAccess op entity field route).CoveredBy (p.primaryAccess op entity route)) :
    p.hasExtraCondition op entity field route = false ↔
      p.fieldCondition op entity field route = .allowed ∨
        p.fieldCondition op entity field route = .denied ∧
          p.primaryAccess op entity route = .denied := by
  unfold hasExtraCondition fieldCondition
  generalize p.fieldAccess op entity field route = own at hcovered ⊢
  generalize p.primaryAccess op entity route = row at hcovered ⊢
  match own, row with
  | .denied, .denied => simp
  | .denied, .allowed => simp
  | .denied, .conditional _ => simp
  | .allowed, row =>
    obtain rfl : row = .allowed := hcovered
    simp
  | .conditional ps, .denied =>
    rcases hcovered with h | ⟨_, h, _⟩
    · cases h
    · cases h
  | .conditional ps, .allowed => simp
  | .conditional ps, .conditional qs => by_cases h : occursIn ps qs = true <;> simp [h]

lemma row_allowed_of_fieldCondition
    (hcovered : (p.fieldAccess op entity field route).CoveredBy (p.primaryAccess op entity route))
    {rest : List Predicate} (h : p.fieldCondition op entity field route = .conditional rest) :
    p.primaryAccess op entity route = .allowed := by
  unfold fieldCondition at h
  generalize p.fieldAccess op entity field route = own at hcovered h
  generalize p.primaryAccess op entity route = row at hcovered h ⊢
  match own with
  | .denied => cases h
  | .allowed => cases h
  | .conditional ps =>
    rcases hcovered with hrow | ⟨qs, rfl, hsub⟩
    · exact hrow
    · -- a list that the row's list holds falls away
      have hoccurs : occursIn ps qs = true := occursIn_iff.2 hsub
      simp only [hoccurs, if_true] at h
      cases h

lemma canAccessEntity_fields_iff :
    p.canAccessEntity (.fields action) entity route = true ↔
      ∃ field, p.fieldAccess (.fields action) entity field route ≠ .denied := by
  unfold canAccessEntity fieldAccess
  cases p.grants.entity? entity with
  | none => simp
  | some g =>
    simp only [List.any_eq_true, NameMap.values, List.mem_map, Access.isPossible,
      decide_eq_true_eq, EntityGrants.fieldAccess]
    constructor
    · rintro ⟨m, ⟨⟨name, m'⟩, hentry, rfl⟩, hm⟩
      refine ⟨name, ?_⟩
      rwa [NameMap.mem_entries.1 hentry]
    · rintro ⟨name, hname⟩
      cases hget : (g.fields.get action).get? name with
      | none =>
        rw [hget] at hname
        exact absurd rfl hname
      | some m =>
        rw [hget] at hname
        exact ⟨m, ⟨(name, m), NameMap.mem_entries.2 hget, rfl⟩, hname⟩

/-- Where the answer for the row covers those for all fields, an entity is accessible as far as its
rows are. -/
lemma canAccessEntity_iff_entityAccess_ne_denied
    (hcovered : ∀ action field, (p.fieldAccess (.fields action) entity field route).CoveredBy
      (p.primaryAccess (.fields action) entity route)) :
    p.canAccessEntity op entity route = true ↔ p.entityAccess op entity route ≠ .denied := by
  cases op with
  | delete =>
    unfold canAccessEntity entityAccess
    cases p.grants.entity? entity <;> simp [Access.isPossible]
  | fields action =>
    rw [canAccessEntity_fields_iff]
    constructor
    · rintro ⟨field, hfield⟩
      exact (hcovered action field).ne_denied hfield
    · intro hrow
      have hrow : p.primaryAccess (.fields action) entity route ≠ .denied := hrow
      unfold primaryAccess at hrow
      cases hprimary : p.primary? entity with
      | none => simp [hprimary] at hrow
      | some primary =>
        simp only [hprimary] at hrow
        exact ⟨primary, hrow⟩

end Permissions

namespace Schema

/-- The permissions that compiled grants make up with the model of their schema. -/
def permissions (s : Schema) (t : GrantTable) (custom : Bool) : Permissions := ⟨s.model, t, custom⟩

@[simp]
lemma permissions_grants (s : Schema) (t : GrantTable) (custom : Bool) :
    (s.permissions t custom).grants = t := rfl

@[simp]
lemma permissions_primary? (s : Schema) (t : GrantTable) (custom : Bool) (entity : String) :
    (s.permissions t custom).primary? entity = s.model.primary? entity := rfl

variable {s : Schema} {roles : List String} {scope : Option String} {t : GrantTable}

lemma fieldAccess_coveredBy_primaryAccess (h : s.compile roles scope = .ok t) (custom : Bool)
    (action : FieldAction) (entity field : String) (route : Route) :
    ((s.permissions t custom).fieldAccess (.fields action) entity field route).CoveredBy
      ((s.permissions t custom).primaryAccess (.fields action) entity route) := by
  obtain ⟨_, merged, hmerged, rfl⟩ := compile_eq_ok_iff.1 h
  rw [Permissions.fieldAccess_eq_access, permissions_grants]
  cases hg : merged.entity? entity with
  | none =>
    have hnone : (merged.unifyPrimaries s.model).entity? entity = none := by
      cases hunified : (merged.unifyPrimaries s.model).entity? entity with
      | none => rfl
      | some g =>
        obtain ⟨own, hown⟩ := GrantTable.exists_entity?_of_unifyPrimaries hunified
        cases hg.symm.trans hown
    simp [GrantTable.access, GrantTable.grant?, GrantTable.map?, hnone, Access.ofGrant,
      Access.CoveredBy]
  | some g =>
    obtain ⟨e, he⟩ := entity_mem_model_of_foldlM_eq_ok hmerged hg
    have hprimary : s.model.primary? entity = some e.primary := by
      rw [Model.primary?, he, Option.map_some]
    simp only [Permissions.primaryAccess, permissions_primary?, hprimary,
      Permissions.fieldAccess_eq_access, permissions_grants, GrantTable.access]
    exact Access.coveredBy_ofGrant fun grant => grant?_coveredBy_primary hmerged hprimary hg

/-- The answers of compiled permissions never contradict each other. On every route an entity is
accessible exactly where its rows are. A field asks for nothing beyond its row exactly where nothing
is left of its condition, or neither the field nor the row is accessible. Something is left of its
condition only where all rows are accessible. -/
theorem compiled_answers_agree (h : s.compile roles scope = .ok t) (custom : Bool)
    (entity field : String) (route : Route) :
    let p := s.permissions t custom
    (∀ op, p.canAccessEntity op entity route = true ↔ p.entityAccess op entity route ≠ .denied) ∧
    ∀ action,
      (p.hasExtraCondition (.fields action) entity field route = false ↔
        p.fieldCondition (.fields action) entity field route = .allowed ∨
          p.fieldCondition (.fields action) entity field route = .denied ∧
            p.entityAccess (.fields action) entity route = .denied) ∧
      ∀ rest, p.fieldCondition (.fields action) entity field route = .conditional rest →
        p.entityAccess (.fields action) entity route = .allowed := by
  intro p
  have hcovered := fun action field =>
    fieldAccess_coveredBy_primaryAccess h custom action entity field route
  refine ⟨fun op => Permissions.canAccessEntity_iff_entityAccess_ne_denied hcovered, ?_⟩
  intro action
  constructor
  · exact Permissions.hasExtraCondition_eq_false_iff (hcovered action field)
  · intro rest hrest
    exact Permissions.row_allowed_of_fieldCondition (hcovered action field) hrest

/-- The date of an article is open, its title is read once it is published, and published articles
may be deleted. -/
def journal : Schema where
  model := Model.insert {} (((Entity.new "Article").column "date").column "title")
  acl :=
    let rules := EntityRules.define {} "published" (.column "draft" (.isNull true))
    let dates := rules.declareField (.fields .read) "date" (.direct (.flag true))
    let titles := dates.declareField (.fields .read) "title" (.direct (.named "published"))
    RoleSchema.declare {} "reader" (Role.declareEntity {} "Article"
      (titles.declareDelete (.direct (.named "published"))))

theorem journal_title_asks_beyond_row :
    ∃ t, journal.compile ["reader"] none = .ok t ∧
      let p := journal.permissions t false
      (p.canAccessEntity .delete "Article" .root = true ↔
        p.entityAccess .delete "Article" .root ≠ .denied) ∧
      p.entityAccess .delete "Article" .root = .conditional [.column "draft" (.isNull true)] ∧
      p.fieldCondition (.fields .read) "Article" "title" .root =
        .conditional [.column "draft" (.isNull true)] ∧
      p.entityAccess (.fields .read) "Article" .root = .allowed ∧
      p.hasExtraCondition (.fields .read) "Article" "title" .root ≠ false := by
  have read : (journal.compile ["reader"] none).toOption.map (fun t =>
      let p := journal.permissions t false
      (p.entityAccess .delete "Article" .root,
        p.fieldCondition (.fields .read) "Article" "title" .root)) =
      some (.conditional [.column "draft" (.isNull true)],
        .conditional [.column "draft" (.isNull true)]) := by decide +kernel
  obtain ⟨t, ht, hread⟩ := exists_of_toOption_map read
  obtain ⟨deletion, title⟩ := Prod.mk.inj hread
  obtain ⟨hentity, hfields⟩ := compiled_answers_agree ht false "Article" "title" .root
  obtain ⟨hextra, hrow⟩ := hfields .read
  refine ⟨t, ht, hentity .delete, deletion, title, hrow _ title, ?_⟩
  rw [Ne, hextra, title]
  simp

end Schema

end RoleAccess
