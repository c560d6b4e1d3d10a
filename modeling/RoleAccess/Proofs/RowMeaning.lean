import RoleAccess.Proofs.CompiledLookups
import RoleAccess.Proofs.Replacement

/-!
# What a row filter asks

A row passes the filter of an operation exactly when every item that the operation needs is granted
on direct access and the row satisfies all predicates that these grants list. So the order and the
repetition of fields do not matter, more fields only ask for more, and one refused field refuses
every row.
-/

namespace RoleAccess

universe u

/-- The items that an operation on the given fields needs. No field means the primary key, and
deletion does not look at fields. -/
def Operation.required (op : Operation) (primary : String) (fields : List String) : List Item :=
  match op with
  | .fields action => (if fields = [] then [primary] else fields).map (.field action)
  | .delete => [.delete]

namespace Operation

variable {op : Operation} {primary : String} {fields others : List String}

lemma required_ne_nil (op : Operation) (primary : String) (fields : List String) :
    op.required primary fields ≠ [] := by
  cases op with
  | delete => exact List.cons_ne_nil _ _
  | fields action =>
    rw [required, Ne, List.map_eq_nil_iff]
    by_cases h : fields = []
    · simp [h]
    · rwa [if_neg h]

/-- What is required depends on which fields are named only. -/
lemma mem_required_congr (h : ∀ field, field ∈ fields ↔ field ∈ others) (item : Item) :
    item ∈ op.required primary fields ↔ item ∈ op.required primary others := by
  cases op with
  | delete => exact Iff.rfl
  | fields action =>
    have hnil : fields = [] ↔ others = [] := by
      simp only [List.eq_nil_iff_forall_not_mem, h]
    simp only [required, List.mem_map]
    by_cases hfields : fields = []
    · rw [if_pos hfields, if_pos (hnil.1 hfields)]
    · rw [if_neg hfields, if_neg (hnil.not.1 hfields)]
      simp only [h]

lemma mem_required_append (hfields : fields ≠ []) (hothers : others ≠ []) (item : Item) :
    item ∈ op.required primary (fields ++ others) ↔
      item ∈ op.required primary fields ∨ item ∈ op.required primary others := by
  cases op with
  | delete => exact (or_self_iff).symm
  | fields action =>
    have happend : fields ++ others ≠ [] := List.append_ne_nil_of_left_ne_nil hfields others
    rw [required, required, required, if_neg happend, if_neg hfields, if_neg hothers,
      List.map_append, List.mem_append]

end Operation

/-! ## Requirements -/

namespace Access

/-- The predicates of a conditional answer. -/
def listed (a : Access) : List Predicate := a.predicates?.getD []

lemma listed_ofGrant (g : Option Grant) : (ofGrant g).listed = Grant.listed g := by
  rcases g with _ | _ | (_ | _) <;> rfl

/-- Adds what one answer asks for. -/
def require (required : List Predicate) : Access → Option (List Predicate)
  | denied => none
  | allowed => some required
  | conditional ps => some (appendMissing required ps)

lemma requirements_eq_foldlM (items : List Access) :
    requirements items = items.foldlM require [] := by
  unfold requirements
  congr

lemma foldlM_require_of_mem {items : List Access} (h : denied ∈ items) (start : List Predicate) :
    items.foldlM require start = none := by
  induction items generalizing start with
  | nil => cases h
  | cons item items ih =>
    rw [List.foldlM_cons]
    cases item with
    | denied => rfl
    | allowed => exact ih ((List.mem_cons.1 h).resolve_left (by simp)) start
    | conditional ps => exact ih ((List.mem_cons.1 h).resolve_left (by simp)) _

lemma exists_foldlM_require {items : List Access} (h : denied ∉ items) (start : List Predicate) :
    ∃ required, items.foldlM require start = some required ∧
      ∀ p, p ∈ required ↔ p ∈ start ∨ ∃ item ∈ items, p ∈ item.listed := by
  induction items generalizing start with
  | nil => exact ⟨start, rfl, by simp⟩
  | cons item items ih =>
    rw [List.mem_cons, not_or] at h
    rw [List.foldlM_cons]
    cases item with
    | denied => exact absurd rfl h.1
    | allowed =>
      obtain ⟨required, heq, hmem⟩ := ih h.2 start
      exact ⟨required, heq, fun p => by simp [hmem, listed, predicates?]⟩
    | conditional ps =>
      obtain ⟨required, heq, hmem⟩ := ih h.2 (appendMissing start ps)
      exact ⟨required, heq, fun p => by
        simp [hmem, mem_appendMissing, listed, predicates?, or_assoc]⟩

end Access

lemma EntityGrants.items_eq_map (g : EntityGrants) (op : Operation) (primary : String)
    (fields : List String) :
    g.items op (if fields.isEmpty then [primary] else fields) =
      (op.required primary fields).map fun item =>
        .ofGrant ((g.map? item).bind (·.matching .root)) := by
  cases op with
  | delete => rfl
  | fields action =>
    rw [items, Operation.required, List.map_map]
    simp only [List.isEmpty_iff]
    rfl

namespace RowFilter

/-- Whether a row of the entity satisfies a predicate once the bindings are injected. -/
def Satisfies {Row : Type u} (f : RowFilter) (I : Reading Row) (entity : String) (row : Row)
    (p : Predicate) : Prop :=
  (f.injector.bindings.inject f.injector.model (some entity) p).Holds I row

/-- The row satisfies what the grants of a filter ask for an item on direct access. -/
structure Permits {Row : Type u} (f : RowFilter) (I : Reading Row) (entity : String) (item : Item)
    (row : Row) : Prop where
  granted : f.permissions.grants.access entity item .root ≠ .denied
  satisfied : ∀ p ∈ Grant.listed (f.permissions.grants.grant? entity item .root),
    f.Satisfies I entity row p

variable {f : RowFilter} {entity primary : String} {op : Operation} {fields : List String}

/-- The demand of an operation: a refusal if an item is not granted, and otherwise just the
predicates that the grants of its items list. -/
lemma demand_cases (hprimary : f.permissions.primary? entity = some primary) (op : Operation)
    (fields : List String) :
    ((∃ item ∈ op.required primary fields,
        f.permissions.grants.access entity item .root = .denied) ∧
      f.demand entity op fields = .error (some primary)) ∨
    ((∃ g, f.permissions.grants.entity? entity = some g) ∧
      (∀ item ∈ op.required primary fields,
        f.permissions.grants.access entity item .root ≠ .denied) ∧
      ∃ required, f.demand entity op fields = .ok required ∧
        ∀ p, p ∈ required ↔ ∃ item ∈ op.required primary fields,
          p ∈ Grant.listed (f.permissions.grants.grant? entity item .root)) := by
  unfold demand
  simp only [hprimary]
  cases hg : f.permissions.grants.entity? entity with
  | none =>
    -- an entity without grants is refused like any item, since something is always required
    obtain ⟨item, hitem⟩ := List.exists_mem_of_ne_nil _ (op.required_ne_nil primary fields)
    refine .inl ⟨⟨item, hitem, ?_⟩, rfl⟩
    simp [GrantTable.access, GrantTable.grant?, GrantTable.map?, hg, Access.ofGrant]
  | some g =>
    have hgrant : ∀ item, f.permissions.grants.grant? entity item .root =
        (g.map? item).bind (·.matching .root) := by
      intro item
      rw [GrantTable.grant?, GrantTable.map?, hg, Option.bind_some]
    simp only [GrantTable.access, hgrant, EntityGrants.items_eq_map, Access.requirements_eq_foldlM]
    generalize op.required primary fields = items
    by_cases hdenied : ∃ item ∈ items,
        Access.ofGrant ((g.map? item).bind (·.matching .root)) = .denied
    · rw [Access.foldlM_require_of_mem (List.mem_map.2 hdenied)]
      exact .inl ⟨hdenied, rfl⟩
    · have hmem := fun h => hdenied (List.mem_map.1 h)
      obtain ⟨required, heq, hrequired⟩ := Access.exists_foldlM_require hmem []
      rw [heq]
      refine .inr ⟨⟨g, rfl⟩, fun item hitem h => hdenied ⟨item, hitem, h⟩, required, rfl, ?_⟩
      intro p
      simp [hrequired, Access.listed_ofGrant]

lemma holds_direct_iff {Row : Type u} (I : Interpretation Row) (row : Row)
    (hprimary : f.permissions.primary? entity = some primary) :
    (f.direct entity op fields).Holds I row ↔
      (∃ g, f.permissions.grants.entity? entity = some g) ∧
        ∀ item ∈ op.required primary fields, f.Permits I entity item row := by
  unfold direct
  rcases demand_cases hprimary op fields with
    ⟨⟨item, hitem, hdenied⟩, hdemand⟩ | ⟨hg, hgranted, required, hdemand, hmem⟩
  · rw [hdemand]
    refine iff_of_false (Condition.not_holds_refusal I (some primary) row) fun h => ?_
    exact (h.2 item hitem).granted hdenied
  · rw [hdemand]
    simp only [conjunction, Condition.holds_all, List.forall_mem_map, hmem]
    constructor
    · intro h
      exact ⟨hg, fun item hitem =>
        ⟨hgranted item hitem, fun p hp => h p ⟨item, hitem, hp⟩⟩⟩
    · rintro ⟨_, h⟩ p ⟨item, hitem, hp⟩
      exact (h item hitem).satisfied p hp

/-- Where every item is granted without a condition, the filter is the empty conjunction. -/
lemma direct_eq_always (hprimary : f.permissions.primary? entity = some primary)
    (h : ∀ item ∈ op.required primary fields,
      f.permissions.grants.access entity item .root = .allowed) :
    f.direct entity op fields = .always := by
  rcases demand_cases hprimary op fields with
    ⟨⟨item, hitem, hdenied⟩, _⟩ | ⟨_, _, required, hdemand, hmem⟩
  · rw [h item hitem] at hdenied
    cases hdenied
  · have hnil : required = [] := by
      rw [List.eq_nil_iff_forall_not_mem]
      intro p hp
      obtain ⟨item, hitem, hp⟩ := (hmem p).1 hp
      have hallowed := h item hitem
      rw [GrantTable.access] at hallowed
      rw [← Access.listed_ofGrant, hallowed] at hp
      cases hp
    unfold direct
    rw [hdemand, hnil]
    rfl

/-- The meaning of a filter without a traversal. A row passes it exactly when the entity has grants
and the row satisfies what they ask for every required item. So fields may be reordered and
repeated, the fields of two lists ask for what the two lists ask for, a filter on unconditional
items is the empty conjunction, and one denied item is enough to refuse every row. -/
theorem create_holds_iff_permits (hprimary : f.permissions.primary? entity = some primary)
    (op : Operation) (fields : List String) :
    (∀ (Row : Type u) (I : Interpretation Row) (row : Row),
      ((f.create entity op fields none).Holds I row ↔
        (∃ g, f.permissions.grants.entity? entity = some g) ∧
          ∀ item ∈ op.required primary fields, f.Permits I entity item row) ∧
      (∀ others, (∀ field, field ∈ fields ↔ field ∈ others) →
        ((f.create entity op fields none).Holds I row ↔
          (f.create entity op others none).Holds I row)) ∧
      (∀ more, fields ≠ [] → more ≠ [] →
        ((f.create entity op (fields ++ more) none).Holds I row ↔
          (f.create entity op fields none).Holds I row ∧
            (f.create entity op more none).Holds I row)) ∧
      ((∃ item ∈ op.required primary fields,
          f.permissions.grants.access entity item .root = .denied) →
        ¬ (f.create entity op fields none).Holds I row)) ∧
    ((∀ item ∈ op.required primary fields,
        f.permissions.grants.access entity item .root = .allowed) →
      f.create entity op fields none = .always) := by
  simp only [create_none]
  refine ⟨fun Row I row => ⟨?_, ?_, ?_, ?_⟩, direct_eq_always hprimary⟩
  · exact holds_direct_iff I row hprimary
  · intro others h
    rw [holds_direct_iff I row hprimary, holds_direct_iff I row hprimary]
    simp only [Operation.mem_required_congr h]
  · intro more hfields hmore
    rw [holds_direct_iff I row hprimary, holds_direct_iff I row hprimary,
      holds_direct_iff I row hprimary]
    simp only [Operation.mem_required_append hfields hmore, or_imp, forall_and]
    exact and_and_left
  · rintro ⟨item, hitem, hdenied⟩ h
    exact (((holds_direct_iff I row hprimary).1 h).2 item hitem).granted hdenied

/-- Titles of articles are open to all, bodies are for published articles of the reader's sites, and
nothing is said of secrets. What a site is, and its key, only the injector's model knows. -/
def articlesOfSites : RowFilter where
  permissions :=
    let published : Predicate := .column "isPublished" (.compare .eq (.bool true))
    let ofSites : Predicate := .relationVariable "site" "reader__sites"
    let body : GrantMap := { root := some (.rows [published, ofSites]) }
    { model := Model.insert {} (Entity.new "Article")
      grants := ⟨NameMap.empty.insert "Article"
        { fields := ⟨.empty, (NameMap.empty.insert "title" { root := some .allow }).insert "body"
            body, .empty⟩ }⟩
      defaultCustomPrimary := false }
  injector :=
    let article := (Entity.new "Article").owning "site" "Site" none
    { model := (Model.insert {} article).insert (.withPrimary "Site" "key")
      bindings := NameMap.empty.insert "reader__sites" (.test (.oneOf [.int 1, .int 2])) }

theorem titles_and_bodies_of_sites :
    articlesOfSites.permissions.primary? "Article" = some "id" ∧
      articlesOfSites.create "Article" (.fields .read) ["title", "body"] none =
        .and [.column "isPublished" (.compare .eq (.bool true)),
          .relation "site" (.column "key" (.oneOf [.int 1, .int 2]))] ∧
      ∀ (Row : Type) (I : Interpretation Row) (row : Row),
        ((articlesOfSites.create "Article" (.fields .read) ["title", "body"] none).Holds I row ↔
          (∃ g, articlesOfSites.permissions.grants.entity? "Article" = some g) ∧
            ∀ item ∈ [Item.field .read "title", .field .read "body"],
              articlesOfSites.Permits I "Article" item row) ∧
        ¬ (articlesOfSites.create "Article" (.fields .read) ["title", "secret"] none).Holds I
          row := by
  have hprimary : articlesOfSites.permissions.primary? "Article" = some "id" := by decide
  refine ⟨hprimary, by decide, fun Row I row => ⟨?_, ?_⟩⟩
  · exact ((create_holds_iff_permits hprimary (.fields .read) ["title", "body"]).1 Row I row).1
  · have hdenied := ((create_holds_iff_permits hprimary (.fields .read)
      ["title", "secret"]).1 Row I row).2.2.2
    exact hdenied ⟨.field .read "secret", by decide, by decide⟩

end RowFilter

end RoleAccess
