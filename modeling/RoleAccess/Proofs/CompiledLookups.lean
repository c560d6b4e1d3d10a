import RoleAccess.Proofs.GrantMerge
import RoleAccess.Proofs.Success

/-!
# Lookups in compiled grants

Compiled grants answer a question with the combination, in the order of the walk, of the answers
that the declarations of the visited roles give to it one by one. The invariant of the fold over
the walk is that every grant map is normalized, which makes a lookup commute with a merge.
-/

namespace RoleAccess

/-- What a rule is declared for: a field under an action, or deletion. -/
inductive Item where
  | field (action : FieldAction) (name : String)
  | delete
deriving DecidableEq

def EntityRules.rule? (e : EntityRules) : Item → Option Rule
  | .field action name => (e.operations.fields.get action).bind (·.get? name)
  | .delete => e.operations.delete

/-! ## Tables -/

namespace EntityGrants

def map? (g : EntityGrants) : Item → Option GrantMap
  | .field action name => (g.fields.get action).get? name
  | .delete => some g.delete

lemma map?_merge (l r : EntityGrants) (item : Item) :
    (l.merge r).map? item = Option.merge GrantMap.merge (l.map? item) (r.map? item) := by
  cases item with
  | field action name =>
    rw [map?, map?, map?, merge, PerAction.get_zipWith, NameMap.get?_mergeWith]
  | delete => rfl

end EntityGrants

namespace GrantTable

def map? (t : GrantTable) (entity : String) (item : Item) : Option GrantMap :=
  (t.entity? entity).bind (·.map? item)

/-- The grant in force for an item of an entity on a route. -/
def grant? (t : GrantTable) (entity : String) (item : Item) (route : Route) : Option Grant :=
  (t.map? entity item).bind (·.matching route)

def customPrimary (t : GrantTable) (entity : String) : Bool :=
  (t.entity? entity).any (·.customPrimary)

/-- The access that a table gives to an item of an entity on a route. -/
def access (t : GrantTable) (entity : String) (item : Item) (route : Route) : Access :=
  .ofGrant (t.grant? entity item route)

/-- Every grant map of the table has the property `P`. -/
def Every (P : GrantMap → Prop) (t : GrantTable) : Prop :=
  ∀ entity item m, t.map? entity item = some m → P m

def Normalized (t : GrantTable) : Prop :=
  ∀ entity item m, t.map? entity item = some m → m.Normalized

lemma every_empty (P : GrantMap → Prop) : empty.Every P := by
  intro entity item m h
  cases h

lemma normalized_empty : Normalized empty := every_empty GrantMap.Normalized

lemma entity?_merge (l r : GrantTable) (entity : String) :
    (l.merge r).entity? entity =
      Option.merge EntityGrants.merge (l.entity? entity) (r.entity? entity) :=
  NameMap.get?_mergeWith ..

lemma map?_merge (l r : GrantTable) (entity : String) (item : Item) :
    (l.merge r).map? entity item =
      Option.merge GrantMap.merge (l.map? entity item) (r.map? entity item) := by
  unfold map?
  rw [entity?_merge]
  rcases l.entity? entity with _ | g <;> rcases r.entity? entity with _ | h
  · rfl
  · rw [Option.merge_none_left, Option.bind_none, Option.merge_none_left]
  · rw [Option.merge_none_right, Option.bind_none, Option.merge_none_right]
  · exact EntityGrants.map?_merge g h item

/-- A property that merges of grant maps keep is kept by merges of tables. -/
lemma Every.merge {P : GrantMap → Prop} (hP : ∀ l r, P l → P r → P (l.merge r)) {l r : GrantTable}
    (hl : l.Every P) (hr : r.Every P) : (l.merge r).Every P := by
  intro entity item m h
  rw [map?_merge] at h
  rcases hlm : l.map? entity item with _ | ml <;> rcases hrm : r.map? entity item with _ | mr <;>
    rw [hlm, hrm] at h
  · cases h
  · cases h
    exact hr entity item _ hrm
  · cases h
    exact hl entity item _ hlm
  · cases h
    exact hP ml mr (hl entity item ml hlm) (hr entity item mr hrm)

lemma Normalized.merge {l r : GrantTable} (hl : l.Normalized) (hr : r.Normalized) :
    (l.merge r).Normalized :=
  Every.merge (fun l r _ _ => GrantMap.normalized_merge l r) hl hr

/-- What a merge of tables has in force is the combination of what the two tables have. -/
lemma grant?_merge {l r : GrantTable} (hl : l.Normalized) (hr : r.Normalized) (entity : String)
    (item : Item) (route : Route) :
    (l.merge r).grant? entity item route =
      Grant.combine (l.grant? entity item route) (r.grant? entity item route) := by
  unfold grant?
  rw [map?_merge]
  rcases hlm : l.map? entity item with _ | ml <;> rcases hrm : r.map? entity item with _ | mr
  · rfl
  · rw [Option.merge_none_left, Option.bind_none, Grant.combine_none_left]
  · rw [Option.merge_none_right, Option.bind_none, Grant.combine_none_right]
  · exact GrantMap.matching_merge (hl entity item ml hlm) (hr entity item mr hrm) route

lemma customPrimary_merge (l r : GrantTable) (entity : String) :
    (l.merge r).customPrimary entity = (l.customPrimary entity || r.customPrimary entity) := by
  unfold customPrimary
  rw [entity?_merge]
  rcases l.entity? entity with _ | g <;> rcases r.entity? entity with _ | h
  · rfl
  · rfl
  · rw [Option.merge_none_right, Option.any_none, Bool.or_false]
  · rfl

/-! ## Primary keys -/

lemma get?_unifyPrimary {fields : FieldGrants} {primary name : String} (h : name ≠ primary) :
    (FieldGrants.unifyPrimary primary fields).get? name = fields.get? name := by
  unfold FieldGrants.unifyPrimary
  by_cases hempty : fields.isEmpty = true
  · rw [if_pos hempty]
  · rw [if_neg hempty, NameMap.get?_insert, if_neg h]

lemma primary_or_not (model : Model) (entity : String) (item : Item) :
    (∃ primary action, model.primary? entity = some primary ∧ item = .field action primary) ∨
      ∀ primary action, model.primary? entity = some primary → item ≠ .field action primary := by
  by_cases h : ∃ primary action,
      model.primary? entity = some primary ∧ item = .field action primary
  · exact .inl h
  · exact .inr fun primary action hprimary heq => h ⟨primary, action, hprimary, heq⟩

/-- Only the grants of primary keys are changed when these are unified. -/
lemma map?_unifyPrimaries {model : Model} {entity : String} {item : Item}
    (h : ∀ primary action, model.primary? entity = some primary → item ≠ .field action primary)
    (t : GrantTable) : (t.unifyPrimaries model).map? entity item = t.map? entity item := by
  unfold map? unifyPrimaries entity?
  rw [NameMap.get?_mapValues]
  cases t.entities.get? entity with
  | none => rfl
  | some g =>
    cases hprimary : model.primary? entity with
    | none => rfl
    | some primary =>
      cases item with
      | delete => rfl
      | field action name =>
        have hname : name ≠ primary := fun heq => h primary action hprimary (heq ▸ rfl)
        simp [EntityGrants.map?, get?_unifyPrimary hname]

lemma grant?_unifyPrimaries {model : Model} {entity : String} {item : Item}
    (h : ∀ primary action, model.primary? entity = some primary → item ≠ .field action primary)
    (t : GrantTable) (route : Route) :
    (t.unifyPrimaries model).grant? entity item route = t.grant? entity item route := by
  rw [grant?, grant?, map?_unifyPrimaries h]

lemma customPrimary_unifyPrimaries (model : Model) (t : GrantTable) (entity : String) :
    (t.unifyPrimaries model).customPrimary entity = t.customPrimary entity := by
  unfold customPrimary unifyPrimaries entity?
  rw [NameMap.get?_mapValues]
  cases t.entities.get? entity with
  | none => rfl
  | some g => cases model.primary? entity <;> rfl

end GrantTable

/-! ## One visit -/

lemma Rule.normalized_grants {lookup : String → Except Fault Predicate} {rule : Rule} {m : GrantMap}
    (h : rule.grants lookup = .ok m) : m.Normalized := by
  obtain ⟨joined, _, h⟩ := bind_eq_ok_iff.1 h
  cases h
  exact GrantMap.normalized_bounded joined

namespace Visit

variable {v : Visit} {model : Model} {name : String} {rules : EntityRules}

/-- What the visited role declares for an item of an entity, resolved to grants. -/
def declared? (v : Visit) (entity : Entity) (name : String) (item : Item) :
    Option (Except Fault GrantMap) := do
  let rules ← v.role.entities.get? name
  let rule ← rules.rule? item
  return v.ruleGrants entity rules rule

def customPrimary (v : Visit) (name : String) : Bool :=
  (v.role.entities.get? name).any (·.operations.customPrimary)

/-- An item that a role has no rule for is left out, or for deletion filed without any grant. -/
lemma map?_of_entityGrants_eq_ok {entity : Entity} {g : EntityGrants}
    (h : v.entityGrants entity rules = .ok g) (item : Item) :
    (∃ rule m, rules.rule? item = some rule ∧ v.ruleGrants entity rules rule = .ok m ∧
      g.map? item = some m) ∨
    (rules.rule? item = none ∧ (g.map? item = none ∨ g.map? item = some ∅)) := by
  obtain ⟨fields, hfields, h⟩ := bind_eq_ok_iff.1 h
  obtain ⟨delete, hdelete, h⟩ := bind_eq_ok_iff.1 h
  cases h
  cases item with
  | field action name =>
    have haction := PerAction.get_of_traverse_eq_ok hfields action
    rw [EntityRules.rule?, EntityGrants.map?]
    cases hdeclared : rules.operations.fields.get action with
    | none =>
      rw [hdeclared] at haction
      have hnone : .empty = fields.get action := Except.ok.inj haction
      refine .inr ⟨rfl, .inl ?_⟩
      rw [← hnone, NameMap.get?_empty]
    | some declared =>
      rw [hdeclared] at haction
      unfold fieldGrants at haction
      have hname := NameMap.get?_of_traverse_eq_ok haction name
      rw [Option.bind_some]
      generalize declared.get? name = rule at hname
      generalize (fields.get action).get? name = m at hname
      cases hname with
      | none => exact .inr ⟨rfl, .inl rfl⟩
      | some hm => exact .inl ⟨_, _, rfl, hm, rfl⟩
  | delete =>
    rw [EntityRules.rule?, EntityGrants.map?]
    cases hrule : rules.operations.delete with
    | none =>
      rw [hrule] at hdelete
      cases hdelete
      exact .inr ⟨rfl, .inr rfl⟩
    | some rule =>
      rw [hrule] at hdelete
      exact .inl ⟨rule, delete, rfl, hdelete, rfl⟩

lemma entityGrants_of_grants_eq_ok {t : GrantTable} (h : v.grants model = .ok t) (name : String) :
    Option.Rel (fun rules g => ∃ entity, model.entity? name = some entity ∧
      v.entityGrants entity rules = .ok g) (v.role.entities.get? name) (t.entity? name) := by
  obtain ⟨entities, hentities, h⟩ := bind_eq_ok_iff.1 h
  cases h
  have hname := NameMap.get?_of_traverse_eq_ok hentities name
  unfold GrantTable.entity?
  generalize v.role.entities.get? name = rules at hname
  generalize entities.get? name = g at hname
  cases hname with
  | none => exact .none
  | some h =>
    unfold namedGrants at h
    cases hentity : model.entity? name with
    | none =>
      rw [hentity] at h
      cases h
    | some entity =>
      rw [hentity] at h
      exact .some ⟨entity, rfl, h⟩

lemma exists_rule_of_declared? {entity : Entity} {item : Item} {r : Except Fault GrantMap}
    (h : v.declared? entity name item = some r) :
    ∃ rules rule, v.ruleGrants entity rules rule = r := by
  obtain ⟨rules, _, h⟩ := Option.bind_eq_some_iff.1 h
  obtain ⟨rule, _, h⟩ := Option.bind_eq_some_iff.1 h
  exact ⟨rules, rule, Option.some.inj h⟩

/-- The grants of a visit hold for an item what the role declares for it, and no grant where it
declares nothing. -/
lemma map?_of_grants_eq_ok {t : GrantTable} (h : v.grants model = .ok t) (name : String)
    (item : Item) :
    (∃ entity m, model.entity? name = some entity ∧ v.declared? entity name item = some (.ok m) ∧
      t.map? name item = some m) ∨
    ((∀ entity, v.declared? entity name item = none) ∧
      (t.map? name item = none ∨ t.map? name item = some ∅)) := by
  have hrel := entityGrants_of_grants_eq_ok h name
  unfold GrantTable.map? declared?
  generalize v.role.entities.get? name = rules at hrel
  generalize t.entity? name = g at hrel
  cases hrel with
  | none => exact .inr ⟨fun _ => rfl, .inl rfl⟩
  | some h =>
    obtain ⟨entity, hentity, h⟩ := h
    rcases map?_of_entityGrants_eq_ok h item with ⟨rule, m, hrule, hm, hmap⟩ | ⟨hrule, hmap⟩
    · refine .inl ⟨entity, m, hentity, ?_, hmap⟩
      simp [hrule, hm]
    · refine .inr ⟨fun entity => ?_, hmap⟩
      simp [hrule]

/-- What the grants of every rule have, and the map without any entry, all grants of a visit have. -/
lemma every_of_grants_eq_ok {P : GrantMap → Prop} (hempty : P ∅)
    (hrule : ∀ lookup (rule : Rule) m, rule.grants lookup = .ok m → P m) {t : GrantTable}
    (h : v.grants model = .ok t) : t.Every P := by
  intro name item m hm
  rcases map?_of_grants_eq_ok h name item with ⟨entity, m', _, hm', hmap⟩ | ⟨_, hmap | hmap⟩
  · obtain rfl : m' = m := Option.some.inj (hmap.symm.trans hm)
    obtain ⟨rules, rule, hgrants⟩ := exists_rule_of_declared? hm'
    exact hrule _ rule m' hgrants
  · cases hmap.symm.trans hm
  · cases hmap.symm.trans hm
    exact hempty

lemma normalized_of_grants_eq_ok {t : GrantTable} (h : v.grants model = .ok t) : t.Normalized :=
  every_of_grants_eq_ok GrantMap.normalized_empty (fun _ _ _ => Rule.normalized_grants) h

lemma customPrimary_of_grants_eq_ok {t : GrantTable} (h : v.grants model = .ok t) (name : String) :
    t.customPrimary name = v.customPrimary name := by
  have hrel := entityGrants_of_grants_eq_ok h name
  unfold GrantTable.customPrimary customPrimary
  generalize v.role.entities.get? name = rules at hrel
  generalize t.entity? name = g at hrel
  cases hrel with
  | none => rfl
  | some h =>
    obtain ⟨entity, _, h⟩ := h
    obtain ⟨fields, _, h⟩ := bind_eq_ok_iff.1 h
    obtain ⟨delete, _, h⟩ := bind_eq_ok_iff.1 h
    cases h
    rfl

end Visit

/-! ## Combinations -/

namespace Access

lemma level_le_zero_iff {a : Access} : a.level ≤ 0 ↔ a = denied := by
  cases a <;> simp [level]

lemma ofGrant_foldl_combine_eq_denied {grants : List (Option Grant)} {start : Option Grant}
    (hstart : ofGrant start = denied) (h : ∀ g ∈ grants, ofGrant g = denied) :
    ofGrant (grants.foldl Grant.combine start) = denied := by
  simp only [← level_le_zero_iff] at hstart h ⊢
  exact Grant.level_foldl_combine_le_iff.2 ⟨hstart, h⟩

end Access

/-! ## The whole walk -/

namespace Schema

variable {s : Schema} {visits : List Visit} {t merged : GrantTable} {name : String}

lemma mergeVisit_eq_ok_iff {v : Visit} :
    s.mergeVisit t v = .ok merged ↔ ∃ g, v.grants s.model = .ok g ∧ t.merge g = merged := by
  rw [mergeVisit, bind_eq_ok_iff]
  constructor
  · rintro ⟨g, hg, h⟩
    exact ⟨g, hg, Except.ok.inj h⟩
  · rintro ⟨g, hg, rfl⟩
    exact ⟨g, hg, rfl⟩

/-- Merging the grants of visits succeeds where the grants of every visit are without a fault. -/
lemma exists_foldlM_eq_ok_iff :
    (∃ merged, visits.foldlM s.mergeVisit t = .ok merged) ↔
      ∀ v ∈ visits, ∃ g, v.grants s.model = .ok g := by
  induction visits generalizing t with
  | nil => exact ⟨fun _ _ h => (nomatch h), fun _ => ⟨t, rfl⟩⟩
  | cons v visits ih =>
    rw [List.forall_mem_cons]
    constructor
    · rintro ⟨merged, h⟩
      rw [List.foldlM_cons] at h
      obtain ⟨next, hnext, h⟩ := bind_eq_ok_iff.1 h
      obtain ⟨g, hg, _⟩ := mergeVisit_eq_ok_iff.1 hnext
      exact ⟨⟨g, hg⟩, ih.1 ⟨merged, h⟩⟩
    · rintro ⟨⟨g, hg⟩, hrest⟩
      obtain ⟨merged, h⟩ := (ih (t := t.merge g)).2 hrest
      refine ⟨merged, ?_⟩
      rw [List.foldlM_cons]
      exact bind_eq_ok_iff.2 ⟨t.merge g, mergeVisit_eq_ok_iff.2 ⟨g, hg, rfl⟩, h⟩

/-- What the start of a fold over visits and all grants of rules have, and merges keep, the result
of the fold has. -/
lemma every_of_foldlM_eq_ok {P : GrantMap → Prop} (hempty : P ∅)
    (hrule : ∀ lookup (rule : Rule) m, rule.grants lookup = .ok m → P m)
    (hmerge : ∀ l r, P l → P r → P (l.merge r)) (ht : t.Every P)
    (h : visits.foldlM s.mergeVisit t = .ok merged) : merged.Every P := by
  refine foldlM_preserves (fun t v next ht hnext => ?_) ht h
  obtain ⟨g, hg, rfl⟩ := mergeVisit_eq_ok_iff.1 hnext
  exact ht.merge hmerge (Visit.every_of_grants_eq_ok hempty hrule hg)

lemma normalized_of_foldlM_eq_ok (h : visits.foldlM s.mergeVisit .empty = .ok merged) :
    merged.Normalized :=
  every_of_foldlM_eq_ok GrantMap.normalized_empty (fun _ _ _ => Rule.normalized_grants)
    (fun l r _ _ => GrantMap.normalized_merge l r) GrantTable.normalized_empty h

/-- A fold over visits combines with what it starts from, for every item, what the visited roles
declare for it. -/
theorem grant?_of_foldlM_eq_ok {entity : Entity} (hentity : s.model.entity? name = some entity)
    (ht : t.Normalized) (h : visits.foldlM s.mergeVisit t = .ok merged) (item : Item) :
    ∃ maps : List GrantMap, visits.filterMap (·.declared? entity name item) = maps.map .ok ∧
      ∀ route, merged.grant? name item route =
        (maps.map (·.matching route)).foldl Grant.combine (t.grant? name item route) := by
  induction visits generalizing t with
  | nil =>
    cases h
    exact ⟨[], rfl, fun _ => rfl⟩
  | cons v visits ih =>
    rw [List.foldlM_cons] at h
    obtain ⟨next, hnext, h⟩ := bind_eq_ok_iff.1 h
    obtain ⟨g, hg, rfl⟩ := mergeVisit_eq_ok_iff.1 hnext
    have hgn : g.Normalized := Visit.normalized_of_grants_eq_ok hg
    -- The merged table is the start of the remaining fold, so the induction is over any start.
    obtain ⟨maps, hmaps, hroutes⟩ := ih (ht.merge hgn) h
    rcases Visit.map?_of_grants_eq_ok hg name item with
      ⟨entity', m, hentity', hm, hmap⟩ | ⟨hnone, hmap⟩
    · obtain rfl : entity' = entity := Option.some.inj (hentity'.symm.trans hentity)
      refine ⟨m :: maps, ?_, fun route => ?_⟩
      · have hcons : (v :: visits).filterMap (·.declared? entity' name item) =
            .ok m :: visits.filterMap (·.declared? entity' name item) :=
          List.filterMap_cons_some hm
        rw [hcons, hmaps, List.map_cons]
      · have hroute : g.grant? name item route = m.matching route := by
          rw [GrantTable.grant?, hmap, Option.bind_some]
        rw [hroutes, GrantTable.grant?_merge ht hgn, hroute, List.map_cons, List.foldl_cons]
    · refine ⟨maps, ?_, fun route => ?_⟩
      · have hcons : (v :: visits).filterMap (·.declared? entity name item) =
            visits.filterMap (·.declared? entity name item) :=
          List.filterMap_cons_none (hnone entity)
        rw [hcons, hmaps]
      · have hroute : g.grant? name item route = none := by
          unfold GrantTable.grant?
          rcases hmap with hmap | hmap
          · rw [hmap, Option.bind_none]
          · rw [hmap, Option.bind_some]
            cases route <;> rfl
        rw [hroutes, GrantTable.grant?_merge ht hgn, hroute, Grant.combine_none_right]

lemma customPrimary_of_foldlM_eq_ok (h : visits.foldlM s.mergeVisit t = .ok merged) :
    merged.customPrimary name = (t.customPrimary name || visits.any (·.customPrimary name)) := by
  induction visits generalizing t with
  | nil =>
    cases h
    rw [List.any_nil, Bool.or_false]
  | cons v visits ih =>
    rw [List.foldlM_cons] at h
    obtain ⟨next, hnext, h⟩ := bind_eq_ok_iff.1 h
    obtain ⟨g, hg, rfl⟩ := mergeVisit_eq_ok_iff.1 hnext
    rw [ih h, GrantTable.customPrimary_merge, Visit.customPrimary_of_grants_eq_ok hg,
      List.any_cons, Bool.or_assoc]

/-- Compiled lookups are the combination of what the visited roles declare. For every item of an
entity, its primary key apart, every declaration found on the walk resolves to a grant map, and on
every route the compiled grant combines in order what these maps answer. So nothing is granted
that no visited role grants, and clients may choose primary keys where some visited role says so. -/
theorem compile_grant?_eq_foldl_combine {roles : List String} {scope : Option String}
    {entity : Entity} (hentity : s.model.entity? name = some entity)
    (h : s.compile roles scope = .ok t) :
    (∀ item, (∀ action, item ≠ .field action entity.primary) →
      ∃ maps : List GrantMap,
        (s.acl.walk roles scope).visits.filterMap (·.declared? entity name item) = maps.map .ok ∧
        ∀ route,
          t.grant? name item route = (maps.map (·.matching route)).foldl Grant.combine none ∧
          ((∀ m ∈ maps, Access.ofGrant (m.matching route) = .denied) →
            Access.ofGrant (t.grant? name item route) = .denied)) ∧
    t.customPrimary name = (s.acl.walk roles scope).visits.any (·.customPrimary name) := by
  obtain ⟨_, merged, hmerged, rfl⟩ := compile_eq_ok_iff.1 h
  constructor
  · intro item hitem
    obtain ⟨maps, hmaps, hroutes⟩ :=
      grant?_of_foldlM_eq_ok hentity GrantTable.normalized_empty hmerged item
    have hkept : (merged.unifyPrimaries s.model).map? name item = merged.map? name item := by
      apply GrantTable.map?_unifyPrimaries
      intro primary action hprimary
      rw [Model.primary?, hentity] at hprimary
      cases hprimary
      exact hitem action
    refine ⟨maps, hmaps, fun route => ?_⟩
    have hroute : (merged.unifyPrimaries s.model).grant? name item route =
        (maps.map (·.matching route)).foldl Grant.combine none := by
      rw [GrantTable.grant?, hkept]
      exact hroutes route
    refine ⟨hroute, fun hdenied => ?_⟩
    rw [hroute]
    refine Access.ofGrant_foldl_combine_eq_denied rfl fun g hg => ?_
    obtain ⟨m, hm, rfl⟩ := List.mem_map.1 hg
    exact hdenied m hm
  · rw [GrantTable.customPrimary_unifyPrimaries, customPrimary_of_foldlM_eq_ok hmerged]
    rfl

def newsroomArticle : Entity := (Entity.new "Article").column "title" |>.column "site"

/-- Readers read the titles of the articles of their site. Editors are readers, and read the titles
of all articles that they come to through an author. -/
def newsroom : Schema where
  model := Model.insert {} newsroomArticle
  acl :=
    let reader := EntityRules.declareField
      (EntityRules.define {} "ofSite" (.columnVariable "site" "site")) (.fields .read) "title"
      (.direct (.named "ofSite"))
    let editor := EntityRules.declareField {} (.fields .read) "title"
      (.byRoute [⟨.flag true, some (.relations ["author"])⟩])
    (RoleSchema.declare {} "reader" (Role.declareEntity {} "Article" reader)).declare "editor"
      (Role.inherit (Role.declareEntity {} "Article" editor) ["reader"])

/-- The grant that the editor has as a reader asks for the editor's own site. -/
theorem newsroom_editor_grants :
    ∃ t, newsroom.compile ["editor"] none = .ok t ∧
      t.grant? "Article" (.field .read "title") (.relation "author") = some .allow ∧
      t.grant? "Article" (.field .read "title") (.relation "tag") =
        some (.rows [.columnVariable "site" "editor__site"]) ∧
      t.grant? "Article" .delete .unknown = none := by
  have hok : (newsroom.compile ["editor"] none).isOk = true := by decide +kernel
  obtain ⟨t, ht⟩ := exists_of_isOk hok
  have hentity : newsroom.model.entity? "Article" = some newsroomArticle := rfl
  obtain ⟨hlookups, _⟩ := compile_grant?_eq_foldl_combine hentity ht
  obtain ⟨titles, htitles, hroutes⟩ := hlookups (.field .read "title") (by
    intro action
    cases action <;> decide)
  obtain ⟨deletions, hdeletions, hdelete⟩ := hlookups .delete (by simp)
  have hvisits : ((newsroom.acl.walk ["editor"] none).visits.filterMap
      (·.declared? newsroomArticle "Article" (.field .read "title"))).map Except.toOption =
      [⟨none, none, some .allow, NameMap.empty.insert "author" .allow⟩,
        ⟨some (.rows [.columnVariable "site" "editor__site"]), none,
          some (.rows [.columnVariable "site" "editor__site"]), .empty⟩].map some := by
    decide +kernel
  have hnone : ((newsroom.acl.walk ["editor"] none).visits.filterMap
      (·.declared? newsroomArticle "Article" .delete)).map Except.toOption = [] := by decide +kernel
  rw [htitles, List.map_map] at hvisits
  rw [hdeletions, List.map_map] at hnone
  obtain rfl := (List.map_inj_right fun _ _ => Option.some.inj).1 hvisits
  obtain rfl := List.map_eq_nil_iff.1 hnone
  refine ⟨t, ht, ?_, ?_, ?_⟩
  · exact (hroutes (.relation "author")).1
  · exact (hroutes (.relation "tag")).1
  · exact (hdelete .unknown).1

end Schema

end RoleAccess
