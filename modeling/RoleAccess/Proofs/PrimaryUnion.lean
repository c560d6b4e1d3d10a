import Mathlib.Data.List.Induction
import RoleAccess.Proofs.DistinctPredicates

/-!
# The primary key and the other fields

After compilation the primary key of an entity has on every route the union of what the other fields
have there, also on routes for which only some of them, or none, have an entry of their own. The
union is built by merging grant maps one after the other; that a lookup commutes with each merge
makes it the union of the lookups.
-/

namespace RoleAccess

lemma NameMap.filter_insertEntry {α : Type} (name : String) (value : α) (l : List (String × α)) :
    (insertEntry name value l).filter (·.1 ≠ name) = l.filter (·.1 ≠ name) := by
  induction l with
  | nil => simp [insertEntry]
  | cons e l ih =>
    obtain ⟨n, v⟩ := e
    rw [insertEntry]
    split
    · simp
    · split
      · rw [List.filter_cons, List.filter_cons, ih]
      · rename_i hle hge
        have heq : name = n := String.le_antisymm (String.not_lt.1 hge) (String.not_lt.1 hle)
        simp [heq]

/-! ## The union of grants -/

lemma appendMissing_eraseDups (l r : List Predicate) :
    appendMissing l.eraseDups r = (l ++ r).eraseDups := by
  unfold appendMissing
  induction r generalizing l with
  | nil => rw [List.foldl_nil, List.append_nil]
  | cons p r ih =>
    have hstep : (if p ∈ l.eraseDups then l.eraseDups else l.eraseDups ++ [p]) =
        (l ++ [p]).eraseDups := by
      rw [List.eraseDups_append]
      by_cases hp : p ∈ l <;> simp [hp, List.removeAll, List.eraseDups_cons]
    rw [List.foldl_cons, hstep, ih, List.append_assoc, List.singleton_append]

lemma eraseDups_eq_self {l : List Predicate} (hl : l.Nodup) : l.eraseDups = l := by
  induction l with
  | nil => rfl
  | cons p l ih =>
    obtain ⟨hp, hl⟩ := List.nodup_cons.1 hl
    have hfilter : l.filter (fun q => !q == p) = l := by
      rw [List.filter_eq_self]
      intro q hq
      have hne : q ≠ p := fun heq => hp (heq ▸ hq)
      simpa using hne
    rw [List.eraseDups_cons, hfilter, ih hl]

namespace Grant

/-- The union of grants: none of none, all rows if one of them opens all, and else the list of all
their predicates in order, each of them once. -/
def together (grants : List Grant) : Option Grant :=
  if grants = [] then none
  else if allow ∈ grants then some allow
  else some (rows (grants.flatMap predicates).eraseDups)

lemma together_singleton {g : Grant} (hg : g.predicates.Nodup) : together [g] = some g := by
  cases g with
  | allow => rfl
  | rows ps =>
    have hself : ps.eraseDups = ps := eraseDups_eq_self hg
    simp [together, predicates, hself]

lemma combine_together {grants : List Grant} (hne : grants ≠ []) (g : Grant) :
    combine (together grants) (some g) = together (grants ++ [g]) := by
  have happend : grants ++ [g] ≠ [] := List.append_ne_nil_of_left_ne_nil hne _
  rw [together, together, if_neg hne, if_neg happend]
  by_cases hallow : allow ∈ grants
  · rw [if_pos hallow, if_pos (List.mem_append_left _ hallow)]
    cases g <;> rfl
  · rw [if_neg hallow]
    cases g with
    | allow => simp [join]
    | rows ps =>
      have hrows : allow ∉ grants ++ [rows ps] := by simp [hallow]
      rw [if_neg hrows, combine_some, join, appendMissing_eraseDups, List.flatMap_append]
      simp [predicates]

/-- Grants combined one after the other are their union; absent ones count for nothing. -/
lemma foldl_combine_eq_together {grants : List (Option Grant)}
    (h : ∀ g, some g ∈ grants → g.predicates.Nodup) :
    grants.foldl combine none = together (grants.filterMap id) := by
  -- combining appends what is missing at the end, so the last grant is taken off
  induction grants using List.reverseRecOn with
  | nil => rfl
  | append_singleton grants last ih =>
    rw [List.foldl_append, List.foldl_cons, List.foldl_nil, List.filterMap_append,
      ih fun g hg => h g (List.mem_append_left _ hg)]
    cases last with
    | none => simp
    | some g =>
      have hg : g.predicates.Nodup := h g (by simp)
      by_cases hnil : grants.filterMap id = []
      · rw [hnil]
        exact (together_singleton hg).symm
      · exact combine_together hnil g

lemma coveredBy_self (g : Grant) : g.CoveredBy (some g) := by
  cases g with
  | allow => exact .inl rfl
  | rows ps => exact .inr ⟨by simp, fun p hp => hp⟩

lemma coveredBy_together {grants : List Grant} {g : Grant} (hg : g ∈ grants) :
    g.CoveredBy (together grants) := by
  rw [together, if_neg (List.ne_nil_of_mem hg)]
  by_cases hallow : allow ∈ grants
  · rw [if_pos hallow]
    exact .inl rfl
  · rw [if_neg hallow]
    refine .inr ⟨fun heq => hallow (heq ▸ hg), fun p hp => ?_⟩
    have hmem : p ∈ grants.flatMap predicates := List.mem_flatMap.2 ⟨g, hg, hp⟩
    simpa [listed, predicates] using hmem

end Grant

namespace Access

variable {g : Grant} {bound : Option Grant}

lemma allowed_of_coveredBy (h : g.CoveredBy bound) (hg : ofGrant (some g) = allowed) :
    ofGrant bound = allowed := by
  cases g with
  | allow =>
    obtain rfl := h.resolve_right fun h => h.1 rfl
    rfl
  | rows ps => cases ps <;> cases hg

lemma conditional_of_coveredBy (h : g.CoveredBy bound) {ps : List Predicate}
    (hg : ofGrant (some g) = conditional ps) :
    ofGrant bound = allowed ∨ ∃ qs, ofGrant bound = conditional qs ∧ ∀ p ∈ ps, p ∈ qs := by
  rcases h with rfl | ⟨_, hmem⟩
  · exact .inl rfl
  · cases g with
    | allow => cases hg
    | rows rs =>
      cases rs with
      | nil => cases hg
      | cons p rs =>
        cases hg
        cases bound with
        | none => cases hmem p List.mem_cons_self
        | some b =>
          cases b with
          | allow => exact .inl rfl
          | rows qs =>
            cases qs with
            | nil => cases hmem p List.mem_cons_self
            | cons q qs => exact .inr ⟨q :: qs, rfl, hmem⟩

/-- What covers a grant answers with at least what the grant answers. -/
lemma ofGrant_of_covered {grant : Option Grant}
    (h : ∀ g, grant = some g → g.CoveredBy bound) :
    (ofGrant grant = allowed → ofGrant bound = allowed) ∧
      ∀ ps, ofGrant grant = conditional ps →
        ofGrant bound = allowed ∨ ∃ qs, ofGrant bound = conditional qs ∧ ∀ p ∈ ps, p ∈ qs := by
  cases grant with
  | none =>
    constructor
    · intro hallowed
      cases hallowed
    · intro ps hps
      cases hps
  | some g => exact ⟨allowed_of_coveredBy (h g rfl), fun ps => conditional_of_coveredBy (h g rfl)⟩

end Access

/-! ## Merged maps -/

lemma GrantMap.matching_foldl_merge {maps : List GrantMap} {start : GrantMap}
    (hstart : start.Normalized) (h : ∀ m ∈ maps, m.Normalized) (route : Route) :
    (maps.foldl GrantMap.merge start).matching route =
      (maps.map (·.matching route)).foldl Grant.combine (start.matching route) := by
  induction maps generalizing start with
  | nil => rfl
  | cons m maps ih =>
    rw [List.foldl_cons, List.map_cons, List.foldl_cons,
      ih (normalized_merge start m) fun m' hm' => h m' (List.mem_cons_of_mem m hm'),
      matching_merge hstart (h m List.mem_cons_self)]

namespace FieldGrants

/-- The grant maps of the fields other than the primary key, in the order of the names. -/
def others (fields : FieldGrants) (primary : String) : List GrantMap :=
  (fields.entries.filter (·.1 ≠ primary)).map (·.2)

lemma mem_others {fields : FieldGrants} {primary : String} {m : GrantMap} :
    m ∈ fields.others primary ↔ ∃ name, name ≠ primary ∧ fields.get? name = some m := by
  simp only [others, List.mem_map, List.mem_filter, decide_eq_true_eq, Prod.exists,
    NameMap.mem_entries]
  constructor
  · rintro ⟨name, m, ⟨hget, hname⟩, rfl⟩
    exact ⟨name, hname, hget⟩
  · rintro ⟨name, hname, hget⟩
    exact ⟨name, m, ⟨hget, hname⟩, rfl⟩

lemma union_eq_foldl_others (fields : FieldGrants) (primary : String) :
    fields.union primary = (fields.others primary).foldl GrantMap.merge ∅ := by
  rw [union, others, List.foldl_map]
  rfl

lemma others_unifyPrimary (fields : FieldGrants) (primary : String) :
    (fields.unifyPrimary primary).others primary = fields.others primary := by
  unfold unifyPrimary
  split
  · rfl
  · exact congrArg _ (NameMap.filter_insertEntry ..)

/-- The primary key has the grants of the other fields combined, if there is a field at all. -/
lemma get?_unifyPrimary_self (fields : FieldGrants) (primary : String) :
    ((fields.unifyPrimary primary).get? primary = none ∧ fields.others primary = []) ∨
      (fields.unifyPrimary primary).get? primary = some (fields.union primary) := by
  unfold unifyPrimary
  split
  · rename_i hempty
    have hnil : fields.entries = [] := List.isEmpty_iff.1 hempty
    exact .inl ⟨by simp [NameMap.get?, hnil], by simp [others, hnil]⟩
  · exact .inr (by rw [NameMap.get?_insert, if_pos rfl])

end FieldGrants

namespace GrantTable

variable {model : Model} {t : GrantTable} {entity primary : String} {g : EntityGrants}

lemma entity?_unifyPrimaries (hprimary : model.primary? entity = some primary) :
    (t.unifyPrimaries model).entity? entity = (t.entity? entity).map fun g =>
      { g with fields := g.fields.map (FieldGrants.unifyPrimary primary) } := by
  simp only [entity?, unifyPrimaries, NameMap.get?_mapValues, hprimary]

lemma exists_entity?_of_unifyPrimaries (h : (t.unifyPrimaries model).entity? entity = some g) :
    ∃ own, t.entity? entity = some own := by
  unfold entity? unifyPrimaries at h
  rw [NameMap.get?_mapValues] at h
  obtain ⟨own, hown, _⟩ := Option.map_eq_some_iff.1 h
  exact ⟨own, hown⟩

lemma normalized_of_mem_others (ht : t.Normalized) (hg : t.entity? entity = some g)
    (action : FieldAction) {m : GrantMap} (hm : m ∈ (g.fields.get action).others primary) :
    m.Normalized := by
  obtain ⟨name, _, hget⟩ := FieldGrants.mem_others.1 hm
  refine ht entity (.field action name) m ?_
  rw [map?, hg]
  exact hget

/-- On every route the primary key has what the other fields have there, combined. -/
theorem grant?_unifyPrimaries_primary (ht : t.Normalized)
    (hprimary : model.primary? entity = some primary) (hg : t.entity? entity = some g)
    (action : FieldAction) (route : Route) :
    (t.unifyPrimaries model).grant? entity (.field action primary) route =
      (((g.fields.get action).others primary).map (·.matching route)).foldl Grant.combine none := by
  have hmap : (t.unifyPrimaries model).map? entity (.field action primary) =
      ((g.fields.get action).unifyPrimary primary).get? primary := by
    rw [map?, entity?_unifyPrimaries hprimary, hg, Option.map_some, Option.bind_some]
    simp only [EntityGrants.map?, PerAction.get_map]
  rw [grant?, hmap]
  rcases (g.fields.get action).get?_unifyPrimary_self primary with ⟨hnone, hothers⟩ | hunion
  · rw [hnone, hothers]
    rfl
  · rw [hunion, Option.bind_some, FieldGrants.union_eq_foldl_others,
      GrantMap.matching_foldl_merge GrantMap.normalized_empty
        fun m hm => normalized_of_mem_others ht hg action hm]
    cases route <;> rfl

/-- What any other field has in force is among what the union is made of. -/
lemma exists_mem_others_of_grant? (hprimary : model.primary? entity = some primary)
    (hg : t.entity? entity = some g) {action : FieldAction} {field : String} {route : Route}
    {grant : Grant} (hfield : field ≠ primary)
    (h : (t.unifyPrimaries model).grant? entity (.field action field) route = some grant) :
    ∃ m ∈ (g.fields.get action).others primary, m.matching route = some grant := by
  have hkept : (t.unifyPrimaries model).map? entity (.field action field) =
      (g.fields.get action).get? field := by
    rw [map?_unifyPrimaries, map?, hg]
    · rfl
    · intro other action' hother heq
      cases hprimary.symm.trans hother
      cases heq
      exact hfield rfl
  rw [grant?, hkept] at h
  obtain ⟨m, hget, hmatching⟩ := Option.bind_eq_some_iff.1 h
  exact ⟨m, FieldGrants.mem_others.2 ⟨field, hfield, hget⟩, hmatching⟩

end GrantTable

namespace Schema

variable {s : Schema} {roles : List String} {scope : Option String} {t merged : GrantTable}
  {name entity : String} {g : EntityGrants}

/-- Nothing is granted on entities that the model does not have. -/
lemma entity_mem_model_of_foldlM_eq_ok {visits : List Visit}
    (h : visits.foldlM s.mergeVisit .empty = .ok merged) (hg : merged.entity? name = some g) :
    ∃ entity, s.model.entity? name = some entity := by
  have hknown : ∀ g, merged.entity? name = some g → ∃ entity, s.model.entity? name = some entity := by
    refine foldlM_preserves (P := fun t => ∀ g, t.entity? name = some g →
      ∃ entity, s.model.entity? name = some entity) (fun t v next ht hnext => ?_) ?_ h
    · obtain ⟨own, hown, rfl⟩ := mergeVisit_eq_ok_iff.1 hnext
      have hrel := Visit.entityGrants_of_grants_eq_ok hown name
      intro g hg
      rw [GrantTable.entity?_merge] at hg
      generalize v.role.entities.get? name = rules at hrel
      generalize own.entity? name = h at hrel hg
      cases hrel with
      | none => exact ht g (by rwa [Option.merge_none_right] at hg)
      | some hentity =>
        obtain ⟨entity, hentity, _⟩ := hentity
        exact ⟨entity, hentity⟩
    · intro g hg
      cases hg
  exact hknown g hg

lemma distinct_of_mem_others {visits : List Visit}
    (h : visits.foldlM s.mergeVisit .empty = .ok merged) (hg : merged.entity? entity = some g)
    (action : FieldAction) {primary : String} {m : GrantMap}
    (hm : m ∈ (g.fields.get action).others primary) : m.Distinct := by
  obtain ⟨name, _, hget⟩ := FieldGrants.mem_others.1 hm
  refine distinct_of_foldlM_eq_ok h entity (.field action name) m ?_
  rw [GrantTable.map?, hg]
  exact hget

lemma grant?_primary_eq_together {visits : List Visit} {primary : String}
    (h : visits.foldlM s.mergeVisit .empty = .ok merged)
    (hprimary : s.model.primary? entity = some primary) (hg : merged.entity? entity = some g)
    (action : FieldAction) (route : Route) :
    (merged.unifyPrimaries s.model).grant? entity (.field action primary) route =
      Grant.together (((g.fields.get action).others primary).filterMap (·.matching route)) := by
  rw [GrantTable.grant?_unifyPrimaries_primary (normalized_of_foldlM_eq_ok h) hprimary hg,
    Grant.foldl_combine_eq_together, List.filterMap_map]
  · rfl
  · intro grant hgrant
    obtain ⟨m, hm, hmatching⟩ := List.mem_map.1 hgrant
    exact (distinct_of_mem_others h hg action hm).matching hmatching

/-- The grant of any field is covered by the grant of the primary key. -/
lemma grant?_coveredBy_primary {visits : List Visit} {primary : String}
    (h : visits.foldlM s.mergeVisit .empty = .ok merged)
    (hprimary : s.model.primary? entity = some primary) (hg : merged.entity? entity = some g)
    {action : FieldAction} {field : String} {route : Route} {grant : Grant}
    (hgrant : (merged.unifyPrimaries s.model).grant? entity (.field action field) route =
      some grant) :
    grant.CoveredBy
      ((merged.unifyPrimaries s.model).grant? entity (.field action primary) route) := by
  by_cases hfield : field = primary
  · rw [← hfield, hgrant]
    exact grant.coveredBy_self
  · obtain ⟨m, hm, hmatching⟩ := GrantTable.exists_mem_others_of_grant? hprimary hg hfield hgrant
    rw [grant?_primary_eq_together h hprimary hg]
    exact Grant.coveredBy_together (List.mem_filterMap.2 ⟨m, hm, hmatching⟩)

/-- In compiled grants the primary key has on every route exactly the union of what the other
fields have there, whatever is declared for the key itself. So it gives at least what any field
gives: all rows if the field gives all, and else all or a list that holds the field's list. -/
theorem compile_primary_eq_together (h : s.compile roles scope = .ok t)
    (hg : t.entity? entity = some g) :
    ∃ primary, s.model.primary? entity = some primary ∧ ∀ action route,
      t.grant? entity (.field action primary) route =
        Grant.together (((g.fields.get action).others primary).filterMap (·.matching route)) ∧
      ∀ field,
        (t.access entity (.field action field) route = .allowed →
          t.access entity (.field action primary) route = .allowed) ∧
        ∀ ps, t.access entity (.field action field) route = .conditional ps →
          t.access entity (.field action primary) route = .allowed ∨
            ∃ qs, t.access entity (.field action primary) route = .conditional qs ∧
              ∀ p ∈ ps, p ∈ qs := by
  obtain ⟨_, merged, hmerged, rfl⟩ := compile_eq_ok_iff.1 h
  obtain ⟨own, hown⟩ := GrantTable.exists_entity?_of_unifyPrimaries hg
  obtain ⟨e, he⟩ := entity_mem_model_of_foldlM_eq_ok hmerged hown
  have hprimary : s.model.primary? entity = some e.primary := by
    rw [Model.primary?, he, Option.map_some]
  rw [GrantTable.entity?_unifyPrimaries hprimary, hown, Option.map_some] at hg
  cases hg
  refine ⟨e.primary, hprimary, fun action route => ⟨?_, fun field => ?_⟩⟩
  · rw [PerAction.get_map, FieldGrants.others_unifyPrimary]
    exact grant?_primary_eq_together hmerged hprimary hown action route
  · exact Access.ofGrant_of_covered fun grant => grant?_coveredBy_primary hmerged hprimary hown

/-- Titles of posts are read when visible, and bodies through a relation when visible and through
comments when the reader wrote the post. The key of every post is declared to be open. -/
def forum : Schema where
  model := Model.insert {} (((Entity.new "Post").column "title").column "body")
  acl :=
    let rules := (EntityRules.define {} "visible" (.column "draft" (.isNull true))).define "own"
      (.columnVariable "author" "me")
    let titles := rules.declareField (.fields .read) "title" (.direct (.named "visible"))
    let bodies := titles.declareField (.fields .read) "body" (.byRoute
      [⟨.named "visible", some (.anyRelation true)⟩, ⟨.named "own", some (.relations ["comments"])⟩])
    RoleSchema.declare {} "reader" (Role.declareEntity {} "Post"
      (bodies.declareField (.fields .read) "id" (.direct (.flag true))))

theorem forum_primary_through_comments :
    ∃ t g, forum.compile ["reader"] none = .ok t ∧ t.entity? "Post" = some g ∧
      t.grant? "Post" (.field .read "id") (.relation "comments") =
        Grant.together
          (((g.fields.get .read).others "id").filterMap (·.matching (.relation "comments"))) ∧
      t.grant? "Post" (.field .read "id") (.relation "comments") =
        some (.rows [.columnVariable "author" "reader__me", .column "draft" (.isNull true)]) := by
  have read : (forum.compile ["reader"] none).toOption.map (fun t =>
      ((t.entity? "Post").isSome, t.grant? "Post" (.field .read "id") (.relation "comments"))) =
        some (true, some (.rows
          [.columnVariable "author" "reader__me", .column "draft" (.isNull true)])) := by
    decide +kernel
  obtain ⟨t, ht, hread⟩ := exists_of_toOption_map read
  obtain ⟨hentity, hgrant⟩ := Prod.mk.inj hread
  obtain ⟨g, hg⟩ := Option.isSome_iff_exists.1 hentity
  obtain ⟨primary, hprimary, hunion⟩ := compile_primary_eq_together ht hg
  obtain rfl : "id" = primary := Option.some.inj hprimary
  exact ⟨t, g, ht, hg, (hunion .read (.relation "comments")).1, hgrant⟩

end Schema

end RoleAccess
