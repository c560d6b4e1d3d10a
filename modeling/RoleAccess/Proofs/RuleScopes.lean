import RoleAccess.Proofs.RoleDefects
import RoleAccess.Proofs.RoleSets
import RoleAccess.Proofs.UnknownRoutes

/-!
# Scopes of rule entries

The grants of a rule by route can be read off its entries one route at a time. An entry gives what
it gives on the routes that its scope names and nowhere else, and entries for one route are
combined: one that opens all rows prevails wherever it stands, and else the definitions of the named
predicates are listed. One step joins the grant of an entry to what is there already, so a run over
the entries combines their grants in order, and the order of the entries shows in the order of the
lists only.
-/

namespace RoleAccess

/-! ## Scopes -/

namespace RuleEntry

/-- The entry is for the route: for direct access without a scope or with a disabled one, for any
relation with an enabled one, and with a list for just the relations of the list. -/
def IsFor (e : RuleEntry) : Route → Prop
  | .root => e.through = none ∨ e.through = some (.anyRelation false)
  | .anyRelation => e.through = some (.anyRelation true)
  | .relation name => ∃ names, e.through = some (.relations names) ∧ name ∈ names
  | .unknown => False

lemma mem_routes_iff {e : RuleEntry} {route : Route} : route ∈ e.routes ↔ e.IsFor route := by
  obtain ⟨subject, through⟩ := e
  rcases through with _ | (_ | _) | names <;> cases route <;> simp [routes, IsFor]

instance (e : RuleEntry) (route : Route) : Decidable (e.IsFor route) :=
  decidable_of_iff _ mem_routes_iff

/-- If the entry names a predicate, the rules define it. -/
def DefinedBy (e : RuleEntry) (rules : EntityRules) : Prop :=
  ∀ name, e.subject = .named name → ∃ p, rules.predicates.get? name = some p

end RuleEntry

namespace Visit

/-- The definition, as the visit reads it, of the predicate that an entry names. -/
def definition? (v : Visit) (rules : EntityRules) (e : RuleEntry) : Option Predicate :=
  match e.subject with
  | .flag _ => none
  | .named name => (rules.predicates.get? name).map (·.mapVariables (prefixed v.scope))

/-- The definitions of the predicates that the entries for a route name, in their order. -/
def definitions (v : Visit) (rules : EntityRules) (entries : List RuleEntry) (route : Route) :
    List Predicate :=
  (entries.filter (·.IsFor route)).filterMap (v.definition? rules)

/-- What the entries for a route give together: all rows if one of them opens all rows, else the
rows of their predicates, each of them once, and nothing if they name none. -/
def scopedGrant? (v : Visit) (rules : EntityRules) (entries : List RuleEntry) (route : Route) :
    Option Grant :=
  if ∃ e ∈ entries, e.subject = .flag true ∧ e.IsFor route then some .allow
  else
    match v.definitions rules entries route with
    | [] => none
    | ps => some (.rows ps.eraseDups)

/-- What a single entry gives on a route. -/
def entryGrant? (v : Visit) (rules : EntityRules) (route : Route) (e : RuleEntry) : Option Grant :=
  if e.IsFor route then
    if e.subject = .flag true then some .allow
    else (v.definition? rules e).map fun p => .rows [p]
  else none

end Visit

/-! ## One entry -/

namespace GrantMap

lemma get?_allow (m : GrantMap) (written route : Route) :
    (m.allow written).get? route =
      if route = written then Grant.combine (m.get? route) (some .allow) else m.get? route := by
  rw [allow, get?_insert, Grant.combine_eq_allow_iff.2 (.inr rfl)]

lemma get?_add (m : GrantMap) (written route : Route) (p : Predicate) :
    (m.add written p).get? route =
      if route = written then Grant.combine (m.get? route) (some (.rows [p]))
      else m.get? route := by
  unfold add
  by_cases h : route = written
  · subst h
    cases hget : m.get? route <;> simp [get?_insert]
  · cases m.get? written <;> simp [get?_insert, h]

/-- A grant that is written to several routes is joined to what is there, once however often a
route is named. -/
lemma get?_foldl_write {write : GrantMap → Route → GrantMap} {g : Grant}
    (hwrite : ∀ m written route, (write m written).get? route =
      if route = written then Grant.combine (m.get? route) (some g) else m.get? route)
    (routes : List Route) (m : GrantMap) (route : Route) :
    (routes.foldl write m).get? route =
      if route ∈ routes then Grant.combine (m.get? route) (some g) else m.get? route := by
  induction routes generalizing m with
  | nil => simp
  | cons written routes ih =>
    rw [List.foldl_cons, ih, hwrite]
    have htwice : Grant.combine (Grant.combine (m.get? route) (some g)) (some g) =
        Grant.combine (m.get? route) (some g) := by
      rw [Grant.combine_assoc, Grant.combine_self]
    by_cases hwritten : route = written
    · rw [if_pos hwritten, htwice, ite_self, if_pos (hwritten ▸ List.mem_cons_self)]
    · simp [hwritten]

end GrantMap

namespace Visit

variable {v : Visit} {entity : Entity} {rules : EntityRules} {e : RuleEntry} {route : Route}
  {entries : List RuleEntry}

/-- A step joins on every route what the entry gives there. -/
lemma exists_addTo (v : Visit) (entity : Entity) (he : e.DefinedBy rules) (m : GrantMap) :
    ∃ next, e.addTo (v.predicate entity rules) m = .ok next ∧ ∀ route,
      next.get? route = Grant.combine (m.get? route) (v.entryGrant? rules route e) := by
  unfold RuleEntry.addTo entryGrant? definition?
  simp only [← RuleEntry.mem_routes_iff]
  rcases hsubject : e.subject with (_ | _) | name
  · exact ⟨m, rfl, fun route => by simp⟩
  · refine ⟨_, rfl, fun route => ?_⟩
    rw [GrantMap.get?_foldl_write GrantMap.get?_allow]
    by_cases h : route ∈ e.routes <;> simp [h]
  · obtain ⟨p, hp⟩ := he name hsubject
    have hlookup : v.predicate entity rules name = .ok (p.mapVariables (prefixed v.scope)) :=
      predicate_eq_ok_iff.2 ⟨p, hp, rfl⟩
    refine ⟨_, bind_eq_ok_iff.2 ⟨_, hlookup, rfl⟩, fun route => ?_⟩
    rw [GrantMap.get?_foldl_write fun m written route => GrantMap.get?_add m written route _]
    by_cases h : route ∈ e.routes <;> simp [h, hp]

/-- An entry that gives nothing, or that is for no route, leaves the map as it is. -/
lemma addTo_eq_self (he : e.DefinedBy rules)
    (hidle : e.subject = .flag false ∨ e.through = some (.relations [])) (m : GrantMap) :
    e.addTo (v.predicate entity rules) m = .ok m := by
  obtain ⟨next, hnext, hget⟩ := exists_addTo v entity he m
  have hnone : ∀ route, v.entryGrant? rules route e = none := by
    intro route
    rcases hidle with h | h
    · simp [entryGrant?, definition?, h]
    · have hfor : ¬ e.IsFor route := by
        rw [← RuleEntry.mem_routes_iff, RuleEntry.routes, h]
        exact List.not_mem_nil
      exact if_neg hfor
  have hself : next = m := by
    apply GrantMap.ext_get?
    intro route
    rw [hget, hnone, Grant.combine_none_right]
  rw [hnext, hself]

lemma addTo_eq_error {name : String} (hsubject : e.subject = .named name)
    (hnone : rules.predicates.get? name = none) (m : GrantMap) :
    e.addTo (v.predicate entity rules) m =
      .error (.undefinedPredicate v.name entity.name name) := by
  have hlookup : v.predicate entity rules name =
      .error (.undefinedPredicate v.name entity.name name) :=
    predicate_eq_error_iff.2 ⟨hnone, rfl⟩
  unfold RuleEntry.addTo
  rw [hsubject]
  exact bind_eq_error_iff.2 (.inl hlookup)

/-! ## All entries -/

/-- A run over entries combines on every route what they give there. -/
lemma exists_foldlM_addTo (v : Visit) (entity : Entity) (h : ∀ e ∈ entries, e.DefinedBy rules)
    (m : GrantMap) :
    ∃ joined, entries.foldlM (RuleEntry.addTo (v.predicate entity rules)) m = .ok joined ∧
      ∀ route, joined.get? route =
        (entries.map (v.entryGrant? rules route)).foldl Grant.combine (m.get? route) := by
  induction entries generalizing m with
  | nil => exact ⟨m, rfl, fun _ => rfl⟩
  | cons e entries ih =>
    rw [List.forall_mem_cons] at h
    obtain ⟨next, hnext, hget⟩ := exists_addTo v entity h.1 m
    obtain ⟨joined, hjoined, hroutes⟩ := ih h.2 next
    refine ⟨joined, ?_, fun route => ?_⟩
    · rw [List.foldlM_cons]
      exact bind_eq_ok_iff.2 ⟨next, hnext, hjoined⟩
    · rw [hroutes, hget, List.map_cons, List.foldl_cons]

lemma exists_ruleGrants (v : Visit) (entity : Entity) (h : ∀ e ∈ entries, e.DefinedBy rules) :
    ∃ m, v.ruleGrants entity rules (.byRoute entries) = .ok m ∧ ∀ route, route ≠ .unknown →
      m.get? route = (entries.map (v.entryGrant? rules route)).foldl Grant.combine none := by
  obtain ⟨joined, hjoined, hget⟩ := exists_foldlM_addTo v entity h ∅
  refine ⟨joined.bounded, bind_eq_ok_iff.2 ⟨joined, hjoined, rfl⟩, fun route hroute => ?_⟩
  rw [GrantMap.get?_bounded joined hroute, hget, GrantMap.get?_empty]

lemma ruleGrants_of_idle {before after : List RuleEntry} (he : e.DefinedBy rules)
    (hidle : e.subject = .flag false ∨ e.through = some (.relations [])) :
    v.ruleGrants entity rules (.byRoute (before ++ e :: after)) =
      v.ruleGrants entity rules (.byRoute (before ++ after)) := by
  have hfold : ∀ m : GrantMap, (before ++ e :: after).foldlM
      (RuleEntry.addTo (v.predicate entity rules)) m =
        (before ++ after).foldlM (RuleEntry.addTo (v.predicate entity rules)) m := by
    intro m
    rw [List.foldlM_append, List.foldlM_append]
    congr 1
    funext next
    rw [List.foldlM_cons, addTo_eq_self he hidle]
    rfl
  unfold ruleGrants Rule.grants Rule.entries
  rw [hfold]

lemma ruleGrants_eq_error {before after : List RuleEntry} {name : String}
    (hbefore : ∀ e ∈ before, e.DefinedBy rules) (hsubject : e.subject = .named name)
    (hnone : rules.predicates.get? name = none) :
    v.ruleGrants entity rules (.byRoute (before ++ e :: after)) =
      .error (.undefinedPredicate v.name entity.name name) := by
  obtain ⟨joined, hjoined, _⟩ := exists_foldlM_addTo v entity hbefore ∅
  refine bind_eq_error_iff.2 (.inl ?_)
  rw [Rule.entries, List.foldlM_append]
  refine bind_eq_error_iff.2 (.inr ⟨joined, hjoined, ?_⟩)
  rw [List.foldlM_cons]
  exact bind_eq_error_iff.2 (.inl (addTo_eq_error hsubject hnone joined))

/-! ## Entries for one route -/

lemma entryGrant?_eq_allow_iff :
    v.entryGrant? rules route e = some .allow ↔ e.subject = .flag true ∧ e.IsFor route := by
  unfold entryGrant?
  by_cases hfor : e.IsFor route <;> by_cases hsubject : e.subject = .flag true <;>
    simp [hfor, hsubject]

lemma filterMap_entryGrant? (h : ∀ e ∈ entries, ¬ (e.subject = .flag true ∧ e.IsFor route)) :
    entries.filterMap (v.entryGrant? rules route) =
      (v.definitions rules entries route).map fun p => .rows [p] := by
  induction entries with
  | nil => rfl
  | cons e entries ih =>
    rw [List.forall_mem_cons] at h
    have hrest := ih h.2
    unfold definitions at hrest ⊢
    by_cases hfor : e.IsFor route
    · have hsubject : e.subject ≠ .flag true := fun hsubject => h.1 ⟨hsubject, hfor⟩
      rw [List.filter_cons_of_pos (by simpa using hfor), List.filterMap_cons, List.filterMap_cons,
        hrest, entryGrant?, if_pos hfor, if_neg hsubject]
      cases v.definition? rules e <;> rfl
    · rw [List.filter_cons_of_neg (by simpa using hfor), List.filterMap_cons, hrest, entryGrant?,
        if_neg hfor]

lemma nodup_of_mem_entryGrants {g : Grant}
    (hg : some g ∈ entries.map (v.entryGrant? rules route)) : g.predicates.Nodup := by
  obtain ⟨e, _, hg⟩ := List.mem_map.1 hg
  unfold entryGrant? at hg
  split_ifs at hg
  · cases hg
    exact List.nodup_nil
  · obtain ⟨p, _, rfl⟩ := Option.map_eq_some_iff.1 hg
    exact List.nodup_singleton p

/-- The grants of the entries on a route combine to what those for the route give together. -/
lemma foldl_entryGrant?_eq_scopedGrant? :
    (entries.map (v.entryGrant? rules route)).foldl Grant.combine none =
      v.scopedGrant? rules entries route := by
  unfold scopedGrant?
  split_ifs with hopen
  · obtain ⟨e, he, hopen⟩ := hopen
    refine Grant.foldl_combine_eq_allow_iff.2 (.inr (List.mem_map.2 ⟨e, he, ?_⟩))
    exact entryGrant?_eq_allow_iff.2 hopen
  · have hclosed : ∀ e ∈ entries, ¬ (e.subject = .flag true ∧ e.IsFor route) :=
      fun e he h => hopen ⟨e, he, h⟩
    rw [Grant.foldl_combine_eq_together fun _ => nodup_of_mem_entryGrants, List.filterMap_map,
      Function.id_comp, filterMap_entryGrant? hclosed]
    cases v.definitions rules entries route with
    | nil => rfl
    | cons p ps =>
      have hlisted : ((p :: ps).map fun q => Grant.rows [q]).flatMap Grant.predicates =
          p :: ps := by
        rw [List.flatMap_map]
        exact List.flatMap_singleton' (p :: ps)
      rw [Grant.together, hlisted, if_neg (by simp), if_neg (by simp)]

end Visit

namespace GrantMap

variable {l r m : GrantMap}

lemma Distinct.nodup_listed (hm : m.Distinct) (route : Route) :
    (Grant.listed (m.get? route)).Nodup := by
  cases hget : m.get? route with
  | none => exact List.nodup_nil
  | some g => exact hm route g hget

/-- Exact maps are similar if their entries for the routes that are told apart are. -/
lemma Exact.similar (hl : l.Exact) (hr : r.Exact)
    (h : ∀ route, route ≠ .unknown → Option.Rel Grant.Similar (l.get? route) (r.get? route)) :
    l.Similar r := by
  have hallow : l.unknown = some .allow ↔ r.unknown = some .allow := by
    rw [hl.allow_iff, hr.allow_iff]
    exact exists_congr fun route => and_congr_right fun hroute =>
      (Grant.iff_of_rel_similar (h route hroute)).2.1
  have hunknown : Option.Rel Grant.Similar l.unknown r.unknown := by
    refine Grant.rel_similar ?_ ?_ ?_ hallow fun hne p => ?_
    · exact hl.distinct.nodup_listed .unknown
    · exact hr.distinct.nodup_listed .unknown
    · rw [hl.none_iff, hr.none_iff]
      exact forall_congr' fun route => imp_congr_right fun hroute =>
        (Grant.iff_of_rel_similar (h route hroute)).1
    · rw [hl.mem_iff hne, hr.mem_iff (hallow.not.1 hne)]
      exact exists_congr fun route => and_congr_right fun hroute =>
        (Grant.iff_of_rel_similar (h route hroute)).2.2 p
  intro route
  by_cases hroute : route = .unknown
  · rwa [hroute]
  · exact h route hroute

end GrantMap

/-! ## Lists of entries -/

namespace Visit

variable {v : Visit} {entity : Entity} {rules : EntityRules} {e : RuleEntry}
  {entries before after : List RuleEntry} {m other : GrantMap}

lemma get?_of_ruleGrants_eq_ok (h : ∀ e ∈ entries, e.DefinedBy rules)
    (hm : v.ruleGrants entity rules (.byRoute entries) = .ok m) {route : Route}
    (hroute : route ≠ .unknown) :
    m.get? route = (entries.map (v.entryGrant? rules route)).foldl Grant.combine none := by
  obtain ⟨m', hm', hget⟩ := exists_ruleGrants v entity h
  obtain rfl : m = m' := Except.ok.inj (hm.symm.trans hm')
  exact hget route hroute

lemma similar_of_perm {permuted : List RuleEntry} (h : ∀ e ∈ entries, e.DefinedBy rules)
    (hperm : permuted.Perm entries) (hm : v.ruleGrants entity rules (.byRoute entries) = .ok m)
    (hother : v.ruleGrants entity rules (.byRoute permuted) = .ok other) : m.Similar other := by
  have hl : m.Exact := Rule.exact_grants hm
  have hr : other.Exact := Rule.exact_grants hother
  refine hl.similar hr fun route hroute => ?_
  have hgm := get?_of_ruleGrants_eq_ok h hm hroute
  have hgo := get?_of_ruleGrants_eq_ok (fun e he => h e (hperm.subset he)) hother hroute
  have hdm := hl.distinct.nodup_listed route
  have hdo := hr.distinct.nodup_listed route
  rw [hgm] at hdm ⊢
  rw [hgo] at hdo ⊢
  exact Grant.rel_similar_foldl_combine (fun g => (hperm.map _).mem_iff.symm) hdm hdo

lemma definedBy_of_left_out (h : ∀ d ∈ before ++ e :: after, d.DefinedBy rules) :
    ∀ d ∈ before ++ after, d.DefinedBy rules := fun d hd =>
  h d (((List.sublist_cons_self e after).append_left before).subset hd)

lemma get?_of_not_isFor (h : ∀ d ∈ before ++ e :: after, d.DefinedBy rules)
    (hm : v.ruleGrants entity rules (.byRoute (before ++ e :: after)) = .ok m)
    (hother : v.ruleGrants entity rules (.byRoute (before ++ after)) = .ok other) {route : Route}
    (hroute : route ≠ .unknown) (hfor : ¬ e.IsFor route) : m.get? route = other.get? route := by
  have hnone : v.entryGrant? rules route e = none := if_neg hfor
  rw [get?_of_ruleGrants_eq_ok h hm hroute,
    get?_of_ruleGrants_eq_ok (definedBy_of_left_out h) hother hroute, List.map_append,
    List.map_append, List.foldl_append, List.foldl_append, List.map_cons,
    List.foldl_cons, hnone, Grant.combine_none_right]

/-- An entry that names a predicate neither opens a route nor closes it. -/
lemma allow_iff_of_named (h : ∀ d ∈ before ++ e :: after, d.DefinedBy rules)
    (hm : v.ruleGrants entity rules (.byRoute (before ++ e :: after)) = .ok m)
    (hother : v.ruleGrants entity rules (.byRoute (before ++ after)) = .ok other) {name : String}
    (hsubject : e.subject = .named name) {route : Route} (hroute : route ≠ .unknown) :
    m.get? route = some .allow ↔ other.get? route = some .allow := by
  have hclosed : v.entryGrant? rules route e ≠ some .allow := by
    rw [Ne, entryGrant?_eq_allow_iff, hsubject]
    simp
  rw [get?_of_ruleGrants_eq_ok h hm hroute,
    get?_of_ruleGrants_eq_ok (definedBy_of_left_out h) hother hroute,
    Grant.foldl_combine_eq_allow_iff, Grant.foldl_combine_eq_allow_iff, List.map_append,
    List.map_append, List.map_cons, List.mem_append, List.mem_append, List.mem_cons,
    or_iff_right hclosed.symm]

lemma exists_first_undefined (he : e ∈ entries) (hundefined : ¬ e.DefinedBy rules) :
    ∃ before first after name, entries = before ++ first :: after ∧
      (∀ e ∈ before, e.DefinedBy rules) ∧ first.subject = .named name ∧
      rules.predicates.get? name = none := by
  induction entries with
  | nil => cases he
  | cons head entries ih =>
    by_cases hhead : head.DefinedBy rules
    · have hne : e ≠ head := fun heq => hundefined (heq ▸ hhead)
      obtain ⟨before, first, after, name, rfl, hbefore, hfirst⟩ :=
        ih ((List.mem_cons.1 he).resolve_left hne)
      exact ⟨head :: before, first, after, name, rfl,
        List.forall_mem_cons.2 ⟨hhead, hbefore⟩, hfirst⟩
    · unfold RuleEntry.DefinedBy at hhead
      push Not at hhead
      obtain ⟨name, hsubject, hnone⟩ := hhead
      exact ⟨[], head, entries, name, rfl, fun _ he => (nomatch he), hsubject,
        Option.eq_none_iff_forall_ne_some.2 hnone⟩

/-- Compilation that makes a single visit files the grants of its rules as they are, those of the
primary key apart. -/
lemma map?_of_compile {s : Schema} {roles : List String} {scope : Option String} {t : GrantTable}
    {key : String} {item : Item} {rule : Rule} (hvisits : (s.acl.walk roles scope).visits = [v])
    (ht : s.compile roles scope = .ok t) (hentity : s.model.entity? key = some entity)
    (hrules : v.role.entities.get? key = some rules) (hrule : rules.rule? item = some rule)
    (hitem : ∀ action, item ≠ .field action entity.primary)
    (hm : v.ruleGrants entity rules rule = .ok m) : t.map? key item = some m := by
  obtain ⟨_, merged, hmerged, rfl⟩ := Schema.compile_eq_ok_iff.1 ht
  rw [hvisits, List.foldlM_cons] at hmerged
  obtain ⟨next, hnext, hmerged⟩ := bind_eq_ok_iff.1 hmerged
  cases hmerged
  obtain ⟨g, hg, rfl⟩ := Schema.mergeVisit_eq_ok_iff.1 hnext
  have hdeclared : v.declared? entity key item = some (.ok m) := by
    simp [declared?, hrules, hrule, hm]
  rw [GrantTable.map?_unifyPrimaries, GrantTable.merge_empty_left]
  · rcases map?_of_grants_eq_ok hg key item with ⟨entity', m', hentity', hm', hmap⟩ | ⟨hnone, _⟩
    · obtain rfl : entity = entity' := Option.some.inj (hentity.symm.trans hentity')
      obtain rfl : m = m' := Except.ok.inj (Option.some.inj (hdeclared.symm.trans hm'))
      exact hmap
    · cases hdeclared.symm.trans (hnone entity)
  · intro primary action hprimary
    rw [Model.primary?, hentity] at hprimary
    cases hprimary
    exact hitem action

/-- The grants of a rule by route whose names are all defined are those of the entries for each
route, and they are what compilation files for the rule. Another order of the entries gives similar
grants. Leaving out an entry changes nothing on routes that it is not for, opens or closes no route
if it names a predicate, and changes nothing at all if it gives nothing or is for no route. If a
name is not defined, the rule fails with the first such name, wherever it stands. -/
theorem ruleGrants_byRoute (v : Visit) (entity : Entity) (rules : EntityRules)
    (entries : List RuleEntry) :
    ((∀ e ∈ entries, e.DefinedBy rules) →
      ∃ m, v.ruleGrants entity rules (.byRoute entries) = .ok m ∧
        (∀ route, route ≠ .unknown → m.get? route = v.scopedGrant? rules entries route) ∧
        (∀ (s : Schema) roles scope t key item, (s.acl.walk roles scope).visits = [v] →
          s.compile roles scope = .ok t → s.model.entity? key = some entity →
          v.role.entities.get? key = some rules → rules.rule? item = some (.byRoute entries) →
          (∀ action, item ≠ .field action entity.primary) → t.map? key item = some m) ∧
        (∀ permuted : List RuleEntry, permuted.Perm entries →
          ∃ other, v.ruleGrants entity rules (.byRoute permuted) = .ok other ∧ m.Similar other) ∧
        ∀ before e after, entries = before ++ e :: after →
          ∃ other, v.ruleGrants entity rules (.byRoute (before ++ after)) = .ok other ∧
            (∀ route, route ≠ .unknown → ¬ e.IsFor route → m.get? route = other.get? route) ∧
            (∀ name, e.subject = .named name → ∀ route, route ≠ .unknown →
              (m.get? route = some .allow ↔ other.get? route = some .allow)) ∧
            (e.subject = .flag false ∨ e.through = some (.relations []) → m = other)) ∧
    ∀ e ∈ entries, ¬ e.DefinedBy rules →
      ∃ before first after name, entries = before ++ first :: after ∧
        (∀ e ∈ before, e.DefinedBy rules) ∧ first.subject = .named name ∧
        rules.predicates.get? name = none ∧
        v.ruleGrants entity rules (.byRoute entries) =
          .error (.undefinedPredicate v.name entity.name name) := by
  constructor
  · intro h
    obtain ⟨m, hm, hget⟩ := exists_ruleGrants v entity h
    refine ⟨m, hm, fun route hroute => ?_, fun s roles scope t key item hvisits ht hentity hrules
      hrule hitem => ?_, fun permuted hperm => ?_, ?_⟩
    · rw [hget route hroute, foldl_entryGrant?_eq_scopedGrant?]
    · exact map?_of_compile hvisits ht hentity hrules hrule hitem hm
    · obtain ⟨other, hother, _⟩ :=
        exists_ruleGrants v entity fun e he => h e (hperm.subset he)
      exact ⟨other, hother, similar_of_perm h hperm hm hother⟩
    · rintro before e after rfl
      obtain ⟨other, hother, _⟩ :=
        exists_ruleGrants v entity (definedBy_of_left_out h)
      refine ⟨other, hother, fun route => get?_of_not_isFor h hm hother,
        fun name hname route => allow_iff_of_named h hm hother hname, fun hidle => ?_⟩
      have he : e.DefinedBy rules := h e (by simp)
      rw [ruleGrants_of_idle he hidle, hother] at hm
      exact (Except.ok.inj hm).symm
  · intro e he hundefined
    obtain ⟨before, first, after, name, rfl, hbefore, hsubject, hnone⟩ :=
      exists_first_undefined he hundefined
    exact ⟨before, first, after, name, rfl, hbefore, hsubject, hnone,
      ruleGrants_eq_error hbefore hsubject hnone⟩

/-- Names are read through posts if they are out or the reader's own, through drafts if they are the
reader's own, and through other relations without a condition. -/
def nameEntries : List RuleEntry :=
  [⟨.named "own", some (.relations ["posts", "drafts"])⟩, ⟨.flag true, some (.anyRelation true)⟩,
    ⟨.named "out", some (.relations ["posts"])⟩, ⟨.named "out", some (.anyRelation true)⟩,
    ⟨.named "own", some (.relations ["posts"])⟩, ⟨.flag false, none⟩]

def authorRules : EntityRules :=
  let rules := (EntityRules.define {} "out" (.column "draft" (.isNull true))).define "own"
    (.columnVariable "owner" "me")
  rules.declareField (.fields .read) "name" (.byRoute nameEntries)

def authors : Schema where
  model := Model.insert {} (((Entity.new "Author").column "name").column "owner")
  acl := RoleSchema.declare {} "reader" (Role.declareEntity {} "Author" authorRules)

def authorReader : Visit := ⟨[], "reader", Role.declareEntity {} "Author" authorRules, "reader"⟩

lemma visits_authors : (authors.acl.walk ["reader"] none).visits = [authorReader] := by
  rw [RoleSchema.walk, RoleSchema.walkUntil, Walk.forEach, RoleSchema.walkRole]
  rfl

/-- Readers have for each route what the entries for it say. One more entry, behind all others and
with a name that is not defined, makes the rule fail. -/
theorem author_names_by_route :
    ∃ t m, authors.compile ["reader"] none = .ok t ∧
      t.map? "Author" (.field .read "name") = some m ∧ m.get? .root = none ∧
      m.get? .anyRelation = some .allow ∧ m.get? (.relation "tags") = none ∧
      m.get? (.relation "drafts") = some (.rows [.columnVariable "owner" "reader__me"]) ∧
      m.get? (.relation "posts") = some
        (.rows [.columnVariable "owner" "reader__me", .column "draft" (.isNull true)]) ∧
      ∃ fault, authorReader.ruleGrants (.new "Author") authorRules
        (.byRoute (nameEntries ++ [⟨.named "public", none⟩])) = .error fault := by
  have hdefined : ∀ e ∈ nameEntries, e.DefinedBy authorRules := by
    have hsubjects : ∀ e ∈ nameEntries, e.subject = .named "own" ∨ e.subject = .named "out" ∨
        ∃ granted, e.subject = .flag granted := by decide
    intro e he name hname
    rcases hsubjects e he with h | h | ⟨granted, h⟩ <;> cases h.symm.trans hname
    · exact ⟨.columnVariable "owner" "me", rfl⟩
    · exact ⟨.column "draft" (.isNull true), rfl⟩
  have hundefined : ¬ RuleEntry.DefinedBy ⟨.named "public", none⟩ authorRules := by
    intro h
    obtain ⟨p, hp⟩ := h "public" rfl
    cases hp
  have hitem : ∀ action, Item.field .read "name" ≠ .field action "id" := by
    intro action
    cases action <;> decide
  have hok : (authors.compile ["reader"] none).isOk = true := by decide +kernel
  obtain ⟨t, ht⟩ := exists_of_isOk hok
  obtain ⟨m, -, hget, hcompiled, -⟩ := (ruleGrants_byRoute authorReader
    (((Entity.new "Author").column "name").column "owner") authorRules nameEntries).1 hdefined
  obtain ⟨_, _, _, _, _, _, _, _, hfault⟩ := (ruleGrants_byRoute authorReader (.new "Author")
    authorRules (nameEntries ++ [⟨.named "public", none⟩])).2 _ (by simp) hundefined
  refine ⟨t, m, ht, hcompiled authors _ _ t "Author" _ visits_authors ht rfl rfl rfl
    hitem, ?_, ?_, ?_, ?_, ?_, _, hfault⟩
  · rw [hget .root (by decide)]
    decide
  · rw [hget .anyRelation (by decide)]
    decide
  · rw [hget (.relation "tags") (by decide)]
    decide
  · rw [hget (.relation "drafts") (by decide)]
    decide
  · rw [hget (.relation "posts") (by decide)]
    decide

end Visit

end RoleAccess
