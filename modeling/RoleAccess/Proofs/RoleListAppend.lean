import RoleAccess.Proofs.PrimaryLookups
import RoleAccess.Proofs.RoleWalk

/-!
# Role lists one after the other

Compiling two role lists one after the other gives the merge of what each of them compiles to. The
primary keys are written once for the whole list, or for each part before the merge: either way
they have the same entries, with the same predicates, which may come in another order.
-/

namespace RoleAccess

namespace GrantTable

variable {l r t : GrantTable} {entity : String} {item : Item} {model : Model}

lemma isSome_stored?_merge (hl : l.Normalized) (hr : r.Normalized) (entity : String) (item : Item)
    (route : Route) :
    ((l.merge r).stored? entity item route).isSome =
      ((l.stored? entity item route).isSome || (r.stored? entity item route).isSome) := by
  unfold stored?
  rw [map?_merge]
  cases hlm : l.map? entity item with
  | none => rw [Option.merge_none_left, Option.bind_none, Option.isSome_none, Bool.false_or]
  | some ml =>
    cases hrm : r.map? entity item with
    | none => rw [Option.merge_none_right, Option.bind_none, Option.isSome_none, Bool.or_false]
    | some mr =>
      exact GrantMap.isSome_get?_merge (hl entity item ml hlm) (hr entity item mr hrm) route

lemma nodup_listed_grant? (ht : t.Every GrantMap.Distinct) (entity : String) (item : Item)
    (route : Route) : (Grant.listed (t.grant? entity item route)).Nodup := by
  cases hgrant : t.grant? entity item route with
  | none => exact List.nodup_nil
  | some g =>
    obtain ⟨m, hm, hmatching⟩ := Option.bind_eq_some_iff.1 hgrant
    exact (ht entity item m hm).matching hmatching

/-- Tables that file an item alike and answer for it with similar grants have similar maps. -/
lemma rel_similar_map? (hfiled : (l.map? entity item).isSome = (r.map? entity item).isSome)
    (hentries : ∀ route,
      (l.stored? entity item route).isSome = (r.stored? entity item route).isSome)
    (hanswers : ∀ route,
      Option.Rel Grant.Similar (l.grant? entity item route) (r.grant? entity item route)) :
    Option.Rel GrantMap.Similar (l.map? entity item) (r.map? entity item) := by
  unfold stored? at hentries
  unfold grant? at hanswers
  cases hl : l.map? entity item with
  | none =>
    cases hr : r.map? entity item with
    | none => exact .none
    | some mr => simp [hl, hr] at hfiled
  | some ml =>
    cases hr : r.map? entity item with
    | none => simp [hl, hr] at hfiled
    | some mr =>
      rw [hl, hr] at hentries hanswers
      exact .some (GrantMap.similar_of_matching hentries hanswers)

/-! ## Primary keys of a merge -/

/-- Primary keys aside, writing these before or after a merge makes no difference. -/
lemma map?_unifyPrimaries_merge (l r : GrantTable)
    (hitem : ∀ primary action, model.primary? entity = some primary →
      item ≠ .field action primary) :
    ((l.merge r).unifyPrimaries model).map? entity item =
      ((l.unifyPrimaries model).merge (r.unifyPrimaries model)).map? entity item := by
  rw [map?_unifyPrimaries hitem, map?_merge, map?_merge, map?_unifyPrimaries hitem,
    map?_unifyPrimaries hitem]

lemma Normalized.unifyPrimaries (ht : t.Normalized) (model : Model) :
    (t.unifyPrimaries model).Normalized :=
  Every.unifyPrimaries GrantMap.normalized_empty (fun l r _ _ => GrantMap.normalized_merge l r) ht
    model

lemma distinct_unifyPrimaries (ht : t.Every GrantMap.Distinct) (model : Model) :
    (t.unifyPrimaries model).Every GrantMap.Distinct :=
  ht.unifyPrimaries GrantMap.distinct_empty (fun _ _ => GrantMap.Distinct.merge) model

section Primaries

variable {primary : String} {action : FieldAction} (hl : l.Normalized) (hr : r.Normalized)
  (hprimary : model.primary? entity = some primary)
include hl hr hprimary

lemma grant?_primary_merge_eq_allow_iff (route : Route) :
    ((l.merge r).unifyPrimaries model).grant? entity (.field action primary) route = some .allow ↔
      ((l.unifyPrimaries model).merge (r.unifyPrimaries model)).grant? entity
        (.field action primary) route = some .allow := by
  rw [grant?_merge (hl.unifyPrimaries model) (hr.unifyPrimaries model), Grant.combine_eq_allow_iff,
    grant?_primary_eq_allow_iff (hl.merge hr) hprimary, grant?_primary_eq_allow_iff hl hprimary,
    grant?_primary_eq_allow_iff hr hprimary]
  simp only [grant?_merge hl hr, Grant.combine_eq_allow_iff, and_or_left, exists_or]

lemma grant?_primary_merge_eq_none_iff (route : Route) :
    ((l.merge r).unifyPrimaries model).grant? entity (.field action primary) route = none ↔
      ((l.unifyPrimaries model).merge (r.unifyPrimaries model)).grant? entity
        (.field action primary) route = none := by
  rw [grant?_merge (hl.unifyPrimaries model) (hr.unifyPrimaries model), Grant.combine,
    Option.merge_eq_none_iff, grant?_primary_eq_none_iff (hl.merge hr) hprimary,
    grant?_primary_eq_none_iff hl hprimary, grant?_primary_eq_none_iff hr hprimary]
  simp only [grant?_merge hl hr, Grant.combine, Option.merge_eq_none_iff, imp_and, forall_and]

/-- Either way a conditional grant of the primary key lists what any other field of either table
lists. -/
lemma mem_listed_primary_merge_iff {route : Route} (p : Predicate)
    (hne : ((l.merge r).unifyPrimaries model).grant? entity (.field action primary) route ≠
      some .allow) :
    p ∈ Grant.listed
        (((l.merge r).unifyPrimaries model).grant? entity (.field action primary) route) ↔
      p ∈ Grant.listed (((l.unifyPrimaries model).merge (r.unifyPrimaries model)).grant? entity
        (.field action primary) route) := by
  have hparts := (grant?_primary_merge_eq_allow_iff hl hr hprimary route).not.1 hne
  rw [grant?_merge (hl.unifyPrimaries model) (hr.unifyPrimaries model)] at hparts ⊢
  have hleft : (l.unifyPrimaries model).grant? entity (.field action primary) route ≠
      some .allow := fun h => hparts (Grant.combine_eq_allow_iff.2 (.inl h))
  have hright : (r.unifyPrimaries model).grant? entity (.field action primary) route ≠
      some .allow := fun h => hparts (Grant.combine_eq_allow_iff.2 (.inr h))
  have hfield : ∀ field, field ≠ primary →
      (p ∈ Grant.listed ((l.merge r).grant? entity (.field action field) route) ↔
        p ∈ Grant.listed (l.grant? entity (.field action field) route) ∨
          p ∈ Grant.listed (r.grant? entity (.field action field) route)) := by
    intro field hfield
    rw [Ne, grant?_primary_eq_allow_iff (hl.merge hr) hprimary] at hne
    rw [grant?_merge hl hr]
    refine Grant.mem_listed_combine fun h => hne ⟨field, hfield, ?_⟩
    rw [grant?_merge hl hr, h]
  rw [Grant.mem_listed_combine hparts, mem_listed_primary_iff (hl.merge hr) hprimary hne,
    mem_listed_primary_iff hl hprimary hleft, mem_listed_primary_iff hr hprimary hright,
    ← exists_or]
  refine exists_congr fun field => ?_
  rw [← and_or_left]
  exact and_congr_right (hfield field)

/-- Either way the primary key is granted alike on every route, up to the order of predicates. -/
lemma rel_similar_grant?_primary (hdl : l.Every GrantMap.Distinct) (hdr : r.Every GrantMap.Distinct)
    (route : Route) :
    Option.Rel Grant.Similar
      (((l.merge r).unifyPrimaries model).grant? entity (.field action primary) route)
      (((l.unifyPrimaries model).merge (r.unifyPrimaries model)).grant? entity
        (.field action primary) route) := by
  have hbefore : ((l.merge r).unifyPrimaries model).Every GrantMap.Distinct :=
    distinct_unifyPrimaries (hdl.merge (fun _ _ => GrantMap.Distinct.merge) hdr) model
  have hafter : ((l.unifyPrimaries model).merge (r.unifyPrimaries model)).Every GrantMap.Distinct :=
    (distinct_unifyPrimaries hdl model).merge (fun _ _ => GrantMap.Distinct.merge)
      (distinct_unifyPrimaries hdr model)
  apply Grant.rel_similar
  · exact nodup_listed_grant? hbefore entity (.field action primary) route
  · exact nodup_listed_grant? hafter entity (.field action primary) route
  · exact grant?_primary_merge_eq_none_iff hl hr hprimary route
  · exact grant?_primary_merge_eq_allow_iff hl hr hprimary route
  · exact fun hne p => mem_listed_primary_merge_iff hl hr hprimary p hne

lemma rel_similar_map?_primary (hdl : l.Every GrantMap.Distinct) (hdr : r.Every GrantMap.Distinct) :
    Option.Rel GrantMap.Similar
      (((l.merge r).unifyPrimaries model).map? entity (.field action primary))
      (((l.unifyPrimaries model).merge (r.unifyPrimaries model)).map? entity
        (.field action primary)) := by
  apply rel_similar_map?
  · rw [Bool.eq_iff_iff, isSome_map?_primary_iff hprimary, map?_merge, Option.isSome_merge,
      Bool.or_eq_true, isSome_map?_primary_iff hprimary, isSome_map?_primary_iff hprimary]
    simp only [map?_merge, Option.isSome_merge, Bool.or_eq_true, exists_or]
  · intro route
    rw [Bool.eq_iff_iff, isSome_stored?_primary_iff (hl.merge hr) hprimary,
      isSome_stored?_merge (hl.unifyPrimaries model) (hr.unifyPrimaries model), Bool.or_eq_true,
      isSome_stored?_primary_iff hl hprimary, isSome_stored?_primary_iff hr hprimary]
    simp only [isSome_stored?_merge hl hr, Bool.or_eq_true, and_or_left, exists_or]
  · exact rel_similar_grant?_primary hl hr hprimary hdl hdr

end Primaries

lemma isSome_entity?_unifyPrimaries (t : GrantTable) (model : Model) (entity : String) :
    ((t.unifyPrimaries model).entity? entity).isSome = (t.entity? entity).isSome := by
  unfold entity? unifyPrimaries
  rw [NameMap.get?_mapValues, Option.isSome_map]

/-- Writing the primary keys commutes with merging, up to the order of predicates in a list. -/
theorem similar_unifyPrimaries_merge (hl : l.Normalized) (hr : r.Normalized)
    (hdl : l.Every GrantMap.Distinct) (hdr : r.Every GrantMap.Distinct) (model : Model) :
    ((l.merge r).unifyPrimaries model).Similar
      ((l.unifyPrimaries model).merge (r.unifyPrimaries model)) where
  entity name := by
    rw [isSome_entity?_unifyPrimaries, entity?_merge, entity?_merge, Option.isSome_merge,
      Option.isSome_merge, isSome_entity?_unifyPrimaries, isSome_entity?_unifyPrimaries]
  customPrimary name := by
    rw [customPrimary_unifyPrimaries, customPrimary_merge, customPrimary_merge,
      customPrimary_unifyPrimaries, customPrimary_unifyPrimaries]
  map name item := by
    rcases primary_or_not model name item with ⟨primary, action, hprimary, rfl⟩ | hown
    · exact rel_similar_map?_primary hl hr hprimary hdl hdr
    · rw [map?_unifyPrimaries_merge l r hown]
      cases ((l.unifyPrimaries model).merge (r.unifyPrimaries model)).map? name item with
      | none => exact .none
      | some m => exact .some (GrantMap.Similar.refl m)

end GrantTable

namespace RoleSchema

variable {s : RoleSchema} {scope : Option String}

lemma fault_walk_append_eq_none_iff {roles more : List String} :
    (s.walk (roles ++ more) scope).fault = none ↔
      (s.walk roles scope).fault = none ∧ (s.walk more scope).fault = none := by
  unfold walk walkUntil
  rw [Walk.fault_forEach_eq_none_iff, Walk.fault_forEach_eq_none_iff,
    Walk.fault_forEach_eq_none_iff, List.forall_mem_append]

lemma visits_walk_append {roles more : List String}
    (h : (s.walk (roles ++ more) scope).fault = none) :
    (s.walk (roles ++ more) scope).visits =
      (s.walk roles scope).visits ++ (s.walk more scope).visits := by
  obtain ⟨hroles, hmore⟩ := fault_walk_append_eq_none_iff.1 h
  unfold walk walkUntil at h hroles hmore ⊢
  rw [Walk.visits_forEach h, Walk.visits_forEach hroles, Walk.visits_forEach hmore,
    List.flatMap_append]

end RoleSchema

namespace Schema

variable {s : Schema} {visits : List Visit} {t merged : GrantTable} {scope : Option String}

/-- Some of the roles merge to a table where all of them do. -/
lemma MergesTo.exists_part {few roles : List String} (hsub : few ⊆ roles)
    (h : s.MergesTo roles scope merged) : ∃ part, s.MergesTo few scope part := by
  obtain ⟨hfew, hvisits⟩ := RoleSchema.walk_of_subset hsub h.1
  have hgrants := exists_foldlM_eq_ok_iff.1 ⟨merged, h.2⟩
  obtain ⟨part, hpart⟩ := (exists_foldlM_eq_ok_iff (t := .empty)).2
    fun v hv => hgrants v (hvisits hv)
  exact ⟨part, hfew, hpart⟩

/-- The visits of two role lists one after the other merge to the merge of what those of each do. -/
theorem mergesTo_append_iff {roles more : List String} :
    s.MergesTo (roles ++ more) scope merged ↔
      ∃ a b, s.MergesTo roles scope a ∧ s.MergesTo more scope b ∧ a.merge b = merged := by
  unfold MergesTo
  constructor
  · rintro ⟨hfault, h⟩
    obtain ⟨hroles, hmore⟩ := RoleSchema.fault_walk_append_eq_none_iff.1 hfault
    rw [RoleSchema.visits_walk_append hfault, List.foldlM_append] at h
    obtain ⟨a, ha, h⟩ := bind_eq_ok_iff.1 h
    obtain ⟨b, hb, hab⟩ := (foldlM_mergeVisit_from (normalized_of_foldlM_eq_ok ha)).1 h
    exact ⟨a, b, ⟨hroles, ha⟩, ⟨hmore, hb⟩, hab⟩
  · rintro ⟨a, b, ⟨hroles, ha⟩, ⟨hmore, hb⟩, hab⟩
    have hfault := RoleSchema.fault_walk_append_eq_none_iff.2 ⟨hroles, hmore⟩
    refine ⟨hfault, ?_⟩
    rw [RoleSchema.visits_walk_append hfault, List.foldlM_append]
    exact bind_eq_ok_iff.2
      ⟨a, ha, (foldlM_mergeVisit_from (normalized_of_foldlM_eq_ok ha)).2 ⟨b, hb, hab⟩⟩

/-- Two role lists one after the other compile exactly if each of them does, and then to what the
merge of the two compiled tables is: the same entities, items, routes and choices of primary keys,
equal maps for deletion and for all fields that are no primary key, and for primary keys maps that
are equal up to the order of the predicates in a list. -/
theorem compile_append_similar_merge (s : Schema) (roles more : List String)
    (scope : Option String) :
    ((∃ w, s.compile (roles ++ more) scope = .ok w) ↔
      (∃ t, s.compile roles scope = .ok t) ∧ ∃ u, s.compile more scope = .ok u) ∧
    ∀ t u w, s.compile roles scope = .ok t → s.compile more scope = .ok u →
      s.compile (roles ++ more) scope = .ok w →
        w.Similar (t.merge u) ∧
        ∀ entity item, (∀ primary action, s.model.primary? entity = some primary →
            item ≠ .field action primary) →
          w.map? entity item = (t.merge u).map? entity item := by
  simp only [compile_eq_ok_iff_mergesTo, mergesTo_append_iff]
  constructor
  · constructor
    · rintro ⟨_, _, ⟨a, b, ha, hb, _⟩, _⟩
      exact ⟨⟨_, a, ha, rfl⟩, ⟨_, b, hb, rfl⟩⟩
    · rintro ⟨⟨_, a, ha, _⟩, ⟨_, b, hb, _⟩⟩
      exact ⟨_, _, ⟨a, b, ha, hb, rfl⟩, rfl⟩
  · rintro _ _ _ ⟨a, ha, rfl⟩ ⟨b, hb, rfl⟩ ⟨_, ⟨a', b', ha', hb', rfl⟩, rfl⟩
    -- what visits merge to is determined by them
    obtain rfl : a' = a := Except.ok.inj (ha'.2.symm.trans ha.2)
    obtain rfl : b' = b := Except.ok.inj (hb'.2.symm.trans hb.2)
    constructor
    · exact GrantTable.similar_unifyPrimaries_merge (normalized_of_foldlM_eq_ok ha.2)
        (normalized_of_foldlM_eq_ok hb.2) (distinct_of_foldlM_eq_ok ha.2)
        (distinct_of_foldlM_eq_ok hb.2) s.model
    · intro entity item hitem
      exact GrantTable.map?_unifyPrimaries_merge a' b' hitem

/-- Writers read who wrote a listed post and the titles of their own posts, reviewers the bodies of
submitted posts. -/
def review : Schema where
  model := Model.insert {} ((((Entity.new "Post").column "author").column "body").column "title")
  acl :=
    let writer := ((EntityRules.define {} "listed" (.column "listed" .always)).define "own"
      (.columnVariable "author" "me")).declareField (.fields .read) "author"
        (.direct (.named "listed"))
    let submitted := EntityRules.define {} "submitted" (.column "draft" (.isNull true))
    let reviewer := submitted.declareField (.fields .read) "body" (.direct (.named "submitted"))
    (RoleSchema.declare {} "writer" (Role.declareEntity {} "Post"
      (writer.declareField (.fields .read) "title" (.direct (.named "own"))))).declare "reviewer"
        (Role.declareEntity {} "Post" reviewer)

/-- The key of a post lists the same predicates either way, by field or by role. -/
theorem writers_then_reviewers :
    ∃ t u w, review.compile ["writer"] none = .ok t ∧ review.compile ["reviewer"] none = .ok u ∧
      review.compile (["writer"] ++ ["reviewer"]) none = .ok w ∧ w.Similar (t.merge u) ∧
      w.map? "Post" (.field .read "title") = (t.merge u).map? "Post" (.field .read "title") ∧
      w.grant? "Post" (.field .read "id") .root = some (.rows [.column "listed" .always,
        .column "draft" (.isNull true), .columnVariable "author" "writer__me"]) ∧
      (t.merge u).grant? "Post" (.field .read "id") .root = some (.rows [.column "listed" .always,
        .columnVariable "author" "writer__me", .column "draft" (.isNull true)]) := by
  have after : (review.compile (["writer"] ++ ["reviewer"]) none).toOption.map
      (·.grant? "Post" (.field .read "id") .root) = some (some (.rows [.column "listed" .always,
        .column "draft" (.isNull true), .columnVariable "author" "writer__me"])) := by
    decide +kernel
  have before : (review.compile ["writer"] none).toOption.bind (fun t =>
      (review.compile ["reviewer"] none).toOption.bind fun u =>
        (t.merge u).grant? "Post" (.field .read "id") .root) =
          some (.rows [.column "listed" .always, .columnVariable "author" "writer__me",
            .column "draft" (.isNull true)]) := by
    decide +kernel
  obtain ⟨t, ht, hreviewer⟩ := exists_of_toOption_bind before
  obtain ⟨u, hu, hmerged⟩ := exists_of_toOption_bind hreviewer
  obtain ⟨w, hw, hcompiled⟩ := exists_of_toOption_map after
  obtain ⟨_, hmerge⟩ := compile_append_similar_merge review ["writer"] ["reviewer"] none
  obtain ⟨hsimilar, hkept⟩ := hmerge t u w ht hu hw
  refine ⟨t, u, w, ht, hu, hw, hsimilar, ?_, hcompiled, hmerged⟩
  apply hkept
  rintro primary action hprimary heq
  cases heq
  exact absurd hprimary (by decide)

end Schema

end RoleAccess
