import RoleAccess.Proofs.RoleListAppend

/-!
# Role lists as sets

An active role list counts as a set. In which order roles are named shows in the order of the
predicates in a list only, since the grants come from the same visits; and to name a role again
changes nothing at all, since a table that is merged in again adds nothing.
-/

namespace RoleAccess

/-! ## Steps that are taken again -/

section Repeated

variable {ε α β : Type} [BEq α] [LawfulBEq α] {step : β → α → Except ε β} {Done : α → β → Prop}

/-- Once an item is done, its further steps can be left out. -/
lemma foldlM_filter_of_done (hkeep : ∀ b a other next, Done a b → step b other = .ok next → Done a next)
    (hskip : ∀ b a, Done a b → step b a = .ok b) {a : α} (items : List α) {b : β} (h : Done a b) :
    (items.filter fun other => !other == a).foldlM step b = items.foldlM step b := by
  induction items generalizing b with
  | nil => rfl
  | cons other items ih =>
    by_cases heq : other = a
    · subst heq
      rw [List.filter_cons_of_neg (by simp), List.foldlM_cons, hskip b other h]
      exact ih h
    · rw [List.filter_cons_of_pos (by simpa using heq), List.foldlM_cons, List.foldlM_cons]
      cases hnext : step b other with
      | error e => rfl
      | ok next => exact ih (hkeep b a other next h hnext)

/-- Where a step makes an item done, its later repetitions can be left out. -/
lemma foldlM_eraseDups (Valid : β → Prop) (Done : α → β → Prop)
    (hdone : ∀ b a next, Valid b → step b a = .ok next → Valid next ∧ Done a next)
    (hkeep : ∀ b a other next, Done a b → step b other = .ok next → Done a next)
    (hskip : ∀ b a, Done a b → step b a = .ok b) (items : List α) {b : β} (hb : Valid b) :
    items.eraseDups.foldlM step b = items.foldlM step b := by
  -- the items after the first are filtered, so the induction is on the length
  induction hlength : items.length using Nat.strongRecOn generalizing items b with
  | ind n ih =>
    cases items with
    | nil => rfl
    | cons a items =>
      rw [List.eraseDups_cons, List.foldlM_cons, List.foldlM_cons]
      cases hnext : step b a with
      | error e => rfl
      | ok next =>
        obtain ⟨hvalid, ha⟩ := hdone b a next hb hnext
        have hshorter : (items.filter fun other => !other == a).length < n := by
          have hle := List.length_filter_le (fun other => !other == a) items
          rw [List.length_cons] at hlength
          omega
        have hrest := ih _ hshorter (items.filter fun other => !other == a) hvalid rfl
        exact hrest.trans (foldlM_filter_of_done hkeep hskip items ha)

end Repeated

/-! ## The grants of one active role -/

lemma Walk.foldM_append {β : Type} {f : β → Visit → Except Fault β} {w rest : Walk} {b : β}
    (h : w.fault = none) : (w.append rest).foldM f b = (do rest.foldM f (← w.foldM f b)) := by
  unfold foldM
  rw [visits_append, List.foldlM_append, h]
  cases w.visits.foldlM f b with
  | error e => rfl
  | ok b' => rfl

lemma Walk.foldM_of_fault {β : Type} {f : β → Visit → Except Fault β} {w : Walk} {b : β}
    {fault : Fault} (h : w.fault = some fault) : ∃ e, w.foldM f b = .error e := by
  unfold foldM
  rw [h]
  cases w.visits.foldlM f b with
  | error e => exact ⟨e, rfl⟩
  | ok b' => exact ⟨fault, rfl⟩

namespace Schema

variable {s : Schema} {scope : Option String} {t own : GrantTable} {name : String}

/-- The grants of an active role with all that it inherits. -/
def treeGrants (s : Schema) (scope : Option String) (name : String) : Except Fault GrantTable :=
  (s.acl.walkFrom scope [] name).foldM s.mergeVisit .empty

/-- Merges the grants of an active role and of what it inherits into a table. -/
def mergeTree (s : Schema) (scope : Option String) (t : GrantTable) (name : String) :
    Except Fault GrantTable := do
  return t.merge (← s.treeGrants scope name)

lemma normalized_of_treeGrants_eq_ok (h : s.treeGrants scope name = .ok own) : own.Normalized :=
  normalized_of_foldlM_eq_ok (Walk.foldM_eq_ok_iff.1 h).2

/-- Merging visits into a table fails as it does from the start, and else merges what they give. -/
lemma foldlM_mergeVisit_eq_bind (visits : List Visit) (ht : t.Normalized) :
    visits.foldlM s.mergeVisit t = (do return t.merge (← visits.foldlM s.mergeVisit .empty)) := by
  induction visits generalizing t with
  | nil => exact congrArg Except.ok (GrantTable.merge_empty_right t).symm
  | cons v visits ih =>
    rw [List.foldlM_cons, List.foldlM_cons, mergeVisit, mergeVisit]
    cases hv : v.grants s.model with
    | error e => rfl
    | ok g =>
      have hg : g.Normalized := Visit.normalized_of_grants_eq_ok hv
      change visits.foldlM s.mergeVisit (t.merge g) =
        (do return t.merge (← visits.foldlM s.mergeVisit (GrantTable.empty.merge g)))
      rw [GrantTable.merge_empty_left, ih (ht.merge hg), ih hg]
      cases hown : visits.foldlM s.mergeVisit .empty with
      | error e => rfl
      | ok own =>
        have hassoc := GrantTable.merge_assoc ht hg (normalized_of_foldlM_eq_ok hown)
        exact congrArg Except.ok hassoc

lemma foldM_walkFrom_eq_mergeTree (ht : t.Normalized) :
    (s.acl.walkFrom scope [] name).foldM s.mergeVisit t =
      s.mergeTree scope t name := by
  rw [mergeTree, treeGrants, Walk.foldM, Walk.foldM, foldlM_mergeVisit_eq_bind _ ht]
  cases (s.acl.walkFrom scope [] name).visits.foldlM s.mergeVisit .empty with
  | error e => rfl
  | ok own => cases (s.acl.walkFrom scope [] name).fault <;> rfl

lemma foldM_walk_eq_foldlM_mergeTree (roles : List String) (ht : t.Normalized) :
    (s.acl.walk roles scope).foldM s.mergeVisit t = roles.foldlM (s.mergeTree scope) t := by
  unfold RoleSchema.walk RoleSchema.walkUntil
  induction roles generalizing t with
  | nil => rfl
  | cons name roles ih =>
    rw [List.foldlM_cons, ← foldM_walkFrom_eq_mergeTree ht]
    cases hfault : (s.acl.walkFrom scope [] name).fault with
    | some fault =>
      obtain ⟨e, he⟩ := Walk.foldM_of_fault (f := s.mergeVisit) (b := t) hfault
      rw [Walk.forEach_cons_of_fault hfault, he]
      rfl
    | none =>
      rw [Walk.forEach_cons_of_done hfault, Walk.foldM_append hfault]
      cases htree : (s.acl.walkFrom scope [] name).foldM s.mergeVisit t with
      | error e => rfl
      | ok next =>
        rw [foldM_walkFrom_eq_mergeTree ht] at htree
        obtain ⟨own, hown, h⟩ := bind_eq_ok_iff.1 htree
        cases h
        exact ih (ht.merge (normalized_of_treeGrants_eq_ok hown))

/-- Compiling is merging the grants of one active role after the other. -/
theorem compile_eq_foldlM_mergeTree (s : Schema) (roles : List String) (scope : Option String) :
    s.compile roles scope =
      (do return (← roles.foldlM (s.mergeTree scope) .empty).unifyPrimaries s.model) := by
  rw [compile_eq_walk, foldM_walk_eq_foldlM_mergeTree roles GrantTable.normalized_empty]

/-- What an active role gives is in the table: merging it in changes nothing. -/
def Holds (s : Schema) (scope : Option String) (name : String) (t : GrantTable) : Prop :=
  t.Normalized ∧ ∃ own, s.treeGrants scope name = .ok own ∧ t.merge own = t

lemma mergeTree_eq_ok_iff {next : GrantTable} :
    s.mergeTree scope t name = .ok next ↔
      ∃ own, s.treeGrants scope name = .ok own ∧ t.merge own = next := by
  rw [mergeTree, bind_eq_ok_iff]
  constructor
  · rintro ⟨own, hown, h⟩
    exact ⟨own, hown, Except.ok.inj h⟩
  · rintro ⟨own, hown, rfl⟩
    exact ⟨own, hown, rfl⟩

lemma holds_of_mergeTree_eq_ok {next : GrantTable} (ht : t.Normalized)
    (h : s.mergeTree scope t name = .ok next) : next.Normalized ∧ s.Holds scope name next := by
  obtain ⟨own, hown, rfl⟩ := mergeTree_eq_ok_iff.1 h
  have hn : own.Normalized := normalized_of_treeGrants_eq_ok hown
  have htwice : (t.merge own).merge own = t.merge own := by
    rw [GrantTable.merge_assoc ht hn hn, GrantTable.merge_self hn]
  exact ⟨ht.merge hn, ht.merge hn, own, hown, htwice⟩

/-- Further roles leave what is in the table there. -/
lemma Holds.mergeTree {other : String} {next : GrantTable} (h : s.Holds scope name t)
    (hnext : s.mergeTree scope t other = .ok next) : s.Holds scope name next := by
  obtain ⟨ht, own, hown, hself⟩ := h
  obtain ⟨more, hmore, rfl⟩ := mergeTree_eq_ok_iff.1 hnext
  have hn : own.Normalized := normalized_of_treeGrants_eq_ok hown
  have hm : more.Normalized := normalized_of_treeGrants_eq_ok hmore
  refine ⟨ht.merge hm, own, hown, ?_⟩
  calc (t.merge more).merge own = ((t.merge own).merge more).merge own := by rw [hself]
    _ = t.merge ((own.merge more).merge own) := by
      rw [GrantTable.merge_assoc ht hn hm, GrantTable.merge_assoc ht (hn.merge hm) hn]
    _ = t.merge (own.merge more) := by rw [GrantTable.merge_merge_left hn hm]
    _ = t.merge more := by rw [← GrantTable.merge_assoc ht hn hm, hself]

lemma Holds.mergeTree_eq (h : s.Holds scope name t) : s.mergeTree scope t name = .ok t := by
  obtain ⟨_, own, hown, hself⟩ := h
  exact mergeTree_eq_ok_iff.2 ⟨own, hown, hself⟩

/-- To name an active role again changes nothing. -/
theorem compile_eraseDups (s : Schema) (roles : List String) (scope : Option String) :
    s.compile roles.eraseDups scope = s.compile roles scope := by
  have hfold : roles.eraseDups.foldlM (s.mergeTree scope) .empty =
      roles.foldlM (s.mergeTree scope) .empty :=
    foldlM_eraseDups GrantTable.Normalized (s.Holds scope)
      (fun _ _ _ => holds_of_mergeTree_eq_ok) (fun _ _ _ _ => Holds.mergeTree)
      (fun _ _ => Holds.mergeTree_eq) roles GrantTable.normalized_empty
  rw [compile_eq_foldlM_mergeTree, compile_eq_foldlM_mergeTree, hfold]

end Schema

/-! ## Tables from the same visits -/

lemma isSome_eq_of_rel {α β : Type} {R : α → β → Prop} {a : Option α} {b : Option β}
    (h : Option.Rel R a b) : a.isSome = b.isSome := by
  cases h <;> rfl

namespace Grant

/-- Similar grants open all rows together, and list the same predicates. -/
lemma iff_of_rel_similar {a b : Option Grant} (h : Option.Rel Similar a b) :
    (a = none ↔ b = none) ∧ (a = some allow ↔ b = some allow) ∧
      ∀ p, p ∈ listed a ↔ p ∈ listed b := by
  cases h with
  | none => exact ⟨Iff.rfl, Iff.rfl, fun _ => Iff.rfl⟩
  | @some g g' h =>
    cases g with
    | allow =>
      cases g' with
      | allow => exact ⟨Iff.rfl, Iff.rfl, fun _ => Iff.rfl⟩
      | rows r => exact h.elim
    | rows l =>
      cases g' with
      | allow => exact h.elim
      | rows r =>
        have hperm : l.Perm r := h
        exact ⟨by simp, by simp, fun _ => hperm.mem_iff⟩

/-- The same grants, in any order and number, combine to similar grants. -/
lemma rel_similar_foldl_combine {grants others : List (Option Grant)}
    (hsame : ∀ g, g ∈ grants ↔ g ∈ others) (hg : (listed (grants.foldl combine none)).Nodup)
    (ho : (listed (others.foldl combine none)).Nodup) :
    Option.Rel Similar (grants.foldl combine none) (others.foldl combine none) := by
  have hallow : grants.foldl combine none = some allow ↔ others.foldl combine none = some allow := by
    rw [foldl_combine_eq_allow_iff, foldl_combine_eq_allow_iff, hsame]
  apply rel_similar hg ho
  · rw [foldl_combine_eq_none_iff, foldl_combine_eq_none_iff]
    exact and_congr_right fun _ => forall_congr' fun g => imp_congr_left (hsame g)
  · exact hallow
  · intro hne p
    rw [mem_listed_foldl_combine hne, mem_listed_foldl_combine (hallow.not.1 hne)]
    exact or_congr_right (exists_congr fun g => and_congr_left fun _ => hsame g)

lemma rel_similar_or {a b c d : Option Grant} (hab : Option.Rel Similar a b)
    (hcd : Option.Rel Similar c d) : Option.Rel Similar (a.or c) (b.or d) := by
  cases hab with
  | none => exact hcd
  | some h => exact .some h

end Grant

lemma GrantMap.Similar.matching {l r : GrantMap} (h : l.Similar r) (route : Route) :
    Option.Rel Grant.Similar (l.matching route) (r.matching route) := by
  have hfallback : Option.Rel Grant.Similar l.fallback r.fallback :=
    Grant.rel_similar_or (h .anyRelation) (h .root)
  cases route with
  | root => exact h .root
  | unknown => exact h .unknown
  | anyRelation => exact hfallback
  | relation name => exact Grant.rel_similar_or (h (.relation name)) hfallback

namespace GrantTable

variable {l r : GrantTable} {entity : String} {item : Item}

lemma Similar.grant? (h : l.Similar r) (entity : String) (item : Item) (route : Route) :
    Option.Rel Grant.Similar (l.grant? entity item route) (r.grant? entity item route) := by
  have hmap := h.map entity item
  unfold GrantTable.grant?
  generalize l.map? entity item = ml at hmap
  generalize r.map? entity item = mr at hmap
  cases hmap with
  | none => exact .none
  | some hmap => exact hmap.matching route

lemma Similar.isSome_stored? (h : l.Similar r) (entity : String) (item : Item) (route : Route) :
    (l.stored? entity item route).isSome = (r.stored? entity item route).isSome := by
  have hmap := h.map entity item
  unfold stored?
  generalize l.map? entity item = ml at hmap
  generalize r.map? entity item = mr at hmap
  cases hmap with
  | none => rfl
  | some hmap => exact isSome_eq_of_rel (hmap route)

section Primaries

variable {model : Model} {primary : String} {action : FieldAction} (hl : l.Normalized)
  (hr : r.Normalized) (h : l.Similar r) (hprimary : model.primary? entity = some primary)
include hl hr h hprimary

lemma Similar.grant?_primary (hdl : l.Every GrantMap.Distinct) (hdr : r.Every GrantMap.Distinct)
    (route : Route) :
    Option.Rel Grant.Similar
      ((l.unifyPrimaries model).grant? entity (.field action primary) route)
      ((r.unifyPrimaries model).grant? entity (.field action primary) route) := by
  have hfield : ∀ field,
      (l.grant? entity (.field action field) route = none ↔
          r.grant? entity (.field action field) route = none) ∧
        (l.grant? entity (.field action field) route = some .allow ↔
          r.grant? entity (.field action field) route = some .allow) ∧
        ∀ p, p ∈ Grant.listed (l.grant? entity (.field action field) route) ↔
          p ∈ Grant.listed (r.grant? entity (.field action field) route) :=
    fun field => Grant.iff_of_rel_similar (h.grant? entity (.field action field) route)
  have hallow : (l.unifyPrimaries model).grant? entity (.field action primary) route =
        some .allow ↔
      (r.unifyPrimaries model).grant? entity (.field action primary) route = some .allow := by
    rw [grant?_primary_eq_allow_iff hl hprimary, grant?_primary_eq_allow_iff hr hprimary]
    exact exists_congr fun field => and_congr_right fun _ => (hfield field).2.1
  apply Grant.rel_similar
  · exact nodup_listed_grant? (distinct_unifyPrimaries hdl model) entity _ route
  · exact nodup_listed_grant? (distinct_unifyPrimaries hdr model) entity _ route
  · rw [grant?_primary_eq_none_iff hl hprimary, grant?_primary_eq_none_iff hr hprimary]
    exact forall₂_congr fun field _ => (hfield field).1
  · exact hallow
  · intro hne p
    rw [mem_listed_primary_iff hl hprimary hne,
      mem_listed_primary_iff hr hprimary (hallow.not.1 hne)]
    exact exists_congr fun field => and_congr_right fun _ => (hfield field).2.2 p

lemma Similar.map?_primary (hdl : l.Every GrantMap.Distinct) (hdr : r.Every GrantMap.Distinct) :
    Option.Rel GrantMap.Similar ((l.unifyPrimaries model).map? entity (.field action primary))
      ((r.unifyPrimaries model).map? entity (.field action primary)) := by
  apply rel_similar_map?
  · rw [Bool.eq_iff_iff, isSome_map?_primary_iff hprimary, isSome_map?_primary_iff hprimary]
    exact exists_congr fun field => by rw [isSome_eq_of_rel (h.map entity (.field action field))]
  · intro route
    rw [Bool.eq_iff_iff, isSome_stored?_primary_iff hl hprimary,
      isSome_stored?_primary_iff hr hprimary]
    simp only [h.isSome_stored?]
  · exact h.grant?_primary hl hr hprimary hdl hdr

end Primaries

/-- Writing the primary keys of similar tables gives similar tables. -/
theorem Similar.unifyPrimaries (hl : l.Normalized) (hr : r.Normalized)
    (hdl : l.Every GrantMap.Distinct) (hdr : r.Every GrantMap.Distinct) (h : l.Similar r)
    (model : Model) : (l.unifyPrimaries model).Similar (r.unifyPrimaries model) where
  entity name := by
    rw [isSome_entity?_unifyPrimaries, isSome_entity?_unifyPrimaries, h.entity]
  customPrimary name := by
    rw [customPrimary_unifyPrimaries, customPrimary_unifyPrimaries, h.customPrimary]
  map name item := by
    rcases primary_or_not model name item with ⟨primary, action, hprimary, rfl⟩ | hown
    · exact h.map?_primary hl hr hprimary hdl hdr
    · rw [map?_unifyPrimaries hown, map?_unifyPrimaries hown]
      exact h.map name item

section Tables

lemma Every.foldl_merge {P : GrantMap → Prop} {tables : List GrantTable}
    (hempty : empty.Every P) (hmerge : ∀ l r, P l → P r → P (l.merge r))
    (h : ∀ t ∈ tables, t.Every P) :
    (tables.foldl GrantTable.merge empty).Every P :=
  List.foldlRecOn tables _ hempty fun _ hmerged t ht => hmerged.merge hmerge (h t ht)

variable {tables others : List GrantTable} (ht : ∀ t ∈ tables, t.Normalized)
include ht

/-- What a merge has where one of its two sides has it, tables merged one after the other have where
one of them has it. -/
lemma any_foldl_merge {f : GrantTable → Bool}
    (hf : ∀ l r, l.Normalized → r.Normalized → f (l.merge r) = (f l || f r)) {start : GrantTable}
    (hstart : start.Normalized) : f (tables.foldl merge start) = (f start || tables.any f) := by
  induction tables generalizing start with
  | nil => exact (Bool.or_false _).symm
  | cons t tables ih =>
    rw [List.forall_mem_cons] at ht
    rw [List.foldl_cons, ih ht.2 (hstart.merge ht.1), hf start t hstart ht.1, List.any_cons,
      Bool.or_assoc]

/-- The same tables, in any order and number, merge to similar tables. -/
theorem similar_foldl_merge (hd : ∀ t ∈ tables, t.Every GrantMap.Distinct)
    (hsame : ∀ t, t ∈ tables ↔ t ∈ others) :
    (tables.foldl merge empty).Similar (others.foldl merge empty) := by
  have ho : ∀ t ∈ others, t.Normalized := fun t h => ht t ((hsame t).2 h)
  have hany : ∀ f : GrantTable → Bool,
      (∀ l r, l.Normalized → r.Normalized → f (l.merge r) = (f l || f r)) →
        f (tables.foldl merge empty) = f (others.foldl merge empty) := by
    intro f hf
    have hf' : tables.any f = others.any f := by
      rw [Bool.eq_iff_iff, List.any_eq_true, List.any_eq_true]
      exact exists_congr fun t => and_congr_left fun _ => hsame t
    rw [any_foldl_merge ht hf normalized_empty, any_foldl_merge ho hf normalized_empty, hf']
  have hdistinct : ∀ tables : List GrantTable, (∀ t ∈ tables, t.Every GrantMap.Distinct) →
      (tables.foldl merge empty).Every GrantMap.Distinct := fun _ h =>
    Every.foldl_merge (every_empty _) (fun _ _ => GrantMap.Distinct.merge) h
  have hgrant : ∀ entity item route,
      Option.Rel Grant.Similar ((tables.foldl merge empty).grant? entity item route)
        ((others.foldl merge empty).grant? entity item route) := by
    intro entity item route
    have hleft := nodup_listed_grant? (hdistinct tables hd) entity item route
    have hright := nodup_listed_grant?
      (hdistinct others fun t h => hd t ((hsame t).2 h)) entity item route
    rw [grant?_foldl_merge normalized_empty ht] at hleft ⊢
    rw [grant?_foldl_merge normalized_empty ho] at hright ⊢
    refine Grant.rel_similar_foldl_combine (fun g => ?_) hleft hright
    rw [List.mem_map, List.mem_map]
    exact exists_congr fun t => and_congr_left fun _ => hsame t
  constructor
  · intro name
    refine hany (fun t => (t.entity? name).isSome) fun l r _ _ => ?_
    rw [entity?_merge, Option.isSome_merge]
  · intro name
    exact hany (·.customPrimary name) fun l r _ _ => customPrimary_merge l r name
  · intro name item
    apply rel_similar_map?
    · refine hany (fun t => (t.map? name item).isSome) fun l r _ _ => ?_
      rw [map?_merge, Option.isSome_merge]
    · intro route
      exact hany (fun t => (t.stored? name item route).isSome) fun l r hl hr =>
        isSome_stored?_merge hl hr name item route
    · exact hgrant name item

end Tables

end GrantTable

namespace Schema

variable {s : Schema} {roles more : List String} {scope : Option String} {l r : GrantTable}

lemma MergesTo.similar (hsame : ∀ name, name ∈ roles ↔ name ∈ more)
    (hl : s.MergesTo roles scope l) (hr : s.MergesTo more scope r) : l.Similar r := by
  obtain ⟨tables, htables, rfl⟩ := foldlM_mergeVisit_eq_ok_iff.1 hl.2
  obtain ⟨others, hothers, rfl⟩ := foldlM_mergeVisit_eq_ok_iff.1 hr.2
  have hvisits : ∀ v, v ∈ (s.acl.walk roles scope).visits ↔ v ∈ (s.acl.walk more scope).visits := by
    intro v
    have hsub : roles ⊆ more := fun name => (hsame name).1
    have hsup : more ⊆ roles := fun name => (hsame name).2
    exact ⟨fun hv => (RoleSchema.walk_of_subset hsub hr.1).2 hv,
      fun hv => (RoleSchema.walk_of_subset hsup hl.1).2 hv⟩
  apply GrantTable.similar_foldl_merge (normalized_of_visits htables)
  · intro t ht
    obtain ⟨v, _, hv⟩ := (mem_tables_iff htables).1 ht
    exact Visit.every_of_grants_eq_ok GrantMap.distinct_empty (fun _ _ _ => Rule.distinct_grants) hv
  · intro t
    rw [mem_tables_iff htables, mem_tables_iff hothers]
    exact exists_congr fun v => and_congr_left fun _ => hvisits v

/-- Active roles count as a set. Role lists with the same names compile together, to tables that
agree up to the order of the predicates in a list, and a role list compiles as it does without the
later repetitions of its roles. -/
theorem compile_of_same_roles (s : Schema) (scope : Option String)
    (hsame : ∀ name, name ∈ roles ↔ name ∈ more) :
    ((∃ t, s.compile roles scope = .ok t) ↔ ∃ u, s.compile more scope = .ok u) ∧
    (∀ t u, s.compile roles scope = .ok t → s.compile more scope = .ok u → t.Similar u) ∧
    s.compile roles.eraseDups scope = s.compile roles scope := by
  simp only [compile_eq_ok_iff_mergesTo]
  refine ⟨⟨?_, ?_⟩, ?_, compile_eraseDups s roles scope⟩
  · rintro ⟨_, l, hl, _⟩
    obtain ⟨r, hr⟩ := hl.exists_part fun name => (hsame name).2
    exact ⟨_, r, hr, rfl⟩
  · rintro ⟨_, r, hr, _⟩
    obtain ⟨l, hl⟩ := hr.exists_part fun name => (hsame name).1
    exact ⟨_, l, hl, rfl⟩
  · rintro _ _ ⟨l, hl, rfl⟩ ⟨r, hr, rfl⟩
    exact (hl.similar hsame hr).unifyPrimaries (normalized_of_foldlM_eq_ok hl.2)
      (normalized_of_foldlM_eq_ok hr.2) (distinct_of_foldlM_eq_ok hl.2)
      (distinct_of_foldlM_eq_ok hr.2) s.model

/-- Writers and reviewers are readers. All three see titles, each under a predicate of their own. -/
def desk : Schema where
  model := Model.insert {} ((Entity.new "Post").column "title")
  acl :=
    let titles (name : String) (p : Predicate) : Role := Role.declareEntity {} "Post"
      ((EntityRules.define {} name p).declareField (.fields .read) "title" (.direct (.named name)))
    let reader := titles "listed" (.column "listed" .always)
    let writer := (titles "own" (.columnVariable "author" "me")).inherit ["reader"]
    let reviewer := (titles "submitted" (.column "draft" (.isNull true))).inherit ["reader"]
    ((RoleSchema.declare {} "reader" reader).declare "writer" writer).declare "reviewer" reviewer

/-- The predicates for a title come in the order of the roles. A name that no role has and a role
that comes again change nothing. -/
theorem reviewers_before_writers :
    (∀ name, name ∈ ["writer", "guest", "reviewer"] ↔
      name ∈ ["reviewer", "writer", "reviewer", "guest"]) ∧
    ∃ t u, desk.compile ["writer", "guest", "reviewer"] none = .ok t ∧
      desk.compile ["reviewer", "writer", "reviewer", "guest"] none = .ok u ∧ t.Similar u ∧
      t.grant? "Post" (.field .read "title") .root = some (.rows [.columnVariable "author"
        "writer__me", .column "listed" .always, .column "draft" (.isNull true)]) ∧
      u.grant? "Post" (.field .read "title") .root = some (.rows [.column "draft" (.isNull true),
        .column "listed" .always, .columnVariable "author" "writer__me"]) := by
  have hsame : ∀ name, name ∈ ["writer", "guest", "reviewer"] ↔
      name ∈ ["reviewer", "writer", "reviewer", "guest"] := by
    intro name
    simp only [List.mem_cons, List.not_mem_nil, or_false]
    tauto
  have before : (desk.compile ["writer", "guest", "reviewer"] none).toOption.map
      (·.grant? "Post" (.field .read "title") .root) = some (some (.rows [.columnVariable "author"
        "writer__me", .column "listed" .always, .column "draft" (.isNull true)])) := by
    decide +kernel
  have after : (desk.compile ["reviewer", "writer", "reviewer", "guest"] none).toOption.map
      (·.grant? "Post" (.field .read "title") .root) = some (some (.rows [.column "draft"
        (.isNull true), .column "listed" .always, .columnVariable "author" "writer__me"])) := by
    decide +kernel
  obtain ⟨_, hsimilar, _⟩ := compile_of_same_roles desk none hsame
  obtain ⟨t, ht, htitle⟩ := exists_of_toOption_map before
  obtain ⟨u, hu, htitle'⟩ := exists_of_toOption_map after
  exact ⟨hsame, t, u, ht, hu, hsimilar t u ht hu, htitle, htitle'⟩

end Schema

end RoleAccess
