import Mathlib.Data.List.Induction
import RoleAccess.Proofs.DistinctPredicates

/-!
# Laws of merging

Merging is associative, lists in order included: for grants outright, and for maps and tables whose
entries for unknown routes are bounds already. So tables merged one after the other are the merge of
the part before any point with the part after it. What is merged in a second time changes nothing,
whatever came between. Two tables are similar if they agree up to the order of the predicates in a
list.
-/

namespace RoleAccess

/-! ## Grants -/

lemma appendMissing_concat (l r : List Predicate) (p : Predicate) :
    appendMissing l (r ++ [p]) =
      if p ∈ appendMissing l r then appendMissing l r else appendMissing l r ++ [p] := by
  unfold appendMissing
  rw [List.foldl_append, List.foldl_cons, List.foldl_nil]

lemma appendMissing_assoc (a b c : List Predicate) :
    appendMissing (appendMissing a b) c = appendMissing a (appendMissing b c) := by
  -- what is missing is appended at the end, so the last predicate is taken off
  induction c using List.reverseRecOn with
  | nil => rfl
  | append_singleton c p ih =>
    rw [appendMissing_concat, appendMissing_concat, ih]
    by_cases hp : p ∈ appendMissing b c
    · have hall : p ∈ appendMissing a (appendMissing b c) := mem_appendMissing.2 (.inr hp)
      rw [if_pos hp, if_pos hall]
    · rw [if_neg hp, appendMissing_concat]

namespace Grant

lemma join_assoc (a b c : Grant) : (a.join b).join c = a.join (b.join c) := by
  cases a with
  | allow => rfl
  | rows l =>
    cases b with
    | allow => rfl
    | rows m =>
      cases c with
      | allow => rfl
      | rows r => exact congrArg rows (appendMissing_assoc l m r)

instance : Std.Associative join := ⟨join_assoc⟩

lemma combine_assoc (a b c : Option Grant) :
    combine (combine a b) c = combine a (combine b c) :=
  (Option.associative_merge join).assoc a b c

lemma join_join_left (a b : Grant) : (a.join b).join a = a.join b := by
  cases a with
  | allow => rfl
  | rows l =>
    cases b with
    | allow => rfl
    | rows r =>
      have hmem : ∀ p ∈ l, p ∈ appendMissing l r := fun p hp => mem_appendMissing.2 (.inl hp)
      exact congrArg rows (appendMissing_eq_self hmem)

lemma combine_combine_left (a b : Option Grant) : combine (combine a b) a = combine a b := by
  rcases a with _ | a
  · exact combine_none_right _
  · rcases b with _ | b
    · have hself : appendMissing a.predicates a.predicates = a.predicates :=
        appendMissing_eq_self fun _ hp => hp
      cases a with
      | allow => rfl
      | rows l => exact congrArg (some ∘ rows) hself
    · exact congrArg some (join_join_left a b)

lemma combine_self (a : Option Grant) : combine a a = a := by
  simpa using combine_combine_left a none

lemma isSome_combine (a b : Option Grant) : (combine a b).isSome = (a.isSome || b.isSome) :=
  Option.isSome_merge

lemma combine_eq_ite (a b : Option Grant) :
    combine a b = if a.isSome || b.isSome then combine a b else none := by
  cases a <;> cases b <;> rfl

lemma foldl_combine_eq_none_iff {grants : List (Option Grant)} {start : Option Grant} :
    grants.foldl combine start = none ↔ start = none ∧ ∀ g ∈ grants, g = none := by
  induction grants generalizing start with
  | nil => simp
  | cons g grants ih =>
    rw [List.foldl_cons, ih, combine, Option.merge_eq_none_iff, List.forall_mem_cons, and_assoc]

lemma foldl_combine_eq_allow_iff {grants : List (Option Grant)} {start : Option Grant} :
    grants.foldl combine start = some allow ↔ start = some allow ∨ some allow ∈ grants := by
  induction grants generalizing start with
  | nil => simp
  | cons g grants ih =>
    rw [List.foldl_cons, ih, combine_eq_allow_iff, List.mem_cons, or_assoc, eq_comm (a := g)]

/-- Where no grant opens all rows, a combination lists the predicates of all its grants. -/
lemma mem_listed_foldl_combine {grants : List (Option Grant)} {start : Option Grant} {p : Predicate}
    (h : grants.foldl combine start ≠ some allow) :
    p ∈ listed (grants.foldl combine start) ↔ p ∈ listed start ∨ ∃ g ∈ grants, p ∈ listed g := by
  induction grants generalizing start with
  | nil => simp
  | cons g grants ih =>
    rw [List.foldl_cons] at h ⊢
    have hhead : combine start g ≠ some allow := fun heq =>
      h (foldl_combine_eq_allow_iff.2 (.inl heq))
    rw [ih h, mem_listed_combine hhead, List.exists_mem_cons_iff, or_assoc]

end Grant

/-! ## Grant maps -/

lemma NameMap.mem_names_iff {α : Type} {m : NameMap α} {n : String} :
    n ∈ m.names ↔ (m.get? n).isSome = true := by
  constructor
  · intro h
    obtain ⟨⟨_, v⟩, hentry, rfl⟩ := List.mem_map.1 h
    rw [mem_entries.1 hentry]
    rfl
  · intro h
    obtain ⟨v, hv⟩ := Option.isSome_iff_exists.1 h
    exact mem_names_of_lookup hv

namespace GrantMap

variable {l m r : GrantMap} {route : Route}

/-- Entries determine a map. -/
lemma ext_get? (h : ∀ route, l.get? route = r.get? route) : l = r := by
  obtain ⟨lroot, lany, lunknown, lrelations⟩ := l
  obtain ⟨rroot, rany, runknown, rrelations⟩ := r
  have hroot : lroot = rroot := h .root
  have hany : lany = rany := h .anyRelation
  have hunknown : lunknown = runknown := h .unknown
  have hrelations : lrelations = rrelations := NameMap.ext_get? fun name => h (.relation name)
  rw [hroot, hany, hunknown, hrelations]

/-- The joined maps have an entry for the routes for which one of them has one, and it combines what
they answer there. -/
lemma get?_joinEntries (l r : GrantMap) (route : Route) :
    (joinEntries l r).get? route =
      if (l.get? route).isSome || (r.get? route).isSome then
        Grant.combine (l.matching route) (r.matching route)
      else none := by
  cases route with
  | root => exact Grant.combine_eq_ite l.root r.root
  | unknown => exact Grant.combine_eq_ite l.unknown r.unknown
  | anyRelation => rfl
  | relation name =>
    have hget : (joinEntries l r).get? (.relation name) =
        if name ∈ l.relations.names ++ r.relations.names then
          Grant.combine (l.matching (.relation name)) (r.matching (.relation name))
        else none := NameMap.get?_tabulate ..
    rw [hget]
    simp only [List.mem_append, NameMap.mem_names_iff, Bool.or_eq_true]
    rfl

lemma isSome_matching_of_get? (h : (m.get? route).isSome = true) :
    (m.matching route).isSome = true := by
  obtain ⟨g, hg⟩ := Option.isSome_iff_exists.1 h
  rw [matching_of_get? hg]
  rfl

lemma isSome_get?_joinEntries (l r : GrantMap) (route : Route) :
    ((joinEntries l r).get? route).isSome = ((l.get? route).isSome || (r.get? route).isSome) := by
  rw [get?_joinEntries]
  by_cases h : ((l.get? route).isSome || (r.get? route).isSome) = true
  · rw [if_pos h, h, Grant.isSome_combine, Bool.or_eq_true]
    exact (Bool.or_eq_true_iff.1 h).imp isSome_matching_of_get? isSome_matching_of_get?
  · rw [if_neg h, Bool.eq_false_iff.2 h]
    rfl

lemma joinEntries_assoc (l m r : GrantMap) :
    joinEntries (joinEntries l m) r = joinEntries l (joinEntries m r) := by
  apply ext_get?
  intro route
  rw [get?_joinEntries (joinEntries l m) r, get?_joinEntries l (joinEntries m r),
    isSome_get?_joinEntries, isSome_get?_joinEntries, matching_joinEntries, matching_joinEntries,
    Grant.combine_assoc, Bool.or_assoc]

lemma merge_eq_joinEntries (hl : l.Normalized) (hr : r.Normalized) :
    l.merge r = joinEntries l r :=
  bounded_eq_self (normalized_joinEntries hl hr)

lemma merge_assoc (hl : l.Normalized) (hm : m.Normalized) (hr : r.Normalized) :
    (l.merge m).merge r = l.merge (m.merge r) := by
  rw [merge_eq_joinEntries (normalized_merge l m) hr, merge_eq_joinEntries hl hm,
    merge_eq_joinEntries hl (normalized_merge m r), merge_eq_joinEntries hm hr, joinEntries_assoc]

/-- What is on the left already adds nothing on the right. -/
lemma merge_merge_left (hl : l.Normalized) (hr : r.Normalized) : (l.merge r).merge l = l.merge r := by
  rw [merge_eq_joinEntries (normalized_merge l r) hl, merge_eq_joinEntries hl hr]
  apply ext_get?
  intro route
  rw [get?_joinEntries (joinEntries l r) l, isSome_get?_joinEntries, matching_joinEntries,
    Grant.combine_combine_left, get?_joinEntries l r]
  cases (l.get? route).isSome <;> simp

lemma merge_self (hm : m.Normalized) : m.merge m = m := by
  rw [merge_eq_joinEntries hm hm]
  apply ext_get?
  intro route
  rw [get?_joinEntries, Bool.or_self, Grant.combine_self]
  cases hget : m.get? route with
  | none => rfl
  | some g => rw [matching_of_get? hget, Option.isSome_some, if_pos rfl]

lemma isSome_get?_merge (hl : l.Normalized) (hr : r.Normalized) (route : Route) :
    ((l.merge r).get? route).isSome = ((l.get? route).isSome || (r.get? route).isSome) := by
  rw [merge_eq_joinEntries hl hr, isSome_get?_joinEntries]

lemma isSome_get?_foldl_merge {maps : List GrantMap} {start : GrantMap}
    (hstart : start.Normalized) (h : ∀ m ∈ maps, m.Normalized) (route : Route) :
    ((maps.foldl GrantMap.merge start).get? route).isSome = true ↔
      (start.get? route).isSome = true ∨ ∃ m ∈ maps, (m.get? route).isSome = true := by
  induction maps generalizing start with
  | nil => simp
  | cons m maps ih =>
    rw [List.forall_mem_cons] at h
    rw [List.foldl_cons, ih (normalized_merge start m) h.2, isSome_get?_merge hstart h.1,
      Bool.or_eq_true, List.exists_mem_cons_iff, or_assoc]

end GrantMap

/-! ## Tables -/

lemma NameMap.mergeWith_assoc {α : Type} {f : α → α → α} {l m r : NameMap α}
    (h : ∀ n x y z, l.get? n = some x → m.get? n = some y → r.get? n = some z →
      f (f x y) z = f x (f y z)) :
    (l.mergeWith f m).mergeWith f r = l.mergeWith f (m.mergeWith f r) := by
  apply ext_get?
  intro n
  simp only [get?_mergeWith]
  cases hl : l.get? n with
  | none => simp
  | some x =>
    cases hm : m.get? n with
    | none => simp
    | some y =>
      cases hr : r.get? n with
      | none => simp
      | some z => simp [h n x y z hl hm hr]

lemma NameMap.mergeWith_mergeWith_left {α : Type} {f : α → α → α} {l r : NameMap α}
    (hself : ∀ n x, l.get? n = some x → f x x = x)
    (h : ∀ n x y, l.get? n = some x → r.get? n = some y → f (f x y) x = f x y) :
    (l.mergeWith f r).mergeWith f l = l.mergeWith f r := by
  apply ext_get?
  intro n
  simp only [get?_mergeWith]
  cases hl : l.get? n with
  | none => simp
  | some x =>
    cases hr : r.get? n with
    | none => simp [hself n x hl]
    | some y => simp [h n x y hl hr]

lemma EntityGrants.merge_assoc {l m r : EntityGrants}
    (hl : ∀ item a, l.map? item = some a → a.Normalized)
    (hm : ∀ item a, m.map? item = some a → a.Normalized)
    (hr : ∀ item a, r.map? item = some a → a.Normalized) :
    (l.merge m).merge r = l.merge (m.merge r) := by
  unfold merge
  simp only [EntityGrants.mk.injEq]
  refine ⟨?_, ?_, Bool.or_assoc ..⟩
  · apply PerAction.ext_get
    intro action
    simp only [PerAction.get_zipWith]
    apply NameMap.mergeWith_assoc
    intro name x y z hx hy hz
    exact GrantMap.merge_assoc (hl (.field action name) x hx) (hm (.field action name) y hy)
      (hr (.field action name) z hz)
  · exact GrantMap.merge_assoc (hl .delete _ rfl) (hm .delete _ rfl) (hr .delete _ rfl)

lemma EntityGrants.merge_merge_left {l r : EntityGrants}
    (hl : ∀ item a, l.map? item = some a → a.Normalized)
    (hr : ∀ item a, r.map? item = some a → a.Normalized) : (l.merge r).merge l = l.merge r := by
  unfold merge
  simp only [EntityGrants.mk.injEq]
  refine ⟨?_, ?_, ?_⟩
  · apply PerAction.ext_get
    intro action
    simp only [PerAction.get_zipWith]
    apply NameMap.mergeWith_mergeWith_left
    · intro name x hx
      exact GrantMap.merge_self (hl (.field action name) x hx)
    · intro name x y hx hy
      exact GrantMap.merge_merge_left (hl (.field action name) x hx) (hr (.field action name) y hy)
  · exact GrantMap.merge_merge_left (hl .delete _ rfl) (hr .delete _ rfl)
  · cases l.customPrimary <;> simp

lemma EntityGrants.merge_self {g : EntityGrants}
    (hg : ∀ item a, g.map? item = some a → a.Normalized) : g.merge g = g := by
  obtain ⟨fields, delete, custom⟩ := g
  simp only [merge, EntityGrants.mk.injEq, Bool.or_self, and_true]
  constructor
  · apply PerAction.ext_get
    intro action
    rw [PerAction.get_zipWith]
    apply NameMap.ext_get?
    intro name
    rw [NameMap.get?_mergeWith]
    cases hname : (fields.get action).get? name with
    | none => rfl
    | some x => exact congrArg some (GrantMap.merge_self (hg (.field action name) x hname))
  · exact GrantMap.merge_self (hg .delete _ rfl)

namespace GrantTable

variable {l m r t start : GrantTable} {tables : List GrantTable}

lemma Normalized.entity (ht : t.Normalized) {name : String} {g : EntityGrants}
    (hg : t.entity? name = some g) (item : Item) (a : GrantMap) (ha : g.map? item = some a) :
    a.Normalized := by
  apply ht name item
  rw [map?, hg]
  exact ha

/-- Merging tables is associative. -/
theorem merge_assoc (hl : l.Normalized) (hm : m.Normalized) (hr : r.Normalized) :
    (l.merge m).merge r = l.merge (m.merge r) := by
  unfold merge
  simp only [GrantTable.mk.injEq]
  apply NameMap.mergeWith_assoc
  intro name x y z hx hy hz
  exact EntityGrants.merge_assoc (hl.entity hx) (hm.entity hy) (hr.entity hz)

/-- A table that is merged in again after others adds nothing. -/
theorem merge_merge_left (hl : l.Normalized) (hr : r.Normalized) :
    (l.merge r).merge l = l.merge r := by
  unfold merge
  simp only [GrantTable.mk.injEq]
  apply NameMap.mergeWith_mergeWith_left
  · intro name x hx
    exact EntityGrants.merge_self (hl.entity hx)
  · intro name x y hx hy
    exact EntityGrants.merge_merge_left (hl.entity hx) (hr.entity hy)

lemma merge_empty_left (t : GrantTable) : empty.merge t = t := by
  have hentities : (NameMap.empty.mergeWith EntityGrants.merge t.entities) = t.entities := by
    apply NameMap.ext_get?
    intro name
    rw [NameMap.get?_mergeWith, NameMap.get?_empty, Option.merge_none_left]
  exact congrArg GrantTable.mk hentities

lemma merge_empty_right (t : GrantTable) : t.merge empty = t := by
  have hentities : (t.entities.mergeWith EntityGrants.merge NameMap.empty) = t.entities := by
    apply NameMap.ext_get?
    intro name
    rw [NameMap.get?_mergeWith, NameMap.get?_empty, Option.merge_none_right]
  exact congrArg GrantTable.mk hentities

lemma merge_self (ht : t.Normalized) : t.merge t = t := by
  have habsorbed := merge_merge_left ht normalized_empty
  rwa [merge_empty_right] at habsorbed

lemma Normalized.foldl_merge (hstart : start.Normalized) (h : ∀ t ∈ tables, t.Normalized) :
    (tables.foldl GrantTable.merge start).Normalized :=
  List.foldlRecOn tables _ hstart fun _ hmerged t ht => hmerged.merge (h t ht)

/-- Merging tables into a start is merging them by themselves and then the result into the start. -/
theorem foldl_merge_eq_merge (hstart : start.Normalized) (h : ∀ t ∈ tables, t.Normalized) :
    tables.foldl merge start = start.merge (tables.foldl merge empty) := by
  induction tables generalizing start with
  | nil => exact (merge_empty_right start).symm
  | cons t tables ih =>
    rw [List.forall_mem_cons] at h
    have hrest : (tables.foldl merge empty).Normalized :=
      Normalized.foldl_merge normalized_empty h.2
    rw [List.foldl_cons, List.foldl_cons, merge_empty_left, ih (hstart.merge h.1) h.2, ih h.1 h.2,
      merge_assoc hstart h.1 hrest]

/-- What tables merged one after the other have in force combines what they have. -/
lemma grant?_foldl_merge (hstart : start.Normalized) (h : ∀ t ∈ tables, t.Normalized)
    (entity : String) (item : Item) (route : Route) :
    (tables.foldl merge start).grant? entity item route =
      (tables.map (·.grant? entity item route)).foldl Grant.combine
        (start.grant? entity item route) := by
  induction tables generalizing start with
  | nil => rfl
  | cons t tables ih =>
    rw [List.forall_mem_cons] at h
    rw [List.foldl_cons, List.map_cons, List.foldl_cons, ih (hstart.merge h.1) h.2,
      grant?_merge hstart h.1]

end GrantTable

/-! ## The tables of visits -/

namespace Schema

variable {s : Schema} {visits : List Visit} {t merged : GrantTable}

/-- Merging the grants of visits is taking the tables of all of them and merging these. -/
lemma foldlM_mergeVisit_eq_ok_iff :
    visits.foldlM s.mergeVisit t = .ok merged ↔
      ∃ tables : List GrantTable, visits.map (·.grants s.model) = tables.map .ok ∧
        tables.foldl GrantTable.merge t = merged := by
  induction visits generalizing t with
  | nil =>
    constructor
    · intro h
      cases h
      exact ⟨[], rfl, rfl⟩
    · rintro ⟨tables, htables, rfl⟩
      obtain rfl : tables = [] := List.map_eq_nil_iff.1 htables.symm
      rfl
  | cons v visits ih =>
    rw [List.foldlM_cons, bind_eq_ok_iff]
    constructor
    · rintro ⟨next, hnext, h⟩
      obtain ⟨g, hg, rfl⟩ := mergeVisit_eq_ok_iff.1 hnext
      obtain ⟨tables, htables, rfl⟩ := ih.1 h
      refine ⟨g :: tables, ?_, rfl⟩
      rw [List.map_cons, List.map_cons, hg, htables]
    · rintro ⟨tables, htables, rfl⟩
      cases tables with
      | nil => cases htables
      | cons g tables =>
        rw [List.map_cons, List.map_cons, List.cons.injEq] at htables
        exact ⟨t.merge g, mergeVisit_eq_ok_iff.2 ⟨g, htables.1, rfl⟩, ih.2 ⟨tables, htables.2, rfl⟩⟩

lemma mem_tables_iff {tables : List GrantTable}
    (h : visits.map (·.grants s.model) = tables.map .ok) {g : GrantTable} :
    g ∈ tables ↔ ∃ v ∈ visits, v.grants s.model = .ok g := by
  have hmem : Except.ok g ∈ visits.map (·.grants s.model) ↔ g ∈ tables := by
    rw [h, List.mem_map]
    constructor
    · rintro ⟨g', hg', heq⟩
      exact Except.ok.inj heq ▸ hg'
    · exact fun hg => ⟨g, hg, rfl⟩
  rw [← hmem, List.mem_map]

lemma normalized_of_visits {tables : List GrantTable}
    (h : visits.map (·.grants s.model) = tables.map .ok) : ∀ g ∈ tables, g.Normalized := by
  intro g hg
  obtain ⟨v, _, hv⟩ := (mem_tables_iff h).1 hg
  exact Visit.normalized_of_grants_eq_ok hv

lemma foldlM_mergeVisit_from (ht : t.Normalized) :
    visits.foldlM s.mergeVisit t = .ok merged ↔
      ∃ own, visits.foldlM s.mergeVisit .empty = .ok own ∧ t.merge own = merged := by
  simp only [foldlM_mergeVisit_eq_ok_iff]
  constructor
  · rintro ⟨tables, htables, rfl⟩
    refine ⟨_, ⟨tables, htables, rfl⟩, ?_⟩
    exact (GrantTable.foldl_merge_eq_merge ht (normalized_of_visits htables)).symm
  · rintro ⟨_, ⟨tables, htables, rfl⟩, rfl⟩
    exact ⟨tables, htables, GrantTable.foldl_merge_eq_merge ht (normalized_of_visits htables)⟩

/-- The table that the visits of a role list merge to, before the primary keys are written. -/
def MergesTo (s : Schema) (roles : List String) (scope : Option String) (t : GrantTable) : Prop :=
  (s.acl.walk roles scope).fault = none ∧
    (s.acl.walk roles scope).visits.foldlM s.mergeVisit .empty = .ok t

lemma compile_eq_ok_iff_mergesTo {roles : List String} :
    s.compile roles scope = .ok t ↔
      ∃ merged, s.MergesTo roles scope merged ∧ merged.unifyPrimaries s.model = t := by
  rw [compile_eq_ok_iff]
  constructor
  · rintro ⟨hfault, merged, hmerged, h⟩
    exact ⟨merged, ⟨hfault, hmerged⟩, h⟩
  · rintro ⟨merged, ⟨hfault, hmerged⟩, h⟩
    exact ⟨hfault, merged, hmerged, h⟩

end Schema

/-! ## Tables up to the order in lists -/

/-- Both grants open all rows, or both list the same predicates, maybe in another order. -/
def Grant.Similar : Grant → Grant → Prop
  | allow, allow => True
  | rows l, rows r => l.Perm r
  | _, _ => False

/-- The maps have the same routes, with similar grants. -/
def GrantMap.Similar (l r : GrantMap) : Prop :=
  ∀ route, Option.Rel Grant.Similar (l.get? route) (r.get? route)

/-- The tables have the same entities with the same items, and agree on them up to the order of the
predicates in a list. -/
structure GrantTable.Similar (l r : GrantTable) : Prop where
  entity : ∀ name, (l.entity? name).isSome = (r.entity? name).isSome
  customPrimary : ∀ name, l.customPrimary name = r.customPrimary name
  map : ∀ name item, Option.Rel GrantMap.Similar (l.map? name item) (r.map? name item)

namespace Grant

lemma Similar.refl (g : Grant) : g.Similar g := by
  cases g with
  | allow => trivial
  | rows ps => exact List.Perm.refl ps

/-- Grants without repetitions are similar if they open all rows together and list the same. -/
lemma rel_similar {a b : Option Grant} (ha : (listed a).Nodup) (hb : (listed b).Nodup)
    (hnone : a = none ↔ b = none) (hallow : a = some allow ↔ b = some allow)
    (hlisted : a ≠ some allow → ∀ p, p ∈ listed a ↔ p ∈ listed b) : Option.Rel Similar a b := by
  rcases a with _ | (_ | l) <;> rcases b with _ | (_ | r)
  · exact .none
  · simp at hnone
  · simp at hnone
  · simp at hnone
  · exact .some trivial
  · simp at hallow
  · simp at hnone
  · simp at hallow
  · have hperm : l.Perm r := (List.perm_ext_iff_of_nodup ha hb).2 (hlisted (by simp))
    exact .some hperm

end Grant

namespace GrantMap

lemma Similar.refl (m : GrantMap) : m.Similar m := by
  intro route
  cases m.get? route with
  | none => exact .none
  | some g => exact .some (Grant.Similar.refl g)

/-- Maps with entries for the same routes that answer with similar grants are similar. -/
lemma similar_of_matching {l r : GrantMap}
    (hentries : ∀ route, (l.get? route).isSome = (r.get? route).isSome)
    (hanswers : ∀ route, Option.Rel Grant.Similar (l.matching route) (r.matching route)) :
    l.Similar r := by
  intro route
  have hentry := hentries route
  have hanswer := hanswers route
  cases hl : l.get? route with
  | none =>
    cases hr : r.get? route with
    | none => exact .none
    | some g => simp [hl, hr] at hentry
  | some g =>
    cases hr : r.get? route with
    | none => simp [hl, hr] at hentry
    | some g' => rwa [matching_of_get? hl, matching_of_get? hr] at hanswer

end GrantMap

end RoleAccess
