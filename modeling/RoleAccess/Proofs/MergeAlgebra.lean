import RoleAccess.Proofs.RoleSets
import RoleAccess.Proofs.UnknownRoutes

/-!
# The algebra of merging

What a merge answers follows from what its two sides answer, for any maps, also such as no rule
gives: on a route that is told apart the answers are combined, and the entry for unknown routes
tells what all entries of both sides tell together. On tables whose maps are bounded and repeat no
predicate, merging is an idempotent monoid, and commutative up to the order of the predicates in a
list.
-/

namespace RoleAccess

namespace Grant

lemma mem_listed_iff {g : Option Grant} {p : Predicate} :
    p ∈ listed g ↔ ∃ h, g = some h ∧ p ∈ h.predicates := by
  cases g <;> simp [listed]

/-- Joining keeps the left list and appends what the right one has beyond it, each once. -/
lemma appendMissing_eq_append (l r : List Predicate) :
    appendMissing l r = l ++ (r.filter (· ∉ l)).eraseDups := by
  -- what is missing is appended at the end, so the last predicate is taken off
  induction r using List.reverseRecOn with
  | nil => exact (List.append_nil l).symm
  | append_singleton r p ih =>
    rw [appendMissing_concat, List.filter_append, List.eraseDups_append]
    by_cases hp : p ∈ appendMissing l r
    · rw [if_pos hp, ih]
      rcases mem_appendMissing.1 hp with hl | hr
      · simp [hl]
      · by_cases hl : p ∈ l
        · simp [hl]
        · simp [hl, hr, List.removeAll]
    · rw [if_neg hp, ih]
      rw [mem_appendMissing, not_or] at hp
      simp [hp.1, hp.2, List.removeAll, List.eraseDups_cons]

end Grant

namespace GrantMap

variable {l r m : GrantMap} {route : Route}

/-! ## Raising the bound -/

lemma bounded_eq_self_iff : m.bounded = m ↔ m.Normalized :=
  ⟨fun h => h ▸ normalized_bounded m, bounded_eq_self⟩

/-- Only lookups on unknown routes see the bound. -/
lemma matching_bounded (m : GrantMap) (h : route ≠ .unknown) :
    m.bounded.matching route = m.matching route := by
  have hfallback : m.bounded.fallback = m.fallback := by
    have hroot : m.bounded.root = m.root := get?_bounded m (by simp : Route.root ≠ .unknown)
    have hany : m.bounded.anyRelation = m.anyRelation :=
      get?_bounded m (by simp : Route.anyRelation ≠ .unknown)
    rw [fallback, hroot, hany, fallback]
  cases route with
  | root => exact get?_bounded m h
  | anyRelation => exact hfallback
  | unknown => exact absurd rfl h
  | relation name =>
    have hname : m.bounded.relations.get? name = m.relations.get? name := get?_bounded m h
    rw [matching, hname, hfallback, matching]

lemma unknown_bounded_eq_allow_iff :
    m.bounded.unknown = some .allow ↔ ∃ route, m.get? route = some .allow := by
  constructor
  · intro h
    by_contra hnone
    rw [not_exists] at hnone
    rw [bounded_of_no_allow hnone] at h
    split at h
    · exact hnone .unknown h
    · simp at h
  · rintro ⟨route, hroute⟩
    rw [bounded_of_allow hroute]

lemma mem_listed_unknown_bounded (h : m.bounded.unknown ≠ some .allow) {p : Predicate} :
    p ∈ Grant.listed m.bounded.unknown ↔ ∃ route, p ∈ Grant.listed (m.get? route) := by
  have hclosed : ∀ route, m.get? route ≠ some .allow :=
    not_exists.1 (unknown_bounded_eq_allow_iff.not.1 h)
  have hunion : p ∈ Grant.listed m.bounded.unknown ↔ p ∈ m.union := by
    rw [bounded_of_no_allow hclosed]
    split
    · rename_i hempty
      rw [hempty, iff_false_intro List.not_mem_nil, iff_false]
      intro hp
      obtain ⟨g, hg, hmem⟩ := Grant.mem_listed_iff.1 hp
      exact List.not_mem_nil (hempty ▸ mem_union_iff.2 ⟨.unknown, g, hg, hmem⟩)
    · rfl
  rw [hunion, mem_union_iff]
  exact exists_congr fun route => Grant.mem_listed_iff.symm

/-! ## Joined entries -/

lemma exists_allow_joinEntries_iff :
    (∃ route, (joinEntries l r).get? route = some .allow) ↔
      ∃ route, l.get? route = some .allow ∨ r.get? route = some .allow := by
  constructor
  · rintro ⟨route, h⟩
    have hanswer := matching_of_get? h
    rw [matching_joinEntries, Grant.combine_eq_allow_iff] at hanswer
    rcases hanswer with h | h
    · obtain ⟨source, hsource⟩ := exists_get?_of_matching h
      exact ⟨source, .inl hsource⟩
    · obtain ⟨source, hsource⟩ := exists_get?_of_matching h
      exact ⟨source, .inr hsource⟩
  · rintro ⟨route, h⟩
    exact ⟨route, get?_joinEntries_eq_allow h⟩

lemma exists_listed_joinEntries_iff (hclosed : ∀ route, (joinEntries l r).get? route ≠ some .allow)
    {p : Predicate} :
    (∃ route, p ∈ Grant.listed ((joinEntries l r).get? route)) ↔
      ∃ route, p ∈ Grant.listed (l.get? route) ∨ p ∈ Grant.listed (r.get? route) := by
  have hsource : ∀ {m : GrantMap} {route : Route}, p ∈ Grant.listed (m.matching route) →
      ∃ source, p ∈ Grant.listed (m.get? source) := by
    intro m route hp
    obtain ⟨g, hg, hmem⟩ := Grant.mem_listed_iff.1 hp
    obtain ⟨source, h⟩ := exists_get?_of_matching hg
    exact ⟨source, Grant.mem_listed_iff.2 ⟨g, h, hmem⟩⟩
  constructor
  · rintro ⟨route, hp⟩
    have hcombine : (joinEntries l r).get? route =
        Grant.combine (l.matching route) (r.matching route) := by
      obtain ⟨g, hg, _⟩ := Grant.mem_listed_iff.1 hp
      rw [← matching_joinEntries, hg, matching_of_get? hg]
    rw [hcombine, Grant.mem_listed_combine (hcombine ▸ hclosed route)] at hp
    rcases hp with hp | hp
    · obtain ⟨source, h⟩ := hsource hp
      exact ⟨source, .inl h⟩
    · obtain ⟨source, h⟩ := hsource hp
      exact ⟨source, .inr h⟩
  · rintro ⟨route, hp⟩
    exact ⟨route, mem_listed_get?_joinEntries (hclosed route) hp⟩

/-- Looking up in a merge, whatever the two maps hold. On every route that is told apart, and on
unknown routes too if both maps are bounded, the answers are combined; a route has an entry of its
own if one side has one. The entry for unknown routes opens all rows just if some entry of a side
does, and else lists just the predicates of all entries of both. Two lists combine to the left one,
followed by what the right one has beyond it. -/
theorem merge_answers (l r : GrantMap) :
    (∀ route, route ≠ .unknown ∨ l.bounded = l ∧ r.bounded = r →
      (l.merge r).matching route = Grant.combine (l.matching route) (r.matching route)) ∧
    (∀ route, route ≠ .unknown →
      ((l.merge r).get? route).isSome = ((l.get? route).isSome || (r.get? route).isSome)) ∧
    ((l.merge r).unknown = some .allow ↔
      ∃ route, l.get? route = some .allow ∨ r.get? route = some .allow) ∧
    ((l.merge r).unknown ≠ some .allow → ∀ p, p ∈ Grant.listed (l.merge r).unknown ↔
      ∃ route, p ∈ Grant.listed (l.get? route) ∨ p ∈ Grant.listed (r.get? route)) ∧
    ∀ ps qs, Grant.combine (some (.rows ps)) (some (.rows qs)) =
      some (.rows (ps ++ (qs.filter (· ∉ ps)).eraseDups)) := by
  refine ⟨fun route h => ?_, fun route h => ?_, ?_, fun h p => ?_, fun ps qs => ?_⟩
  · rcases h with h | ⟨hl, hr⟩
    · rw [merge, matching_bounded _ h, matching_joinEntries]
    · exact matching_merge (bounded_eq_self_iff.1 hl) (bounded_eq_self_iff.1 hr) route
  · rw [merge, get?_bounded _ h, isSome_get?_joinEntries]
  · rw [merge, unknown_bounded_eq_allow_iff, exists_allow_joinEntries_iff]
  · have hclosed := not_exists.1 (unknown_bounded_eq_allow_iff.not.1 h)
    rw [merge, mem_listed_unknown_bounded h, exists_listed_joinEntries_iff hclosed]
  · rw [← Grant.appendMissing_eq_append]
    rfl

end GrantMap

namespace GrantTable

open Schema (desk)

variable {a b c t : GrantTable}

/-- Every map of the table is bounded, and no list in it repeats a predicate. -/
def Tidy (t : GrantTable) : Prop := t.Every fun m => m.bounded = m ∧ m.Distinct

lemma Tidy.normalized (ht : t.Tidy) : t.Normalized := fun entity item m hm =>
  GrantMap.bounded_eq_self_iff.1 (ht entity item m hm).1

lemma Tidy.distinct (ht : t.Tidy) : t.Every GrantMap.Distinct := fun entity item m hm =>
  (ht entity item m hm).2

lemma Tidy.merge (ha : a.Tidy) (hb : b.Tidy) : (a.merge b).Tidy := by
  refine Every.merge (fun l r hl hr => ⟨?_, hl.2.merge hr.2⟩) ha hb
  exact GrantMap.bounded_eq_self (GrantMap.normalized_merge l r)

/-- The order of two tables shows only in the order of the predicates in a list. -/
lemma similar_merge_comm (ha : a.Tidy) (hb : b.Tidy) : (a.merge b).Similar (b.merge a) := by
  have hnormalized : ∀ t ∈ [a, b], t.Normalized := by
    simp [ha.normalized, hb.normalized]
  have hdistinct : ∀ t ∈ [a, b], t.Every GrantMap.Distinct := by
    simp [ha.distinct, hb.distinct]
  have hsame : ∀ t, t ∈ [a, b] ↔ t ∈ [b, a] := by
    simp [or_comm]
  have hsimilar := similar_foldl_merge hnormalized hdistinct hsame
  simpa only [List.foldl_cons, List.foldl_nil, merge_empty_left] using hsimilar

/-- Compiled tables are tidy. -/
lemma tidy_of_compile_eq_ok {s : Schema} {roles : List String} {scope : Option String}
    (h : s.compile roles scope = .ok t) : t.Tidy := by
  obtain ⟨_, merged, hmerged, rfl⟩ := Schema.compile_eq_ok_iff.1 h
  have hbound := (Schema.normalized_of_foldlM_eq_ok hmerged).unifyPrimaries s.model
  have hdistinct := distinct_unifyPrimaries (Schema.distinct_of_foldlM_eq_ok hmerged) s.model
  intro entity item m hm
  exact ⟨GrantMap.bounded_eq_self (hbound entity item m hm), hdistinct entity item m hm⟩

/-- Merging tidy tables is associative, lists in order included, and idempotent, with the empty
table as neutral element. It is commutative up to the order of the predicates in a list, and gives
tidy tables. -/
theorem merge_idempotent_monoid (ha : a.Tidy) (hb : b.Tidy) (hc : c.Tidy) :
    (a.merge b).merge c = a.merge (b.merge c) ∧ a.merge a = a ∧
      empty.merge a = a ∧ a.merge empty = a ∧
      (a.merge b).Similar (b.merge a) ∧ (a.merge b).Tidy :=
  ⟨merge_assoc ha.normalized hb.normalized hc.normalized, merge_self ha.normalized,
    merge_empty_left a, merge_empty_right a, similar_merge_comm ha hb, ha.merge hb⟩

/-- The tables of writers and of reviewers merge to different tables in the two orders, since each
puts its own predicates for titles first. -/
theorem writers_and_reviewers_merge :
    ∃ a b, desk.compile ["writer"] none = .ok a ∧ desk.compile ["reviewer"] none = .ok b ∧
      a.Tidy ∧ b.Tidy ∧ a.merge b ≠ b.merge a ∧ (a.merge b).Similar (b.merge a) ∧
      (a.merge b).merge a = a.merge (b.merge a) := by
  have order : ((desk.compile ["writer"] none).toOption.bind fun a =>
      (desk.compile ["reviewer"] none).toOption.map fun b => decide (a.merge b = b.merge a)) =
        some false := by
    decide +kernel
  obtain ⟨a, ha, hreviewer⟩ := exists_of_toOption_bind order
  obtain ⟨b, hb, hne⟩ := exists_of_toOption_map hreviewer
  have hta := tidy_of_compile_eq_ok ha
  have htb := tidy_of_compile_eq_ok hb
  obtain ⟨hassoc, _, _, _, hsimilar, _⟩ := merge_idempotent_monoid hta htb hta
  exact ⟨a, b, ha, hb, hta, htb, of_decide_eq_false hne, hsimilar, hassoc⟩

end GrantTable

end RoleAccess
