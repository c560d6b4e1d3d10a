import RoleAccess.Proofs.PrimaryLookups

/-!
# Unknown routes

In compiled grants the entry for unknown routes is an exact bound of the entries for all other
routes: it opens all rows if one of them does, and else lists the predicates of all of them and no
others. So access on an unknown route is possible just where it is possible on some route that is
told apart.
-/

namespace RoleAccess

namespace Grant

lemma combine_ne_rows_nil {a b : Option Grant} (ha : a ≠ some (rows [])) (hb : b ≠ some (rows [])) :
    combine a b ≠ some (rows []) := by
  rcases a with _ | _ | l
  · rwa [combine_none_left]
  · simp [combine_eq_allow_iff.2 (.inl rfl)]
  · rcases b with _ | _ | r
    · rwa [combine_none_right]
    · simp [combine_eq_allow_iff.2 (.inr rfl)]
    · obtain ⟨p, hp⟩ := List.exists_mem_of_ne_nil l (by simpa using ha)
      have hmem : p ∈ appendMissing l r := mem_appendMissing.2 (.inl hp)
      simpa [join] using List.ne_nil_of_mem hmem

lemma eq_some_of_mem_listed {g : Option Grant} {p : Predicate} (h : p ∈ listed g) :
    ∃ ps, g = some (rows ps) ∧ p ∈ ps := by
  rcases g with _ | _ | ps
  · cases h
  · cases h
  · exact ⟨ps, rfl, h⟩

end Grant

namespace GrantMap

/-- No list of the map is empty or repeats a predicate, and its entry for unknown routes tells just
what the other entries tell together. -/
structure Exact (m : GrantMap) : Prop where
  nonempty : ∀ route, m.get? route ≠ some (.rows [])
  distinct : m.Distinct
  allow_iff : m.unknown = some .allow ↔ ∃ route, route ≠ .unknown ∧ m.get? route = some .allow
  mem_iff : m.unknown ≠ some .allow → ∀ p, p ∈ Grant.listed m.unknown ↔
    ∃ route, route ≠ .unknown ∧ p ∈ Grant.listed (m.get? route)
  none_iff : m.unknown = none ↔ ∀ route, route ≠ .unknown → m.get? route = none

variable {m l r : GrantMap}

/-! ## The maps of rules -/

/-- Nothing is filed under unknown routes, and no list is empty or repeats a predicate. -/
structure Tracked (m : GrantMap) : Prop where
  unknown : m.unknown = none
  nonempty : ∀ route, m.get? route ≠ some (.rows [])
  distinct : m.Distinct

lemma tracked_empty : Tracked ∅ where
  unknown := rfl
  nonempty route := by simp [get?_empty]
  distinct := distinct_empty

lemma Tracked.insert (hm : m.Tracked) {route : Route} {g : Grant} (hroute : route ≠ .unknown)
    (hne : g ≠ .rows []) (hg : g.predicates.Nodup) : (m.insert route g).Tracked where
  unknown := by
    have hkept : (m.insert route g).get? .unknown = m.get? .unknown := by
      rw [get?_insert, if_neg (Ne.symm hroute)]
    exact hkept.trans hm.unknown
  nonempty other := by
    rw [get?_insert]
    split
    · simpa using hne
    · exact hm.nonempty other
  distinct := hm.distinct.insert route hg

lemma Tracked.allow (hm : m.Tracked) {route : Route} (hroute : route ≠ .unknown) :
    (m.allow route).Tracked :=
  hm.insert hroute (by simp) List.nodup_nil

lemma Tracked.add (hm : m.Tracked) {route : Route} (hroute : route ≠ .unknown) (p : Predicate) :
    (m.add route p).Tracked := by
  unfold GrantMap.add
  cases hget : m.get? route with
  | none => exact hm.insert hroute (by simp) (List.nodup_singleton p)
  | some g =>
    refine hm.insert hroute ?_ (Grant.nodup_join (hm.distinct route g hget))
    cases g with
    | allow => simp [Grant.join]
    | rows ps =>
      have hmem : p ∈ appendMissing ps [p] := mem_appendMissing.2 (.inr List.mem_cons_self)
      simpa [Grant.join] using List.ne_nil_of_mem hmem

/-- A bound of all entries is exact if the other entries tell all that it tells. -/
lemma Normalized.exact (hm : m.Normalized) (hne : ∀ route, m.get? route ≠ some (.rows []))
    (hd : m.Distinct)
    (hallow : m.unknown = some .allow → ∃ route, route ≠ .unknown ∧ m.get? route = some .allow)
    (hmem : ∀ p ∈ Grant.listed m.unknown,
      ∃ route, route ≠ .unknown ∧ p ∈ Grant.listed (m.get? route)) : m.Exact where
  nonempty := hne
  distinct := hd
  allow_iff := by
    refine ⟨hallow, ?_⟩
    rintro ⟨route, _, hroute⟩
    exact (hm route .allow hroute).resolve_right fun h => h.1 rfl
  mem_iff hunknown p := by
    refine ⟨hmem p, ?_⟩
    rintro ⟨route, _, hp⟩
    cases hroute : m.get? route with
    | none => simp [hroute, Grant.listed] at hp
    | some g =>
      rw [hroute] at hp
      exact ((hm route g hroute).resolve_left hunknown).2 p hp
  none_iff := by
    constructor
    · intro hunknown route _
      rcases hroute : m.get? route with _ | _ | (_ | ⟨p, ps⟩)
      · rfl
      · simpa [Grant.CoveredBy, hunknown] using hm route .allow hroute
      · exact absurd hroute (hne route)
      · have hbound := (hm route _ hroute).resolve_left (by simp [hunknown])
        have hp := hbound.2 p List.mem_cons_self
        simp [hunknown, Grant.listed] at hp
    · intro hnone
      rcases hunknown : m.unknown with _ | _ | (_ | ⟨p, ps⟩)
      · rfl
      · obtain ⟨route, hroute, hentry⟩ := hallow hunknown
        cases (hnone route hroute).symm.trans hentry
      · exact absurd hunknown (hne .unknown)
      · obtain ⟨route, hroute, hentry⟩ := hmem p (by simp [hunknown, Grant.listed, Grant.predicates])
        simp [hnone route hroute, Grant.listed] at hentry

lemma get?_bounded (m : GrantMap) {route : Route} (h : route ≠ .unknown) :
    m.bounded.get? route = m.get? route := by
  by_cases hallow : ∃ route, m.get? route = some .allow
  · obtain ⟨open', hopen⟩ := hallow
    rw [bounded_of_allow hopen]
    exact (get?_insert m .unknown route .allow).trans (if_neg h)
  · rw [bounded_of_no_allow fun route h => hallow ⟨route, h⟩]
    split
    · rfl
    · exact (get?_insert m .unknown route (.rows m.union)).trans (if_neg h)

/-- The raised entry opens all rows where some entry does, and else lists the predicates of all. -/
lemma Tracked.unknown_bounded (hm : m.Tracked) :
    (m.bounded.unknown = some .allow ∧ ∃ route, m.get? route = some .allow) ∨
      (m.bounded.unknown = none ∧ m.union = []) ∨
        m.bounded.unknown = some (.rows m.union) ∧ m.union ≠ [] := by
  by_cases hallow : ∃ route, m.get? route = some .allow
  · obtain ⟨route, hroute⟩ := hallow
    rw [bounded_of_allow hroute]
    exact .inl ⟨rfl, route, hroute⟩
  · rw [bounded_of_no_allow fun route h => hallow ⟨route, h⟩]
    by_cases hunion : m.union = []
    · rw [if_pos hunion]
      exact .inr (.inl ⟨hm.unknown, hunion⟩)
    · rw [if_neg hunion]
      exact .inr (.inr ⟨rfl, hunion⟩)

/-- Raising the entry for unknown routes of a map that has none makes it exact. -/
theorem Tracked.exact_bounded (hm : m.Tracked) : m.bounded.Exact := by
  have hentry : ∀ route g, m.get? route = some g →
      route ≠ .unknown ∧ m.bounded.get? route = some g := by
    intro route g hg
    have hroute : route ≠ .unknown := by
      rintro rfl
      cases hm.unknown.symm.trans hg
    exact ⟨hroute, (get?_bounded m hroute).trans hg⟩
  have hlisted : ∀ p ∈ m.union,
      ∃ route, route ≠ .unknown ∧ p ∈ Grant.listed (m.bounded.get? route) := by
    intro p hp
    obtain ⟨route, g, hg, hp⟩ := mem_union_iff.1 hp
    obtain ⟨hroute, hkept⟩ := hentry route g hg
    refine ⟨route, hroute, ?_⟩
    rw [hkept]
    exact hp
  refine (normalized_bounded m).exact (fun route => ?_) hm.distinct.bounded ?_ ?_
  · by_cases hroute : route = .unknown
    · subst hroute
      change m.bounded.unknown ≠ some (.rows [])
      rcases hm.unknown_bounded with ⟨h, _⟩ | ⟨h, _⟩ | ⟨h, hne⟩ <;> rw [h]
      · simp
      · simp
      · simpa using hne
    · rw [get?_bounded m hroute]
      exact hm.nonempty route
  · intro hallow
    rcases hm.unknown_bounded with ⟨_, route, hroute⟩ | ⟨h, _⟩ | ⟨h, _⟩
    · exact ⟨route, hentry route .allow hroute⟩
    · cases h.symm.trans hallow
    · cases h.symm.trans hallow
  · intro p hp
    rcases hm.unknown_bounded with ⟨h, _⟩ | ⟨h, _⟩ | ⟨h, _⟩ <;> rw [h] at hp
    · cases hp
    · cases hp
    · exact hlisted p hp

lemma exact_empty : Exact ∅ := by
  have hbounded := tracked_empty.exact_bounded
  rwa [bounded_eq_self normalized_empty] at hbounded

/-! ## Merges -/

lemma Exact.normalized (hm : m.Exact) : m.Normalized := by
  intro route g hg
  by_cases hallow : m.unknown = some .allow
  · exact .inl hallow
  by_cases hroute : route = .unknown
  · subst hroute
    have hself : m.unknown = some g := hg
    rw [hself]
    exact g.coveredBy_self
  refine .inr ⟨?_, fun p hp => ?_⟩
  · rintro rfl
    exact hallow (hm.allow_iff.2 ⟨route, hroute, hg⟩)
  · refine (hm.mem_iff hallow p).2 ⟨route, hroute, ?_⟩
    rw [hg]
    exact hp

lemma Exact.matching_ne_rows_nil (hm : m.Exact) (route : Route) :
    m.matching route ≠ some (.rows []) := by
  intro h
  obtain ⟨source, hsource⟩ := exists_get?_of_matching h
  exact hm.nonempty source hsource

/-- Where one of two maps has an entry, the joined maps combine their answers. -/
lemma get?_joinEntries_of_entry {route : Route} (h : l.get? route ≠ none ∨ r.get? route ≠ none) :
    (joinEntries l r).get? route = Grant.combine (l.matching route) (r.matching route) := by
  rw [get?_joinEntries, if_pos]
  simpa [Option.isSome_iff_ne_none] using h

lemma get?_joinEntries_eq_allow {route : Route}
    (h : l.get? route = some .allow ∨ r.get? route = some .allow) :
    (joinEntries l r).get? route = some .allow := by
  have hentry : l.get? route ≠ none ∨ r.get? route ≠ none :=
    h.imp (fun h => by simp [h]) fun h => by simp [h]
  rw [get?_joinEntries_of_entry hentry, Grant.combine_eq_allow_iff]
  exact h.imp matching_of_get? matching_of_get?

/-- What an entry of one side lists, the joined entry lists, unless all rows are open there. -/
lemma mem_listed_get?_joinEntries {route : Route} {p : Predicate}
    (hne : (joinEntries l r).get? route ≠ some .allow)
    (h : p ∈ Grant.listed (l.get? route) ∨ p ∈ Grant.listed (r.get? route)) :
    p ∈ Grant.listed ((joinEntries l r).get? route) := by
  have hanswer : ∀ m : GrantMap, p ∈ Grant.listed (m.get? route) →
      m.get? route ≠ none ∧ p ∈ Grant.listed (m.matching route) := by
    intro m hp
    obtain ⟨ps, hps, hmem⟩ := Grant.eq_some_of_mem_listed hp
    rw [matching_of_get? hps, hps]
    exact ⟨by simp, hmem⟩
  have hentry : l.get? route ≠ none ∨ r.get? route ≠ none :=
    h.imp (fun h => (hanswer l h).1) fun h => (hanswer r h).1
  rw [get?_joinEntries_of_entry hentry] at hne ⊢
  rw [Grant.mem_listed_combine hne]
  exact h.imp (fun h => (hanswer l h).2) fun h => (hanswer r h).2

/-- The merge of exact maps is exact. -/
theorem Exact.merge (hl : l.Exact) (hr : r.Exact) : (l.merge r).Exact := by
  have hbound := normalized_merge l r
  have hdistinct := hl.distinct.merge hr.distinct
  rw [merge_eq_joinEntries hl.normalized hr.normalized] at hbound hdistinct ⊢
  have hunknown : (joinEntries l r).unknown = Grant.combine l.unknown r.unknown := rfl
  refine hbound.exact (fun route => ?_) hdistinct ?_ ?_
  · by_cases h : l.get? route ≠ none ∨ r.get? route ≠ none
    · rw [get?_joinEntries_of_entry h]
      exact Grant.combine_ne_rows_nil (hl.matching_ne_rows_nil route) (hr.matching_ne_rows_nil route)
    · have hnone : ((joinEntries l r).get? route).isSome = false := by
        rw [isSome_get?_joinEntries]
        simpa using h
      rw [Option.isSome_eq_false_iff, Option.isNone_iff_eq_none] at hnone
      simp [hnone]
  · rw [hunknown, Grant.combine_eq_allow_iff, hl.allow_iff, hr.allow_iff]
    rintro (⟨route, hroute, h⟩ | ⟨route, hroute, h⟩)
    · exact ⟨route, hroute, get?_joinEntries_eq_allow (.inl h)⟩
    · exact ⟨route, hroute, get?_joinEntries_eq_allow (.inr h)⟩
  · intro p hp
    have hne : (joinEntries l r).unknown ≠ some .allow := by
      obtain ⟨ps, hps, _⟩ := Grant.eq_some_of_mem_listed hp
      simp [hps]
    have hclosed : ∀ route, (joinEntries l r).get? route ≠ some .allow := fun route h =>
      hne ((hbound route .allow h).resolve_right fun h => h.1 rfl)
    have hsides := hne
    rw [hunknown, Ne, Grant.combine_eq_allow_iff, not_or] at hsides
    rw [hunknown, Grant.mem_listed_combine (hunknown ▸ hne), hl.mem_iff hsides.1,
      hr.mem_iff hsides.2] at hp
    rcases hp with ⟨route, hroute, hp⟩ | ⟨route, hroute, hp⟩
    · exact ⟨route, hroute, mem_listed_get?_joinEntries (hclosed route) (.inl hp)⟩
    · exact ⟨route, hroute, mem_listed_get?_joinEntries (hclosed route) (.inr hp)⟩

end GrantMap

namespace Access

lemma isAllowed_ofGrant_iff {g : Option Grant} :
    (ofGrant g).isAllowed = true ↔ g = some .allow := by
  rcases g with _ | _ | (_ | _) <;> simp [ofGrant, isAllowed]

lemma isPossible_ofGrant_iff {g : Option Grant} (h : g ≠ some (.rows [])) :
    (ofGrant g).isPossible = true ↔ g ≠ none := by
  rcases g with _ | _ | (_ | _) <;> simp_all [ofGrant, isPossible]

end Access

namespace GrantTable

variable {t : GrantTable} {entity : String} {item : Item}

/-- Access on an unknown route is what access is on some other route that has an entry. -/
lemma access_unknown_iff (ht : t.Every GrantMap.Exact) :
    ((t.access entity item .unknown).isPossible = true ↔
        ∃ route, route ≠ .unknown ∧ (t.stored? entity item route).isSome = true ∧
          (t.access entity item route).isPossible = true) ∧
      ((t.access entity item .unknown).isAllowed = true ↔
        ∃ route, route ≠ .unknown ∧ (t.stored? entity item route).isSome = true ∧
          (t.access entity item route).isAllowed = true) := by
  unfold access grant? stored?
  cases hmap : t.map? entity item with
  | none => simp [Access.ofGrant, Access.isPossible, Access.isAllowed]
  | some m =>
    have hm := ht entity item m hmap
    have hself : m.matching .unknown = m.unknown := rfl
    -- an entry answers for its own route, so here an answer is an entry
    have hmatching : ∀ {route}, (m.get? route).isSome = true → m.matching route = m.get? route := by
      intro route hentry
      obtain ⟨g, hg⟩ := Option.isSome_iff_exists.1 hentry
      rw [GrantMap.matching_of_get? hg, hg]
    simp only [Option.bind_some, Access.isAllowed_ofGrant_iff,
      Access.isPossible_ofGrant_iff (hm.matching_ne_rows_nil _)]
    constructor
    · rw [hself, Ne, hm.none_iff]
      simp only [not_forall, exists_prop]
      refine exists_congr fun route => and_congr_right fun _ => ?_
      rw [← ne_eq, ← Option.isSome_iff_ne_none]
      refine ⟨fun hentry => ⟨hentry, ?_⟩, fun h => h.1⟩
      rwa [hmatching hentry, ← Option.isSome_iff_ne_none]
    · rw [hself, hm.allow_iff]
      refine exists_congr fun route => and_congr_right fun _ => ?_
      constructor
      · intro h
        exact ⟨by rw [h]; rfl, GrantMap.matching_of_get? h⟩
      · rintro ⟨hentry, h⟩
        rwa [hmatching hentry] at h

end GrantTable

lemma Rule.exact_grants {lookup : String → Except Fault Predicate} {rule : Rule} {m : GrantMap}
    (h : rule.grants lookup = .ok m) : m.Exact := by
  obtain ⟨joined, hjoined, rfl⟩ := exists_bounded_of_grants_eq_ok GrantMap.tracked_empty
    (fun _ _ hroute hm => hm.allow hroute) (fun _ _ _ p hroute _ hm => hm.add hroute p) h
  exact hjoined.exact_bounded

namespace Schema

variable {s : Schema} {roles : List String} {scope : Option String} {t : GrantTable}

/-- In compiled grants no list is empty or repeats a predicate, and the entry for unknown routes is
an exact bound of all others: it opens all rows if one of them does, else lists just what they list,
and is absent if they all are. So access on an unknown route is possible, or open to all rows, just
if it is so on some other route that has an entry. -/
theorem compile_unknown_exact (h : s.compile roles scope = .ok t) :
    (∀ entity item m, t.map? entity item = some m → m.Exact) ∧
    ∀ entity item,
      ((t.access entity item .unknown).isPossible = true ↔
        ∃ route, route ≠ .unknown ∧ (t.stored? entity item route).isSome = true ∧
          (t.access entity item route).isPossible = true) ∧
      ((t.access entity item .unknown).isAllowed = true ↔
        ∃ route, route ≠ .unknown ∧ (t.stored? entity item route).isSome = true ∧
          (t.access entity item route).isAllowed = true) := by
  obtain ⟨_, merged, hmerged, rfl⟩ := compile_eq_ok_iff.1 h
  have hexact : merged.Every GrantMap.Exact :=
    every_of_foldlM_eq_ok GrantMap.exact_empty (fun _ _ _ => Rule.exact_grants)
      (fun _ _ => GrantMap.Exact.merge) (GrantTable.every_empty _) hmerged
  have hall : (merged.unifyPrimaries s.model).Every GrantMap.Exact :=
    hexact.unifyPrimaries GrantMap.exact_empty (fun _ _ => GrantMap.Exact.merge) s.model
  exact ⟨hall, fun _ _ => GrantTable.access_unknown_iff hall⟩

theorem forum_posts_on_unknown_routes :
    ∃ t m, forum.compile ["reader"] none = .ok t ∧
      t.map? "Post" (.field .read "id") = some m ∧ m.Exact ∧
      m.unknown = some (.rows
        [.column "draft" (.isNull true), .columnVariable "author" "reader__me"]) ∧
      ((t.access "Post" (.field .read "id") .unknown).isPossible = true ↔
        ∃ route, route ≠ .unknown ∧ (t.stored? "Post" (.field .read "id") route).isSome = true ∧
          (t.access "Post" (.field .read "id") route).isPossible = true) := by
  have read : (forum.compile ["reader"] none).toOption.bind
      (fun t => (t.map? "Post" (.field .read "id")).bind (·.unknown)) =
        some (.rows [.column "draft" (.isNull true), .columnVariable "author" "reader__me"]) := by
    decide +kernel
  obtain ⟨t, ht, hread⟩ := exists_of_toOption_bind read
  obtain ⟨m, hm, hunknown⟩ := Option.bind_eq_some_iff.1 hread
  obtain ⟨hexact, haccess⟩ := compile_unknown_exact ht
  exact ⟨t, m, ht, hm, hexact _ _ m hm, hunknown, (haccess "Post" (.field .read "id")).1⟩

end Schema

end RoleAccess
