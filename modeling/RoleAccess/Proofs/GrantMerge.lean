import Mathlib.Logic.Basic
import RoleAccess.GrantTable

/-!
# Merging grant maps

A merge joins what its two sides answer for a route, and then raises the entry for unknown routes to
a bound of all others. On maps whose entry for unknown routes is such a bound already the second
step does nothing, so on every route, the unknown ones included, looking up in the merge is
combining the two lookups. Of the two levels of access the combination has the higher one.
-/

namespace RoleAccess

/-! ## Lists of predicates -/

lemma mem_appendMissing {p : Predicate} {l r : List Predicate} :
    p ∈ appendMissing l r ↔ p ∈ l ∨ p ∈ r := by
  unfold appendMissing
  induction r generalizing l with
  | nil => simp
  | cons q r ih =>
    rw [List.foldl_cons, ih]
    by_cases hq : q ∈ l
    · rw [if_pos hq, List.mem_cons]
      constructor
      · rintro (h | h)
        · exact .inl h
        · exact .inr (.inr h)
      · rintro (h | rfl | h)
        · exact .inl h
        · exact .inl hq
        · exact .inr h
    · simp [hq, or_assoc]

lemma appendMissing_eq_self {l r : List Predicate} (h : ∀ p ∈ r, p ∈ l) :
    appendMissing l r = l := by
  unfold appendMissing
  induction r with
  | nil => rfl
  | cons q r ih =>
    rw [List.foldl_cons, if_pos (h q List.mem_cons_self)]
    exact ih fun p hp => h p (List.mem_cons_of_mem q hp)

/-! ## Grants under a bound -/

namespace Grant

/-- The list of a grant that may be absent. -/
def listed (g : Option Grant) : List Predicate := (g.map predicates).getD []

/-- The bound gives at least what the grant gives. -/
def CoveredBy (g : Grant) (bound : Option Grant) : Prop :=
  bound = some allow ∨ g ≠ allow ∧ ∀ p ∈ g.predicates, p ∈ listed bound

/-- Where two answers with fallbacks combine to nothing, so do the fallbacks. -/
lemma combine_or_combine (a b c d : Option Grant) :
    (combine (a.or c) (b.or d)).or (combine c d) = combine (a.or c) (b.or d) := by
  cases a <;> cases b <;> cases c <;> cases d <;> rfl

lemma combine_eq_allow_iff {a b : Option Grant} :
    combine a b = some allow ↔ a = some allow ∨ b = some allow := by
  rcases a with _ | (_ | ps) <;> rcases b with _ | (_ | qs) <;> simp [join]

lemma mem_listed_combine {a b : Option Grant} {p : Predicate}
    (h : combine a b ≠ some allow) : p ∈ listed (combine a b) ↔ p ∈ listed a ∨ p ∈ listed b := by
  rcases a with _ | (_ | ps) <;> rcases b with _ | (_ | qs) <;>
    simp_all [join, listed, predicates, mem_appendMissing]

/-- What two grants cover is covered by their combination. -/
lemma CoveredBy.combine {a b A B : Option Grant} {g : Grant}
    (ha : ∀ g, a = some g → g.CoveredBy A) (hb : ∀ g, b = some g → g.CoveredBy B)
    (h : Grant.combine a b = some g) : g.CoveredBy (Grant.combine A B) := by
  by_cases hbound : Grant.combine A B = some allow
  · exact .inl hbound
  have hA : A ≠ some allow := fun hA => hbound (combine_eq_allow_iff.2 (.inl hA))
  have hB : B ≠ some allow := fun hB => hbound (combine_eq_allow_iff.2 (.inr hB))
  have below : ∀ {a A : Option Grant}, A ≠ some allow → (∀ g, a = some g → g.CoveredBy A) →
      a ≠ some allow ∧ ∀ p ∈ listed a, p ∈ listed A := by
    intro a A hA ha
    cases a with
    | none => simp [listed]
    | some g =>
      obtain ⟨hne, hmem⟩ := (ha g rfl).resolve_left hA
      exact ⟨fun heq => hne (Option.some.inj heq), hmem⟩
  obtain ⟨hane, hamem⟩ := below hA ha
  obtain ⟨hbne, hbmem⟩ := below hB hb
  have hne : Grant.combine a b ≠ some allow := fun heq =>
    (combine_eq_allow_iff.1 heq).elim hane hbne
  refine .inr ⟨fun hg => hne (hg ▸ h), fun p hp => ?_⟩
  have hlisted : p ∈ listed (Grant.combine a b) := by rw [h]; exact hp
  rw [mem_listed_combine hbound]
  rcases (mem_listed_combine hne).1 hlisted with hp | hp
  · exact .inl (hamem p hp)
  · exact .inr (hbmem p hp)

end Grant

/-! ## Levels -/

/-- Nothing, some rows, all rows. -/
def Access.level : Access → Nat
  | denied => 0
  | conditional _ => 1
  | allowed => 2

namespace Grant

def level (g : Option Grant) : Nat := (Access.ofGrant g).level

lemma level_rows (ps : List Predicate) : level (some (rows ps)) = if ps = [] then 0 else 1 := by
  cases ps <;> rfl

lemma level_rows_appendMissing (l r : List Predicate) :
    level (some (rows (appendMissing l r))) =
      max (level (some (rows l))) (level (some (rows r))) := by
  have hnil : appendMissing l r = [] ↔ l = [] ∧ r = [] := by
    simp only [List.eq_nil_iff_forall_not_mem, mem_appendMissing, not_or, forall_and]
  simp only [level_rows, hnil]
  by_cases hl : l = [] <;> by_cases hr : r = [] <;> simp [hl, hr]

lemma level_combine (a b : Option Grant) : level (combine a b) = max (level a) (level b) := by
  rcases a with _ | a
  · rw [combine_none_left]
    exact (Nat.zero_max _).symm
  rcases b with _ | b
  · rw [combine_none_right]
    exact (Nat.max_zero _).symm
  cases a with
  | allow => cases b with
    | allow => rfl
    | rows r => cases r <;> rfl
  | rows l => cases b with
    | allow => cases l <;> rfl
    | rows r => exact level_rows_appendMissing l r

/-- A combination stays under a level as long as all of its grants do. -/
lemma level_foldl_combine_le_iff {grants : List (Option Grant)} {start : Option Grant} {n : Nat} :
    level (grants.foldl combine start) ≤ n ↔ level start ≤ n ∧ ∀ g ∈ grants, level g ≤ n := by
  induction grants generalizing start with
  | nil => simp
  | cons g grants ih =>
    rw [List.foldl_cons, ih, level_combine, Nat.max_le, List.forall_mem_cons, and_assoc]

end Grant

namespace GrantMap

/-! ## Entries and lookups -/

lemma mem_toList {m : GrantMap} {route : Route} {g : Grant} :
    (route, g) ∈ m.toList ↔ m.get? route = some g := by
  cases route <;> simp [toList, get?, NameMap.mem_entries]

lemma matching_of_get? {m : GrantMap} {route : Route} {g : Grant}
    (h : m.get? route = some g) : m.matching route = some g := by
  cases route with
  | root => exact h
  | anyRelation =>
    have : m.anyRelation = some g := h
    simp [matching, fallback, this]
  | unknown => exact h
  | relation name =>
    have : m.relations.get? name = some g := h
    simp [matching, this]

lemma exists_get?_of_matching {m : GrantMap} {route : Route} {g : Grant}
    (h : m.matching route = some g) : ∃ source, m.get? source = some g := by
  have hfallback : m.fallback = some g → ∃ source, m.get? source = some g := by
    intro h
    rcases Option.or_eq_some_iff.1 h with h | ⟨_, h⟩
    · exact ⟨.anyRelation, h⟩
    · exact ⟨.root, h⟩
  cases route with
  | root => exact ⟨.root, h⟩
  | anyRelation => exact hfallback h
  | unknown => exact ⟨.unknown, h⟩
  | relation name =>
    rcases Option.or_eq_some_iff.1 h with h | ⟨_, h⟩
    · exact ⟨.relation name, h⟩
    · exact hfallback h

lemma fallback_joinEntries (l r : GrantMap) :
    (joinEntries l r).fallback = Grant.combine l.fallback r.fallback := by
  unfold fallback joinEntries
  by_cases h : (l.anyRelation.isSome || r.anyRelation.isSome) = true
  · rw [if_pos h]
    exact Grant.combine_or_combine ..
  · -- Without an entry for any relation on either side both fall back to the root.
    have hl : l.anyRelation = none := by
      simp only [Bool.or_eq_true, not_or, Option.not_isSome_iff_eq_none] at h
      exact h.1
    have hr : r.anyRelation = none := by
      simp only [Bool.or_eq_true, not_or, Option.not_isSome_iff_eq_none] at h
      exact h.2
    rw [if_neg h, hl, hr, Option.none_or, Option.none_or, Option.none_or]

/-- The joined entries answer on every route with the two answers combined: a route without an
entry of its own falls back on both sides at once. -/
theorem matching_joinEntries (l r : GrantMap) (route : Route) :
    (joinEntries l r).matching route = Grant.combine (l.matching route) (r.matching route) := by
  cases route with
  | root => rfl
  | anyRelation => exact fallback_joinEntries l r
  | unknown => rfl
  | relation name =>
    have hget : (joinEntries l r).relations.get? name =
        if name ∈ l.relations.names ++ r.relations.names then
          Grant.combine (l.matching (.relation name)) (r.matching (.relation name))
        else none := NameMap.get?_tabulate ..
    have hor : (joinEntries l r).matching (.relation name) =
        ((joinEntries l r).relations.get? name).or (joinEntries l r).fallback := rfl
    rw [hor, hget, fallback_joinEntries]
    by_cases hname : name ∈ l.relations.names ++ r.relations.names
    · rw [if_pos hname]
      exact Grant.combine_or_combine ..
    · rw [if_neg hname, Option.none_or]
      rw [List.mem_append, not_or] at hname
      rw [matching, matching, NameMap.get?_eq_none_of_not_mem hname.1,
        NameMap.get?_eq_none_of_not_mem hname.2, Option.none_or, Option.none_or]

/-! ## The entry for unknown routes -/

/-- The entry for unknown routes gives at least what every entry gives. -/
def Normalized (m : GrantMap) : Prop :=
  ∀ route g, m.get? route = some g → g.CoveredBy m.unknown

lemma Normalized.covers {m : GrantMap} (hm : m.Normalized) {route : Route} {g : Grant}
    (h : m.matching route = some g) : g.CoveredBy m.unknown := by
  obtain ⟨source, hsource⟩ := exists_get?_of_matching h
  exact hm source g hsource

lemma normalized_empty : Normalized ∅ := by
  intro route g h
  cases route <;> cases h

/-- Every predicate of a map, those under unknown routes first. -/
def union (m : GrantMap) : List Predicate :=
  m.toList.foldl (fun acc e => appendMissing acc e.2.predicates) (Grant.listed m.unknown)

lemma mem_union_iff {m : GrantMap} {p : Predicate} :
    p ∈ m.union ↔ ∃ route g, m.get? route = some g ∧ p ∈ g.predicates := by
  have hfold : ∀ (entries : List (Route × Grant)) (start : List Predicate),
      p ∈ entries.foldl (fun acc e => appendMissing acc e.2.predicates) start ↔
        p ∈ start ∨ ∃ e ∈ entries, p ∈ e.2.predicates := by
    intro entries
    induction entries with
    | nil => simp
    | cons e entries ih =>
      intro start
      simp only [List.foldl_cons, ih, mem_appendMissing, List.mem_cons, exists_eq_or_imp, or_assoc]
  unfold union
  rw [hfold]
  constructor
  · rintro (hp | ⟨e, he, hp⟩)
    · cases hunknown : m.unknown with
      | none => simp [hunknown, Grant.listed] at hp
      | some g =>
        rw [hunknown] at hp
        exact ⟨.unknown, g, hunknown, hp⟩
    · exact ⟨e.1, e.2, mem_toList.1 he, hp⟩
  · rintro ⟨route, g, hg, hp⟩
    exact .inr ⟨(route, g), mem_toList.2 hg, hp⟩

lemma union_eq_listed {m : GrantMap}
    (h : ∀ route g, m.get? route = some g → ∀ p ∈ g.predicates, p ∈ Grant.listed m.unknown) :
    m.union = Grant.listed m.unknown := by
  have hfold : ∀ entries : List (Route × Grant), (∀ e ∈ entries, e ∈ m.toList) →
      entries.foldl (fun acc e => appendMissing acc e.2.predicates) (Grant.listed m.unknown) =
        Grant.listed m.unknown := by
    intro entries
    induction entries with
    | nil =>
      intro _
      rfl
    | cons e entries ih =>
      intro hentries
      have he : m.get? e.1 = some e.2 := mem_toList.1 (hentries e List.mem_cons_self)
      rw [List.foldl_cons, appendMissing_eq_self (h e.1 e.2 he)]
      exact ih fun e he => hentries e (List.mem_cons_of_mem _ he)
  exact hfold m.toList fun _ he => he

lemma bounded_of_allow {m : GrantMap} {route : Route} (h : m.get? route = some .allow) :
    m.bounded = { m with unknown := some .allow } := by
  have hany : m.toList.any (·.2 = .allow) = true :=
    List.any_eq_true.2 ⟨(route, .allow), mem_toList.2 h, by simp⟩
  rw [bounded, if_pos hany]

lemma bounded_of_no_allow {m : GrantMap} (h : ∀ route, m.get? route ≠ some .allow) :
    m.bounded = if m.union = [] then m else { m with unknown := some (.rows m.union) } := by
  have hany : ¬ m.toList.any (·.2 = .allow) = true := by
    intro hany
    obtain ⟨⟨route, g⟩, hmem, hg⟩ := List.any_eq_true.1 hany
    obtain rfl : g = .allow := by simpa using hg
    exact h route (mem_toList.1 hmem)
  rw [bounded, if_neg hany]
  by_cases hunion : m.union = []
  · rw [if_pos hunion]
    unfold union Grant.listed at hunion
    simp only [hunion]
  · obtain ⟨p, ps, hcons⟩ := List.exists_cons_of_ne_nil hunion
    rw [if_neg hunion, hcons]
    unfold union Grant.listed at hcons
    simp only [hcons]

/-- Raising the entry for unknown routes gives a bound of all entries. -/
theorem normalized_bounded (m : GrantMap) : m.bounded.Normalized := by
  by_cases hallow : ∃ route, m.get? route = some .allow
  · obtain ⟨route, hroute⟩ := hallow
    rw [bounded_of_allow hroute]
    intro route g _
    exact .inl rfl
  · have hne : ∀ route, m.get? route ≠ some .allow := fun route h => hallow ⟨route, h⟩
    rw [bounded_of_no_allow hne]
    have hmem : ∀ route g, m.get? route = some g → g ≠ .allow ∧ ∀ p ∈ g.predicates, p ∈ m.union :=
      fun route g h => ⟨fun hg => hne route (hg ▸ h), fun p hp => mem_union_iff.2 ⟨route, g, h, hp⟩⟩
    by_cases hunion : m.union = []
    · rw [if_pos hunion]
      intro route g h
      obtain ⟨hg, hsub⟩ := hmem route g h
      exact .inr ⟨hg, fun p hp => absurd (hunion ▸ hsub p hp) List.not_mem_nil⟩
    · rw [if_neg hunion]
      intro route g h
      cases route with
      | unknown =>
        obtain rfl : .rows m.union = g := Option.some.inj h
        exact .inr ⟨by simp, fun p hp => hp⟩
      | root => exact .inr (hmem .root g h)
      | anyRelation => exact .inr (hmem .anyRelation g h)
      | relation name => exact .inr (hmem (.relation name) g h)

/-- Where the bound is one already, nothing is raised. -/
theorem bounded_eq_self {m : GrantMap} (hm : m.Normalized) : m.bounded = m := by
  by_cases hallow : ∃ route, m.get? route = some .allow
  · obtain ⟨route, hroute⟩ := hallow
    have hunknown : m.unknown = some .allow :=
      (hm route .allow hroute).resolve_right fun h => h.1 rfl
    rw [bounded_of_allow hroute, ← hunknown]
  · have hne : ∀ route, m.get? route ≠ some .allow := fun route h => hallow ⟨route, h⟩
    have hunion : m.union = Grant.listed m.unknown := union_eq_listed fun route g h =>
      ((hm route g h).resolve_left (hne .unknown)).2
    rw [bounded_of_no_allow hne, hunion]
    by_cases hlisted : Grant.listed m.unknown = []
    · rw [if_pos hlisted]
    · have hunknown : m.unknown = some (.rows (Grant.listed m.unknown)) := by
        rcases hu : m.unknown with _ | (_ | ps)
        · simp [hu, Grant.listed] at hlisted
        · exact absurd hu (hne .unknown)
        · rfl
      rw [if_neg hlisted, ← hunknown]

lemma normalized_joinEntries {l r : GrantMap} (hl : l.Normalized) (hr : r.Normalized) :
    (joinEntries l r).Normalized := by
  intro route g h
  have hcombine : Grant.combine (l.matching route) (r.matching route) = some g := by
    rw [← matching_joinEntries]
    exact matching_of_get? h
  exact Grant.CoveredBy.combine (fun _ h => hl.covers h) (fun _ h => hr.covers h) hcombine

theorem normalized_merge (l r : GrantMap) : (l.merge r).Normalized := normalized_bounded _

/-- Looking up in a merge is combining the lookups, on every route. -/
theorem matching_merge {l r : GrantMap} (hl : l.Normalized) (hr : r.Normalized) (route : Route) :
    (l.merge r).matching route = Grant.combine (l.matching route) (r.matching route) := by
  rw [merge, bounded_eq_self (normalized_joinEntries hl hr), matching_joinEntries]

end GrantMap

end RoleAccess
