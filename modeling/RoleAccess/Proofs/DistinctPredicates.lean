import Mathlib.Data.List.Nodup
import RoleAccess.Proofs.CompiledLookups

/-!
# Lists without repetition

The lists of compiled grants repeat no predicate: entries are written by joining, joining appends
only what is missing, and so do the bound for unknown routes and the merge of two maps.
-/

namespace RoleAccess

lemma nodup_appendMissing {l r : List Predicate} (hl : l.Nodup) : (appendMissing l r).Nodup := by
  refine List.foldlRecOn r _ hl fun acc hacc p _ => ?_
  by_cases hp : p ∈ acc
  · rwa [if_pos hp]
  · rw [if_neg hp, ← List.concat_eq_append]
    exact hacc.concat hp

namespace Grant

lemma nodup_join {g h : Grant} (hg : g.predicates.Nodup) : (g.join h).predicates.Nodup := by
  cases g with
  | allow => exact List.nodup_nil
  | rows l =>
    cases h with
    | allow => exact List.nodup_nil
    | rows r => exact nodup_appendMissing hg

end Grant

namespace GrantMap

/-- Every entry of the map has the property `P`. -/
def Each (P : Grant → Prop) (m : GrantMap) : Prop := ∀ route g, m.get? route = some g → P g

variable {m : GrantMap} {P : Grant → Prop}

lemma get?_empty (route : Route) : (∅ : GrantMap).get? route = none := by
  cases route <;> rfl

lemma get?_insert (m : GrantMap) (route other : Route) (g : Grant) :
    (m.insert route g).get? other = if other = route then some g else m.get? other := by
  cases route <;> cases other <;> simp [insert, get?]

lemma each_empty : Each P ∅ := by
  intro route g h
  cases (get?_empty route).symm.trans h

lemma Each.matching (hm : m.Each P) {route : Route} {g : Grant} (h : m.matching route = some g) :
    P g := by
  obtain ⟨source, hsource⟩ := exists_get?_of_matching h
  exact hm source g hsource

lemma Each.insert (hm : m.Each P) (route : Route) {g : Grant} (hg : P g) :
    (m.insert route g).Each P := by
  intro other h hother
  rw [get?_insert] at hother
  by_cases heq : other = route
  · rw [if_pos heq] at hother
    cases hother
    exact hg
  · rw [if_neg heq] at hother
    exact hm other h hother

lemma Each.add (hm : m.Each P) (route : Route) {p : Predicate} (hnew : P (.rows [p]))
    (hjoin : ∀ g, P g → P (g.join (.rows [p]))) : (m.add route p).Each P := by
  unfold GrantMap.add
  cases hget : m.get? route with
  | none => exact hm.insert route hnew
  | some g => exact hm.insert route (hjoin g (hm route g hget))

lemma Each.bounded (hm : m.Each P) (hallow : P .allow) (hunion : P (.rows m.union)) :
    m.bounded.Each P := by
  by_cases hopen : ∃ route, m.get? route = some .allow
  · obtain ⟨route, hroute⟩ := hopen
    rw [bounded_of_allow hroute]
    exact hm.insert .unknown hallow
  · rw [bounded_of_no_allow fun route h => hopen ⟨route, h⟩]
    split
    · exact hm
    · exact hm.insert .unknown hunion

/-- No entry of the map repeats a predicate. -/
def Distinct (m : GrantMap) : Prop := ∀ route g, m.get? route = some g → g.predicates.Nodup

lemma distinct_empty : Distinct ∅ := each_empty

lemma Distinct.matching (hm : m.Distinct) {route : Route} {g : Grant}
    (h : m.matching route = some g) : g.predicates.Nodup :=
  Each.matching hm h

lemma Distinct.insert (hm : m.Distinct) (route : Route) {g : Grant} (hg : g.predicates.Nodup) :
    (m.insert route g).Distinct :=
  Each.insert hm route hg

lemma Distinct.allow (hm : m.Distinct) (route : Route) : (m.allow route).Distinct :=
  hm.insert route List.nodup_nil

lemma Distinct.add (hm : m.Distinct) (route : Route) (p : Predicate) : (m.add route p).Distinct :=
  Each.add hm route (List.nodup_singleton p) fun _ => Grant.nodup_join

lemma Distinct.union (hm : m.Distinct) : m.union.Nodup := by
  have hlisted : (Grant.listed m.unknown).Nodup := by
    cases hunknown : m.unknown with
    | none => exact List.nodup_nil
    | some g => exact hm .unknown g hunknown
  exact List.foldlRecOn m.toList _ hlisted fun _ hacc _ _ => nodup_appendMissing hacc

lemma Distinct.bounded (hm : m.Distinct) : m.bounded.Distinct :=
  Each.bounded hm List.nodup_nil hm.union

lemma Distinct.merge {l r : GrantMap} (hl : l.Distinct) (hr : r.Distinct) :
    (l.merge r).Distinct := by
  apply Distinct.bounded
  intro route g h
  have hcombine : Grant.combine (l.matching route) (r.matching route) = some g := by
    rw [← matching_joinEntries]
    exact matching_of_get? h
  rcases hlm : l.matching route with _ | gl
  · rw [hlm, Grant.combine_none_left] at hcombine
    exact hr.matching hcombine
  · rcases hrm : r.matching route with _ | gr
    · rw [hlm, hrm, Grant.combine_none_right] at hcombine
      cases hcombine
      exact hl.matching hlm
    · rw [hlm, hrm, Grant.combine_some] at hcombine
      cases hcombine
      exact Grant.nodup_join (hl.matching hlm)

end GrantMap

/-- The routes of an entry are told apart. -/
lemma RuleEntry.ne_unknown_of_mem_routes {e : RuleEntry} {route : Route} (h : route ∈ e.routes) :
    route ≠ .unknown := by
  rintro rfl
  unfold routes at h
  split at h <;> simp at h

/-- The grants of a rule are a bounded map of all that its entries allow and add: they do so on
routes that are told apart, and add what the rule's names stand for. -/
lemma Rule.exists_bounded_of_grants_eq_ok {P : GrantMap → Prop}
    {lookup : String → Except Fault Predicate} {rule : Rule} {m : GrantMap} (hempty : P ∅)
    (hallow : ∀ m route, route ≠ .unknown → P m → P (m.allow route))
    (hadd : ∀ m route name p, route ≠ .unknown → lookup name = .ok p → P m → P (m.add route p))
    (h : rule.grants lookup = .ok m) : ∃ joined, P joined ∧ joined.bounded = m := by
  obtain ⟨joined, hjoined, h⟩ := bind_eq_ok_iff.1 h
  cases h
  refine ⟨joined, foldlM_preserves (fun m e next hm hnext => ?_) hempty hjoined, rfl⟩
  have hroutes : ∀ (write : GrantMap → Route → GrantMap),
      (∀ m route, route ≠ .unknown → P m → P (write m route)) → P (e.routes.foldl write m) :=
    fun write hwrite => List.foldlRecOn e.routes write hm fun m hm route hroute =>
      hwrite m route (RuleEntry.ne_unknown_of_mem_routes hroute) hm
  unfold RuleEntry.addTo at hnext
  split at hnext
  · cases hnext
    exact hroutes _ hallow
  · cases hnext
    exact hm
  · rename_i name _
    obtain ⟨p, hp, hnext⟩ := bind_eq_ok_iff.1 hnext
    cases hnext
    exact hroutes _ fun m route hroute => hadd m route name p hroute hp

lemma Rule.distinct_grants {lookup : String → Except Fault Predicate} {rule : Rule} {m : GrantMap}
    (h : rule.grants lookup = .ok m) : m.Distinct := by
  obtain ⟨joined, hjoined, rfl⟩ := exists_bounded_of_grants_eq_ok GrantMap.distinct_empty
    (fun _ route _ hm => hm.allow route) (fun _ route _ p _ _ hm => hm.add route p) h
  exact hjoined.bounded

/-- No list of the grants merged over visits repeats a predicate. -/
theorem Schema.distinct_of_foldlM_eq_ok {s : Schema} {visits : List Visit} {merged : GrantTable}
    (h : visits.foldlM s.mergeVisit .empty = .ok merged) : merged.Every GrantMap.Distinct :=
  every_of_foldlM_eq_ok GrantMap.distinct_empty (fun _ _ _ => Rule.distinct_grants)
    (fun _ _ => GrantMap.Distinct.merge) (GrantTable.every_empty _) h

end RoleAccess
