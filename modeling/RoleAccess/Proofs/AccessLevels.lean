import RoleAccess.Proofs.PrimaryUnion
import RoleAccess.Proofs.RoleWalk

/-!
# Levels of access

An answer gives nothing, some rows, or all rows. Combining grants gives the higher of their levels,
so the level of a compiled lookup is the highest that some visited role gives, and further active
roles can only raise it. The primary key has the highest level of the other fields, which is raised
with theirs.
-/

namespace RoleAccess

namespace GrantTable

variable {model : Model} {t : GrantTable} {entity primary : String} {n : Nat}

/-- The primary key stays under a level as long as all other fields do. -/
lemma level_primary_le_iff (ht : t.Normalized) (hprimary : model.primary? entity = some primary)
    (action : FieldAction) (route : Route) :
    Grant.level ((t.unifyPrimaries model).grant? entity (.field action primary) route) ≤ n ↔
      ∀ field, field ≠ primary → Grant.level (t.grant? entity (.field action field) route) ≤ n := by
  cases hg : t.entity? entity with
  | none =>
    have hprimary : (t.unifyPrimaries model).entity? entity = none := by
      rw [entity?_unifyPrimaries hprimary, hg, Option.map_none]
    simp [grant?, map?, hg, hprimary, Grant.level, Access.ofGrant, Access.level]
  | some g =>
    have hfield : ∀ field, t.map? entity (.field action field) = (g.fields.get action).get? field := by
      intro field
      rw [map?, hg]
      rfl
    rw [grant?_unifyPrimaries_primary ht hprimary hg, Grant.level_foldl_combine_le_iff,
      List.forall_mem_map]
    constructor
    · rintro ⟨_, hothers⟩ field hne
      rw [grant?, hfield]
      cases hget : (g.fields.get action).get? field with
      | none => exact Nat.zero_le n
      | some m => exact hothers m (FieldGrants.mem_others.2 ⟨field, hne, hget⟩)
    · intro hfields
      refine ⟨Nat.zero_le n, fun m hm => ?_⟩
      obtain ⟨field, hne, hget⟩ := FieldGrants.mem_others.1 hm
      have hm := hfields field hne
      rwa [grant?, hfield, hget] at hm

/-- Higher levels before the primary keys are unified are higher levels afterwards. -/
lemma level_unifyPrimaries_le {l r : GrantTable} (hl : l.Normalized) (hr : r.Normalized)
    (h : ∀ entity item route,
      Grant.level (l.grant? entity item route) ≤ Grant.level (r.grant? entity item route))
    (entity : String) (item : Item) (route : Route) :
    Grant.level ((l.unifyPrimaries model).grant? entity item route) ≤
      Grant.level ((r.unifyPrimaries model).grant? entity item route) := by
  -- only the primary key is written, and its level is that of other fields, where `h` applies
  rcases primary_or_not model entity item with ⟨primary, action, hprimary, rfl⟩ | hown
  · rw [level_primary_le_iff hl hprimary]
    intro field hne
    have hfield := (level_primary_le_iff hr hprimary action route).1 (Nat.le_refl _) field hne
    exact Nat.le_trans (h entity (.field action field) route) hfield
  · rw [grant?_unifyPrimaries hown, grant?_unifyPrimaries hown]
    exact h entity item route

end GrantTable

namespace Schema

variable {s : Schema} {visits fewer : List Visit} {t merged part : GrantTable} {n : Nat}

/-- The merge of the grants of visits stays under a level as long as those of each visit do. -/
lemma level_grant?_le_iff (ht : t.Normalized) (h : visits.foldlM s.mergeVisit t = .ok merged)
    (entity : String) (item : Item) (route : Route) :
    Grant.level (merged.grant? entity item route) ≤ n ↔
      Grant.level (t.grant? entity item route) ≤ n ∧
        ∀ v ∈ visits, ∀ g, v.grants s.model = .ok g →
          Grant.level (g.grant? entity item route) ≤ n := by
  -- induction over any start, as one visit changes the table that the others are merged into
  induction visits generalizing t with
  | nil =>
    cases h
    simp
  | cons v visits ih =>
    rw [List.foldlM_cons] at h
    obtain ⟨next, hnext, h⟩ := bind_eq_ok_iff.1 h
    obtain ⟨own, hown, rfl⟩ := mergeVisit_eq_ok_iff.1 hnext
    have hn : own.Normalized := Visit.normalized_of_grants_eq_ok hown
    rw [ih (ht.merge hn) h, GrantTable.grant?_merge ht hn, Grant.level_combine, Nat.max_le,
      List.forall_mem_cons, and_assoc]
    have hhead : (∀ g, v.grants s.model = .ok g →
        Grant.level (g.grant? entity item route) ≤ n) ↔
          Grant.level (own.grant? entity item route) ≤ n := by
      rw [hown]
      exact ⟨fun h => h own rfl, fun h g hg => Except.ok.inj hg ▸ h⟩
    rw [hhead]

/-- Grants merged over some of the visits are nowhere on a higher level than over all of them. -/
lemma level_grant?_le_of_subset (hsub : fewer ⊆ visits)
    (hpart : fewer.foldlM s.mergeVisit .empty = .ok part)
    (h : visits.foldlM s.mergeVisit .empty = .ok merged)
    (entity : String) (item : Item) (route : Route) :
    Grant.level (part.grant? entity item route) ≤ Grant.level (merged.grant? entity item route) := by
  rw [level_grant?_le_iff GrantTable.normalized_empty hpart]
  refine ⟨Nat.zero_le _, fun v hv => ?_⟩
  have hall := (level_grant?_le_iff GrantTable.normalized_empty h entity item route).1 (Nat.le_refl _)
  exact hall.2 v (hsub hv)

/-- Further roles never lower a level. If a role list compiles, so does every list of roles from
it, with no higher level for any item of any entity on any route, the primary keys and the unknown
routes included, and without the choice of primary keys where the larger list does not give it. -/
theorem compile_level_le_of_subset {scope : Option String} {few roles : List String}
    {t : GrantTable} (hsub : few ⊆ roles) (h : s.compile roles scope = .ok t) :
    ∃ u, s.compile few scope = .ok u ∧
      (∀ entity item route,
        (u.access entity item route).level ≤ (t.access entity item route).level) ∧
      ∀ entity, u.customPrimary entity = true → t.customPrimary entity = true := by
  obtain ⟨hfault, merged, hmerged, rfl⟩ := compile_eq_ok_iff.1 h
  obtain ⟨hfew, hvisits⟩ := RoleSchema.walk_of_subset hsub hfault
  have hgrants := exists_foldlM_eq_ok_iff.1 ⟨merged, hmerged⟩
  obtain ⟨part, hpart⟩ := (exists_foldlM_eq_ok_iff (t := .empty)).2
    fun v hv => hgrants v (hvisits hv)
  refine ⟨_, compile_eq_ok_iff.2 ⟨hfew, part, hpart, rfl⟩, ?_, ?_⟩
  · exact GrantTable.level_unifyPrimaries_le (normalized_of_foldlM_eq_ok hpart)
      (normalized_of_foldlM_eq_ok hmerged) (level_grant?_le_of_subset hvisits hpart hmerged)
  · intro entity
    rw [GrantTable.customPrimary_unifyPrimaries, GrantTable.customPrimary_unifyPrimaries,
      customPrimary_of_foldlM_eq_ok hpart, customPrimary_of_foldlM_eq_ok hmerged]
    intro hcustom
    rcases Bool.or_eq_true_iff.1 hcustom with hempty | hany
    · cases hempty
    · obtain ⟨v, hv, hv'⟩ := List.any_eq_true.1 hany
      exact Bool.or_eq_true_iff.2 (.inr (List.any_eq_true.2 ⟨v, hvisits hv, hv'⟩))

theorem editor_raises_reader :
    ["reader"] ⊆ ["editor", "reader"] ∧
      ∃ t u, newsroom.compile ["editor", "reader"] none = .ok t ∧
        newsroom.compile ["reader"] none = .ok u ∧
        (u.access "Article" (.field .read "id") (.relation "author")).level ≤
          (t.access "Article" (.field .read "id") (.relation "author")).level ∧
        u.access "Article" (.field .read "id") (.relation "author") =
          .conditional [.columnVariable "site" "reader__site"] ∧
        t.access "Article" (.field .read "id") (.relation "author") = .allowed := by
  have hsub : ["reader"] ⊆ ["editor", "reader"] := by decide
  have few : (newsroom.compile ["reader"] none).toOption.map
      (·.access "Article" (.field .read "id") (.relation "author")) =
        some (.conditional [.columnVariable "site" "reader__site"]) := by decide +kernel
  have all : (newsroom.compile ["editor", "reader"] none).toOption.map
      (·.access "Article" (.field .read "id") (.relation "author")) = some .allowed := by
    decide +kernel
  obtain ⟨t, ht, hallowed⟩ := exists_of_toOption_map all
  obtain ⟨u, hu, hconditional⟩ := exists_of_toOption_map few
  obtain ⟨u', hu', hlevel, _⟩ := compile_level_le_of_subset hsub ht
  obtain rfl : u = u' := Except.ok.inj (hu.symm.trans hu')
  exact ⟨hsub, t, u, ht, hu, hlevel _ _ _, hconditional, hallowed⟩

end Schema

end RoleAccess
