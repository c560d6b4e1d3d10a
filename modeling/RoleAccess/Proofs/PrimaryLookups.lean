import RoleAccess.Proofs.MergeLaws
import RoleAccess.Proofs.PrimaryUnion

/-!
# Lookups of a primary key

What is filed under the primary key after compilation is told by the other fields alone. On any
route it has an entry, a grant, an unconditional grant or a predicate exactly where one of them has.
-/

namespace RoleAccess

lemma NameMap.isEmpty_eq_true_iff {α : Type} {m : NameMap α} :
    m.isEmpty = true ↔ ∀ n, m.get? n = none := by
  rw [isEmpty, List.isEmpty_iff]
  constructor
  · intro h n
    rw [get?, h, List.lookup_nil]
  · intro h
    rw [List.eq_nil_iff_forall_not_mem]
    rintro ⟨n, v⟩ hentry
    cases (mem_entries.1 hentry).symm.trans (h n)

namespace GrantTable

variable {model : Model} {t : GrantTable} {entity primary : String} {action : FieldAction}
  {route : Route}

/-- The entry that a table files for an item of an entity under a route. -/
def stored? (t : GrantTable) (entity : String) (item : Item) (route : Route) : Option Grant :=
  (t.map? entity item).bind (·.get? route)

/-- The grant maps of the fields of an entity under an action. -/
def fields (t : GrantTable) (entity : String) (action : FieldAction) : FieldGrants :=
  match t.entity? entity with
  | some g => g.fields.get action
  | none => .empty

lemma map?_field (t : GrantTable) (entity : String) (action : FieldAction) (field : String) :
    t.map? entity (.field action field) = (t.fields entity action).get? field := by
  unfold map? fields
  cases t.entity? entity with
  | none => rfl
  | some g => rfl

lemma map?_primary (hprimary : model.primary? entity = some primary) :
    (t.unifyPrimaries model).map? entity (.field action primary) =
      if (t.fields entity action).isEmpty then none
      else some ((t.fields entity action).union primary) := by
  unfold map? fields
  rw [entity?_unifyPrimaries hprimary]
  cases t.entity? entity with
  | none => rfl
  | some g =>
    simp only [Option.map_some, Option.bind_some, EntityGrants.map?, PerAction.get_map]
    generalize g.fields.get action = fields
    unfold FieldGrants.unifyPrimary
    by_cases hempty : fields.isEmpty = true
    · rw [if_pos hempty, if_pos hempty, NameMap.isEmpty_eq_true_iff.1 hempty primary]
    · rw [if_neg hempty, if_neg hempty, NameMap.get?_insert, if_pos rfl]

/-- The primary key is filed where any field is, be it only the key itself. -/
lemma isSome_map?_primary_iff (hprimary : model.primary? entity = some primary) :
    ((t.unifyPrimaries model).map? entity (.field action primary)).isSome = true ↔
      ∃ field, (t.map? entity (.field action field)).isSome = true := by
  rw [map?_primary hprimary]
  simp only [map?_field]
  by_cases hempty : (t.fields entity action).isEmpty = true
  · rw [if_pos hempty]
    simp [NameMap.isEmpty_eq_true_iff.1 hempty]
  · have hsome : ∃ field, ((t.fields entity action).get? field).isSome = true := by
      by_contra hnone
      refine hempty (NameMap.isEmpty_eq_true_iff.2 fun field => ?_)
      exact Option.not_isSome_iff_eq_none.1 (not_exists.1 hnone field)
    rw [if_neg hempty]
    exact iff_of_true rfl hsome

lemma exists_mem_others_iff {P : GrantMap → Prop} :
    (∃ m ∈ (t.fields entity action).others primary, P m) ↔
      ∃ field, field ≠ primary ∧ ∃ m, t.map? entity (.field action field) = some m ∧ P m := by
  constructor
  · rintro ⟨m, hm, hP⟩
    obtain ⟨field, hfield, hget⟩ := FieldGrants.mem_others.1 hm
    exact ⟨field, hfield, m, (t.map?_field entity action field).trans hget, hP⟩
  · rintro ⟨field, hfield, m, hm, hP⟩
    rw [map?_field] at hm
    exact ⟨m, FieldGrants.mem_others.2 ⟨field, hfield, hm⟩, hP⟩

lemma isSome_stored?_primary_iff (ht : t.Normalized)
    (hprimary : model.primary? entity = some primary) :
    ((t.unifyPrimaries model).stored? entity (.field action primary) route).isSome = true ↔
      ∃ field, field ≠ primary ∧ (t.stored? entity (.field action field) route).isSome = true := by
  have hothers : ∀ m ∈ (t.fields entity action).others primary, m.Normalized := by
    intro m hm
    obtain ⟨field, _, hget⟩ := FieldGrants.mem_others.1 hm
    exact ht entity (.field action field) m ((t.map?_field entity action field).trans hget)
  have hunion :
      ((t.unifyPrimaries model).stored? entity (.field action primary) route).isSome = true ↔
        ∃ m ∈ (t.fields entity action).others primary, (m.get? route).isSome = true := by
    have hempty : ((∅ : GrantMap).get? route).isSome = false := by cases route <;> rfl
    rw [stored?, map?_primary hprimary, FieldGrants.union_eq_foldl_others]
    split
    · rename_i hnone
      simp [FieldGrants.others, List.isEmpty_iff.1 hnone]
    · rw [Option.bind_some, GrantMap.isSome_get?_foldl_merge GrantMap.normalized_empty hothers,
        hempty]
      simp
  rw [hunion, exists_mem_others_iff]
  simp only [stored?, Option.isSome_bind, Option.any_eq_true]

lemma grant?_primary_eq_foldl (ht : t.Normalized)
    (hprimary : model.primary? entity = some primary) :
    (t.unifyPrimaries model).grant? entity (.field action primary) route =
      (((t.fields entity action).others primary).map (·.matching route)).foldl
        Grant.combine none := by
  cases hg : t.entity? entity with
  | none =>
    have hunified : (t.unifyPrimaries model).entity? entity = none := by
      rw [entity?_unifyPrimaries hprimary, hg, Option.map_none]
    rw [grant?, map?, hunified, fields, hg]
    rfl
  | some g =>
    rw [grant?_unifyPrimaries_primary ht hprimary hg, fields, hg]

lemma exists_grant_others_iff (t : GrantTable) (entity primary : String) (action : FieldAction)
    (route : Route) {Q : Option Grant → Prop} (hQ : ¬ Q none) :
    (∃ g ∈ ((t.fields entity action).others primary).map (·.matching route), Q g) ↔
      ∃ field, field ≠ primary ∧ Q (t.grant? entity (.field action field) route) := by
  have hmaps : (∃ g ∈ ((t.fields entity action).others primary).map (·.matching route), Q g) ↔
      ∃ m ∈ (t.fields entity action).others primary, Q (m.matching route) := by simp
  rw [hmaps, exists_mem_others_iff]
  refine exists_congr fun field => and_congr_right fun _ => ?_
  rw [grant?]
  cases t.map? entity (.field action field) with
  | none => simp [hQ]
  | some m => simp

/-- What the empty map and all maps of a table have, and merges keep, the maps that are written
under primary keys have too. -/
lemma Every.unifyPrimaries {P : GrantMap → Prop} (hempty : P ∅)
    (hmerge : ∀ l r, P l → P r → P (l.merge r)) (ht : t.Every P) (model : Model) :
    (t.unifyPrimaries model).Every P := by
  intro entity item m hm
  rcases primary_or_not model entity item with ⟨primary, action, hprimary, rfl⟩ | hown
  · rw [map?_primary hprimary, FieldGrants.union_eq_foldl_others] at hm
    split at hm
    · cases hm
    · cases hm
      refine List.foldlRecOn _ _ hempty fun acc hacc m hm => hmerge acc m hacc ?_
      obtain ⟨field, _, hget⟩ := FieldGrants.mem_others.1 hm
      exact ht entity (.field action field) m ((t.map?_field entity action field).trans hget)
  · rw [map?_unifyPrimaries hown] at hm
    exact ht entity item m hm

variable (ht : t.Normalized) (hprimary : model.primary? entity = some primary)
include ht hprimary

lemma grant?_primary_eq_none_iff :
    (t.unifyPrimaries model).grant? entity (.field action primary) route = none ↔
      ∀ field, field ≠ primary → t.grant? entity (.field action field) route = none := by
  have hothers := exists_grant_others_iff t entity primary action route (Q := (· ≠ none))
    fun h => h rfl
  rw [grant?_primary_eq_foldl ht hprimary, Grant.foldl_combine_eq_none_iff]
  constructor
  · rintro ⟨_, h⟩ field hfield
    by_contra hne
    obtain ⟨g, hg, hne⟩ := hothers.2 ⟨field, hfield, hne⟩
    exact hne (h g hg)
  · intro h
    refine ⟨rfl, fun g hg => ?_⟩
    by_contra hne
    obtain ⟨field, hfield, hne⟩ := hothers.1 ⟨g, hg, hne⟩
    exact hne (h field hfield)

lemma grant?_primary_eq_allow_iff :
    (t.unifyPrimaries model).grant? entity (.field action primary) route = some .allow ↔
      ∃ field, field ≠ primary ∧ t.grant? entity (.field action field) route = some .allow := by
  rw [grant?_primary_eq_foldl ht hprimary, Grant.foldl_combine_eq_allow_iff,
    ← exists_grant_others_iff t entity primary action route (Q := (· = some .allow)) (by simp)]
  simp

lemma mem_listed_primary_iff {p : Predicate}
    (h : (t.unifyPrimaries model).grant? entity (.field action primary) route ≠ some .allow) :
    p ∈ Grant.listed ((t.unifyPrimaries model).grant? entity (.field action primary) route) ↔
      ∃ field, field ≠ primary ∧
        p ∈ Grant.listed (t.grant? entity (.field action field) route) := by
  rw [grant?_primary_eq_foldl ht hprimary] at h ⊢
  rw [Grant.mem_listed_foldl_combine h,
    ← exists_grant_others_iff t entity primary action route (Q := fun g => p ∈ Grant.listed g)
      List.not_mem_nil]
  simp [Grant.listed]

end GrantTable

end RoleAccess
