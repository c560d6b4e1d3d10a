import Mathlib.Logic.Basic
import RoleAccess.Role.Reachability
import RoleAccess.Role.Walk

/-!
# Visits of the walk

Every visit is made in the name of an active role: the visited role is reached from it, and its
variables go under the prefix of that role. Where the walk ends without a fault, every declared
active role is visited itself.
-/

namespace RoleAccess

namespace Walk

variable {α : Type} {walk : α → Walk} {items : List α}

lemma visits_cons (v : Visit) (w : Walk) : (cons (.visit v) w).visits = v :: w.visits := rfl

lemma visits_append (w rest : Walk) : (w.append rest).visits = w.visits ++ rest.visits :=
  List.filterMap_append

lemma forEach_cons_of_fault {a : α} {fault : Fault} (h : (walk a).fault = some fault) :
    forEach walk (a :: items) = walk a := by
  simp only [forEach, h]

lemma forEach_cons_of_done {a : α} (h : (walk a).fault = none) :
    forEach walk (a :: items) = (walk a).append (forEach walk items) := by
  simp only [forEach, h]

lemma mem_visits_forEach {v : Visit} (h : v ∈ (forEach walk items).visits) :
    ∃ a ∈ items, v ∈ (walk a).visits := by
  induction items with
  | nil => cases h
  | cons a items ih =>
    cases hfault : (walk a).fault with
    | some fault =>
      rw [forEach_cons_of_fault hfault] at h
      exact ⟨a, List.mem_cons_self, h⟩
    | none =>
      rw [forEach_cons_of_done hfault, visits_append, List.mem_append] at h
      rcases h with h | h
      · exact ⟨a, List.mem_cons_self, h⟩
      · obtain ⟨a', ha', hv⟩ := ih h
        exact ⟨a', List.mem_cons_of_mem a ha', hv⟩

/-- A walk without a fault has the visits of all its parts. -/
lemma visits_forEach (h : (forEach walk items).fault = none) :
    (forEach walk items).visits = items.flatMap fun a => (walk a).visits := by
  induction items with
  | nil => rfl
  | cons a items ih =>
    cases hfault : (walk a).fault with
    | some fault =>
      rw [forEach_cons_of_fault hfault, hfault] at h
      cases h
    | none =>
      rw [forEach_cons_of_done hfault] at h ⊢
      rw [visits_append, List.flatMap_cons, ih h]

lemma exists_of_fault_forEach {fault : Fault} (h : (forEach walk items).fault = some fault) :
    ∃ a ∈ items, (walk a).fault = some fault := by
  induction items with
  | nil => cases h
  | cons a items ih =>
    cases hfault : (walk a).fault with
    | some other =>
      rw [forEach_cons_of_fault hfault] at h
      exact ⟨a, List.mem_cons_self, h⟩
    | none =>
      rw [forEach_cons_of_done hfault] at h
      obtain ⟨a', ha', h⟩ := ih h
      exact ⟨a', List.mem_cons_of_mem a ha', h⟩

lemma fault_forEach_eq_none_iff :
    (forEach walk items).fault = none ↔ ∀ a ∈ items, (walk a).fault = none := by
  induction items with
  | nil => exact ⟨fun _ _ h => (nomatch h), fun _ => rfl⟩
  | cons a items ih =>
    rw [List.forall_mem_cons, ← ih]
    cases hfault : (walk a).fault with
    | some fault =>
      rw [forEach_cons_of_fault hfault, hfault]
      exact ⟨fun h => (nomatch h), fun h => (nomatch h.1)⟩
    | none =>
      rw [forEach_cons_of_done hfault]
      exact ⟨fun h => ⟨rfl, h⟩, fun h => h.2⟩

end Walk

/-- The visit is made in the name of the role `active`, under the variable prefix `scope`. -/
structure Visit.MadeFor (s : RoleSchema) (active scope : String) (v : Visit) : Prop where
  declared : s.roles.get? v.name = some v.role
  reached : s.Reaches active v.name
  member_eq : v.member = active
  scope_eq : v.scope = scope

namespace RoleSchema

variable {s : RoleSchema} {scope : Option String}

/-- The walk below a role on which no visit is refused. -/
abbrev walkFrom (s : RoleSchema) (scope : Option String) (chain : List String) (name : String) :
    Walk :=
  s.walkRole (fun _ => none) scope chain name

lemma walkFrom_of_fresh {chain : List String} {name : String} {role : Role}
    (hrole : s.roles.get? name = some role) (hfresh : name ∉ chain) :
    s.walkFrom scope chain name =
      .cons (.visit ⟨chain, name, role, scope.getD (role.scope name)⟩)
        (.forEach (s.walkFrom (some (scope.getD (role.scope name))) (chain ++ [name]))
          role.inherits) := by
  rw [walkFrom, walkRole]
  split
  · rename_i hnone
    cases hnone.symm.trans hrole
  · rename_i role' hrole'
    obtain rfl : role = role' := Option.some.inj (hrole.symm.trans hrole')
    rw [dif_neg hfresh]

lemma walkFrom_of_mem {chain : List String} {name : String} {role : Role}
    (hrole : s.roles.get? name = some role) (hmem : name ∈ chain) :
    s.walkFrom scope chain name = .fail (.cyclicInheritance (chain ++ [name])) := by
  rw [walkFrom, walkRole]
  split
  · rename_i hnone
    cases hnone.symm.trans hrole
  · rw [dif_pos hmem]

lemma mem_visits_walkRole (refuse : Visit → Option Fault) (scope : Option String)
    (chain : List String) (name : String) :
    ∀ v ∈ (s.walkRole refuse scope chain name).visits,
      s.roles.get? v.name = some v.role ∧ s.Reaches name v.name ∧ v.member = chain.headD name ∧
        ∃ role, s.roles.get? name = some role ∧ v.scope = scope.getD (role.scope name) := by
  fun_induction walkRole s refuse scope chain name with
  | case1 scope chain name hget parent hparent =>
    intro v hv
    cases hv
  | case2 scope chain name hget hparent =>
    intro v hv
    cases hv
  | case3 scope chain name role hget hmem =>
    intro v hv
    cases hv
  | case4 scope chain name role hget hmem visit fault hrefuse =>
    intro v hv
    obtain rfl : v = visit := List.mem_singleton.1 hv
    exact ⟨hget, .refl name, rfl, role, hget, rfl⟩
  | case5 scope chain name role hget hmem visit hrefuse ih =>
    intro v hv
    rcases List.mem_cons.1 hv with rfl | hv
    · exact ⟨hget, .refl name, rfl, role, hget, rfl⟩
    · -- Below this role the prefix is fixed, and the path begins where this role's path begins.
      obtain ⟨inherited, hinherited, hv⟩ := Walk.mem_visits_forEach hv
      obtain ⟨hdeclared, hreached, hmember, _, _, hscope⟩ := ih inherited v hv
      refine ⟨hdeclared, .step ⟨role, hget, hinherited⟩ hreached, ?_, role, hget, hscope⟩
      rw [hmember]
      cases chain <;> rfl

theorem mem_visits_walk {roles : List String} {v : Visit} (h : v ∈ (s.walk roles scope).visits) :
    ∃ active ∈ roles, ∃ role, s.roles.get? active = some role ∧
      v.MadeFor s active (scope.getD (role.scope active)) := by
  obtain ⟨active, hactive, hv⟩ := Walk.mem_visits_forEach h
  obtain ⟨hdeclared, hreached, hmember, role, hrole, hscope⟩ :=
    mem_visits_walkRole _ scope [] active v hv
  exact ⟨active, hactive, role, hrole, hdeclared, hreached, hmember, hscope⟩

lemma visits_walk {roles : List String} (hfault : (s.walk roles scope).fault = none) :
    (s.walk roles scope).visits = roles.flatMap fun name => (s.walkFrom scope [] name).visits :=
  Walk.visits_forEach hfault

/-- A declared active role is visited itself, with no role before it on the path. -/
theorem active_mem_visits_walk {roles : List String} {active : String} {role : Role}
    (hfault : (s.walk roles scope).fault = none) (hactive : active ∈ roles)
    (hrole : s.roles.get? active = some role) :
    ⟨[], active, role, scope.getD (role.scope active)⟩ ∈ (s.walk roles scope).visits := by
  rw [visits_walk hfault, List.mem_flatMap]
  refine ⟨active, hactive, ?_⟩
  rw [walkFrom_of_fresh hrole List.not_mem_nil, Walk.visits_cons]
  exact List.mem_cons_self

/-- A walk over some of the roles of a walk without a fault has no fault and no further visits. -/
theorem walk_of_subset {fewer roles : List String} (hsub : fewer ⊆ roles)
    (hfault : (s.walk roles scope).fault = none) :
    (s.walk fewer scope).fault = none ∧
      (s.walk fewer scope).visits ⊆ (s.walk roles scope).visits := by
  have hall := Walk.fault_forEach_eq_none_iff.1 hfault
  have hfewer : (s.walk fewer scope).fault = none :=
    Walk.fault_forEach_eq_none_iff.2 fun active hactive => hall active (hsub hactive)
  refine ⟨hfewer, fun v hv => ?_⟩
  rw [visits_walk hfewer, List.mem_flatMap] at hv
  rw [visits_walk hfault, List.mem_flatMap]
  obtain ⟨active, hactive, hv⟩ := hv
  exact ⟨active, hsub hactive, hv⟩

end RoleSchema

end RoleAccess
