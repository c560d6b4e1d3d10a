import Mathlib.Data.List.Chain
import RoleAccess.Proofs.RoleWalk

/-!
# The walk and the graph of inheritance

The walk over the active roles ends without a fault just if no role that is reached from a declared
one of them inherits an undeclared role or inherits itself. Then it visits all of them. A fault
names what it met: an inherited role that is not declared, or a path of inheritance that has come
back to one of its roles.
-/

namespace RoleAccess

namespace RoleSchema

variable {s : RoleSchema} {scope : Option String} {chain roles : List String}
  {active name inherited reached : String} {role : Role}

lemma Inherits.declared (h : s.Inherits name inherited) : s.Declared name := by
  obtain ⟨role, hrole, _⟩ := h
  exact ⟨role, hrole⟩

lemma Cyclic.declared (h : s.Cyclic name) : s.Declared name := by
  obtain ⟨_, hedge, _⟩ := h
  exact hedge.declared

/-- Only from a declared active role is a declared role reached. -/
lemma Reachable.of_declared (hactive : active ∈ roles) (hreach : s.Reaches active reached)
    (hdeclared : s.Declared reached) : s.Reachable roles reached := by
  refine ⟨active, hactive, ?_, hreach⟩
  cases hreach with
  | refl => exact hdeclared
  | step hfirst _ => exact hfirst.declared

/-! ## One role -/

/-- The walk below a declared role is without a fault if the role is new on the path and the walks
below all that it inherits are. -/
lemma fault_walkFrom_eq_none_iff (hrole : s.roles.get? name = some role) :
    (s.walkFrom scope chain name).fault = none ↔
      name ∉ chain ∧ ∀ inherited ∈ role.inherits,
        (s.walkFrom (some (scope.getD (role.scope name))) (chain ++ [name]) inherited).fault =
          none := by
  by_cases hmem : name ∈ chain
  · rw [walkFrom_of_mem hrole hmem]
    exact ⟨fun h => (nomatch h), fun h => absurd hmem h.1⟩
  · rw [walkFrom_of_fresh hrole hmem]
    exact Walk.fault_forEach_eq_none_iff.trans ⟨fun h => ⟨hmem, h⟩, fun h => h.2⟩

/-- An undeclared role may only stand at the start of a path. -/
lemma fault_walkFrom_of_undeclared (hrole : s.roles.get? name = none) :
    (s.walkFrom scope chain name).fault = none ↔ chain = [] := by
  rw [walkFrom, walkRole, ← List.getLast?_eq_none_iff]
  split
  · cases chain.getLast? with
    | none => exact ⟨fun _ => rfl, fun _ => rfl⟩
    | some parent =>
      constructor
      · intro h
        cases h
      · intro h
        cases h
  · rename_i hsome
    cases hrole.symm.trans hsome

lemma declared_of_fault_eq_none (hfault : (s.walkFrom scope chain name).fault = none)
    (hchain : chain ≠ []) : s.Declared name := by
  cases hget : s.roles.get? name with
  | some role => exact ⟨role, hget⟩
  | none => exact absurd ((fault_walkFrom_of_undeclared hget).1 hfault) hchain

lemma visits_walkFrom_of_inherits (hrole : s.roles.get? name = some role)
    (hfault : (s.walkFrom scope chain name).fault = none)
    (hinherited : inherited ∈ role.inherits) :
    (s.walkFrom (some (scope.getD (role.scope name))) (chain ++ [name]) inherited).visits ⊆
      (s.walkFrom scope chain name).visits := by
  intro v hv
  obtain ⟨hfresh, hbelow⟩ := (fault_walkFrom_eq_none_iff hrole).1 hfault
  rw [walkFrom_of_fresh hrole hfresh, Walk.visits_cons,
    Walk.visits_forEach (Walk.fault_forEach_eq_none_iff.2 hbelow)]
  exact List.mem_cons_of_mem _ (List.mem_flatMap.2 ⟨inherited, hinherited, hv⟩)

/-! ## Reached roles -/

/-- A walk without a fault contains a walk without a fault below every role that is reached, on a
path that continues its own. -/
lemma exists_walkFrom_of_reaches (hreach : s.Reaches name reached)
    (hfault : (s.walkFrom scope chain name).fault = none) :
    ∃ scope' more, (s.walkFrom scope' (chain ++ more) reached).fault = none ∧
      (s.walkFrom scope' (chain ++ more) reached).visits ⊆
        (s.walkFrom scope chain name).visits := by
  -- every edge makes the path longer by the role that inherits
  induction hreach generalizing scope chain with
  | refl name =>
    refine ⟨scope, [], ?_, ?_⟩ <;> rw [List.append_nil]
    · exact hfault
    · exact List.Subset.refl _
  | @step name inherited reached hedge _ ih =>
    obtain ⟨role, hrole, hinherited⟩ := hedge
    have hbelow := ((fault_walkFrom_eq_none_iff hrole).1 hfault).2 inherited hinherited
    obtain ⟨scope', more, hfault', hvisits⟩ := ih hbelow
    rw [List.append_assoc] at hfault' hvisits
    exact ⟨scope', [name] ++ more, hfault',
      fun v hv => visits_walkFrom_of_inherits hrole hfault hinherited (hvisits hv)⟩

/-- A role that inherits on the way to a reached role stands on the path to it. -/
lemma exists_walkFrom_of_inherits (hrole : s.roles.get? name = some role)
    (hinherited : inherited ∈ role.inherits) (hreach : s.Reaches inherited reached)
    (hfault : (s.walkFrom scope chain name).fault = none) :
    ∃ scope' path, name ∈ path ∧
      (s.walkFrom scope' path reached).fault = none := by
  have hbelow := ((fault_walkFrom_eq_none_iff hrole).1 hfault).2 inherited hinherited
  obtain ⟨scope', more, hfault', _⟩ := exists_walkFrom_of_reaches hreach hbelow
  exact ⟨scope', _, by simp, hfault'⟩

/-- What a walk can go through without a fault: every role that is reached inherits declared roles
only, and never itself. -/
structure SoundFrom (s : RoleSchema) (name : String) : Prop where
  declared : ∀ inheriting inherited, s.Reaches name inheriting → s.Inherits inheriting inherited →
    s.Declared inherited
  acyclic : ∀ reached, s.Reaches name reached → ¬ s.Cyclic reached

lemma SoundFrom.of_inherits (h : s.SoundFrom name) (hedge : s.Inherits name inherited) :
    s.SoundFrom inherited where
  declared inheriting other hreach := h.declared inheriting other (.step hedge hreach)
  acyclic reached hreach := h.acyclic reached (.step hedge hreach)

lemma soundFrom_of_fault_eq_none
    (hfault : (s.walkFrom scope chain name).fault = none) : s.SoundFrom name where
  declared inheriting inherited hreach hedge := by
    obtain ⟨role, hrole, hinherited⟩ := hedge
    obtain ⟨scope', more, hfault', _⟩ := exists_walkFrom_of_reaches hreach hfault
    have hbelow := ((fault_walkFrom_eq_none_iff hrole).1 hfault').2 inherited hinherited
    exact declared_of_fault_eq_none hbelow (by simp)
  acyclic reached hreach := by
    rintro ⟨inherited, ⟨role, hrole, hinherited⟩, hback⟩
    obtain ⟨scope', more, hfault', _⟩ := exists_walkFrom_of_reaches hreach hfault
    obtain ⟨scope'', path, hmem, hagain⟩ :=
      exists_walkFrom_of_inherits hrole hinherited hback hfault'
    -- the walk comes back to a role that stands on its path, which is a fault
    exact ((fault_walkFrom_eq_none_iff hrole).1 hagain).1 hmem

/-- Every role on the path inherits on the way to `name`. -/
def LeadsTo (s : RoleSchema) (chain : List String) (name : String) : Prop :=
  ∀ earlier ∈ chain, ∃ inherited, s.Inherits earlier inherited ∧ s.Reaches inherited name

lemma LeadsTo.append (h : s.LeadsTo chain name) (hedge : s.Inherits name inherited) :
    s.LeadsTo (chain ++ [name]) inherited := by
  intro earlier hearlier
  rcases List.mem_append.1 hearlier with hearlier | hlast
  · obtain ⟨next, hnext, hreach⟩ := h earlier hearlier
    exact ⟨next, hnext, hreach.trans (.of_inherits hedge)⟩
  · obtain rfl : earlier = name := List.mem_singleton.1 hlast
    exact ⟨inherited, hedge, .refl inherited⟩

lemma fault_eq_none_of_soundFrom (hsound : s.SoundFrom name) (hchain : s.LeadsTo chain name)
    (hdeclared : s.Declared name ∨ chain = []) :
    (s.walkFrom scope chain name).fault = none := by
  unfold walkFrom
  fun_induction walkRole s (fun _ => none) scope chain name with
  | case1 scope chain name hget parent hparent =>
    rcases hdeclared with ⟨role, hrole⟩ | rfl
    · cases hget.symm.trans hrole
    · cases hparent
  | case2 scope chain name hget hparent => rfl
  | case3 scope chain name role hget hmem =>
    exact absurd (hchain name hmem) (hsound.acyclic name (.refl name))
  | case4 scope chain name role hget hmem visit fault hrefuse => cases hrefuse
  | case5 scope chain name role hget hmem visit hrefuse ih =>
    refine Walk.fault_forEach_eq_none_iff.2 fun inherited hinherited => ?_
    have hedge : s.Inherits name inherited := ⟨role, hget, hinherited⟩
    exact ih inherited (hsound.of_inherits hedge) (hchain.append hedge)
      (.inl (hsound.declared name inherited (.refl name) hedge))

/-- The walk over active roles is without a fault just if every role that is reached from a declared
one inherits declared roles only, and never itself. -/
theorem fault_walk_eq_none_iff :
    (s.walk roles scope).fault = none ↔
      ∀ name, s.Reachable roles name →
        (∀ inherited, s.Inherits name inherited → s.Declared inherited) ∧ ¬ s.Cyclic name := by
  refine Walk.fault_forEach_eq_none_iff.trans ⟨?_, ?_⟩
  · rintro hfault name ⟨active, hactive, _, hreach⟩
    have hsound := soundFrom_of_fault_eq_none (hfault active hactive)
    exact ⟨fun inherited hedge => hsound.declared name inherited hreach hedge,
      hsound.acyclic name hreach⟩
  · intro hsound active hactive
    refine fault_eq_none_of_soundFrom ?_ (fun _ h => (nomatch h)) (.inr rfl)
    constructor
    · intro reached inherited hreach hedge
      have hreachable := Reachable.of_declared hactive hreach hedge.declared
      exact (hsound reached hreachable).1 inherited hedge
    · intro reached hreach hcyclic
      have hreachable := Reachable.of_declared hactive hreach hcyclic.declared
      exact (hsound reached hreachable).2 hcyclic

/-- A walk without a fault visits every declared role that is reached from a declared active one. -/
theorem exists_visit_of_reachable (hfault : (s.walk roles scope).fault = none)
    (hreachable : s.Reachable roles name) (hrole : s.roles.get? name = some role) :
    ∃ v ∈ (s.walk roles scope).visits, v.name = name ∧ v.role = role := by
  obtain ⟨active, hactive, _, hreach⟩ := hreachable
  have hparts := Walk.fault_forEach_eq_none_iff.1 hfault
  obtain ⟨scope', more, hfault', hvisits⟩ :=
    exists_walkFrom_of_reaches hreach (hparts active hactive)
  refine ⟨⟨[] ++ more, name, role, scope'.getD (role.scope name)⟩, ?_, rfl, rfl⟩
  rw [visits_walk hfault, List.mem_flatMap]
  refine ⟨active, hactive, hvisits ?_⟩
  rw [walkFrom_of_fresh hrole ((fault_walkFrom_eq_none_iff hrole).1 hfault').1, Walk.visits_cons]
  exact List.mem_cons_self

/-! ## Faults -/

/-- The path starts at `active` and goes along `inherits`. -/
structure InheritancePath (s : RoleSchema) (active : String) (path : List String) : Prop where
  starts : path.head? = some active
  chained : path.IsChain s.Inherits

lemma InheritancePath.append (h : s.InheritancePath active (chain ++ [name]))
    (hedge : s.Inherits name inherited) :
    s.InheritancePath active (chain ++ [name] ++ [inherited]) where
  starts := by
    rw [List.head?_append, h.starts]
    rfl
  chained := by
    refine List.IsChain.append h.chained (List.isChain_singleton inherited) ?_
    simpa using hedge

lemma reaches_of_mem_of_isChain {path : List String} (h : (name :: path).IsChain s.Inherits)
    (hmem : reached ∈ name :: path) : s.Reaches name reached := by
  induction path generalizing name with
  | nil =>
    obtain rfl : reached = name := List.mem_singleton.1 hmem
    exact .refl reached
  | cons next path ih =>
    obtain ⟨hedge, h⟩ := List.isChain_cons_cons.1 h
    rcases List.mem_cons.1 hmem with rfl | hmem
    · exact .refl reached
    · exact .step hedge (ih h hmem)

lemma InheritancePath.reaches {path : List String} (h : s.InheritancePath active path)
    (hmem : reached ∈ path) : s.Reaches active reached := by
  cases path with
  | nil => cases hmem
  | cons first path =>
    obtain rfl : first = active := Option.some.inj h.starts
    exact reaches_of_mem_of_isChain h.chained hmem

/-- A fault that a walk from `active` may end with. -/
inductive FaultFrom (s : RoleSchema) (active : String) : Fault → Prop
  | undeclared {inheriting inherited : String} : s.Reaches active inheriting →
    s.Inherits inheriting inherited → ¬ s.Declared inherited →
    FaultFrom s active (.undeclaredInherited inheriting inherited)
  | cyclic {chain : List String} {name : String} : s.InheritancePath active (chain ++ [name]) →
    name ∈ chain → FaultFrom s active (.cyclicInheritance (chain ++ [name]))

lemma faultFrom_of_walkFrom {fault : Fault} (hpath : s.InheritancePath active (chain ++ [name]))
    (h : (s.walkFrom scope chain name).fault = some fault) :
    s.FaultFrom active fault := by
  unfold walkFrom at h
  fun_induction walkRole s (fun _ => none) scope chain name with
  | case1 scope chain name hget parent hparent =>
    cases h
    obtain ⟨earlier, rfl⟩ := List.getLast?_eq_some_iff.1 hparent
    refine .undeclared (hpath.reaches (by simp)) ?_ ?_
    · have hchained := hpath.chained
      rw [List.append_assoc] at hchained
      exact (List.isChain_cons_cons.1 hchained.right_of_append).1
    · rintro ⟨role, hrole⟩
      cases hget.symm.trans hrole
  | case2 scope chain name hget hparent => cases h
  | case3 scope chain name role hget hmem =>
    cases h
    exact .cyclic hpath hmem
  | case4 scope chain name role hget hmem visit fault hrefuse => cases hrefuse
  | case5 scope chain name role hget hmem visit hrefuse ih =>
    obtain ⟨inherited, hinherited, h⟩ := Walk.exists_of_fault_forEach h
    exact ih inherited (hpath.append ⟨role, hget, hinherited⟩) h

/-- The fault of a walk over active roles is one from a declared role of the list. -/
theorem faultFrom_of_walk {fault : Fault} (h : (s.walk roles scope).fault = some fault) :
    ∃ active ∈ roles, s.Declared active ∧ s.FaultFrom active fault := by
  obtain ⟨active, hactive, h⟩ := Walk.exists_of_fault_forEach h
  refine ⟨active, hactive, ?_, faultFrom_of_walkFrom ⟨rfl, List.isChain_singleton active⟩ h⟩
  cases hget : s.roles.get? active with
  | some role => exact ⟨role, hget⟩
  | none => cases h.symm.trans ((fault_walkFrom_of_undeclared hget).2 rfl)

end RoleSchema

end RoleAccess
