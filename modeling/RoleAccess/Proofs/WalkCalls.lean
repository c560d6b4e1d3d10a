import Mathlib.Data.List.Perm.Subperm
import RoleAccess.Proofs.RoleGraph
import RoleAccess.Proofs.RoleSets

/-!
# Calls of the walk

The walk as it is run: a call goes over a list of roles, hands each to a visitor and makes a nested
call for what the role inherits, with the role added to the chain that the call is made on. Nothing
in a call bounds the nesting, so the run is given a number of calls that may be nested, and is stuck
if that is too small. It never is where the number reaches that of the declared roles: a chain holds
declared roles and none twice, so every descent leaves fewer roles outside it. What comes of the run
is then the fold of the visitor over the walk.
-/

namespace RoleAccess

/-! ## Runs -/

/-- What comes of a part of a run, and the chains that it makes calls on, in order. -/
structure Outcome (β : Type) where
  result : Except Fault β
  calls : List (List String)

namespace Outcome

variable {α β : Type}

def pass (b : β) : Outcome β := ⟨.ok b, []⟩

def fail (fault : Fault) : Outcome β := ⟨.error fault, []⟩

/-- Goes on with the next part, unless there is a fault. -/
def andThen (o : Outcome β) (next : β → Option (Outcome β)) : Option (Outcome β) :=
  match o.result with
  | .error _ => some o
  | .ok b => (next b).map fun rest => ⟨rest.result, o.calls ++ rest.calls⟩

/-- The steps of the items one after the other, up to the first fault. -/
def forEach (step : β → α → Option (Outcome β)) : List α → β → Option (Outcome β)
  | [], b => some (pass b)
  | a :: items, b => (step b a).bind fun o => o.andThen (forEach step items)

end Outcome

/-- A call under a variable prefix, on a chain, over a list of roles. Without an outcome it is
stuck. -/
abbrev WalkCall (β : Type) : Type :=
  Option String → List String → List String → β → Option (Outcome β)

lemma Walk.foldM_cons_visit {β : Type} (f : β → Visit → Except Fault β) (v : Visit) (w : Walk)
    (b : β) : (cons (.visit v) w).foldM f b = (do w.foldM f (← f b v)) := by
  rw [foldM, visits_cons, List.foldlM_cons]
  cases f b v with
  | error e => rfl
  | ok next => rfl

namespace RoleSchema

variable {β : Type}

/-- What a call does for one role of its list. What the role inherits is left to `nested`. -/
def stepOver (s : RoleSchema) (visit : β → Visit → Except Fault β) (nested : WalkCall β)
    (scope : Option String) (chain : List String) (b : β) (name : String) : Option (Outcome β) :=
  match s.roles.get? name with
  | none =>
    match chain.getLast? with
    | some parent => some (.fail (.undeclaredInherited parent name))
    | none => some (.pass b)
  | some role =>
    if name ∈ chain then some (.fail (.cyclicInheritance (chain ++ [name])))
    else
      let v : Visit := ⟨chain, name, role, scope.getD (role.scope name)⟩
      match visit b v with
      | .error fault => some (.fail fault)
      | .ok b =>
        if role.inherits = [] then some (.pass b)
        else nested (some v.scope) (chain ++ [name]) role.inherits b

def callWith (s : RoleSchema) (visit : β → Visit → Except Fault β) (nested : WalkCall β) :
    WalkCall β := fun scope chain roles b =>
  (Outcome.forEach (s.stepOver visit nested scope chain) roles b).map fun o =>
    ⟨o.result, chain :: o.calls⟩

/-- A call in which at most `depth` further calls may be nested. -/
def call (s : RoleSchema) (visit : β → Visit → Except Fault β) : Nat → WalkCall β
  | 0 => s.callWith visit fun _ _ _ _ => none
  | depth + 1 => s.callWith visit (s.call visit depth)

/-- The chain holds different declared roles and leads from an active role along inheritance. -/
structure CallChain (s : RoleSchema) (roles chain : List String) : Prop where
  nodup : chain.Nodup
  declared : ∀ name ∈ chain, s.Declared name
  path : chain = [] ∨ ∃ active ∈ roles, s.InheritancePath active chain

/-- The second chain has one role more than the first, and leaves fewer declared roles outside. -/
def Descends (s : RoleSchema) (caller called : List String) : Prop :=
  (∃ name, called = caller ++ [name]) ∧ s.remaining called < s.remaining caller

/-- The calls are on proper chains and nested in one another or in one on `chain`. -/
def NestedBelow (s : RoleSchema) (roles chain : List String) (calls : List (List String)) : Prop :=
  ∀ called ∈ calls, s.CallChain roles called ∧ ∃ caller ∈ chain :: calls, s.Descends caller called

variable {s : RoleSchema} {visit : β → Visit → Except Fault β} {scope : Option String}
  {roles chain items : List String} {name : String} {role : Role}

/-! ## Chains -/

lemma callChain_nil : s.CallChain roles [] where
  nodup := List.nodup_nil
  declared _ h := nomatch h
  path := .inl rfl

lemma CallChain.append (h : s.CallChain roles chain) (hrole : s.roles.get? name = some role)
    (hfresh : name ∉ chain)
    (hpath : ∃ active ∈ roles, s.InheritancePath active (chain ++ [name])) :
    s.CallChain roles (chain ++ [name]) where
  nodup := by
    rw [← List.concat_eq_append]
    exact h.nodup.concat hfresh
  declared := by
    simp only [List.forall_mem_append, List.forall_mem_singleton]
    exact ⟨h.declared, role, hrole⟩
  path := .inr hpath

/-- A chain is at most as long as there are declared roles. -/
lemma CallChain.length_le (h : s.CallChain roles chain) : chain.length ≤ s.roles.size := by
  have hnames : chain ⊆ s.roles.names := by
    intro name hname
    obtain ⟨role, hrole⟩ := h.declared name hname
    exact NameMap.mem_names_of_lookup hrole
  have hlength := (h.nodup.subperm hnames).length_le
  rwa [NameMap.names, List.length_map] at hlength

lemma descends_append (hrole : s.roles.get? name = some role) (hfresh : name ∉ chain) :
    s.Descends chain (chain ++ [name]) :=
  ⟨⟨name, rfl⟩, remaining_append_lt hrole hfresh⟩

lemma remaining_nil : s.remaining [] = s.roles.size := by
  simp [remaining, NameMap.names, NameMap.size]

lemma nestedBelow_nil : s.NestedBelow roles chain [] := fun _ h => nomatch h

lemma NestedBelow.append {l r : List (List String)} (hl : s.NestedBelow roles chain l)
    (hr : s.NestedBelow roles chain r) : s.NestedBelow roles chain (l ++ r) := by
  intro called hcalled
  rcases List.mem_append.1 hcalled with h | h
  · obtain ⟨hchain, caller, hcaller, hdescends⟩ := hl called h
    exact ⟨hchain, caller, List.cons_subset_cons chain (List.subset_append_left l r) hcaller,
      hdescends⟩
  · obtain ⟨hchain, caller, hcaller, hdescends⟩ := hr called h
    exact ⟨hchain, caller, List.cons_subset_cons chain (List.subset_append_right l r) hcaller,
      hdescends⟩

/-- A call that descends, with all that is nested in it, is nested below its caller. -/
lemma NestedBelow.descend {next : List String} {calls : List (List String)}
    (h : s.NestedBelow roles next calls) (hnext : s.CallChain roles next)
    (hdescends : s.Descends chain next) : s.NestedBelow roles chain (next :: calls) := by
  intro called hcalled
  rcases List.mem_cons.1 hcalled with rfl | hcalled
  · exact ⟨hnext, chain, List.mem_cons_self, hdescends⟩
  · obtain ⟨hchain, caller, hcaller, hdescends⟩ := h called hcalled
    exact ⟨hchain, caller, List.mem_cons_of_mem chain hcaller, hdescends⟩

/-! ## Runs against walks -/

/-- A part of a run is not stuck and comes to what the walk does, by calls nested below the chain. -/
def Follows (s : RoleSchema) (roles chain : List String) (visit : β → Visit → Except Fault β)
    (w : Walk) (b : β) (run : Option (Outcome β)) : Prop :=
  ∃ calls, run = some ⟨w.foldM visit b, calls⟩ ∧ s.NestedBelow roles chain calls

lemma follows_forEach {step : β → String → Option (Outcome β)} {walk : String → Walk}
    (h : ∀ name ∈ items, ∀ b, s.Follows roles chain visit (walk name) b (step b name)) (b : β) :
    s.Follows roles chain visit (Walk.forEach walk items) b (Outcome.forEach step items b) := by
  induction items generalizing b with
  | nil => exact ⟨[], rfl, nestedBelow_nil⟩
  | cons name items ih =>
    rw [List.forall_mem_cons] at h
    obtain ⟨calls, hrun, hcalls⟩ := h.1 b
    rw [Outcome.forEach, hrun, Option.bind_some, Outcome.andThen]
    cases hfault : (walk name).fault with
    | some fault =>
      rw [Walk.forEach_cons_of_fault hfault]
      obtain ⟨e, he⟩ := Walk.foldM_of_fault (f := visit) (b := b) hfault
      rw [Follows, he]
      exact ⟨calls, rfl, hcalls⟩
    | none =>
      rw [Walk.forEach_cons_of_done hfault, Follows, Walk.foldM_append hfault]
      cases (walk name).foldM visit b with
      | error e => exact ⟨calls, rfl, hcalls⟩
      | ok next =>
        obtain ⟨rest, hrest, hcalls'⟩ := ih h.2 next
        exact ⟨calls ++ rest, congrArg (Option.map _) hrest, hcalls.append hcalls'⟩

/-- The step for a role comes to what the walk below the role does, if the call that it leads to
comes to what the walk over the inherited roles does. -/
lemma follows_stepOver {nested : WalkCall β} (hchain : s.CallChain roles chain)
    (hpath : ∃ active ∈ roles, s.InheritancePath active (chain ++ [name]))
    (hnested : ∀ role scope b, s.roles.get? name = some role → name ∉ chain →
      s.CallChain roles (chain ++ [name]) → ∃ calls,
        nested scope (chain ++ [name]) role.inherits b = some
          ⟨(Walk.forEach (s.walkFrom scope (chain ++ [name])) role.inherits).foldM visit b,
            (chain ++ [name]) :: calls⟩ ∧
        s.NestedBelow roles (chain ++ [name]) calls) (b : β) :
    s.Follows roles chain visit (s.walkFrom scope chain name) b
      (s.stepOver visit nested scope chain b name) := by
  unfold stepOver
  cases hrole : s.roles.get? name with
  | none =>
    rw [walkFrom, walkRole]
    split
    · cases chain.getLast? with
      | some parent => exact ⟨[], rfl, nestedBelow_nil⟩
      | none => exact ⟨[], rfl, nestedBelow_nil⟩
    · rename_i hsome
      cases hrole.symm.trans hsome
  | some role =>
    dsimp only
    by_cases hmem : name ∈ chain
    · rw [if_pos hmem, walkFrom_of_mem hrole hmem]
      exact ⟨[], rfl, nestedBelow_nil⟩
    · rw [if_neg hmem, walkFrom_of_fresh hrole hmem, Follows, Walk.foldM_cons_visit]
      cases visit b ⟨chain, name, role, scope.getD (role.scope name)⟩ with
      | error fault => exact ⟨[], rfl, nestedBelow_nil⟩
      | ok next =>
        dsimp only
        by_cases hinherits : role.inherits = []
        · rw [if_pos hinherits, hinherits]
          exact ⟨[], rfl, nestedBelow_nil⟩
        · rw [if_neg hinherits]
          have hnext := hchain.append hrole hmem hpath
          obtain ⟨calls, hrun, hcalls⟩ := hnested role _ next hrole hmem hnext
          exact ⟨_, hrun, hcalls.descend hnext (descends_append hrole hmem)⟩

lemma exists_callWith {nested : WalkCall β}
    (h : ∀ name ∈ items, ∀ b, s.Follows roles chain visit (s.walkFrom scope chain name) b
      (s.stepOver visit nested scope chain b name)) (b : β) :
    ∃ calls, s.callWith visit nested scope chain items b = some
        ⟨(Walk.forEach (s.walkFrom scope chain) items).foldM visit b, chain :: calls⟩ ∧
      s.NestedBelow roles chain calls := by
  obtain ⟨calls, hrun, hcalls⟩ := follows_forEach h b
  exact ⟨calls, congrArg (Option.map _) hrun, hcalls⟩

/-- A call on a proper chain is not stuck if as many calls may be nested in it as declared roles are
outside the chain. -/
lemma exists_call {depth : Nat} (hchain : s.CallChain roles chain)
    (hpaths : ∀ name ∈ items, ∃ active ∈ roles, s.InheritancePath active (chain ++ [name]))
    (hdepth : s.remaining chain ≤ depth) (b : β) :
    ∃ calls, s.call visit depth scope chain items b = some
        ⟨(Walk.forEach (s.walkFrom scope chain) items).foldM visit b, chain :: calls⟩ ∧
      s.NestedBelow roles chain calls := by
  -- a nested call is on a longer chain, and one fewer may be nested in it
  induction depth generalizing chain items scope b with
  | zero =>
    refine exists_callWith (fun name hname => follows_stepOver hchain (hpaths name hname) ?_) b
    -- no declared role is outside the chain, so no call can be nested
    intro role scope b hrole hfresh _
    have hless := remaining_append_lt hrole hfresh
    omega
  | succ depth ih =>
    refine exists_callWith (fun name hname => follows_stepOver hchain (hpaths name hname) ?_) b
    intro role scope b hrole hfresh hnext
    have hless := remaining_append_lt hrole hfresh
    refine ih hnext (fun inherited hinherited => ?_) (by omega) b
    obtain ⟨active, hactive, hpath⟩ := hpaths name hname
    exact ⟨active, hactive, hpath.append ⟨role, hrole, hinherited⟩⟩

/-- On every schema the run over active roles comes to an end, with what the visitor makes of the
walk, if as many calls may be nested as there are declared roles, or more. Each of its calls is on a
chain of different declared roles that leads from an active role along inheritance, so on one that
is no longer than there are declared roles. Each but the first is made by another call, whose chain
is shorter by one role and leaves more declared roles outside. -/
theorem walk_calls_end (s : RoleSchema) (roles : List String) (scope : Option String)
    (visit : β → Visit → Except Fault β) (start : β) (more : Nat) :
    ∃ calls, s.call visit (s.roles.size + more) scope [] roles start =
        some ⟨(s.walk roles scope).foldM visit start, calls⟩ ∧
      ∀ chain ∈ calls, s.CallChain roles chain ∧ chain.length ≤ s.roles.size ∧
        (chain = [] ∨ ∃ caller ∈ calls, s.Descends caller chain) := by
  have hpaths : ∀ name ∈ roles, ∃ active ∈ roles, s.InheritancePath active ([] ++ [name]) :=
    fun name hname => ⟨name, hname, rfl, List.isChain_singleton name⟩
  have hdepth : s.remaining [] ≤ s.roles.size + more := by
    rw [remaining_nil]
    exact Nat.le_add_right ..
  obtain ⟨calls, hrun, hcalls⟩ := exists_call callChain_nil hpaths hdepth start
  refine ⟨[] :: calls, hrun, List.forall_mem_cons.2 ⟨?_, fun chain hchain => ?_⟩⟩
  · exact ⟨callChain_nil, Nat.zero_le _, .inl rfl⟩
  · obtain ⟨hproper, hcaller⟩ := hcalls chain hchain
    exact ⟨hproper, hproper.length_le, .inr hcaller⟩

/-- Two roles that inherit each other. -/
def eachOther : RoleSchema :=
  (declare {} "editor" (Role.inherit {} ["reader"])).declare "reader" (Role.inherit {} ["editor"])

/-- The bound is sharp: two calls are nested before the cycle is noticed, and with one the run is
stuck. -/
example : (eachOther.call (fun _ _ => .ok ()) 1 none [] ["editor"] ()).isNone = true ∧
    (eachOther.call (fun _ _ => .ok ()) 2 none [] ["editor"] ()).map (·.calls) =
      some [[], ["editor"], ["editor", "reader"]] := by
  decide

end RoleSchema

end RoleAccess
