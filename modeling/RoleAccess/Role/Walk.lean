import RoleAccess.Fault
import RoleAccess.Role

/-!
# The walk over active roles

Every active role is visited, and after it depth first the roles that it inherits. A role that is
reached along several paths is visited once for each. The whole tree below an active role shares
the variable prefix of that role. The walk ends early at an inherited role that is not declared, at
a role that inherits itself and at a visit that is refused; the number of declared roles outside the
current path falls with every descent, so it always ends. `walkUntil_eq_interrupt` says that a walk
with refusals is the walk without them, cut short.
-/

namespace RoleAccess

/-- A role on the way. `chain` leads from the active role to the one that inherits `name`. -/
structure Visit where
  chain : List String
  name : String
  role : Role
  scope : String

namespace Visit

/-- The active role in whose name the visit is made. -/
def member (v : Visit) : String := v.chain.headD v.name

/-- The inheritance path from the active role to the visited one. -/
def path (v : Visit) : List String := v.chain ++ [v.name]

end Visit

inductive Step where
  | visit (visit : Visit)
  | undeclared (role : String)

def Step.visit? : Step → Option Visit
  | visit v => some v
  | undeclared _ => none

/-- The steps of a walk, and the fault that it ends with, if any. -/
structure Walk where
  steps : List Step
  fault : Option Fault

namespace Walk

def done : Walk := ⟨[], none⟩

def fail (fault : Fault) : Walk := ⟨[], some fault⟩

def cons (step : Step) (w : Walk) : Walk := ⟨step :: w.steps, w.fault⟩

/-- One walk after the other. -/
def append (w rest : Walk) : Walk := ⟨w.steps ++ rest.steps, rest.fault⟩

/-- The walks of the items one after the other, up to the first that ends with a fault. -/
def forEach {α : Type} (walk : α → Walk) : List α → Walk
  | [] => done
  | a :: items =>
    let w := walk a
    match w.fault with
    | some _ => w
    | none => w.append (forEach walk items)

def visits (w : Walk) : List Visit := w.steps.filterMap Step.visit?

/-- Works through the visits, and at the end meets the fault of the walk. -/
def foldM {β : Type} (f : β → Visit → Except Fault β) (start : β) (w : Walk) : Except Fault β := do
  let b ← w.visits.foldlM f start
  match w.fault with
  | some fault => throw fault
  | none => return b

/-- The walk cut short after the first visit that `refuse` finds a fault with. -/
def interrupt (refuse : Visit → Option Fault) (w : Walk) : Walk :=
  w.steps.foldr (fun step rest =>
    match step.visit?.bind refuse with
    | some fault => cons step (fail fault)
    | none => cons step rest) ⟨[], w.fault⟩

theorem interrupt_cons_of_refused {refuse : Visit → Option Fault} {v : Visit} {fault : Fault}
    (w : Walk) (h : refuse v = some fault) :
    (cons (.visit v) w).interrupt refuse = cons (.visit v) (fail fault) := by
  simp [interrupt, cons, Step.visit?, h]

theorem interrupt_cons_of_passed {refuse : Visit → Option Fault} {v : Visit}
    (w : Walk) (h : refuse v = none) :
    (cons (.visit v) w).interrupt refuse = cons (.visit v) (w.interrupt refuse) := by
  simp [interrupt, cons, Step.visit?, h]

theorem interrupt_append (refuse : Visit → Option Fault) (w rest : Walk)
    (h : w.fault = none) :
    (w.append rest).interrupt refuse =
      match (w.interrupt refuse).fault with
      | some _ => w.interrupt refuse
      | none => (w.interrupt refuse).append (rest.interrupt refuse) := by
  obtain ⟨steps, fault⟩ := w
  obtain rfl : fault = none := h
  induction steps with
  | nil => rfl
  | cons step steps ih =>
    have hcons : ∀ w : Walk, (cons step w).interrupt refuse =
        match step.visit?.bind refuse with
        | some fault => cons step (fail fault)
        | none => cons step (w.interrupt refuse) := fun _ => rfl
    change (cons step (append ⟨steps, none⟩ rest)).interrupt refuse =
      match ((cons step ⟨steps, none⟩).interrupt refuse).fault with
      | some _ => (cons step ⟨steps, none⟩).interrupt refuse
      | none => ((cons step ⟨steps, none⟩).interrupt refuse).append (rest.interrupt refuse)
    rw [hcons, hcons]
    cases step.visit?.bind refuse with
    | some fault => rfl
    | none =>
      dsimp only
      rw [ih]
      have hfault : (cons step (interrupt refuse ⟨steps, none⟩)).fault =
          (interrupt refuse ⟨steps, none⟩).fault := rfl
      rw [hfault]
      split <;> rfl

theorem interrupt_fault_of_some (refuse : Visit → Option Fault) {w : Walk} {fault : Fault}
    (h : w.fault = some fault) : ∃ other, (w.interrupt refuse).fault = some other := by
  obtain ⟨steps, _⟩ := w
  obtain rfl := h
  induction steps with
  | nil => exact ⟨fault, rfl⟩
  | cons step steps ih =>
    obtain ⟨other, hother⟩ := ih
    simp only [interrupt, List.foldr_cons] at hother ⊢
    split
    · exact ⟨_, rfl⟩
    · exact ⟨other, hother⟩

theorem interrupt_forEach {α : Type} (refuse : Visit → Option Fault) (walk : α → Walk)
    (items : List α) :
    (forEach walk items).interrupt refuse =
      forEach (fun a => (walk a).interrupt refuse) items := by
  induction items with
  | nil => rfl
  | cons a items ih =>
    rw [forEach, forEach]
    cases h : (walk a).fault with
    | some fault =>
      obtain ⟨other, hother⟩ := interrupt_fault_of_some refuse h
      simp [hother]
    | none => rw [interrupt_append refuse _ _ h, ih]

/-- Cutting a walk short does not change a fold that fails on the refused visits. -/
theorem foldM_interrupt {β : Type} {refuse : Visit → Option Fault}
    {f : β → Visit → Except Fault β} (w : Walk) (start : β)
    (h : ∀ v fault, refuse v = some fault → ∀ b, f b v = .error fault) :
    (w.interrupt refuse).foldM f start = w.foldM f start := by
  obtain ⟨steps, fault⟩ := w
  induction steps generalizing start with
  | nil => rfl
  | cons step steps ih =>
    cases step with
    | undeclared name => exact ih start
    | visit v =>
      cases hv : refuse v with
      | some refused =>
        rw [show Walk.mk (.visit v :: steps) fault = cons (.visit v) ⟨steps, fault⟩ from rfl,
          interrupt_cons_of_refused _ hv]
        simp [foldM, visits, cons, fail, Step.visit?, h v refused hv, bind, Except.bind]
      | none =>
        rw [show Walk.mk (.visit v :: steps) fault = cons (.visit v) ⟨steps, fault⟩ from rfl,
          interrupt_cons_of_passed _ hv]
        cases hf : f start v with
        | error e =>
          simp [foldM, visits, cons, Step.visit?, hf, bind, Except.bind]
        | ok b =>
          have := ih b
          simpa [foldM, visits, cons, Step.visit?, hf, bind, Except.bind] using this

end Walk

namespace RoleSchema

/-- How many declared roles are not on the path. -/
def remaining (s : RoleSchema) (path : List String) : Nat :=
  (s.roles.names.filter (· ∉ path)).length

theorem remaining_append_lt {s : RoleSchema} {path : List String} {name : String} {role : Role}
    (declared : s.roles.get? name = some role) (fresh : name ∉ path) :
    s.remaining (path ++ [name]) < s.remaining path := by
  have hmem : name ∈ s.roles.names := NameMap.mem_names_of_lookup declared
  unfold remaining
  generalize s.roles.names = names at hmem
  have hsub : names.filter (· ∉ path ++ [name]) =
      (names.filter (· ∉ path)).filter (· ≠ name) := by
    rw [List.filter_filter]
    congr 1
    funext n
    simp [not_or, and_comm]
  rw [hsub]
  refine Nat.lt_of_le_of_ne (List.length_filter_le ..) fun heq => ?_
  have hall := List.length_filter_eq_length_iff.1 heq name
    (List.mem_filter.2 ⟨hmem, by simpa using fresh⟩)
  simp at hall

/-- The walk over the role `name` and what it inherits, on the path `chain` and under the variable
prefix `scope` where there is one already. The first visit that `refuse` finds a fault with is the
last. -/
def walkRole (s : RoleSchema) (refuse : Visit → Option Fault) (scope : Option String)
    (chain : List String) (name : String) : Walk :=
  match _hget : s.roles.get? name with
  | none =>
    match chain.getLast? with
    | some parent => .fail (.undeclaredInherited parent name)
    | none => .cons (.undeclared name) .done
  | some role =>
    if _hmem : name ∈ chain then .fail (.cyclicInheritance (chain ++ [name]))
    else
      let visit : Visit := ⟨chain, name, role, scope.getD (role.scope name)⟩
      match refuse visit with
      | some fault => .cons (.visit visit) (.fail fault)
      | none => .cons (.visit visit) (.forEach
          (fun n => walkRole s refuse (some visit.scope) (chain ++ [name]) n) role.inherits)
termination_by s.remaining chain
decreasing_by exact remaining_append_lt _hget _hmem

/-- The walk over a list of active roles up to the first refused visit. An active role that is not
declared is passed over. -/
def walkUntil (s : RoleSchema) (refuse : Visit → Option Fault) (roles : List String)
    (scope : Option String) : Walk :=
  .forEach (s.walkRole refuse scope []) roles

/-- The walk on which no visit is refused. -/
def walk (s : RoleSchema) (roles : List String) (scope : Option String) : Walk :=
  s.walkUntil (fun _ => none) roles scope

theorem walkRole_eq_interrupt (s : RoleSchema) (refuse : Visit → Option Fault)
    (scope : Option String) (chain : List String) (name : String) :
    s.walkRole refuse scope chain name =
      (s.walkRole (fun _ => none) scope chain name).interrupt refuse := by
  fun_induction walkRole s refuse scope chain name with
  | case1 scope chain name hget parent hparent =>
    rw [walkRole]
    split <;> simp_all [Walk.interrupt, Walk.fail]
  | case2 scope chain name hget hparent =>
    rw [walkRole]
    split <;> simp_all [Walk.interrupt, Walk.cons, Walk.done, Step.visit?]
  | case3 scope chain name role hget hmem =>
    rw [walkRole]
    split <;> simp_all [Walk.interrupt, Walk.fail]
  | case4 scope chain name role hget hmem visit fault hrefuse =>
    rw [walkRole]
    split
    · simp_all
    · rename_i role' hget'
      obtain rfl : role = role' := by simpa [hget] using hget'
      simp only [dif_neg hmem]
      exact (Walk.interrupt_cons_of_refused _ hrefuse).symm
  | case5 scope chain name role hget hmem visit hrefuse ih =>
    rw [walkRole.eq_def s (fun _ => none)]
    split
    · simp_all
    · rename_i role' hget'
      obtain rfl : role = role' := by simpa [hget] using hget'
      simp only [dif_neg hmem]
      rw [Walk.interrupt_cons_of_passed _ hrefuse, Walk.interrupt_forEach]
      congr 2
      funext n
      exact ih n

/-- A walk up to a refused visit is the free walk cut short there. -/
theorem walkUntil_eq_interrupt (s : RoleSchema) (refuse : Visit → Option Fault)
    (roles : List String) (scope : Option String) :
    s.walkUntil refuse roles scope = (s.walk roles scope).interrupt refuse := by
  rw [walkUntil, walk, walkUntil, Walk.interrupt_forEach]
  congr 1
  funext name
  exact s.walkRole_eq_interrupt refuse scope [] name

end RoleSchema

end RoleAccess
