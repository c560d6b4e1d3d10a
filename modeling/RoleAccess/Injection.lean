import RoleAccess.Condition
import RoleAccess.Event
import RoleAccess.Identity

/-!
# Injection of bindings

Injecting bindings into a predicate puts the value of every variable in its place and gives a
condition. A variable without a fitting value becomes a test or condition that refuses every row.
The entity is followed through the relations, since a test bound to a relation variable is put on
the primary key of the relation's target. An injector has the model for this beside the bindings.
-/

namespace RoleAccess

/-- Why a variable has no value at a leaf. -/
inductive Unresolved where
  | unbound
  | conditionOnColumn
  | unknownTarget
deriving DecidableEq

def Unresolved.event (name : String) : Unresolved → Event
  | unbound => .unboundVariable name
  | conditionOnColumn => .conditionOnColumn name
  | unknownTarget => .unknownTarget name

/-- The entity that a relation of `entity` leads to, where both are known. -/
def Model.target? (m : Model) (entity : Option String) (field : String) : Option String := do
  return (← m.relation? (← entity) field).target

namespace Bindings

/-- The value of a variable at a column leaf. -/
def testOf (b : Bindings) (name : String) : Except Unresolved ColumnTest :=
  match b.get? name with
  | some (.test test) => .ok test
  | some (.condition _) => .error .conditionOnColumn
  | none => .error .unbound

/-- The value of a variable at a relation leaf whose target has the given primary key. -/
def conditionOf (b : Bindings) (name : String) (primary : Option String) :
    Except Unresolved Condition :=
  match b.get? name, primary with
  | some (.condition c), _ => .ok c
  | some (.test test), some primary => .ok (.column primary test)
  | none, some _ => .error .unbound
  | _, none => .error .unknownTarget

/-- The test at a column leaf; without a value it is `never`. -/
def columnTest (b : Bindings) (name : String) : ColumnTest :=
  match b.testOf name with
  | .ok test => test
  | .error _ => .never

/-- The condition at a relation leaf; without a value it refuses every row of the target. -/
def relationCondition (b : Bindings) (name : String) (primary : Option String) : Condition :=
  match b.conditionOf name primary with
  | .ok c => c
  | .error _ => .refusal primary

mutual

/-- The condition that a predicate on `entity` becomes. -/
def inject (m : Model) (b : Bindings) (entity : Option String) : Predicate → Condition
  | .and parts => .and (injectList m b entity parts)
  | .or parts => .or (injectList m b entity parts)
  | .not part => .not (inject m b entity part)
  | .column field test => .column field test
  | .columnVariable field name => .column field (b.columnTest name)
  | .relation field inner => .relation field (inject m b (m.target? entity field) inner)
  | .relationVariable field name =>
    .relation field (b.relationCondition name ((m.target? entity field).bind m.primary?))

def injectList (m : Model) (b : Bindings) (entity : Option String) :
    List Predicate → List Condition
  | [] => []
  | part :: parts => inject m b entity part :: injectList m b entity parts

end

theorem injectList_eq_map (m : Model) (b : Bindings) (entity : Option String)
    (ps : List Predicate) : injectList m b entity ps = ps.map (inject m b entity) := by
  induction ps with
  | nil => rfl
  | cons p ps ih => rw [injectList, ih, List.map_cons]

/-- The event of a leaf whose variable has no value. -/
def leafEvents {α : Type} (name : String) : Except Unresolved α → List Event
  | .ok _ => []
  | .error reason => [reason.event name]

mutual

def injectEvents (m : Model) (b : Bindings) (entity : Option String) : Predicate → List Event
  | .and parts => injectListEvents m b entity parts
  | .or parts => injectListEvents m b entity parts
  | .not part => injectEvents m b entity part
  | .column _ _ => []
  | .columnVariable _ name => leafEvents name (b.testOf name)
  | .relation field inner => injectEvents m b (m.target? entity field) inner
  | .relationVariable field name =>
    leafEvents name (b.conditionOf name ((m.target? entity field).bind m.primary?))

def injectListEvents (m : Model) (b : Bindings) (entity : Option String) :
    List Predicate → List Event
  | [] => []
  | part :: parts => injectEvents m b entity part ++ injectListEvents m b entity parts

end

end Bindings

/-- Bindings to inject, with the model by which entities are followed. -/
structure Injector where
  model : Model
  bindings : Bindings

namespace Injector

/-- The condition that a predicate on an entity becomes. -/
def inject (j : Injector) (entity : String) (p : Predicate) : Condition :=
  j.bindings.inject j.model (some entity) p

def events (j : Injector) (entity : String) (p : Predicate) : List Event :=
  j.bindings.injectEvents j.model (some entity) p

end Injector

end RoleAccess
