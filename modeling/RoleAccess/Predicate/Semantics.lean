import RoleAccess.Condition.Semantics
import RoleAccess.Injection

/-!
# Meaning of predicates

A predicate holds on a row under a reading and bindings, without being injected first. A
variable that has no fitting value makes its leaf fail. What the rows behind a relation are is read
off the entities of the model.
-/

namespace RoleAccess

universe u

/-- What entity the rows behind a field are of: the target of the field, where the entity that has
the field is in the model and the field is a relation there. -/
def Model.relatedEntity (m : Model) (entity : Option String) (field : String) : Option String :=
  match entity.bind m.entities.get? with
  | none => none
  | some e =>
    match e.fields.get? field with
    | some (.relation r) => some r.target
    | _ => none

namespace VariableValue

variable {Row : Type u} (I : Reading Row) (m : Model)

/-- Whether a row satisfies a value at a relation leaf. A test is put on the primary key, so it
needs the entity of the row to be in the model. -/
def HoldsOn (entity : Option String) (row : Row) : VariableValue → Prop
  | test t => ∃ name e, entity = some name ∧ m.entities.get? name = some e ∧
      I.passes row e.primary t
  | condition c => c.Holds I row

end VariableValue

namespace Predicate

variable {Row : Type u} (I : Reading Row) (m : Model) (b : Bindings)

mutual

/-- Whether the predicate holds on a row of the given entity. -/
def Holds : Predicate → Option String → Row → Prop
  | .and parts, entity, row => AllHold parts entity row
  | .or parts, entity, row => SomeHolds parts entity row
  | .not part, entity, row => ¬ Holds part entity row
  | .column field test, _, row => I.passes row field test
  | .columnVariable field name, _, row =>
    ∃ test, b.get? name = some (.test test) ∧ I.passes row field test
  | .relation field inner, entity, row =>
    ∃ other, I.related row field other ∧ Holds inner (m.relatedEntity entity field) other
  | .relationVariable field name, entity, row =>
    ∃ value, b.get? name = some value ∧ ∃ other, I.related row field other ∧
      value.HoldsOn I m (m.relatedEntity entity field) other

def AllHold : List Predicate → Option String → Row → Prop
  | [], _, _ => True
  | part :: parts, entity, row => Holds part entity row ∧ AllHold parts entity row

def SomeHolds : List Predicate → Option String → Row → Prop
  | [], _, _ => False
  | part :: parts, entity, row => Holds part entity row ∨ SomeHolds parts entity row

end

theorem allHold_iff {parts : List Predicate} {entity : Option String} {row : Row} :
    AllHold I m b parts entity row ↔ ∀ part ∈ parts, part.Holds I m b entity row := by
  induction parts with
  | nil => simp [AllHold]
  | cons part parts ih => simp [AllHold, ih]

theorem someHolds_iff {parts : List Predicate} {entity : Option String} {row : Row} :
    SomeHolds I m b parts entity row ↔ ∃ part ∈ parts, part.Holds I m b entity row := by
  induction parts with
  | nil => simp [SomeHolds]
  | cons part parts ih => simp [SomeHolds, ih]

end Predicate

end RoleAccess
