import Mathlib.Logic.Basic
import RoleAccess.Role.Json

/-!
# Canonical values

A JSON string that spells a UUID is read as that UUID, and one at a column leaf that names a
constant test as that test. So a text that spells a UUID and a column variable called `never` or
`always` can be built, but not read. A value is canonical if it holds neither. Settling a value puts
the UUID or the test in their place, and leaves canonical values as they are.
-/

namespace RoleAccess

/-! ## Lists and maps -/

lemma map_eq_self {α : Type} {f : α → α} {l : List α} (h : ∀ a ∈ l, f a = a) : l.map f = l :=
  (List.map_congr_left h).trans (List.map_id l)

lemma option_map_eq_self {α : Type} {f : α → α} {o : Option α} (h : ∀ a, o = some a → f a = a) :
    o.map f = o := by
  cases o with
  | none => rfl
  | some a => exact congrArg some (h a rfl)

namespace NameMap

variable {α : Type} {P : α → Prop} {f : α → α} {m : NameMap α}

/-- Every value of the map has the property `P`. -/
def Each (P : α → Prop) (m : NameMap α) : Prop := ∀ name value, m.get? name = some value → P value

lemma mapValues_eq_self (hf : ∀ a, P a → f a = a) (hm : m.Each P) :
    (m.mapValues fun _ => f) = m := by
  apply ext_get?
  intro name
  rw [get?_mapValues]
  exact option_map_eq_self fun a ha => hf a (hm name a ha)

end NameMap

/-! ## Scalars -/

namespace Scalar

/-- The scalar is no text that spells a UUID. -/
def Canonical : Scalar → Prop
  | text s => Uuid.ofText? s = none
  | _ => True

/-- A text that spells a UUID becomes the UUID. -/
def settled : Scalar → Scalar
  | text s => ofText s
  | v => v

lemma canonical_ofText (s : String) : (ofText s).Canonical := by
  unfold ofText
  split
  · trivial
  · rename_i h
    exact h

lemma settled_of_canonical {v : Scalar} (h : v.Canonical) : v.settled = v := by
  cases v with
  | text s =>
    have hs : Uuid.ofText? s = none := h
    rw [settled, ofText, hs]
  | bool b => rfl
  | int n => rfl
  | uuid u => rfl

end Scalar

/-! ## Tests -/

namespace ColumnTest

mutual

/-- The operands of a test, in tree order. -/
def scalars : ColumnTest → List Scalar
  | .and parts => scalarsOfList parts
  | .or parts => scalarsOfList parts
  | .not part => scalars part
  | .compare _ operand => [operand]
  | .oneOf operands => operands
  | .noneOf operands => operands
  | .isNull _ => []
  | .matchText _ _ => []
  | .never => []
  | .always => []

def scalarsOfList : List ColumnTest → List Scalar
  | [] => []
  | part :: parts => scalars part ++ scalarsOfList parts

end

mutual

def settled : ColumnTest → ColumnTest
  | .and parts => .and (settledList parts)
  | .or parts => .or (settledList parts)
  | .not part => .not (settled part)
  | .compare c operand => .compare c operand.settled
  | .oneOf operands => .oneOf (operands.map Scalar.settled)
  | .noneOf operands => .noneOf (operands.map Scalar.settled)
  | .isNull expected => .isNull expected
  | .matchText place text => .matchText place text
  | .never => .never
  | .always => .always

def settledList : List ColumnTest → List ColumnTest
  | [] => []
  | part :: parts => settled part :: settledList parts

end

/-- No operand is a text that spells a UUID. -/
def Canonical (t : ColumnTest) : Prop := ∀ v ∈ t.scalars, v.Canonical

lemma scalarsOfList_eq_flatMap (parts : List ColumnTest) :
    scalarsOfList parts = parts.flatMap scalars := by
  induction parts with
  | nil => rfl
  | cons part parts ih => rw [scalarsOfList, ih, List.flatMap_cons]

lemma settledList_eq_map (parts : List ColumnTest) : settledList parts = parts.map settled := by
  induction parts with
  | nil => rfl
  | cons part parts ih => rw [settledList, ih, List.map_cons]

lemma canonical_and {parts : List ColumnTest} :
    (and parts).Canonical ↔ ∀ part ∈ parts, part.Canonical := by
  simp only [Canonical, scalars, scalarsOfList_eq_flatMap, List.mem_flatMap]
  exact ⟨fun h part hpart v hv => h v ⟨part, hpart, hv⟩,
    fun h v ⟨part, hpart, hv⟩ => h part hpart v hv⟩

lemma canonical_or {parts : List ColumnTest} :
    (or parts).Canonical ↔ ∀ part ∈ parts, part.Canonical := canonical_and

lemma canonical_not {part : ColumnTest} : (not part).Canonical ↔ part.Canonical := Iff.rfl

lemma settled_of_canonical {t : ColumnTest} (h : t.Canonical) : t.settled = t := by
  induction t with
  | and parts ih =>
    rw [settled, settledList_eq_map, map_eq_self fun part hpart =>
      ih part hpart (canonical_and.1 h part hpart)]
  | or parts ih =>
    rw [settled, settledList_eq_map, map_eq_self fun part hpart =>
      ih part hpart (canonical_or.1 h part hpart)]
  | not part ih => rw [settled, ih (canonical_not.1 h)]
  | compare c operand => rw [settled, Scalar.settled_of_canonical (h operand List.mem_cons_self)]
  | oneOf operands =>
    exact congrArg oneOf (map_eq_self fun v hv => Scalar.settled_of_canonical (h v hv))
  | noneOf operands =>
    exact congrArg noneOf (map_eq_self fun v hv => Scalar.settled_of_canonical (h v hv))
  | isNull expected => rfl
  | matchText place text => rfl
  | never => rfl
  | always => rfl

lemma constantOfName?_eq_none_iff {name : String} :
    constantOfName? name = none ↔ name ≠ "never" ∧ name ≠ "always" := by
  unfold constantOfName?
  split
  · simp_all
  · split <;> simp_all

end ColumnTest

/-! ## Conditions -/

namespace Condition

mutual

/-- The tests at the column leaves, in tree order. -/
def tests : Condition → List ColumnTest
  | .and parts => testsOfList parts
  | .or parts => testsOfList parts
  | .not part => tests part
  | .column _ test => [test]
  | .relation _ inner => tests inner

def testsOfList : List Condition → List ColumnTest
  | [] => []
  | part :: parts => tests part ++ testsOfList parts

end

mutual

def settled : Condition → Condition
  | .and parts => .and (settledList parts)
  | .or parts => .or (settledList parts)
  | .not part => .not (settled part)
  | .column field test => .column field test.settled
  | .relation field inner => .relation field (settled inner)

def settledList : List Condition → List Condition
  | [] => []
  | part :: parts => settled part :: settledList parts

end

def Canonical (c : Condition) : Prop := ∀ t ∈ c.tests, t.Canonical

lemma testsOfList_eq_flatMap (parts : List Condition) :
    testsOfList parts = parts.flatMap tests := by
  induction parts with
  | nil => rfl
  | cons part parts ih => rw [testsOfList, ih, List.flatMap_cons]

lemma settledList_eq_map (parts : List Condition) : settledList parts = parts.map settled := by
  induction parts with
  | nil => rfl
  | cons part parts ih => rw [settledList, ih, List.map_cons]

lemma canonical_and {parts : List Condition} :
    (and parts).Canonical ↔ ∀ part ∈ parts, part.Canonical := by
  simp only [Canonical, tests, testsOfList_eq_flatMap, List.mem_flatMap]
  exact ⟨fun h part hpart t ht => h t ⟨part, hpart, ht⟩,
    fun h t ⟨part, hpart, ht⟩ => h part hpart t ht⟩

lemma canonical_or {parts : List Condition} :
    (or parts).Canonical ↔ ∀ part ∈ parts, part.Canonical := canonical_and

lemma canonical_not {part : Condition} : (not part).Canonical ↔ part.Canonical := Iff.rfl

lemma canonical_column {field : String} {test : ColumnTest} :
    (column field test).Canonical ↔ test.Canonical := List.forall_mem_singleton

lemma canonical_relation {field : String} {inner : Condition} :
    (relation field inner).Canonical ↔ inner.Canonical := Iff.rfl

lemma settled_of_canonical {c : Condition} (h : c.Canonical) : c.settled = c := by
  induction c with
  | and parts ih =>
    rw [settled, settledList_eq_map, map_eq_self fun part hpart =>
      ih part hpart (canonical_and.1 h part hpart)]
  | or parts ih =>
    rw [settled, settledList_eq_map, map_eq_self fun part hpart =>
      ih part hpart (canonical_or.1 h part hpart)]
  | not part ih => rw [settled, ih (canonical_not.1 h)]
  | column field test => rw [settled, ColumnTest.settled_of_canonical (canonical_column.1 h)]
  | relation field inner ih => rw [settled, ih (canonical_relation.1 h)]

end Condition

/-! ## Predicates -/

namespace Predicate

mutual

/-- The tests at the column leaves, in tree order. -/
def tests : Predicate → List ColumnTest
  | .and parts => testsOfList parts
  | .or parts => testsOfList parts
  | .not part => tests part
  | .column _ test => [test]
  | .columnVariable _ _ => []
  | .relation _ inner => tests inner
  | .relationVariable _ _ => []

def testsOfList : List Predicate → List ColumnTest
  | [] => []
  | part :: parts => tests part ++ testsOfList parts

end

mutual

/-- The variables at the column leaves, in tree order. -/
def columnVariables : Predicate → List String
  | .and parts => columnVariablesOfList parts
  | .or parts => columnVariablesOfList parts
  | .not part => columnVariables part
  | .column _ _ => []
  | .columnVariable _ name => [name]
  | .relation _ inner => columnVariables inner
  | .relationVariable _ _ => []

def columnVariablesOfList : List Predicate → List String
  | [] => []
  | part :: parts => columnVariables part ++ columnVariablesOfList parts

end

mutual

/-- Tests are settled, and a column variable called like a constant test becomes that test. -/
def settled : Predicate → Predicate
  | .and parts => .and (settledList parts)
  | .or parts => .or (settledList parts)
  | .not part => .not (settled part)
  | .column field test => .column field test.settled
  | .columnVariable field name =>
    match ColumnTest.constantOfName? name with
    | some test => .column field test
    | none => .columnVariable field name
  | .relation field inner => .relation field (settled inner)
  | .relationVariable field name => .relationVariable field name

def settledList : List Predicate → List Predicate
  | [] => []
  | part :: parts => settled part :: settledList parts

end

/-- No operand is a text that spells a UUID, and no column variable is called like a test. -/
structure Canonical (p : Predicate) : Prop where
  tests : ∀ t ∈ p.tests, t.Canonical
  columnVariables : ∀ name ∈ p.columnVariables, name ≠ "never" ∧ name ≠ "always"

lemma testsOfList_eq_flatMap (parts : List Predicate) :
    testsOfList parts = parts.flatMap tests := by
  induction parts with
  | nil => rfl
  | cons part parts ih => rw [testsOfList, ih, List.flatMap_cons]

lemma columnVariablesOfList_eq_flatMap (parts : List Predicate) :
    columnVariablesOfList parts = parts.flatMap columnVariables := by
  induction parts with
  | nil => rfl
  | cons part parts ih => rw [columnVariablesOfList, ih, List.flatMap_cons]

lemma settledList_eq_map (parts : List Predicate) : settledList parts = parts.map settled := by
  induction parts with
  | nil => rfl
  | cons part parts ih => rw [settledList, ih, List.map_cons]

lemma canonical_and {parts : List Predicate} :
    (and parts).Canonical ↔ ∀ part ∈ parts, part.Canonical := by
  have htests : (and parts).tests = parts.flatMap Predicate.tests := testsOfList_eq_flatMap parts
  have hvariables : (and parts).columnVariables = parts.flatMap columnVariables :=
    columnVariablesOfList_eq_flatMap parts
  constructor
  · intro h part hpart
    refine ⟨fun t ht => h.tests t ?_, fun name hname => h.columnVariables name ?_⟩
    · rw [htests]
      exact List.mem_flatMap.2 ⟨part, hpart, ht⟩
    · rw [hvariables]
      exact List.mem_flatMap.2 ⟨part, hpart, hname⟩
  · intro h
    refine ⟨fun t ht => ?_, fun name hname => ?_⟩
    · rw [htests] at ht
      obtain ⟨part, hpart, ht⟩ := List.mem_flatMap.1 ht
      exact (h part hpart).tests t ht
    · rw [hvariables] at hname
      obtain ⟨part, hpart, hname⟩ := List.mem_flatMap.1 hname
      exact (h part hpart).columnVariables name hname

lemma canonical_or {parts : List Predicate} :
    (or parts).Canonical ↔ ∀ part ∈ parts, part.Canonical :=
  ⟨fun h => canonical_and.1 ⟨h.tests, h.columnVariables⟩, fun h =>
    ⟨(canonical_and.2 h).tests, (canonical_and.2 h).columnVariables⟩⟩

lemma canonical_not {part : Predicate} : (not part).Canonical ↔ part.Canonical :=
  ⟨fun h => ⟨h.tests, h.columnVariables⟩, fun h => ⟨h.tests, h.columnVariables⟩⟩

lemma canonical_column {field : String} {test : ColumnTest} :
    (column field test).Canonical ↔ test.Canonical :=
  ⟨fun h => h.tests test List.mem_cons_self, fun h =>
    ⟨List.forall_mem_singleton.2 h, fun _ hname => nomatch hname⟩⟩

lemma canonical_columnVariable {field name : String} :
    (columnVariable field name).Canonical ↔ ColumnTest.constantOfName? name = none := by
  rw [ColumnTest.constantOfName?_eq_none_iff]
  exact ⟨fun h => h.columnVariables name List.mem_cons_self, fun h =>
    ⟨fun _ ht => (nomatch ht), List.forall_mem_singleton.2 h⟩⟩

lemma canonical_relation {field : String} {inner : Predicate} :
    (relation field inner).Canonical ↔ inner.Canonical :=
  ⟨fun h => ⟨h.tests, h.columnVariables⟩, fun h => ⟨h.tests, h.columnVariables⟩⟩

lemma canonical_relationVariable (field name : String) : (relationVariable field name).Canonical :=
  ⟨fun _ ht => (nomatch ht), fun _ hname => nomatch hname⟩

lemma settled_of_canonical {p : Predicate} (h : p.Canonical) : p.settled = p := by
  induction p with
  | and parts ih =>
    rw [settled, settledList_eq_map, map_eq_self fun part hpart =>
      ih part hpart (canonical_and.1 h part hpart)]
  | or parts ih =>
    rw [settled, settledList_eq_map, map_eq_self fun part hpart =>
      ih part hpart (canonical_or.1 h part hpart)]
  | not part ih => rw [settled, ih (canonical_not.1 h)]
  | column field test => rw [settled, ColumnTest.settled_of_canonical (canonical_column.1 h)]
  | columnVariable field name => rw [settled, canonical_columnVariable.1 h]
  | relation field inner ih => rw [settled, ih (canonical_relation.1 h)]
  | relationVariable field name => rfl

end Predicate

/-! ## Roles and schemas -/

namespace VariableDefinition

def settled : VariableDefinition → VariableDefinition
  | predefined value => predefined value
  | entity entityName fallback => entity entityName (fallback.map ColumnTest.settled)
  | condition fallback => condition (fallback.map ColumnTest.settled)

def Canonical (d : VariableDefinition) : Prop := ∀ t, d.fallback? = some t → t.Canonical

lemma settled_of_canonical {d : VariableDefinition} (h : d.Canonical) : d.settled = d := by
  have hfallback : d.fallback?.map ColumnTest.settled = d.fallback? :=
    option_map_eq_self fun t ht => ColumnTest.settled_of_canonical (h t ht)
  cases d with
  | predefined value => rfl
  | entity entityName fallback => exact congrArg (entity entityName) hfallback
  | condition fallback => exact congrArg condition hfallback

end VariableDefinition

namespace EntityRules

def settled (e : EntityRules) : EntityRules :=
  { e with predicates := e.predicates.mapValues fun _ => Predicate.settled }

def Canonical (e : EntityRules) : Prop := e.predicates.Each Predicate.Canonical

lemma settled_of_canonical {e : EntityRules} (h : e.Canonical) : e.settled = e := by
  rw [settled, NameMap.mapValues_eq_self (fun _ => Predicate.settled_of_canonical) h]

end EntityRules

namespace Role

def settled (r : Role) : Role :=
  { r with
    definitions := r.definitions.mapValues fun _ => VariableDefinition.settled
    entities := r.entities.mapValues fun _ => EntityRules.settled }

structure Canonical (r : Role) : Prop where
  definitions : r.definitions.Each VariableDefinition.Canonical
  entities : r.entities.Each EntityRules.Canonical

lemma settled_of_canonical {r : Role} (h : r.Canonical) : r.settled = r := by
  rw [settled,
    NameMap.mapValues_eq_self (fun _ => VariableDefinition.settled_of_canonical) h.definitions,
    NameMap.mapValues_eq_self (fun _ => EntityRules.settled_of_canonical) h.entities]

end Role

namespace RoleSchema

def settled (s : RoleSchema) : RoleSchema :=
  { s with roles := s.roles.mapValues fun _ => Role.settled }

def Canonical (s : RoleSchema) : Prop := s.roles.Each Role.Canonical

lemma settled_of_canonical {s : RoleSchema} (h : s.Canonical) : s.settled = s := by
  rw [settled, NameMap.mapValues_eq_self (fun _ => Role.settled_of_canonical) h]

end RoleSchema

namespace Schema

def settled (s : Schema) : Schema := { s with acl := s.acl.settled }

def Canonical (s : Schema) : Prop := s.acl.Canonical

lemma settled_of_canonical {s : Schema} (h : s.Canonical) : s.settled = s := by
  rw [settled, RoleSchema.settled_of_canonical h]

end Schema

namespace VariableValue

def settled : VariableValue → VariableValue
  | test t => test t.settled
  | condition c => condition c.settled

def Canonical : VariableValue → Prop
  | test t => t.Canonical
  | condition c => c.Canonical

lemma settled_of_canonical {v : VariableValue} (h : v.Canonical) : v.settled = v := by
  cases v with
  | test t => exact congrArg test (ColumnTest.settled_of_canonical h)
  | condition c => exact congrArg condition (Condition.settled_of_canonical h)

end VariableValue

end RoleAccess
