import RoleAccess.ColumnTest

/-!
# Predicates

A predicate is a row condition with holes: a column leaf may name a variable in place of a test,
and a relation leaf may name one in place of a condition. `variableNames` lists the names and
`mapVariables` renames them.
-/

namespace RoleAccess

inductive Predicate where
  | and (parts : List Predicate)
  | or (parts : List Predicate)
  | not (part : Predicate)
  | column (field : String) (test : ColumnTest)
  | columnVariable (field name : String)
  | relation (field : String) (inner : Predicate)
  | relationVariable (field name : String)

namespace Predicate

instance : Inhabited Predicate := ⟨.and []⟩

/-- Induction on predicates, with the hypothesis for each part of a conjunction or disjunction. -/
@[elab_as_elim, induction_eliminator]
theorem induction_on_parts {motive : Predicate → Prop}
    (and : ∀ parts, (∀ part ∈ parts, motive part) → motive (.and parts))
    (or : ∀ parts, (∀ part ∈ parts, motive part) → motive (.or parts))
    (not : ∀ part, motive part → motive (.not part))
    (column : ∀ field test, motive (.column field test))
    (columnVariable : ∀ field name, motive (.columnVariable field name))
    (relation : ∀ field inner, motive inner → motive (.relation field inner))
    (relationVariable : ∀ field name, motive (.relationVariable field name)) :
    ∀ p, motive p := fun p =>
  @Predicate.rec motive (fun parts => ∀ part ∈ parts, motive part)
    and or not column columnVariable relation relationVariable (fun _ h => nomatch h)
    (fun _ _ hpart hparts => List.forall_mem_cons.2 ⟨hpart, hparts⟩) p

/-! ## Equality -/

mutual

def beq : Predicate → Predicate → Bool
  | .and ps, .and qs => beqList ps qs
  | .or ps, .or qs => beqList ps qs
  | .not p, .not q => beq p q
  | .column f t, .column g u => f = g && t = u
  | .columnVariable f v, .columnVariable g w => f = g && v = w
  | .relation f p, .relation g q => f = g && beq p q
  | .relationVariable f v, .relationVariable g w => f = g && v = w
  | _, _ => false

def beqList : List Predicate → List Predicate → Bool
  | [], [] => true
  | p :: ps, q :: qs => beq p q && beqList ps qs
  | _, _ => false

end

mutual

theorem beq_iff_eq : ∀ p q : Predicate, beq p q = true ↔ p = q
  | .and ps, q => by cases q <;> simp [beq, beqList_iff_eq ps]
  | .or ps, q => by cases q <;> simp [beq, beqList_iff_eq ps]
  | .not p, q => by cases q <;> simp [beq, beq_iff_eq p]
  | .column .., q => by cases q <;> simp [beq]
  | .columnVariable .., q => by cases q <;> simp [beq]
  | .relation _ p, q => by cases q <;> simp [beq, beq_iff_eq p]
  | .relationVariable .., q => by cases q <;> simp [beq]

theorem beqList_iff_eq : ∀ ps qs : List Predicate, beqList ps qs = true ↔ ps = qs
  | [], qs => by cases qs <;> simp [beqList]
  | p :: ps, qs => by cases qs <;> simp [beqList, beq_iff_eq p, beqList_iff_eq ps]

end

instance : DecidableEq Predicate := fun p q => decidable_of_iff _ (beq_iff_eq p q)

/-! ## Variables -/

mutual

/-- The variables at the leaves, in tree order with repetitions. -/
def variableNames : Predicate → List String
  | .and parts => variableNamesOfList parts
  | .or parts => variableNamesOfList parts
  | .not part => variableNames part
  | .column _ _ => []
  | .columnVariable _ v => [v]
  | .relation _ inner => variableNames inner
  | .relationVariable _ v => [v]

def variableNamesOfList : List Predicate → List String
  | [] => []
  | part :: parts => variableNames part ++ variableNamesOfList parts

end

mutual

/-- The same predicate with its variables renamed by `f`. -/
def mapVariables (f : String → String) : Predicate → Predicate
  | .and parts => .and (mapVariablesOfList f parts)
  | .or parts => .or (mapVariablesOfList f parts)
  | .not part => .not (mapVariables f part)
  | .column field test => .column field test
  | .columnVariable field v => .columnVariable field (f v)
  | .relation field inner => .relation field (mapVariables f inner)
  | .relationVariable field v => .relationVariable field (f v)

def mapVariablesOfList (f : String → String) : List Predicate → List Predicate
  | [] => []
  | part :: parts => mapVariables f part :: mapVariablesOfList f parts

end

theorem mapVariablesOfList_eq_map (f : String → String) (ps : List Predicate) :
    mapVariablesOfList f ps = ps.map (mapVariables f) := by
  induction ps with
  | nil => rfl
  | cons p ps ih => rw [mapVariablesOfList, ih, List.map_cons]

theorem variableNames_mapVariables (f : String → String) (p : Predicate) :
    (p.mapVariables f).variableNames = p.variableNames.map f := by
  have hparts : ∀ parts : List Predicate,
      (∀ part ∈ parts, (part.mapVariables f).variableNames = part.variableNames.map f) →
      variableNamesOfList (mapVariablesOfList f parts) = (variableNamesOfList parts).map f := by
    intro parts ih
    induction parts with
    | nil => rfl
    | cons part parts ihParts =>
      obtain ⟨hpart, hrest⟩ := List.forall_mem_cons.1 ih
      rw [mapVariablesOfList, variableNamesOfList, variableNamesOfList, hpart, ihParts hrest,
        List.map_append]
  induction p with
  | and parts ih => exact hparts parts ih
  | or parts ih => exact hparts parts ih
  | not part ih => exact ih
  | column field test => rfl
  | columnVariable field name => rfl
  | relation field inner ih => exact ih
  | relationVariable field name => rfl

end Predicate

/-- The name under which a role with the given variable prefix refers to its variable. -/
def prefixed (scope name : String) : String := scope ++ "__" ++ name

/-- What stands at a leaf: a value, or the name of a variable. -/
inductive Operand (α : Type) where
  | value (value : α)
  | named (name : String)

end RoleAccess
