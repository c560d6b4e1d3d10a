import RoleAccess.ColumnTest

/-!
# Row conditions

A condition is a boolean tree over the columns and relations of one entity. A relation node holds a
condition on the entity that the relation leads to. The empty conjunction filters nothing; the
empty disjunction and the test `never` on a column let no row pass.
-/

namespace RoleAccess

inductive Condition where
  | and (parts : List Condition)
  | or (parts : List Condition)
  | not (part : Condition)
  | column (field : String) (test : ColumnTest)
  | relation (field : String) (inner : Condition)

namespace Condition

/-- Induction on conditions, with the hypothesis for each part of a conjunction or disjunction. -/
@[elab_as_elim, induction_eliminator]
theorem induction_on_parts {motive : Condition → Prop}
    (and : ∀ parts, (∀ part ∈ parts, motive part) → motive (.and parts))
    (or : ∀ parts, (∀ part ∈ parts, motive part) → motive (.or parts))
    (not : ∀ part, motive part → motive (.not part))
    (column : ∀ field test, motive (.column field test))
    (relation : ∀ field inner, motive inner → motive (.relation field inner)) :
    ∀ c, motive c := fun c =>
  @Condition.rec motive (fun parts => ∀ part ∈ parts, motive part)
    and or not column relation (fun _ h => nomatch h)
    (fun _ _ hpart hparts => List.forall_mem_cons.2 ⟨hpart, hparts⟩) c

/-! ## Equality -/

mutual

def beq : Condition → Condition → Bool
  | .and cs, .and ds => beqList cs ds
  | .or cs, .or ds => beqList cs ds
  | .not c, .not d => beq c d
  | .column f t, .column g u => f = g && t = u
  | .relation f c, .relation g d => f = g && beq c d
  | _, _ => false

def beqList : List Condition → List Condition → Bool
  | [], [] => true
  | c :: cs, d :: ds => beq c d && beqList cs ds
  | _, _ => false

end

mutual

theorem beq_iff_eq : ∀ c d : Condition, beq c d = true ↔ c = d
  | .and cs, d => by cases d <;> simp [beq, beqList_iff_eq cs]
  | .or cs, d => by cases d <;> simp [beq, beqList_iff_eq cs]
  | .not c, d => by cases d <;> simp [beq, beq_iff_eq c]
  | .column .., d => by cases d <;> simp [beq]
  | .relation _ c, d => by cases d <;> simp [beq, beq_iff_eq c]

theorem beqList_iff_eq : ∀ cs ds : List Condition, beqList cs ds = true ↔ cs = ds
  | [], ds => by cases ds <;> simp [beqList]
  | c :: cs, ds => by cases ds <;> simp [beqList, beq_iff_eq c, beqList_iff_eq cs]

end

instance : DecidableEq Condition := fun c d => decidable_of_iff _ (beq_iff_eq c d)

/-! ## Constants and conjunctions -/

/-- Every row passes. -/
def always : Condition := .and []

/-- No row passes, whatever its columns are called. -/
def never : Condition := .or []

/-- No row passes, said of a column. -/
def neverOn (field : String) : Condition := .column field .never

/-- The refusal of every row of an entity, on its primary key where that is known. -/
def refusal : Option String → Condition
  | some primary => neverOn primary
  | none => never

instance : Inhabited Condition := ⟨always⟩

/-- The conjunction of the parts; a single part stands for itself. -/
def all : List Condition → Condition
  | [part] => part
  | parts => .and parts

def isAlways (c : Condition) : Bool := c = always

/-- Whether the condition is one of the two forms that refuse every row. -/
def isNever : Condition → Bool
  | .or parts => parts.isEmpty
  | .column _ test => test = .never
  | _ => false

/-! ## Replacing subtrees -/

mutual

/-- Puts `replacement` for every subtree equal to `find` that is reached through `and`, `or` and
`not`, outermost first. Relations are compared as a whole and not entered. -/
def replace (c find replacement : Condition) : Condition :=
  if c = find then replacement
  else match c with
    | .and parts => .and (replaceList parts find replacement)
    | .or parts => .or (replaceList parts find replacement)
    | .not part => .not (replace part find replacement)
    | .column field test => .column field test
    | .relation field inner => .relation field inner

def replaceList (parts : List Condition) (find replacement : Condition) : List Condition :=
  match parts with
  | [] => []
  | part :: parts => replace part find replacement :: replaceList parts find replacement

end

theorem replaceList_eq_map (parts : List Condition) (find replacement : Condition) :
    replaceList parts find replacement = parts.map (·.replace find replacement) := by
  induction parts with
  | nil => rfl
  | cons part parts ih => rw [replaceList, ih, List.map_cons]

end Condition

end RoleAccess
