import RoleAccess.Scalar

/-!
# Tests of a column

A column test is a boolean tree over operators that look at the value of one column. Equality of
tests is structural.
-/

namespace RoleAccess

/-- How a column value stands to an operand. -/
inductive Comparison where
  | eq | notEq | lt | lte | gt | gte
deriving DecidableEq

namespace Comparison

def name : Comparison → String
  | eq => "eq"
  | notEq => "notEq"
  | lt => "lt"
  | lte => "lte"
  | gt => "gt"
  | gte => "gte"

def all : List Comparison := [eq, notEq, lt, lte, gt, gte]

def ofName? (s : String) : Option Comparison := all.find? (·.name = s)

end Comparison

/-- Where a column value has to hold a given text. -/
inductive TextMatch where
  | contains | startsWith | endsWith
deriving DecidableEq

namespace TextMatch

def name : TextMatch → String
  | contains => "contains"
  | startsWith => "startsWith"
  | endsWith => "endsWith"

def all : List TextMatch := [contains, startsWith, endsWith]

def ofName? (s : String) : Option TextMatch := all.find? (·.name = s)

end TextMatch

inductive ColumnTest where
  | and (parts : List ColumnTest)
  | or (parts : List ColumnTest)
  | not (part : ColumnTest)
  | compare (comparison : Comparison) (operand : Scalar)
  | oneOf (operands : List Scalar)
  | noneOf (operands : List Scalar)
  | isNull (expected : Bool)
  | matchText (place : TextMatch) (text : String)
  | never
  | always

namespace ColumnTest

/-- Induction on tests, with the hypothesis for each part of a conjunction or disjunction. -/
@[elab_as_elim, induction_eliminator]
theorem induction_on_parts {motive : ColumnTest → Prop}
    (and : ∀ parts, (∀ part ∈ parts, motive part) → motive (.and parts))
    (or : ∀ parts, (∀ part ∈ parts, motive part) → motive (.or parts))
    (not : ∀ part, motive part → motive (.not part))
    (compare : ∀ comparison operand, motive (.compare comparison operand))
    (oneOf : ∀ operands, motive (.oneOf operands))
    (noneOf : ∀ operands, motive (.noneOf operands))
    (isNull : ∀ expected, motive (.isNull expected))
    (matchText : ∀ place text, motive (.matchText place text))
    (never : motive .never) (always : motive .always) : ∀ t, motive t := fun t =>
  @ColumnTest.rec motive (fun parts => ∀ part ∈ parts, motive part)
    and or not compare oneOf noneOf isNull matchText never always (fun _ h => nomatch h)
    (fun _ _ hpart hparts => List.forall_mem_cons.2 ⟨hpart, hparts⟩) t

/-! ## Equality -/

mutual

def beq : ColumnTest → ColumnTest → Bool
  | .and ps, .and qs => beqList ps qs
  | .or ps, .or qs => beqList ps qs
  | .not p, .not q => beq p q
  | .compare c v, .compare d w => c = d && v = w
  | .oneOf vs, .oneOf ws => vs = ws
  | .noneOf vs, .noneOf ws => vs = ws
  | .isNull b, .isNull c => b = c
  | .matchText m s, .matchText n t => m = n && s = t
  | .never, .never => true
  | .always, .always => true
  | _, _ => false

def beqList : List ColumnTest → List ColumnTest → Bool
  | [], [] => true
  | p :: ps, q :: qs => beq p q && beqList ps qs
  | _, _ => false

end

mutual

theorem beq_iff_eq : ∀ p q : ColumnTest, beq p q = true ↔ p = q
  | .and ps, q => by cases q <;> simp [beq, beqList_iff_eq ps]
  | .or ps, q => by cases q <;> simp [beq, beqList_iff_eq ps]
  | .not p, q => by cases q <;> simp [beq, beq_iff_eq p]
  | .compare .., q => by cases q <;> simp [beq]
  | .oneOf _, q => by cases q <;> simp [beq]
  | .noneOf _, q => by cases q <;> simp [beq]
  | .isNull _, q => by cases q <;> simp [beq]
  | .matchText .., q => by cases q <;> simp [beq]
  | .never, q => by cases q <;> simp [beq]
  | .always, q => by cases q <;> simp [beq]

theorem beqList_iff_eq : ∀ ps qs : List ColumnTest, beqList ps qs = true ↔ ps = qs
  | [], qs => by cases qs <;> simp [beqList]
  | p :: ps, qs => by cases qs <;> simp [beqList, beq_iff_eq p, beqList_iff_eq ps]

end

instance : DecidableEq ColumnTest := fun p q => decidable_of_iff _ (beq_iff_eq p q)

/-! ## JSON form -/

/-- A test other than `and`, `or`, `not` and the constants, from its name and payload. -/
def leafOfJson? (name : String) (payload : Json) : Option ColumnTest :=
  if name = "in" then (payload.items? Scalar.ofJson?).map oneOf
  else if name = "notIn" then (payload.items? Scalar.ofJson?).map noneOf
  else if name = "isNull" then payload.bool?.map isNull
  else match Comparison.ofName? name with
    | some c => (Scalar.ofJson? payload).map (compare c)
    | none => do return matchText (← TextMatch.ofName? name) (← payload.text?)

def constantOfName? (name : String) : Option ColumnTest :=
  if name = "never" then some never else if name = "always" then some always else none

mutual

/-- Reads a test; `blank` says whether a constant may have an empty object as its payload. -/
def ofJson? (blank : Bool) : Json → Option ColumnTest
  | .str name => constantOfName? name
  | .obj [(name, .arr items)] =>
    if name = "and" then (listOfJson? blank items).map .and
    else if name = "or" then (listOfJson? blank items).map .or
    else leafOfJson? name (.arr items)
  | .obj [(name, payload)] =>
    if name = "not" then (ofJson? blank payload).map .not
    else match (Json.obj [(name, payload)]).constant? blank with
      | some constant => constantOfName? constant
      | none => leafOfJson? name payload
  | _ => none

def listOfJson? (blank : Bool) : List Json → Option (List ColumnTest)
  | [] => some []
  | j :: js => do return (← ofJson? blank j) :: (← listOfJson? blank js)

end

mutual

def toJson : ColumnTest → Json
  | .and parts => .obj [("and", .arr (listToJson parts))]
  | .or parts => .obj [("or", .arr (listToJson parts))]
  | .not part => .obj [("not", toJson part)]
  | .compare c operand => .obj [(c.name, operand.toJson)]
  | .oneOf operands => .obj [("in", .arr (operands.map Scalar.toJson))]
  | .noneOf operands => .obj [("notIn", .arr (operands.map Scalar.toJson))]
  | .isNull expected => .obj [("isNull", .bool expected)]
  | .matchText m text => .obj [(m.name, .str text)]
  | .never => .str "never"
  | .always => .str "always"

def listToJson : List ColumnTest → List Json
  | [] => []
  | part :: parts => toJson part :: listToJson parts

end

end ColumnTest

end RoleAccess
