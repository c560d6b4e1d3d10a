import RoleAccess.Predicate

/-!
# JSON form of predicates

Predicates look like conditions, but where a condition stands a string may stand too. It is the
name of a variable, except that `never` and `always` on a column are the tests of that name.
-/

namespace RoleAccess

/-- The operand written as `j`: what has been read from it, or else a variable if it is a string. -/
def Operand.orNamed {α : Type} (read : Option α) (j : Json) : Option (Operand α) :=
  match read, j with
  | some a, _ => some (.value a)
  | none, .str name => some (.named name)
  | none, _ => none

def Operand.ofColumnJson? (j : Json) : Option (Operand ColumnTest) :=
  Operand.orNamed (ColumnTest.ofJson? false j) j

def Operand.columnToJson : Operand ColumnTest → Json
  | .value test => test.toJson
  | .named name => .str name

namespace Predicate

/-- The column node of an operand. -/
def ofColumnOperand (field : String) : Operand ColumnTest → Predicate
  | .value test => .column field test
  | .named name => .columnVariable field name

/-- The relation node of an operand. -/
def ofRelationOperand (field : String) : Operand Predicate → Predicate
  | .value inner => .relation field inner
  | .named name => .relationVariable field name

mutual

/-- Reads a predicate. Inside a relation the payload of a node may be the array of its two fields,
which `positional` allows; at the outside it is an object. -/
def ofJson? (positional : Bool) : Json → Option Predicate
  | .obj [(name, .arr items)] =>
    if name = "and" then (listOfJson? positional items).map .and
    else if name = "or" then (listOfJson? positional items).map .or
    else if positional then pairOfJson? name items
    else none
  | .obj [(name, .obj members)] =>
    if name = "not" then (ofJson? positional (.obj members)).map .not
    else if name = "column" then do
      return ofColumnOperand (← Members.required members "field" Json.text?)
        (← Members.required members "condition" Operand.ofColumnJson?)
    else if name = "relation" then do
      return ofRelationOperand (← Members.required members "field" Json.text?)
        (← operandMember? members)
    else none
  | _ => none

def listOfJson? (positional : Bool) : List Json → Option (List Predicate)
  | [] => some []
  | j :: js => do return (← ofJson? positional j) :: (← listOfJson? positional js)

/-- Reads a node from the array of its two fields. -/
def pairOfJson? (name : String) : List Json → Option Predicate
  | [.str field, j] =>
    if name = "column" then (Operand.ofColumnJson? j).map (ofColumnOperand field)
    else if name = "relation" then
      (Operand.orNamed (ofJson? true j) j).map (ofRelationOperand field)
    else none
  | _ => none

/-- Reads the member `condition` of a relation node. -/
def operandMember? : List (String × Json) → Option (Operand Predicate)
  | [] => none
  | (name, j) :: members =>
    if name = "condition" then Operand.orNamed (ofJson? true j) j else operandMember? members

end

/-- A column or relation node with the given operand. -/
def leafToJson (name field : String) (operand : Json) : Json :=
  .obj [(name, .obj [("field", .str field), ("condition", operand)])]

mutual

def toJson : Predicate → Json
  | .and parts => .obj [("and", .arr (listToJson parts))]
  | .or parts => .obj [("or", .arr (listToJson parts))]
  | .not part => .obj [("not", toJson part)]
  | .column field test => leafToJson "column" field test.toJson
  | .columnVariable field name => leafToJson "column" field (.str name)
  | .relation field inner => leafToJson "relation" field (toJson inner)
  | .relationVariable field name => leafToJson "relation" field (.str name)

def listToJson : List Predicate → List Json
  | [] => []
  | part :: parts => toJson part :: listToJson parts

end

end Predicate

def Operand.ofRelationJson? (j : Json) : Option (Operand Predicate) :=
  Operand.orNamed (Predicate.ofJson? true j) j

def Operand.relationToJson : Operand Predicate → Json
  | .value inner => inner.toJson
  | .named name => .str name

end RoleAccess
