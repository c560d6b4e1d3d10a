import RoleAccess.Condition

/-!
# JSON form of row conditions

A condition is an object with one member, named for the node. The payload of a column or relation
node is an object with the members `field` and `condition`.
-/

namespace RoleAccess.Condition

mutual

def ofJson? : Json → Option Condition
  | .obj [(name, .arr items)] =>
    if name = "and" then (listOfJson? items).map .and
    else if name = "or" then (listOfJson? items).map .or
    else none
  | .obj [(name, .obj members)] =>
    if name = "not" then (ofJson? (.obj members)).map .not
    else if name = "column" then do
      return .column (← Members.required members "field" Json.text?)
        (← Members.required members "condition" (ColumnTest.ofJson? false))
    else if name = "relation" then do
      return .relation (← Members.required members "field" Json.text?) (← innerOfJson? members)
    else none
  | _ => none

def listOfJson? : List Json → Option (List Condition)
  | [] => some []
  | j :: js => do return (← ofJson? j) :: (← listOfJson? js)

/-- Reads the member `condition`. -/
def innerOfJson? : List (String × Json) → Option Condition
  | [] => none
  | (name, j) :: members => if name = "condition" then ofJson? j else innerOfJson? members

end

mutual

def toJson : Condition → Json
  | .and parts => .obj [("and", .arr (listToJson parts))]
  | .or parts => .obj [("or", .arr (listToJson parts))]
  | .not part => .obj [("not", toJson part)]
  | .column field test =>
    .obj [("column", .obj [("field", .str field), ("condition", test.toJson)])]
  | .relation field inner =>
    .obj [("relation", .obj [("field", .str field), ("condition", toJson inner)])]

def listToJson : List Condition → List Json
  | [] => []
  | part :: parts => toJson part :: listToJson parts

end

end RoleAccess.Condition
