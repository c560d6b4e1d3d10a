import RoleAccess.NameMap

/-!
# Values of the interchange format

Schemas, conditions and settings are exchanged as JSON values. Beside the type stand the readers
that every declared type uses: a record is an object, or an array of its fields in declared order;
a constant is its bare name, or an object that gives the name no payload.
-/

namespace RoleAccess

/-- A JSON value. A number with a fraction is kept apart from the integers. -/
inductive Json where
  | null
  | bool (value : Bool)
  | int (value : Int)
  | decimal (digits : Int) (places : Nat)
  | str (text : String)
  | arr (items : List Json)
  | obj (members : List (String × Json))

namespace Json

instance : Inhabited Json := ⟨.null⟩

universe u

def bool? : Json → Option Bool
  | .bool b => some b
  | _ => none

def text? : Json → Option String
  | .str s => some s
  | _ => none

def items? {α : Type u} (read : Json → Option α) : Json → Option (List α)
  | .arr items => items.mapM read
  | _ => none

/-- Reads an object whose member names are free. -/
def map? {α : Type} (read : Json → Option α) : Json → Option (NameMap α)
  | .obj members => do
    return NameMap.ofList (← members.mapM fun m => return (m.1, ← read m.2))
  | _ => none

def ofMap {α : Type u} (write : α → Json) (m : NameMap α) : Json :=
  .obj (m.entries.map fun e => (e.1, write e.2))

/-- The name of a constant. With `blank` an empty object is taken for a missing payload too. -/
def constant? (blank : Bool) : Json → Option String
  | .str name => some name
  | .obj [(name, .null)] => some name
  | .obj [(name, .obj [])] => if blank then some name else none
  | _ => none

end Json

/-- The fields of a record by name, each at most once in what is written. -/
abbrev Members := List (String × Json)

namespace Members

variable {α : Type}

/-- The members of an object, or the items of an array under the declared field names. An array may
leave off trailing fields but has no item beyond them. -/
def ofJson? (fields : List String) : Json → Option Members
  | .obj members => some members
  | .arr items => if items.length ≤ fields.length then some (fields.zip items) else none
  | _ => none

/-- The tag of a tagged record and its other fields. In an array the tag comes first. -/
def ofTagged? (tag : String) (fields : String → List String) : Json → Option (String × Members)
  | .obj members => do return (← (← members.lookup tag).text?, members)
  | .arr (kind :: items) => do
    let kind ← kind.text?
    return (kind, ← ofJson? (fields kind) (.arr items))
  | _ => none

def required (members : Members) (name : String) (read : Json → Option α) : Option α :=
  (members.lookup name).bind read

/-- A field that may be missing or null. -/
def optional (members : Members) (name : String) (read : Json → Option α) : Option (Option α) :=
  match members.lookup name with
  | none | some .null => some none
  | some j => (read j).map some

/-- A field that may be missing, but not null. -/
def defaulted (members : Members) (name : String) (default : α) (read : Json → Option α) :
    Option α :=
  match members.lookup name with
  | none => some default
  | some j => read j

/-- The member of an optional field, written only when there is a value. -/
def ofOption (name : String) (write : α → Json) : Option α → Members
  | some a => [(name, write a)]
  | none => []

end Members

end RoleAccess
