import RoleAccess.Json
import RoleAccess.Text.Number
import RoleAccess.Yaml.Node

/-!
# Values of YAML nodes

The value of a plain scalar is told by its text: null, a flag, a number or else the text itself. A
tag asks for a kind of value, and the text has to fit; one of the application's own makes a
dictionary of the value. How deep a value may be and how many aliases may be followed is limited.
-/

namespace RoleAccess.Yaml

/-- Stands for every number with a fraction; these are told from other values but not from each
other. -/
def decimal : Json := .decimal 0 0

def null? (text : String) : Option Json :=
  if ["null", "Null", "NULL", "~"].contains text then some .null else none

def flag? (text : String) : Option Json :=
  if ["true", "True", "TRUE"].contains text then some (.bool true)
  else if ["false", "False", "FALSE"].contains text then some (.bool false)
  else none

/-- The text without its sign. -/
def unsigned : List Char → List Char
  | '+' :: cs => cs
  | '-' :: cs => cs
  | cs => cs

/-- A zero followed by digits is no number. -/
def hasLeadingZero (cs : List Char) : Bool :=
  match unsigned cs with
  | '0' :: c :: cs => (c :: cs).all Char.isDigit
  | _ => false

/-- The base of an integer and its digits; the letter after a zero names the base. -/
def baseAndDigits : List Char → Nat × List Char
  | '0' :: 'x' :: cs => (16, cs)
  | '0' :: 'o' :: cs => (8, cs)
  | '0' :: 'b' :: cs => (2, cs)
  | cs => (10, cs)

/-- The integer that the text spells, if it fits in 128 bits. -/
def integer? (text : String) : Option Int := do
  let cs := text.toList
  let (base, digits) := baseAndDigits (unsigned cs)
  let magnitude ← Text.natural? base digits
  if hasLeadingZero cs then none
  else if cs.head? = some '-' then
    if magnitude ≤ Nat.pow 2 127 then some (-(magnitude : Int)) else none
  else if magnitude < Nat.pow 2 128 then some magnitude
  else none

def isInfinite (cs : List Char) : Bool :=
  [['.', 'i', 'n', 'f'], ['.', 'I', 'n', 'f'], ['.', 'I', 'N', 'F']].contains (unsigned cs)

def isNotANumber (cs : List Char) : Bool :=
  [['.', 'n', 'a', 'n'], ['.', 'N', 'a', 'N'], ['.', 'N', 'A', 'N']].contains cs

/-- Whether the text spells a decimal number with a finite double, or infinity, or no number. -/
def isDecimal (cs : List Char) : Bool :=
  isInfinite cs || isNotANumber cs || (Text.decimal? cs).any (·.isFinite)

def decimal? (text : String) : Option Json := if isDecimal text.toList then some decimal else none

/-- The value of a plain scalar without a tag. -/
def plainValue (text : String) : Json :=
  if text.isEmpty then .null
  else
    let fraction := if hasLeadingZero text.toList then none else decimal? text
    ((((null? text).or (flag? text)).or ((integer? text).map .int)).or fraction).getD (.str text)

/-! ## Tags -/

/-- The value of a scalar as its tag asks for it. -/
def scalarValue? (tag : Option Tag) (plain : Bool) (text : String) : Option Json :=
  match tag with
  | some .null => null? text
  | some .flag => flag? text
  | some .integer => (integer? text).map .int
  | some .decimal => decimal? text
  | some .other => some (.str text)
  | some .bare | some (.own _) | none => some (if plain then plainValue text else .str text)

/-- The value in dictionaries in each other, whose keys are the names; an empty name ends them. -/
def nest (value : Json) : List String → Json
  | [] => value
  | name :: names => if name.isEmpty then value else .obj [(name, nest value names)]

/-- A value with a tag. The points in a tag of the application's own separate names. -/
def tagged (value : Json) : Option Tag → Json
  | some .bare => nest value ["!"]
  | some (.own name) => nest value (name.splitOn ".")
  | _ => value

/-! ## Members -/

/-- The key of a member whose value is that of the whole mapping. -/
def wholeKey : String := "___figment_value_value"

/-- The key of a member that says where the value comes from, as a number of 64 bits. -/
def provenanceKey : String := "___figment_value_id"

def isProvenance : Node → Bool
  | .scalar properties plain text =>
    match properties.tag, scalarValue? properties.tag plain text with
    | some (.own _), _ => false
    | _, some (.int n) => 0 ≤ n && n < 18446744073709551616
    | _, _ => false
  | _ => false

/-- The value of a mapping with the given members. -/
def ofMembers (members : Members) : Json :=
  match members.reverse.lookup wholeKey with
  | some value => value
  | none => .obj (members.filter (·.1 ≠ provenanceKey))

namespace Node

/-! ## Aliases -/

/-- The nodes with anchors, the latest first, so that of two with one number the later counts. -/
def anchored (root : Node) : List (Nat × Node) :=
  (root.nodes.filterMap fun node => node.anchor?.map (·, node)).reverse

/-- How many marks a node has: a sequence and a mapping one at each end, others one. -/
def marks : Node → Nat
  | sequence _ _ => 2
  | mapping _ _ => 2
  | _ => 1

/-- How many marks a node and the nodes in it have. -/
def extent (root : Node) : Nat := root.nodes.foldl (fun n node => n + node.marks) 0

/-- Reading of values that may fail. The state is how many aliases may still be followed. -/
abbrev Evaluation := StateT Nat Option

/-- The node that an alias stands for, or the node itself. -/
def target (anchored : List (Nat × Node)) : Node → Evaluation Node
  | .alias anchor => do
    match ← get, anchored.lookup anchor with
    | left + 1, some node =>
      set left
      return node
    | _, _ => failure
  | node => return node

/-- The text of a scalar, which is what counts where it is a key. -/
def key (anchored : List (Nat × Node)) (node : Node) : Evaluation String := do
  match ← target anchored node with
  | scalar _ _ text => return text
  | _ => failure

/-- The value of a node with at most `depth` collections in each other, if all scalars in it fit
their tags and all keys are scalars. -/
def value (anchored : List (Nat × Node)) : Nat → Node → Evaluation Json
  | 0, node => do
    match ← target anchored node with
    | scalar properties plain text =>
      return tagged (← scalarValue? properties.tag plain text) properties.tag
    | _ => failure
  | depth + 1, node => do
    match ← target anchored node with
    | scalar properties plain text =>
      return tagged (← scalarValue? properties.tag plain text) properties.tag
    | sequence properties items =>
      return tagged (.arr (← items.mapM (value anchored depth))) properties.tag
    | mapping properties pairs =>
      let members ← pairs.mapM fun pair => do
        let name ← key anchored pair.1
        if name = provenanceKey then
          if isProvenance (← target anchored pair.2) then return (name, Json.null) else failure
        else return (name, ← value anchored depth pair.2)
      return tagged (ofMembers members) properties.tag
    | .alias _ => failure

end Node

/-! ## Texts -/

/-- How many collections may be in each other. -/
def depthLimit : Nat := 128

/-- How many aliases may be followed for every mark of a text. -/
def aliasLimit : Nat := 100

/-- The members of the mapping that a text is. A text without a document or with an empty one has no
members. -/
def membersOfText? (text : String) : Option Members := do
  match ← Node.ofText? text with
  | none | some (.scalar _ true "") => return []
  | some (.mapping properties pairs) =>
    let root := Node.mapping properties pairs
    let anchored := root.anchored
    let member := fun (pair : Node × Node) => do
      return (← Node.key anchored pair.1, ← Node.value anchored (depthLimit - 1) pair.2)
    (pairs.mapM member).run' (aliasLimit * root.extent)
  | some _ => none

end RoleAccess.Yaml
