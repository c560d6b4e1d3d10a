/-!
# Operations

Creating, reading and updating are granted field by field; deleting is granted for a whole row.
-/

namespace RoleAccess

inductive FieldAction where
  | create | read | update
deriving DecidableEq

inductive Operation where
  | fields (action : FieldAction)
  | delete
deriving DecidableEq

namespace FieldAction

def name : FieldAction → String
  | create => "create"
  | read => "read"
  | update => "update"

/-- The field actions in the order in which declarations are worked through. -/
def all : List FieldAction := [create, read, update]

end FieldAction

namespace Operation

def name : Operation → String
  | fields action => action.name
  | delete => "delete"

def all : List Operation := FieldAction.all.map fields ++ [delete]

def ofName? (s : String) : Option Operation := all.find? (·.name = s)

end Operation

/-- One value for each field action. -/
structure PerAction (α : Type) where
  create : α
  read : α
  update : α
deriving DecidableEq

namespace PerAction

variable {α β γ : Type}

def get (p : PerAction α) : FieldAction → α
  | .create => p.create
  | .read => p.read
  | .update => p.update

def ofFn (f : FieldAction → α) : PerAction α := ⟨f .create, f .read, f .update⟩

def modify (p : PerAction α) (action : FieldAction) (f : α → α) : PerAction α :=
  ofFn fun a => if a = action then f (p.get a) else p.get a

def map (f : α → β) (p : PerAction α) : PerAction β := ofFn fun a => f (p.get a)

def zipWith (f : α → β → γ) (p : PerAction α) (q : PerAction β) : PerAction γ :=
  ofFn fun a => f (p.get a) (q.get a)

/-- `map` for a function that may fail, tried in the order create, read, update. -/
def traverse {ε : Type} (f : α → Except ε β) (p : PerAction α) : Except ε (PerAction β) := do
  return ⟨← f p.create, ← f p.read, ← f p.update⟩

@[simp]
theorem get_ofFn (f : FieldAction → α) (a : FieldAction) : (ofFn f).get a = f a := by
  cases a <;> rfl

@[simp]
theorem get_map (f : α → β) (p : PerAction α) (a : FieldAction) :
    (p.map f).get a = f (p.get a) := get_ofFn ..

@[simp]
theorem get_zipWith (f : α → β → γ) (p : PerAction α) (q : PerAction β) (a : FieldAction) :
    (p.zipWith f q).get a = f (p.get a) (q.get a) := get_ofFn ..

theorem ext_get {p q : PerAction α} (h : ∀ a, p.get a = q.get a) : p = q := by
  obtain ⟨c, r, u⟩ := p
  obtain ⟨c', r', u'⟩ := q
  have hc : c = c' := h .create
  have hr : r = r' := h .read
  have hu : u = u' := h .update
  rw [hc, hr, hu]

end PerAction

end RoleAccess
