import RoleAccess.Condition

/-!
# Meaning of row conditions

A reading says which column tests a row passes and which rows it is related to. Under it a
condition holds or fails on a row; a relation node holds if the inner condition holds on some
related row. An interpretation is a reading that gives the constant tests their meaning.
-/

namespace RoleAccess

universe u

/-- What columns and relations mean on rows. -/
structure Reading (Row : Type u) where
  passes : Row → String → ColumnTest → Prop
  related : Row → String → Row → Prop

/-- No row passes `never`, the test that stands for a missing value. -/
def Reading.RefusesNever {Row : Type u} (I : Reading Row) : Prop :=
  ∀ row field, ¬ I.passes row field .never

/-- A reading under which no row passes `never` and every row passes `always`. -/
structure Interpretation (Row : Type u) extends Reading Row where
  not_passes_never : ∀ row field, ¬ passes row field .never
  passes_always : ∀ row field, passes row field .always

instance (Row : Type u) : CoeOut (Interpretation Row) (Reading Row) := ⟨Interpretation.toReading⟩

namespace Condition

section Reading

variable {Row : Type u} (I : Reading Row)

mutual

def Holds : Condition → Row → Prop
  | .and parts, row => AllHold parts row
  | .or parts, row => SomeHolds parts row
  | .not part, row => ¬ Holds part row
  | .column field test, row => I.passes row field test
  | .relation field inner, row => ∃ other, I.related row field other ∧ Holds inner other

def AllHold : List Condition → Row → Prop
  | [], _ => True
  | part :: parts, row => Holds part row ∧ AllHold parts row

def SomeHolds : List Condition → Row → Prop
  | [], _ => False
  | part :: parts, row => Holds part row ∨ SomeHolds parts row

end

theorem allHold_iff {parts : List Condition} {row : Row} :
    AllHold I parts row ↔ ∀ part ∈ parts, part.Holds I row := by
  induction parts with
  | nil => simp [AllHold]
  | cons part parts ih => simp [AllHold, ih]

theorem someHolds_iff {parts : List Condition} {row : Row} :
    SomeHolds I parts row ↔ ∃ part ∈ parts, part.Holds I row := by
  induction parts with
  | nil => simp [SomeHolds]
  | cons part parts ih => simp [SomeHolds, ih]

@[simp]
theorem holds_and {parts : List Condition} {row : Row} :
    (Condition.and parts).Holds I row ↔ ∀ part ∈ parts, part.Holds I row := by
  rw [Holds, allHold_iff]

@[simp]
theorem holds_or {parts : List Condition} {row : Row} :
    (Condition.or parts).Holds I row ↔ ∃ part ∈ parts, part.Holds I row := by
  rw [Holds, someHolds_iff]

@[simp]
theorem holds_not {part : Condition} {row : Row} :
    (Condition.not part).Holds I row ↔ ¬ part.Holds I row := by
  rw [Holds]

@[simp]
theorem holds_column {field : String} {test : ColumnTest} {row : Row} :
    (Condition.column field test).Holds I row ↔ I.passes row field test := by
  rw [Holds]

@[simp]
theorem holds_relation {field : String} {inner : Condition} {row : Row} :
    (Condition.relation field inner).Holds I row ↔
      ∃ other, I.related row field other ∧ inner.Holds I other := by
  rw [Holds]

theorem holds_all {parts : List Condition} {row : Row} :
    (all parts).Holds I row ↔ ∀ part ∈ parts, part.Holds I row := by
  match parts with
  | [] => simp [all]
  | [part] => simp [all]
  | part :: next :: parts => simp [all]

/-- The refusal is put by `never` or without a column, so it needs no more of the reading. -/
theorem not_holds_refusal_of_refusesNever {I : Reading Row} (hnever : I.RefusesNever)
    (primary : Option String) (row : Row) : ¬ (refusal primary).Holds I row := by
  cases primary with
  | none => simp [refusal, never]
  | some field => simpa [refusal, neverOn] using hnever row field

end Reading

variable {Row : Type u} (I : Interpretation Row)

theorem not_holds_refusal (primary : Option String) (row : Row) :
    ¬ (refusal primary).Holds I row :=
  not_holds_refusal_of_refusesNever I.not_passes_never primary row

theorem not_holds_of_isNever {c : Condition} (h : c.isNever) (row : Row) :
    ¬ c.Holds I row := by
  cases c with
  | or parts =>
    have hnil : parts = [] := by simpa [isNever] using h
    simp [hnil]
  | column field test =>
    have htest : test = .never := by simpa [isNever] using h
    simpa [htest] using I.not_passes_never row field
  | and _ | not _ | relation _ _ => simp [isNever] at h

end Condition

end RoleAccess
