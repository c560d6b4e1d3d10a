import Mathlib.Logic.Basic
import RoleAccess.Condition.Semantics
import RoleAccess.Injection

/-!
# Missing variables and the polarity of their leaves

A variable without a value becomes a leaf that refuses every row. Under an even number of `not` the
leaf narrows the predicate, under an odd number it widens it. So further bindings can only add rows
where the new variables stand at positive leaves, can only take rows away where they stand at
negative leaves, and no weaker condition on the signs of the leaves is enough.
-/

namespace RoleAccess

universe u

inductive Polarity where
  | positive | negative
deriving DecidableEq

def Polarity.flip : Polarity → Polarity
  | positive => negative
  | negative => positive

namespace Predicate

mutual

/-- The variables at the leaves in tree order, each with the polarity of its leaf. -/
def signedVariables : Predicate → List (Polarity × String)
  | .and parts => signedVariablesOfList parts
  | .or parts => signedVariablesOfList parts
  | .not part => (signedVariables part).map (Prod.map Polarity.flip id)
  | .column _ _ => []
  | .columnVariable _ v => [(.positive, v)]
  | .relation _ inner => signedVariables inner
  | .relationVariable _ v => [(.positive, v)]

def signedVariablesOfList : List Predicate → List (Polarity × String)
  | [] => []
  | part :: parts => signedVariables part ++ signedVariablesOfList parts

end

lemma signedVariablesOfList_eq_flatMap (ps : List Predicate) :
    signedVariablesOfList ps = ps.flatMap signedVariables := by
  induction ps with
  | nil => rfl
  | cons p ps ih => rw [signedVariablesOfList, ih, List.flatMap_cons]

lemma mem_signedVariables_not {sign : Polarity} {name : String} {part : Predicate} :
    (sign, name) ∈ (Predicate.not part).signedVariables ↔
      (sign.flip, name) ∈ part.signedVariables := by
  rw [signedVariables, List.mem_map]
  constructor
  · rintro ⟨⟨other, _⟩, h, ⟨⟩⟩
    cases other <;> exact h
  · intro h
    refine ⟨(sign.flip, name), h, ?_⟩
    cases sign <;> rfl

lemma mem_signedVariables_and {e : Polarity × String} {parts : List Predicate} :
    e ∈ (Predicate.and parts).signedVariables ↔ ∃ part ∈ parts, e ∈ part.signedVariables := by
  rw [signedVariables, signedVariablesOfList_eq_flatMap, List.mem_flatMap]

lemma mem_signedVariables_or {e : Polarity × String} {parts : List Predicate} :
    e ∈ (Predicate.or parts).signedVariables ↔ ∃ part ∈ parts, e ∈ part.signedVariables := by
  rw [signedVariables, signedVariablesOfList_eq_flatMap, List.mem_flatMap]

end Predicate

namespace Bindings

/-- `richer` binds everything that `poorer` binds, to the same values. -/
def Extends (richer poorer : Bindings) : Prop :=
  ∀ name value, poorer.get? name = some value → richer.get? name = some value

/-- The bindings have no value for the name, or the one that `other` has. -/
def Within (b other : Bindings) (name : String) : Prop :=
  b.get? name = none ∨ b.get? name = other.get? name

section Injection

variable {Row : Type u} (I : Interpretation Row) {b other : Bindings} {name : String}

lemma passes_columnTest_of_within (h : b.Within other name) {row : Row} {field : String}
    (hpass : I.passes row field (b.columnTest name)) :
    I.passes row field (other.columnTest name) := by
  rcases h with h | h
  · have hnever : b.columnTest name = .never := by simp [columnTest, testOf, h]
    rw [hnever] at hpass
    exact absurd hpass (I.not_passes_never row field)
  · have hsame : b.columnTest name = other.columnTest name := by simp [columnTest, testOf, h]
    exact hsame ▸ hpass

lemma holds_relationCondition_of_within (h : b.Within other name) {row : Row}
    {primary : Option String} (hhold : (b.relationCondition name primary).Holds I row) :
    (other.relationCondition name primary).Holds I row := by
  rcases h with h | h
  · have hrefusal : b.relationCondition name primary = .refusal primary := by
      cases primary <;> simp [relationCondition, conditionOf, h]
    rw [hrefusal] at hhold
    exact absurd hhold (Condition.not_holds_refusal I primary row)
  · have hsame : b.relationCondition name primary = other.relationCondition name primary := by
      simp [relationCondition, conditionOf, h]
    exact hsame ▸ hhold

/-- Rows are kept when values are added at the positive leaves and taken away at the negative ones.
The two bindings change places below a negation, so the induction needs both at once. -/
theorem holds_inject_of_within (m : Model) (p : Predicate) (b other : Bindings)
    (entity : Option String) (row : Row)
    (hpos : ∀ name, (.positive, name) ∈ p.signedVariables → b.Within other name)
    (hneg : ∀ name, (.negative, name) ∈ p.signedVariables → other.Within b name)
    (hhold : (b.inject m entity p).Holds I row) : (other.inject m entity p).Holds I row := by
  induction p generalizing b other entity row with
  | and parts ih =>
    rw [inject, injectList_eq_map, Condition.holds_and, List.forall_mem_map] at hhold ⊢
    intro part hpart
    apply ih part hpart b other entity row
    · exact fun name h => hpos name (Predicate.mem_signedVariables_and.2 ⟨part, hpart, h⟩)
    · exact fun name h => hneg name (Predicate.mem_signedVariables_and.2 ⟨part, hpart, h⟩)
    · exact hhold part hpart
  | or parts ih =>
    rw [inject, injectList_eq_map, Condition.holds_or] at hhold ⊢
    obtain ⟨_, hmem, hhold⟩ := hhold
    obtain ⟨part, hpart, rfl⟩ := List.mem_map.1 hmem
    refine ⟨_, List.mem_map_of_mem hpart, ?_⟩
    apply ih part hpart b other entity row
    · exact fun name h => hpos name (Predicate.mem_signedVariables_or.2 ⟨part, hpart, h⟩)
    · exact fun name h => hneg name (Predicate.mem_signedVariables_or.2 ⟨part, hpart, h⟩)
    · exact hhold
  | not part ih =>
    rw [inject, Condition.holds_not] at hhold ⊢
    intro hother
    apply hhold
    apply ih other b entity row
    · exact fun name h => hneg name (Predicate.mem_signedVariables_not.2 h)
    · exact fun name h => hpos name (Predicate.mem_signedVariables_not.2 h)
    · exact hother
  | column field test => exact hhold
  | columnVariable field name =>
    rw [inject, Condition.holds_column] at hhold ⊢
    exact passes_columnTest_of_within I (hpos name (by simp [Predicate.signedVariables])) hhold
  | relation field inner ih =>
    rw [inject, Condition.holds_relation] at hhold ⊢
    obtain ⟨target, related, hhold⟩ := hhold
    rw [Predicate.signedVariables] at hpos hneg
    exact ⟨target, related, ih b other _ target hpos hneg hhold⟩
  | relationVariable field name =>
    rw [inject, Condition.holds_relation] at hhold ⊢
    obtain ⟨target, related, hhold⟩ := hhold
    exact ⟨target, related, holds_relationCondition_of_within I
      (hpos name (by simp [Predicate.signedVariables])) hhold⟩

end Injection

lemma Extends.within {richer poorer : Bindings} (h : richer.Extends poorer) (name : String) :
    poorer.Within richer name := by
  cases hget : poorer.get? name with
  | none => exact .inl hget
  | some value => exact .inr (hget.trans (h name value hget).symm)

lemma Extends.within_of_not_new {richer poorer : Bindings} (h : richer.Extends poorer)
    {name : String} (old : ¬ (poorer.get? name = none ∧ richer.get? name ≠ none)) :
    richer.Within poorer name := by
  cases hget : poorer.get? name with
  | none => exact .inl (by_contra fun hne => old ⟨hget, hne⟩)
  | some value => exact .inr ((h name value hget).trans hget.symm)

end Bindings

namespace Predicate

/-- A row that satisfies the predicate still does when more variables are bound. -/
def NeverWidens (p : Predicate) : Prop :=
  ∀ (m : Model) (entity : String) (poorer richer : Bindings), richer.Extends poorer →
    ∀ (Row : Type u) (I : Interpretation Row) (row : Row),
      (poorer.inject m (some entity) p).Holds I row →
        (richer.inject m (some entity) p).Holds I row

/-- A predicate with one variable of a given sign that is satisfied while the variable has no
value. -/
def signedPart : Polarity × String → Predicate
  | (.positive, name) => .or [.column "id" .always, .columnVariable "id" name]
  | (.negative, name) => .not (.columnVariable "id" name)

/-- Only the test `always` is ever passed, and no row is related to another. -/
def alwaysOnly : Interpretation PUnit.{u + 1} where
  passes _ _ test := test = .always
  related _ _ _ := False
  not_passes_never _ _ h := nomatch h
  passes_always _ _ := rfl

lemma signedVariables_and_signedParts (signs : List (Polarity × String)) :
    (Predicate.and (signs.map signedPart)).signedVariables = signs := by
  rw [signedVariables, signedVariablesOfList_eq_flatMap]
  induction signs with
  | nil => rfl
  | cons sign signs ih =>
    rw [List.map_cons, List.flatMap_cons, ih]
    obtain ⟨sign, name⟩ := sign
    cases sign <;> rfl

lemma holds_signedPart_unbound (m : Model) (entity : Option String)
    (sign : Polarity × String) :
    (Bindings.inject m .empty entity (signedPart sign)).Holds
      alwaysOnly.{u}.toReading ⟨⟩ := by
  obtain ⟨sign, name⟩ := sign
  cases sign with
  | positive =>
    simp [signedPart, Bindings.inject, Bindings.injectList, alwaysOnly]
  | negative =>
    simp [signedPart, Bindings.inject, Bindings.columnTest, Bindings.testOf, alwaysOnly]

/-- Binding the variable of a negative leaf to `always` closes what was open without it. -/
lemma not_neverWidens_signedParts {signs : List (Polarity × String)} {name : String}
    (h : (.negative, name) ∈ signs) :
    ¬ NeverWidens.{u} (Predicate.and (signs.map signedPart)) := by
  intro hsafe
  let bound : Bindings := NameMap.empty.insert name (.test .always)
  have hextends : bound.Extends .empty := fun _ _ hget => nomatch hget
  have hopen : (Bindings.inject {} .empty (some "") (.and (signs.map signedPart))).Holds
      alwaysOnly.{u}.toReading ⟨⟩ := by
    rw [Bindings.inject, Bindings.injectList_eq_map, Condition.holds_and, List.map_map,
      List.forall_mem_map]
    exact fun sign _ => holds_signedPart_unbound {} (some "") sign
  have hclosed := hsafe {} "" .empty bound hextends _ alwaysOnly ⟨⟩ hopen
  rw [Bindings.inject, Bindings.injectList_eq_map, Condition.holds_and, List.map_map,
    List.forall_mem_map] at hclosed
  have hpart := hclosed _ h
  simp [signedPart, Bindings.inject, Bindings.columnTest, Bindings.testOf, bound,
    alwaysOnly] at hpart

lemma holds_inject_of_extends {p : Predicate} {poorer richer : Bindings}
    (hextends : richer.Extends poorer)
    (hnew : ∀ name, poorer.get? name = none ∧ richer.get? name ≠ none →
      (.negative, name) ∉ p.signedVariables)
    (m : Model) (entity : Option String) {Row : Type u} (I : Interpretation Row) {row : Row}
    (hhold : (poorer.inject m entity p).Holds I row) : (richer.inject m entity p).Holds I row := by
  refine Bindings.holds_inject_of_within I m p poorer richer entity row ?_ ?_ hhold
  · exact fun name _ => hextends.within name
  · exact fun name hmem => hextends.within_of_not_new fun hname => hnew name hname hmem

lemma holds_inject_of_extended {p : Predicate} {poorer richer : Bindings}
    (hextends : richer.Extends poorer)
    (hnew : ∀ name, poorer.get? name = none ∧ richer.get? name ≠ none →
      (.positive, name) ∉ p.signedVariables)
    (m : Model) (entity : Option String) {Row : Type u} (I : Interpretation Row) {row : Row}
    (hhold : (richer.inject m entity p).Holds I row) : (poorer.inject m entity p).Holds I row := by
  refine Bindings.holds_inject_of_within I m p richer poorer entity row ?_ ?_ hhold
  · exact fun name hmem => hextends.within_of_not_new fun hname => hnew name hname hmem
  · exact fun name _ => hextends.within name

/-- Further bindings take no row away where the newly bound variables have no negative leaf, and
add none where they have no positive one. Of the conditions on the signs of the leaves this is the
weakest: where a leaf is negative, some predicate with the same signs loses a row. -/
theorem widening_needs_negative_leaf (p : Predicate) :
    (∀ (m : Model) (entity : String) (poorer richer : Bindings), richer.Extends poorer →
      ∀ (Row : Type u) (I : Interpretation Row) (row : Row),
        ((∀ name, poorer.get? name = none ∧ richer.get? name ≠ none →
            (.negative, name) ∉ p.signedVariables) →
          (poorer.inject m (some entity) p).Holds I row →
            (richer.inject m (some entity) p).Holds I row) ∧
        ((∀ name, poorer.get? name = none ∧ richer.get? name ≠ none →
            (.positive, name) ∉ p.signedVariables) →
          (richer.inject m (some entity) p).Holds I row →
            (poorer.inject m (some entity) p).Holds I row)) ∧
    ((∀ q : Predicate, q.signedVariables = p.signedVariables → NeverWidens.{u} q) ↔
      ∀ name, (.negative, name) ∉ p.signedVariables) := by
  refine ⟨fun m entity poorer richer hextends Row I row => ⟨?_, ?_⟩, ?_, ?_⟩
  · exact fun hnew => holds_inject_of_extends hextends hnew m (some entity) I
  · exact fun hnew => holds_inject_of_extended hextends hnew m (some entity) I
  · intro hsafe name hmem
    exact not_neverWidens_signedParts hmem
      (hsafe _ (signedVariables_and_signedParts p.signedVariables))
  · intro hneg q hq m entity poorer richer hextends Row I row
    apply holds_inject_of_extends hextends
    intro name _
    rw [hq]
    exact hneg name

/-- Without a value for the variable the row is open, and with one it is closed. -/
theorem negated_missing_variable_opens_row :
    let p : Predicate := .not (.columnVariable "locale" "editor__locale")
    let bound : Bindings := NameMap.empty.insert "editor__locale" (.test .always)
    bound.Extends .empty ∧
      (Bindings.inject {} .empty (some "Article") p).Holds alwaysOnly.{0}.toReading ⟨⟩ ∧
      ¬ (bound.inject {} (some "Article") p).Holds alwaysOnly.{0}.toReading ⟨⟩ := by
  intro p bound
  have hextends : bound.Extends .empty := fun _ _ hget => nomatch hget
  refine ⟨hextends, ?_, ?_⟩
  · simp [p, Bindings.inject, Bindings.columnTest, Bindings.testOf, alwaysOnly]
  · simp [p, bound, Bindings.inject, Bindings.columnTest, Bindings.testOf, alwaysOnly]

end Predicate

end RoleAccess
