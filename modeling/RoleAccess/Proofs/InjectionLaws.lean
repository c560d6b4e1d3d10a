import Mathlib.Logic.Basic
import RoleAccess.Predicate.Semantics

/-!
# Laws of injection

Injecting bindings into a predicate gives a condition that holds where the predicate does, however
its leaves are nested. Renaming the variables first is looking their new names up in place of the
old ones. Of the bindings just those have an effect that the predicate names.
-/

namespace RoleAccess

universe u

/-! ## Meaning -/

/-- The entity that injection follows a relation to is the one that its rows are of. -/
lemma Model.target?_eq_relatedEntity (m : Model) (entity : Option String) (field : String) :
    m.target? entity field = m.relatedEntity entity field := by
  unfold target? relatedEntity relation? field? entity?
  cases entity with
  | none => rfl
  | some name =>
    cases he : m.entities.get? name with
    | none => simp [he]
    | some e =>
      simp only [Option.bind_eq_bind, Option.bind_some, he]
      cases e.fields.get? field with
      | none => rfl
      | some f => cases f <;> rfl

/-- A test is put on the key that is looked up for the entity of the row. -/
lemma VariableValue.holdsOn_test_iff {Row : Type u} {I : Reading Row} {m : Model}
    {entity : Option String} {row : Row} {t : ColumnTest} :
    (test t).HoldsOn I m entity row ↔
      ∃ primary, entity.bind m.primary? = some primary ∧ I.passes row primary t := by
  simp only [HoldsOn, Option.bind_eq_some_iff, Model.primary?, Model.entity?,
    Option.map_eq_some_iff]
  constructor
  · rintro ⟨name, e, hname, he, hpass⟩
    exact ⟨e.primary, ⟨name, hname, e, he, rfl⟩, hpass⟩
  · rintro ⟨_, ⟨name, hname, e, he, rfl⟩, hpass⟩
    exact ⟨name, e, hname, he, hpass⟩

namespace Bindings

section Meaning

variable {Row : Type u} {I : Reading Row} {b : Bindings} {name field : String}
  {m : Model} {entity : Option String} {row : Row}

lemma passes_columnTest_iff (hnever : I.RefusesNever) :
    I.passes row field (b.columnTest name) ↔
      ∃ test, b.get? name = some (.test test) ∧ I.passes row field test := by
  unfold columnTest testOf
  cases b.get? name with
  | none => simp [hnever row field]
  | some value =>
    cases value with
    | test t => simp
    | condition c => simp [hnever row field]

lemma holds_relationCondition_iff (hnever : I.RefusesNever) :
    (b.relationCondition name (entity.bind m.primary?)).Holds I row ↔
      ∃ value, b.get? name = some value ∧ value.HoldsOn I m entity row := by
  have hrefused := Condition.not_holds_refusal_of_refusesNever hnever (entity.bind m.primary?) row
  unfold relationCondition conditionOf
  cases b.get? name with
  | none => cases hkey : entity.bind m.primary? <;> simpa [hkey] using hrefused
  | some value =>
    cases value with
    | condition c => simp [VariableValue.HoldsOn]
    | test t =>
      simp only [Option.some.injEq, exists_eq_left', VariableValue.holdsOn_test_iff]
      cases hkey : entity.bind m.primary? with
      | none => simpa [hkey] using hrefused
      | some primary => simp

lemma holds_inject_iff (hnever : I.RefusesNever) (m : Model) (b : Bindings)
    (entity : Option String) (p : Predicate) (row : Row) :
    (b.inject m entity p).Holds I row ↔ p.Holds I m b entity row := by
  induction p generalizing entity row with
  | and parts ih =>
    rw [inject, injectList_eq_map, Condition.holds_and, List.forall_mem_map, Predicate.Holds,
      Predicate.allHold_iff]
    exact forall₂_congr fun part hpart => ih part hpart entity row
  | or parts ih =>
    rw [inject, injectList_eq_map, Condition.holds_or, Predicate.Holds, Predicate.someHolds_iff]
    simp only [List.mem_map, exists_exists_and_eq_and]
    exact exists_congr fun part => and_congr_right fun hpart => ih part hpart entity row
  | not part ih => rw [inject, Condition.holds_not, Predicate.Holds, ih]
  | column field test => rw [inject, Condition.holds_column, Predicate.Holds]
  | columnVariable field name =>
    rw [inject, Condition.holds_column, Predicate.Holds]
    exact passes_columnTest_iff hnever
  | relation field inner ih =>
    -- below the relation the entity is its target, if that is known
    rw [inject, Condition.holds_relation, Predicate.Holds, Model.target?_eq_relatedEntity]
    exact exists_congr fun other => and_congr_right fun _ => ih (m.relatedEntity entity field) other
  | relationVariable field name =>
    rw [inject, Condition.holds_relation, Predicate.Holds, Model.target?_eq_relatedEntity]
    constructor
    · rintro ⟨other, hrelated, hhold⟩
      obtain ⟨value, hvalue, hhold⟩ := (holds_relationCondition_iff hnever).1 hhold
      exact ⟨value, hvalue, other, hrelated, hhold⟩
    · rintro ⟨value, hvalue, other, hrelated, hhold⟩
      exact ⟨other, hrelated, (holds_relationCondition_iff hnever).2 ⟨value, hvalue, hhold⟩⟩

/-- A predicate and the condition that it becomes hold on the same rows, for all models, bindings
and entities, just if no row passes `never`. Every `Interpretation` is such a reading. -/
theorem inject_keeps_meaning_iff (I : Reading Row) :
    I.RefusesNever ↔
      ∀ (m : Model) (b : Bindings) (entity : Option String) (p : Predicate) (row : Row),
        (b.inject m entity p).Holds I row ↔ p.Holds I m b entity row := by
  refine ⟨holds_inject_iff, fun hmeaning row field hpass => ?_⟩
  -- a variable without a value is put as `never`, and it means that the row is refused
  have hunbound := hmeaning {} .empty none (.columnVariable field "") row
  rw [inject, Condition.holds_column, Predicate.Holds] at hunbound
  obtain ⟨test, hget, _⟩ := hunbound.1 hpass
  cases hget

end Meaning

/-- No site of an owner in the locale. -/
def noSiteInLocale : Predicate :=
  .not (.relation "site" (.and [.columnVariable "locale" "locale",
    .relationVariable "owner" "owners"]))

/-- Articles stand on sites, which are owned by persons. A person's key is the login. -/
def ownedSites : Model :=
  let article := (Entity.new "Article").owning "site" "Site" none
  let site := ((Entity.withPrimary "Site" "host").column "locale").owning "owner" "Person" none
  ((Model.insert {} article).insert site).insert (.withPrimary "Person" "login")

/-- The owners are told by the key of the entity that two relations lead to. -/
theorem owners_by_login :
    let b : Bindings := NameMap.empty.insert "owners" (.test (.oneOf [.text "admin"]))
    b.inject ownedSites (some "Article") noSiteInLocale =
      .not (.relation "site" (.and [.column "locale" .never,
        .relation "owner" (.column "login" (.oneOf [.text "admin"]))])) ∧
    ∀ (Row : Type) (I : Interpretation Row) (row : Row),
      (b.inject ownedSites (some "Article") noSiteInLocale).Holds I row ↔
        noSiteInLocale.Holds I.toReading ownedSites b (some "Article") row := by
  intro b
  refine ⟨by decide, fun Row I row => ?_⟩
  exact (inject_keeps_meaning_iff I.toReading).1 I.not_passes_never ownedSites b (some "Article")
    noSiteInLocale row

end Bindings

/-! ## Names of variables -/

lemma Predicate.mapVariables_id (p : Predicate) : p.mapVariables id = p := by
  induction p with
  | and parts ih =>
    rw [mapVariables, mapVariablesOfList_eq_map, List.map_congr_left ih, List.map_id']
  | or parts ih =>
    rw [mapVariables, mapVariablesOfList_eq_map, List.map_congr_left ih, List.map_id']
  | not part ih => rw [mapVariables, ih]
  | column field test => rfl
  | columnVariable field name => rfl
  | relation field inner ih => rw [mapVariables, ih]
  | relationVariable field name => rfl

namespace Bindings

section Names

variable {m : Model} {b other : Bindings} {f : String → String} {name new : String}

lemma columnTest_congr (h : other.get? name = b.get? new) :
    b.columnTest new = other.columnTest name := by
  unfold columnTest testOf
  rw [h]

lemma relationCondition_congr (h : other.get? name = b.get? new) (primary : Option String) :
    b.relationCondition new primary = other.relationCondition name primary := by
  unfold relationCondition conditionOf
  rw [h]

mutual

/-- Injecting into a renamed predicate asks for the new name at every leaf that has a variable. -/
theorem inject_mapVariables : ∀ (p : Predicate) (entity : Option String),
    (∀ name ∈ p.variableNames, other.get? name = b.get? (f name)) →
      b.inject m entity (p.mapVariables f) = other.inject m entity p
  | .and parts, entity, h => congrArg Condition.and (injectList_mapVariables parts entity h)
  | .or parts, entity, h => congrArg Condition.or (injectList_mapVariables parts entity h)
  | .not part, entity, h => congrArg Condition.not (inject_mapVariables part entity h)
  | .column _ _, _, _ => rfl
  | .columnVariable field name, _, h =>
    congrArg (Condition.column field) (columnTest_congr (h name (List.mem_singleton.2 rfl)))
  | .relation field inner, entity, h =>
    congrArg (Condition.relation field) (inject_mapVariables inner (m.target? entity field) h)
  | .relationVariable field name, _, h =>
    congrArg (Condition.relation field)
      (relationCondition_congr (h name (List.mem_singleton.2 rfl)) _)

theorem injectList_mapVariables : ∀ (parts : List Predicate) (entity : Option String),
    (∀ name ∈ Predicate.variableNamesOfList parts, other.get? name = b.get? (f name)) →
      injectList m b entity (Predicate.mapVariablesOfList f parts) = injectList m other entity parts
  | [], _, _ => rfl
  | part :: parts, entity, h => by
    obtain ⟨hpart, hparts⟩ := List.forall_mem_append.1 h
    rw [Predicate.mapVariablesOfList, injectList, injectList,
      inject_mapVariables part entity hpart, injectList_mapVariables parts entity hparts]

end

/-- Bindings that agree on the variables of the predicate give one condition. -/
lemma inject_congr {p : Predicate} {entity : Option String}
    (h : ∀ name ∈ p.variableNames, b.get? name = other.get? name) :
    b.inject m entity p = other.inject m entity p := by
  have hrenamed : other.inject m entity (p.mapVariables id) = b.inject m entity p :=
    inject_mapVariables p entity h
  rw [← hrenamed, Predicate.mapVariables_id]

mutual

/-- Each variable of a predicate shows in the condition for some value: at a column leaf a test
takes the place of `never`, at a relation leaf a condition that of the refusal. -/
theorem exists_inject_ne : ∀ (p : Predicate) (entity : Option String), name ∈ p.variableNames →
    ∃ value, inject m (NameMap.empty.insert name value) entity p ≠ inject m .empty entity p
  | .and parts, entity, h => by
    obtain ⟨value, hne⟩ := exists_injectList_ne parts entity h
    exact ⟨value, fun heq => hne (Condition.and.inj heq)⟩
  | .or parts, entity, h => by
    obtain ⟨value, hne⟩ := exists_injectList_ne parts entity h
    exact ⟨value, fun heq => hne (Condition.or.inj heq)⟩
  | .not part, entity, h => by
    obtain ⟨value, hne⟩ := exists_inject_ne part entity h
    exact ⟨value, fun heq => hne (Condition.not.inj heq)⟩
  | .column _ _, _, h => nomatch h
  | .columnVariable field own, entity, h => by
    obtain rfl : name = own := List.mem_singleton.1 h
    refine ⟨.test .always, ?_⟩
    simp [inject, columnTest, testOf]
  | .relation field inner, entity, h => by
    obtain ⟨value, hne⟩ := exists_inject_ne inner (m.target? entity field) h
    exact ⟨value, fun heq => hne (Condition.relation.inj heq).2⟩
  | .relationVariable field own, entity, h => by
    obtain rfl : name = own := List.mem_singleton.1 h
    refine ⟨.condition .always, ?_⟩
    cases hprimary : (m.target? entity field).bind m.primary? <;>
      simp [inject, relationCondition, conditionOf, hprimary, Condition.refusal, Condition.never,
        Condition.neverOn, Condition.always]

theorem exists_injectList_ne : ∀ (parts : List Predicate) (entity : Option String),
    name ∈ Predicate.variableNamesOfList parts → ∃ value,
      injectList m (NameMap.empty.insert name value) entity parts ≠
        injectList m .empty entity parts
  | [], _, h => nomatch h
  | part :: parts, entity, h => by
    rcases List.mem_append.1 h with h | h
    · obtain ⟨value, hne⟩ := exists_inject_ne part entity h
      exact ⟨value, fun heq => hne (List.cons.inj heq).1⟩
    · obtain ⟨value, hne⟩ := exists_injectList_ne parts entity h
      exact ⟨value, fun heq => hne (List.cons.inj heq).2⟩

end

end Names

/-- Injecting after a renaming is injecting bindings that have under each name of the predicate what
the others have under the new one, and the renaming runs through the list of names. The list is
exact: two bindings that differ in one name can give different conditions just if it is listed. -/
theorem renaming_is_rebinding (p : Predicate) (f : String → String) :
    (∀ (m : Model) (entity : Option String) (b other : Bindings),
      (∀ name ∈ p.variableNames, other.get? name = b.get? (f name)) →
        b.inject m entity (p.mapVariables f) = other.inject m entity p) ∧
    (p.mapVariables f).variableNames = p.variableNames.map f ∧
    ∀ (m : Model) (entity : Option String) (name : String),
      name ∈ p.variableNames ↔
        ∃ b other : Bindings, (∀ n, n ≠ name → b.get? n = other.get? n) ∧
          b.inject m entity p ≠ other.inject m entity p := by
  refine ⟨fun m entity b other h => inject_mapVariables p entity h,
    Predicate.variableNames_mapVariables f p, fun m entity name => ⟨fun hname => ?_, ?_⟩⟩
  · obtain ⟨value, hne⟩ := exists_inject_ne p entity hname
    refine ⟨_, _, fun n hn => ?_, hne⟩
    rw [NameMap.get?_insert, if_neg hn]
  · rintro ⟨b, other, hagree, hne⟩
    refine by_contra fun hname => hne (inject_congr fun n hn => hagree n ?_)
    rintro rfl
    exact hname hn

theorem site_filter_of_editors :
    let editors : Bindings := (NameMap.empty.insert "editor__locale" (.test .always)).insert
      "editor__owners" (.condition .always)
    let own : Bindings := (NameMap.empty.insert "locale" (.test .always)).insert
      "owners" (.condition .always)
    (∀ name ∈ noSiteInLocale.variableNames,
      own.get? name = editors.get? (prefixed "editor" name)) ∧
    editors.inject {} (some "Article") (noSiteInLocale.mapVariables (prefixed "editor")) =
      own.inject {} (some "Article") noSiteInLocale ∧
    own.inject {} (some "Article") noSiteInLocale = .not (.relation "site"
      (.and [.column "locale" .always, .relation "owner" .always])) := by
  intro editors own
  have hnames : ∀ name ∈ noSiteInLocale.variableNames,
      own.get? name = editors.get? (prefixed "editor" name) := by decide
  refine ⟨hnames, ?_, by decide⟩
  exact (renaming_is_rebinding noSiteInLocale (prefixed "editor")).1 {} (some "Article") editors own
    hnames

end Bindings

end RoleAccess
