import Mathlib.Logic.Basic
import RoleAccess.Condition.Semantics
import RoleAccess.RowFilter

/-!
# Replacing subtrees, and the reduced way back

A row filter that is reached along a relation puts an existence check in the place of the way back
to the source rows. Replacing a subtree keeps the truth of a condition on every row on which the
two subtrees agree, and the existence check agrees with the way back on the rows whose source was
read under its own condition. Both facts together are the meaning of `RowFilter.create` along a
traversal.
-/

namespace RoleAccess

universe u

namespace Condition

variable {find replacement : Condition}

@[simp]
lemma replace_self : find.replace find replacement = replacement := by
  rw [replace.eq_def, if_pos rfl]

lemma replace_and {parts : List Condition} (h : Condition.and parts ≠ find) :
    (Condition.and parts).replace find replacement =
      .and (parts.map (·.replace find replacement)) := by
  rw [replace, if_neg h, replaceList_eq_map]

lemma replace_or {parts : List Condition} (h : Condition.or parts ≠ find) :
    (Condition.or parts).replace find replacement =
      .or (parts.map (·.replace find replacement)) := by
  rw [replace, if_neg h, replaceList_eq_map]

lemma replace_not {part : Condition} (h : Condition.not part ≠ find) :
    (Condition.not part).replace find replacement = .not (part.replace find replacement) := by
  rw [replace, if_neg h]

lemma replace_column {field : String} {test : ColumnTest} (h : column field test ≠ find) :
    (column field test).replace find replacement = column field test := by
  rw [replace, if_neg h]

lemma replace_relation {field : String} {inner : Condition} (h : relation field inner ≠ find) :
    (relation field inner).replace find replacement = relation field inner := by
  rw [replace, if_neg h]

/-- Induction on the places that replacement looks at: `find` itself, or a node apart from it whose
parts on the same row are looked at in turn. -/
@[elab_as_elim]
theorem induction_on_places (find : Condition) {motive : Condition → Prop} (found : motive find)
    (and : ∀ parts, Condition.and parts ≠ find → (∀ part ∈ parts, motive part) →
      motive (.and parts))
    (or : ∀ parts, Condition.or parts ≠ find → (∀ part ∈ parts, motive part) → motive (.or parts))
    (not : ∀ part, Condition.not part ≠ find → motive part → motive (.not part))
    (column : ∀ field test, Condition.column field test ≠ find → motive (.column field test))
    (relation : ∀ field inner, Condition.relation field inner ≠ find →
      motive (.relation field inner)) (c : Condition) : motive c := by
  have place : ∀ c, (c ≠ find → motive c) → motive c := by
    intro c h
    by_cases hc : c = find
    · rw [hc]
      exact found
    · exact h hc
  induction c with
  | and parts ih => exact place _ fun h => and parts h ih
  | or parts ih => exact place _ fun h => or parts h ih
  | not part ih => exact place _ fun h => not part h ih
  | column field test => exact place _ (column field test)
  | relation field inner _ => exact place _ (relation field inner)

@[simp]
lemma replace_by_itself (c find : Condition) : c.replace find find = c := by
  induction c using induction_on_places find with
  | found => exact replace_self
  | and parts h ih => rw [replace_and h, List.map_congr_left ih, List.map_id']
  | or parts h ih => rw [replace_or h, List.map_congr_left ih, List.map_id']
  | not part h ih => rw [replace_not h, ih]
  | column field test h => exact replace_column h
  | relation field inner h => exact replace_relation h

/-- Replacement is a congruence row by row: `and`, `or` and `not` stay on the row, and relations,
which lead to other rows, are not entered. -/
theorem holds_replace {Row : Type u} (I : Reading Row) {row : Row}
    (agree : find.Holds I row ↔ replacement.Holds I row) (c : Condition) :
    (c.replace find replacement).Holds I row ↔ c.Holds I row := by
  induction c using induction_on_places find with
  | found =>
    rw [replace_self]
    exact agree.symm
  | and parts h ih =>
    rw [replace_and h, holds_and, holds_and, List.forall_mem_map]
    exact forall₂_congr ih
  | or parts h ih =>
    rw [replace_or h, holds_or, holds_or]
    simp only [List.mem_map, exists_exists_and_eq_and]
    exact exists_congr fun part => and_congr_right (ih part)
  | not part h ih =>
    rw [replace_not h, holds_not, holds_not]
    exact not_congr ih
  | column field test h => rw [replace_column h]
  | relation field inner h => rw [replace_relation h]

end Condition

namespace RowFilter

variable (f : RowFilter)

@[simp]
lemma create_none (entity : String) (op : Operation) (fields : List String) :
    f.create entity op fields none = f.direct entity op fields := by
  unfold create direct
  cases f.demand entity op fields with
  | error primary => rfl
  | ok ps =>
    cases ps with
    | nil => rfl
    | cons p ps => rfl

lemma create_eq_or_optimize (entity : String) (op : Operation) (fields : List String)
    (along : Option Traversal) :
    f.create entity op fields along = f.direct entity op fields ∨
      f.create entity op fields along = f.optimize along (f.direct entity op fields) := by
  unfold create direct
  cases f.demand entity op fields with
  | error primary => exact .inl rfl
  | ok ps =>
    cases ps with
    | nil => exact .inl rfl
    | cons p ps => exact .inr rfl

/-- The condition under which the source rows of a traversal are read. -/
def sourceCondition (along : Traversal) : Condition :=
  f.create along.entity (.fields .read) [along.relation] none

/-- Every way back of the traversal leads from the row to some source row that passes the condition
under which the source rows are read. -/
def Guaranteed {Row : Type u} (I : Reading Row) (along : Traversal) (row : Row) : Prop :=
  ∀ back, along.back = some back →
    ∃ source, I.related row back source ∧ (f.sourceCondition along).Holds I source

lemma optimize_eq_or_replace (along : Traversal) (c : Condition) :
    f.optimize (some along) c = c ∨
      ∃ back primary, along.back = some back ∧
        f.optimize (some along) c = c.replace (.relation back (f.sourceCondition along))
          (.relation back (.column primary .always)) := by
  obtain ⟨source, relation, back⟩ := along
  cases back with
  | none => exact .inl rfl
  | some back =>
    unfold sourceCondition
    simp only [optimize, create_none]
    split
    · exact .inl rfl
    · split
      · rename_i primary _
        exact .inr ⟨back, primary, rfl, rfl⟩
      · exact .inl rfl

/-- Where the source rows are guaranteed, the way back and the existence check both hold. -/
lemma holds_optimize {Row : Type u} {I : Reading Row} {along : Traversal} {row : Row}
    (always : ∀ row field, I.passes row field .always) (guaranteed : f.Guaranteed I along row)
    (c : Condition) : (f.optimize (some along) c).Holds I row ↔ c.Holds I row := by
  obtain h | ⟨back, primary, hback, h⟩ := f.optimize_eq_or_replace along c
  · rw [h]
  · obtain ⟨source, related, read⟩ := guaranteed back hback
    rw [h]
    apply Condition.holds_replace
    have way : (Condition.relation back (f.sourceCondition along)).Holds I row :=
      (Condition.holds_relation I).2 ⟨source, related, read⟩
    have check : (Condition.relation back (.column primary .always)).Holds I row :=
      (Condition.holds_relation I).2
        ⟨source, related, (Condition.holds_column I).2 (always source primary)⟩
    exact iff_of_true way check

/-- On the rows whose source rows were read under their own condition, a filter along a traversal
means what it means without it. -/
theorem create_along_iff_of_guaranteed {Row : Type u} (I : Reading Row)
    (always : ∀ row field, I.passes row field .always) (along : Traversal) (row : Row)
    (guaranteed : f.Guaranteed I along row) :
    (∀ entity op fields, (f.create entity op fields (some along)).Holds I row ↔
      (f.create entity op fields none).Holds I row) ∧
    ∀ c, (f.optimize (some along) c).Holds I row ↔ c.Holds I row := by
  refine ⟨fun entity op fields => ?_, f.holds_optimize always guaranteed⟩
  rw [create_none]
  obtain h | h := f.create_eq_or_optimize entity op fields (some along)
  · rw [h]
  · rw [h]
    exact f.holds_optimize always guaranteed _

/-- Images are read through the articles that show them, and articles only when published. -/
def imagesOfPublished : RowFilter :=
  let published : Predicate := .column "isPublished" (.compare .eq (.bool true))
  let readUnder (field : String) (p : Predicate) : EntityGrants :=
    { fields := ⟨.empty, NameMap.empty.insert field { root := some (.rows [p]) }, .empty⟩ }
  let article := (Entity.new "Article").owning "cover" "Image" (some "articles")
  let image := (Entity.new "Image").inverse "articles" "Article" "cover"
  let model := (({} : Model).insert article).insert image
  { permissions :=
      { model
        grants := ⟨(NameMap.empty.insert "Article" (readUnder "cover" published)).insert "Image"
          (readUnder "url" (.relation "articles" published))⟩
        defaultCustomPrimary := false }
    injector := ⟨model, .empty⟩ }

/-- Two rows: an image (`false`) shown by one article (`true`), which is published. -/
def imageOfPublished : Reading Bool where
  passes row _ test := test = .always ∨ row = true ∧ test = .compare .eq (.bool true)
  related row field other := row = false ∧ field = "articles" ∧ other = true

theorem image_of_published_article :
    let along : Traversal := ⟨"Article", "cover", some "articles"⟩
    imagesOfPublished.create "Image" (.fields .read) ["url"] (some along) =
        .relation "articles" (.column "id" .always) ∧
      imagesOfPublished.Guaranteed imageOfPublished along false ∧
      ((imagesOfPublished.create "Image" (.fields .read) ["url"] (some along)).Holds
          imageOfPublished false ↔
        (imagesOfPublished.create "Image" (.fields .read) ["url"] none).Holds
          imageOfPublished false) := by
  have source : imagesOfPublished.sourceCondition ⟨"Article", "cover", some "articles"⟩ =
      .column "isPublished" (.compare .eq (.bool true)) := by decide
  have guaranteed : imagesOfPublished.Guaranteed imageOfPublished
      ⟨"Article", "cover", some "articles"⟩ false := by
    rintro back ⟨⟩
    rw [source]
    refine ⟨true, ⟨rfl, rfl, rfl⟩, ?_⟩
    rw [Condition.holds_column]
    exact .inr ⟨rfl, rfl⟩
  refine ⟨by decide, guaranteed, ?_⟩
  exact (create_along_iff_of_guaranteed imagesOfPublished imageOfPublished (fun _ _ => .inl rfl)
    _ false guaranteed).1 "Image" (.fields .read) ["url"]

end RowFilter

end RoleAccess
