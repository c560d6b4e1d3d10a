import RoleAccess.Proofs.AccessLevels
import RoleAccess.Proofs.FieldAnswers
import RoleAccess.Proofs.RoleListAppend

/-!
# Rows under further roles

A conditional grant asks for every predicate that some role lists, so a further role may take rows
away from a field as long as no role opens it outright. The rows that are lost are told exactly: of
those that pass with fewer roles, the ones that fail a predicate which only further visits list.
-/

namespace RoleAccess

universe u

/-- The predicates that the visited role lists for an item of an entity on a route. -/
def Visit.listed (v : Visit) (model : Model) (entity : String) (item : Item) (route : Route) :
    List Predicate :=
  match v.grants model with
  | .ok g => Grant.listed (g.grant? entity item route)
  | .error _ => []

lemma Visit.mem_listed_iff {v : Visit} {model : Model} {entity : String} {item : Item}
    {route : Route} {p : Predicate} :
    p ∈ v.listed model entity item route ↔
      ∃ g, v.grants model = .ok g ∧ p ∈ Grant.listed (g.grant? entity item route) := by
  unfold listed
  cases v.grants model with
  | ok g => simp
  | error fault => simp

/-- The rules of `source` have a say in the grants of an item: those of all other fields for a
primary key, and its own rules for any other item. -/
inductive Model.Decides (m : Model) (entity : String) : Item → Item → Prop
  | own {item : Item} (h : ∀ primary action, m.primary? entity = some primary →
      item ≠ .field action primary) : Decides m entity item item
  | other {primary field : String} (action : FieldAction) (h : m.primary? entity = some primary)
      (hfield : field ≠ primary) : Decides m entity (.field action primary) (.field action field)

namespace Schema

variable {s : Schema} {roles few : List String} {scope : Option String} {t merged : GrantTable}
  {entity : String} {item source : Item} {route : Route} {p : Predicate}

/-- What visits merge to lists the predicates of all of them, unless one opens all rows. -/
lemma MergesTo.mem_listed_iff (h : s.MergesTo roles scope merged)
    (hne : merged.grant? entity item route ≠ some .allow) :
    p ∈ Grant.listed (merged.grant? entity item route) ↔
      ∃ v ∈ (s.acl.walk roles scope).visits, p ∈ v.listed s.model entity item route := by
  obtain ⟨tables, htables, rfl⟩ := foldlM_mergeVisit_eq_ok_iff.1 h.2
  rw [GrantTable.grant?_foldl_merge GrantTable.normalized_empty (normalized_of_visits htables)]
    at hne ⊢
  have hempty : Grant.listed (GrantTable.empty.grant? entity item route) = [] := rfl
  rw [Grant.mem_listed_foldl_combine hne, hempty]
  simp only [List.not_mem_nil, false_or, List.mem_map, exists_exists_and_eq_and,
    mem_tables_iff htables, Visit.mem_listed_iff]
  constructor
  · rintro ⟨g, ⟨v, hv, hg⟩, hp⟩
    exact ⟨v, hv, g, hg, hp⟩
  · rintro ⟨v, hv, g, hg, hp⟩
    exact ⟨g, ⟨v, hv, hg⟩, hp⟩

/-- A conditional grant in compiled grants lists just the predicates that visited roles list for the
items that have a say in it. -/
lemma MergesTo.mem_listed_unified_iff (h : s.MergesTo roles scope merged)
    (hne : (merged.unifyPrimaries s.model).grant? entity item route ≠ some .allow) :
    p ∈ Grant.listed ((merged.unifyPrimaries s.model).grant? entity item route) ↔
      ∃ source, s.model.Decides entity item source ∧
        ∃ v ∈ (s.acl.walk roles scope).visits, p ∈ v.listed s.model entity source route := by
  have hn := normalized_of_foldlM_eq_ok h.2
  rcases GrantTable.primary_or_not s.model entity item with ⟨primary, action, hprimary, rfl⟩ | hown
  · have hfields : ∀ field, field ≠ primary →
        merged.grant? entity (.field action field) route ≠ some .allow := fun field hfield heq =>
      hne ((GrantTable.grant?_primary_eq_allow_iff hn hprimary).2 ⟨field, hfield, heq⟩)
    rw [GrantTable.mem_listed_primary_iff hn hprimary hne]
    constructor
    · rintro ⟨field, hfield, hp⟩
      exact ⟨_, .other action hprimary hfield, (h.mem_listed_iff (hfields field hfield)).1 hp⟩
    · rintro ⟨source, hdecides, hp⟩
      cases hdecides with
      | own hown => exact absurd rfl (hown primary action hprimary)
      | other _ _ hfield => exact ⟨_, hfield, (h.mem_listed_iff (hfields _ hfield)).2 hp⟩
  · rw [GrantTable.grant?_unifyPrimaries hown] at hne ⊢
    rw [h.mem_listed_iff hne]
    constructor
    · exact fun hp => ⟨item, .own hown, hp⟩
    · rintro ⟨source, hdecides, hp⟩
      cases hdecides with
      | own _ => exact hp
      | other action hprimary _ => exact absurd rfl (hown _ action hprimary)

/-- Some of the roles merge to a table that is on no higher level anywhere. -/
lemma MergesTo.exists_of_subset (hsub : few ⊆ roles) (h : s.MergesTo roles scope merged) :
    ∃ part, s.MergesTo few scope part ∧ ∀ entity item route,
      Grant.level ((part.unifyPrimaries s.model).grant? entity item route) ≤
        Grant.level ((merged.unifyPrimaries s.model).grant? entity item route) := by
  obtain ⟨part, hpart⟩ := h.exists_part hsub
  obtain ⟨_, hvisits⟩ := RoleSchema.walk_of_subset hsub h.1
  refine ⟨part, hpart, ?_⟩
  exact GrantTable.level_unifyPrimaries_le (normalized_of_foldlM_eq_ok hpart.2)
    (normalized_of_foldlM_eq_ok h.2) (level_grant?_le_of_subset hvisits hpart.2 h.2)

/-- The row filter on compiled grants with some injector. -/
def filter (s : Schema) (t : GrantTable) (custom : Bool) (j : Injector) : RowFilter :=
  ⟨s.permissions t custom, j⟩

end Schema

namespace Grant

lemma level_allow : level (some allow) = 2 := rfl

lemma eq_allow_of_level {g : Option Grant} (h : 2 ≤ level g) : g = some allow := by
  rcases g with _ | _ | ps
  · exact absurd h (by decide)
  · rfl
  · rw [level_rows] at h
    split at h
    · exact absurd h (by decide)
    · exact absurd h (by decide)

lemma ne_denied_of_level_le {a b : Option Grant} (h : level a ≤ level b)
    (ha : Access.ofGrant a ≠ .denied) : Access.ofGrant b ≠ .denied := by
  intro hb
  have hlevel : (Access.ofGrant a).level ≤ 0 := by
    have hzero : level b = 0 := by rw [level, hb, Access.level]
    exact hzero ▸ h
  exact ha (Access.level_le_zero_iff.1 hlevel)

end Grant

namespace Schema

variable {s : Schema} {roles few : List String} {scope : Option String} {t merged part : GrantTable}
  {entity : String} {item : Item}

/-- What an item asks for under more roles beyond what it asks for under fewer of them. -/
lemma permits_more_iff {Row : Type u} (I : Reading Row) (row : Row) (custom : Bool) (j : Injector)
    (hpart : s.MergesTo few scope part) (hmerged : s.MergesTo roles scope merged)
    (hlevel : ∀ entity item route,
      Grant.level ((part.unifyPrimaries s.model).grant? entity item route) ≤
        Grant.level ((merged.unifyPrimaries s.model).grant? entity item route))
    (h : (s.filter (part.unifyPrimaries s.model) custom j).Permits I entity item row) :
    (s.filter (merged.unifyPrimaries s.model) custom j).Permits I entity item row ↔
      ((merged.unifyPrimaries s.model).grant? entity item .root ≠ some .allow →
        ∀ source, s.model.Decides entity item source →
          ∀ v ∈ (s.acl.walk roles scope).visits, v ∉ (s.acl.walk few scope).visits →
            ∀ p ∈ v.listed s.model entity source .root,
              (j.bindings.inject j.model (some entity) p).Holds I row) := by
  constructor
  · intro hmore hne source hdecides v hv _ p hp
    exact hmore.satisfied p ((hmerged.mem_listed_unified_iff hne).2 ⟨source, hdecides, v, hv, hp⟩)
  · intro hadded
    refine ⟨Grant.ne_denied_of_level_le (hlevel entity item .root) h.granted, fun p hp => ?_⟩
    have hne : (merged.unifyPrimaries s.model).grant? entity item .root ≠ some .allow := by
      intro heq
      have hnil : Grant.listed (some Grant.allow) = [] := rfl
      change p ∈ Grant.listed ((merged.unifyPrimaries s.model).grant? entity item .root) at hp
      rw [heq, hnil] at hp
      cases hp
    obtain ⟨source, hdecides, v, hv, hlisted⟩ := (hmerged.mem_listed_unified_iff hne).1 hp
    by_cases hfew : v ∈ (s.acl.walk few scope).visits
    · -- the predicate of a visit made before is asked for before
      have hne' : (part.unifyPrimaries s.model).grant? entity item .root ≠ some .allow := by
        intro heq
        have hle := hlevel entity item .root
        rw [heq, Grant.level_allow] at hle
        exact hne (Grant.eq_allow_of_level hle)
      exact h.satisfied p
        ((hpart.mem_listed_unified_iff hne').2 ⟨source, hdecides, v, hfew, hlisted⟩)
    · exact hadded hne source hdecides v hv hfew p hlisted

lemma holds_filter_iff {Row : Type u} (I : Interpretation Row) (row : Row) {custom : Bool}
    {j : Injector} {primary : String} {op : Operation} {fields : List String}
    (hprimary : s.model.primary? entity = some primary) :
    ((s.filter t custom j).create entity op fields none).Holds I row ↔
      ∀ item ∈ op.required primary fields, (s.filter t custom j).Permits I entity item row := by
  rw [RowFilter.create_none, RowFilter.holds_direct_iff (f := s.filter t custom j) I row hprimary]
  refine and_iff_right_of_imp fun hall => ?_
  -- something is required, so the entity has grants
  obtain ⟨item, hitem⟩ := List.exists_mem_of_ne_nil _ (op.required_ne_nil primary fields)
  exact (hall item hitem).exists_entity

/-- Further roles hide just the rows that fail one of their predicates. A row that passes the filter
compiled for some roles passes the filter compiled for more roles exactly if, for every required
item that is not opened outright, it satisfies the predicates that the visits made only for the
further roles list for the item, or for a primary key for any other field. -/
theorem create_of_more_roles_holds_iff (hsub : few ⊆ roles) (h : s.compile roles scope = .ok t) :
    ∃ u, s.compile few scope = .ok u ∧
      ∀ (custom : Bool) (j : Injector) (Row : Type u) (I : Interpretation Row) (row : Row)
        (entity : String) (op : Operation) (fields : List String),
        ((s.filter u custom j).create entity op fields none).Holds I row →
          ∃ primary, s.model.primary? entity = some primary ∧
            (((s.filter t custom j).create entity op fields none).Holds I row ↔
              ∀ item ∈ op.required primary fields, t.grant? entity item .root ≠ some .allow →
                ∀ source, s.model.Decides entity item source →
                  ∀ v ∈ (s.acl.walk roles scope).visits, v ∉ (s.acl.walk few scope).visits →
                    ∀ p ∈ v.listed s.model entity source .root,
                      (j.bindings.inject j.model (some entity) p).Holds I row) := by
  obtain ⟨merged, hmerged, rfl⟩ := compile_eq_ok_iff_mergesTo.1 h
  obtain ⟨part, hpart, hlevel⟩ := hmerged.exists_of_subset hsub
  refine ⟨_, compile_eq_ok_iff_mergesTo.2 ⟨part, hpart, rfl⟩, ?_⟩
  intro custom j Row I row entity op fields hbefore
  cases hprimary : s.model.primary? entity with
  | none =>
    rw [RowFilter.create_eq_refusal (f := s.filter _ custom j) hprimary] at hbefore
    exact absurd hbefore (Condition.not_holds_refusal I none row)
  | some primary =>
    refine ⟨primary, rfl, ?_⟩
    rw [holds_filter_iff I row hprimary] at hbefore ⊢
    exact forall₂_congr fun item hitem =>
      permits_more_iff I row custom j hpart hmerged hlevel (hbefore item hitem)

/-- Readers read the titles of articles that are no drafts, editors those of reviewed articles. -/
def pressRoom : Schema where
  model := Model.insert {}
    ((((Entity.new "Article").column "title").column "draft").column "review")
  acl :=
    let published := EntityRules.define {} "published" (.column "draft" (.isNull true))
    let reviewed := EntityRules.define {} "reviewed" (.column "review" (.isNull false))
    let reader := published.declareField (.fields .read) "title" (.direct (.named "published"))
    let editor := reviewed.declareField (.fields .read) "title" (.direct (.named "reviewed"))
    (RoleSchema.declare {} "reader" (Role.declareEntity {} "Article" reader)).declare "editor"
      (Role.declareEntity {} "Article" editor)

/-- A row without values: of the tests that are not constant it passes the one for null. -/
def unset : Interpretation Unit where
  passes _ _ test := test = .always ∨ test = .isNull true
  related _ _ _ := False
  not_passes_never _ _ h := by rcases h with h | h <;> cases h
  passes_always _ _ := .inl rfl

/-- What the filter on compiled grants asks for the title of an article. No variable has a value. -/
def pressRoomTitle (t : GrantTable) : Condition :=
  (pressRoom.filter t false ⟨pressRoom.model, .empty⟩).create "Article" (.fields .read) ["title"]
    none

lemma unset_passes_for_reader :
    ∃ u, pressRoom.compile ["reader"] none = .ok u ∧ (pressRoomTitle u).Holds unset () := by
  have asked : (pressRoom.compile ["reader"] none).toOption.map pressRoomTitle =
      some (.column "draft" (.isNull true)) := by decide +kernel
  obtain ⟨u, hu, htitle⟩ := exists_of_toOption_map asked
  refine ⟨u, hu, ?_⟩
  rw [htitle, Condition.holds_column]
  exact .inr rfl

theorem editor_hides_title :
    ["reader"] ⊆ ["reader", "editor"] ∧
      ∃ t u, pressRoom.compile ["reader", "editor"] none = .ok t ∧
        pressRoom.compile ["reader"] none = .ok u ∧
        (pressRoomTitle u).Holds unset () ∧ ¬ (pressRoomTitle t).Holds unset () := by
  have asked : (pressRoom.compile ["reader", "editor"] none).toOption.map pressRoomTitle =
      some (.and [.column "draft" (.isNull true), .column "review" (.isNull false)]) := by
    decide +kernel
  obtain ⟨t, ht, htitle⟩ := exists_of_toOption_map asked
  obtain ⟨u, hu, hreader⟩ := unset_passes_for_reader
  refine ⟨by simp, t, u, ht, hu, hreader, ?_⟩
  rw [htitle, Condition.holds_and]
  intro hall
  have hreview := hall (.column "review" (.isNull false)) (by simp)
  rw [Condition.holds_column] at hreview
  rcases hreview with h | h <;> cases h

theorem title_under_further_role :
    ["reader"] ⊆ ["reader", "editor"] ∧
      ∃ t u, pressRoom.compile ["reader", "editor"] none = .ok t ∧
        pressRoom.compile ["reader"] none = .ok u ∧ (pressRoomTitle u).Holds unset () ∧
        ∃ primary, pressRoom.model.primary? "Article" = some primary ∧
          ((pressRoomTitle t).Holds unset () ↔
            ∀ item ∈ Operation.required (.fields .read) primary ["title"],
              t.grant? "Article" item .root ≠ some .allow →
                ∀ source, pressRoom.model.Decides "Article" item source →
                  ∀ v ∈ (pressRoom.acl.walk ["reader", "editor"] none).visits,
                    v ∉ (pressRoom.acl.walk ["reader"] none).visits →
                      ∀ p ∈ v.listed pressRoom.model "Article" source .root,
                        (Bindings.inject pressRoom.model .empty (some "Article") p).Holds
                          unset ()) := by
  have hsub : ["reader"] ⊆ ["reader", "editor"] := by simp
  have hboth : (pressRoom.compile ["reader", "editor"] none).isOk = true := by decide +kernel
  obtain ⟨t, ht⟩ := exists_of_isOk hboth
  obtain ⟨u, hu, hbefore⟩ := unset_passes_for_reader
  obtain ⟨u', hu', hrows⟩ := create_of_more_roles_holds_iff hsub ht
  obtain rfl : u = u' := Except.ok.inj (hu.symm.trans hu')
  exact ⟨hsub, t, u, ht, hu, hbefore, hrows false ⟨pressRoom.model, .empty⟩ Unit unset () "Article"
    (.fields .read) ["title"] hbefore⟩

end Schema

end RoleAccess
