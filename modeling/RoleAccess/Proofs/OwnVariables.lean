import RoleAccess.Identity
import RoleAccess.Proofs.RoleWalk
import RoleAccess.Proofs.Success

/-!
# Values that roles bind for their own variables

All visits write into one map, with the prefix of the active role before each name. A value is kept
where no later visit writes to the same spelling: an inherited role does, which declares the same
variable under the shared prefix, and so does another active role whose prefix and variable happen
to spell the same name.
-/

namespace RoleAccess

lemma prefixed_inj {scope m n : String} : prefixed scope m = prefixed scope n ↔ m = n := by
  unfold prefixed
  exact String.append_right_inj _

/-- Of several values written under one name the last is kept. -/
theorem NameMap.get?_foldl_insert {α : Type} (writes : List (String × α)) (m : NameMap α)
    (n : String) :
    (writes.foldl (fun m e => m.insert e.1 e.2) m).get? n =
      (writes.reverse.lookup n).or (m.get? n) := by
  induction writes generalizing m with
  | nil => rfl
  | cons e writes ih =>
    rw [List.foldl_cons, ih, get?_insert, List.reverse_cons, List.lookup_append,
      lookup_cons_eq_ite, List.lookup_nil, Option.or_assoc]
    by_cases hn : n = e.1
    · rw [if_pos hn, if_pos hn, Option.some_or]
    · rw [if_neg hn, if_neg hn, Option.none_or]

lemma Identity.find?_pair {α : Type} (i : Identity) (declaring active : String)
    (read : Membership → Option α) :
    i.find? [declaring, active] read =
      ((i.memberships.get? declaring).bind read).or ((i.memberships.get? active).bind read) := by
  unfold find?
  rw [List.findSome?_cons, List.findSome?_singleton]
  cases (i.memberships.get? declaring).bind read <;> rfl

lemma VariableDefinition.value?_twice (d : VariableDefinition) (name : String) (i : Identity)
    (role : String) : d.value? name i [role, role] = d.value? name i [role] := by
  have hfind : ∀ {α : Type} (read : Membership → Option α),
      i.find? [role, role] read = i.find? [role] read := by
    intro α read
    rw [Identity.find?_pair, Option.or_self, Identity.find?, List.findSome?_singleton]
  cases d with
  | predefined kind => rfl
  | entity _ fallback => rw [value?, value?, hfind]
  | condition fallback => rw [value?, value?, hfind]

/-! ## One visit -/

namespace Visit

variable {v : Visit} {i : Identity} {n : String} {x y : VariableValue}

lemma mem_bindings_iff : (n, x) ∈ v.bindings i ↔
    ∃ name d test, v.role.definitions.get? name = some d ∧
      d.value? name i [v.name, v.member] = some test ∧
      prefixed v.scope name = n ∧ .test test = x := by
  unfold bindings
  rw [List.mem_filterMap]
  constructor
  · rintro ⟨⟨name, d⟩, hmem, hvalue⟩
    obtain ⟨test, htest, heq⟩ := Option.map_eq_some_iff.1 hvalue
    cases heq
    exact ⟨name, d, test, NameMap.mem_entries.1 hmem, htest, rfl, rfl⟩
  · rintro ⟨name, d, test, hd, htest, rfl, rfl⟩
    refine ⟨(name, d), NameMap.mem_entries.2 hd, ?_⟩
    rw [htest, Option.map_some]

/-- Under one prefix different variables have different names, so a visit binds a name once. -/
lemma bindings_unique (hx : (n, x) ∈ v.bindings i) (hy : (n, y) ∈ v.bindings i) : x = y := by
  obtain ⟨name, d, test, hd, htest, hn, rfl⟩ := mem_bindings_iff.1 hx
  obtain ⟨name', d', test', hd', htest', hn', rfl⟩ := mem_bindings_iff.1 hy
  obtain rfl : name = name' := prefixed_inj.1 (hn.trans hn'.symm)
  obtain rfl : d = d' := Option.some.inj (hd.symm.trans hd')
  obtain rfl : test = test' := Option.some.inj (htest.symm.trans htest')
  rfl

/-- The value that the visit gives to a name, if it gives one. -/
def binding? (v : Visit) (i : Identity) (n : String) : Option VariableValue :=
  (v.bindings i).reverse.lookup n

lemma binding?_eq_some_iff : v.binding? i n = some x ↔ (n, x) ∈ v.bindings i := by
  have hmem : ∀ y, v.binding? i n = some y → (n, y) ∈ v.bindings i := by
    intro y hy
    obtain ⟨before, after, hsplit, _⟩ := List.lookup_eq_some_iff.1 hy
    rw [← List.mem_reverse, hsplit]
    exact List.mem_append_right before List.mem_cons_self
  constructor
  · exact hmem x
  · intro hx
    cases hlookup : v.binding? i n with
    | none =>
      have hne := List.lookup_eq_none_iff.1 hlookup (n, x) (List.mem_reverse.2 hx)
      exact absurd hne (by simp)
    | some y => rw [bindings_unique (hmem y hlookup) hx]

lemma binding?_eq_none_iff : v.binding? i n = none ↔ ∀ x, (n, x) ∉ v.bindings i := by
  rw [Option.eq_none_iff_forall_ne_some]
  constructor
  · intro h x hx
    exact h x (binding?_eq_some_iff.2 hx)
  · intro h x hx
    exact h x (binding?_eq_some_iff.1 hx)

def bindInto (i : Identity) (b : Bindings) (v : Visit) : Bindings :=
  (v.bindings i).foldl (fun b e => b.insert e.1 e.2) b

lemma get?_bindInto (i : Identity) (b : Bindings) (v : Visit) (n : String) :
    (v.bindInto i b).get? n = (v.binding? i n).or (b.get? n) :=
  NameMap.get?_foldl_insert ..

lemma get?_foldl_bindInto (i : Identity) (visits : List Visit) (b : Bindings) (n : String) :
    (visits.foldl (bindInto i) b).get? n =
      (visits.reverse.findSome? (·.binding? i n)).or (b.get? n) := by
  induction visits generalizing b with
  | nil => rfl
  | cons v visits ih =>
    rw [List.foldl_cons, ih, get?_bindInto, List.reverse_cons, List.findSome?_append,
      List.findSome?_singleton, Option.or_assoc]

end Visit

/-! ## The whole walk -/

namespace Schema

variable {s : Schema} {roles : List String} {scope : Option String} {i : Identity} {b : Bindings}

lemma bind_eq_ok_iff_foldl : s.bind roles i scope = .ok b ↔
    (s.acl.walk roles scope).fault = none ∧
      (s.acl.walk roles scope).visits.foldl (Visit.bindInto i) .empty = b := by
  have hpure : (s.acl.walk roles scope).visits.foldlM (fun b v => .ok (v.bindInto i b)) .empty =
      (.ok ((s.acl.walk roles scope).visits.foldl (Visit.bindInto i) .empty) : Except Fault _) :=
    List.foldlM_pure
  have hbind : s.bind roles i scope = (s.acl.walk roles scope).foldM
      (fun b v => .ok (v.bindInto i b)) .empty := rfl
  rw [hbind, Walk.foldM_eq_ok_iff, hpure, Except.ok.injEq]

/-- The last visit that binds a name decides on its value. -/
theorem get?_eq_some_iff_last (h : s.bind roles i scope = .ok b) {n : String} {x : VariableValue} :
    b.get? n = some x ↔
      ∃ before last after, (s.acl.walk roles scope).visits = before ++ last :: after ∧
        (n, x) ∈ last.bindings i ∧ ∀ v ∈ after, ∀ y, (n, y) ∉ v.bindings i := by
  obtain ⟨_, rfl⟩ := bind_eq_ok_iff_foldl.1 h
  rw [Visit.get?_foldl_bindInto, NameMap.get?_empty, Option.or_none, List.findSome?_eq_some_iff]
  constructor
  · rintro ⟨after, last, before, hsplit, hlast, hafter⟩
    refine ⟨before.reverse, last, after.reverse, ?_, Visit.binding?_eq_some_iff.1 hlast, ?_⟩
    · rw [← List.reverse_reverse (s.acl.walk roles scope).visits, hsplit]
      simp
    · intro v hv
      exact Visit.binding?_eq_none_iff.1 (hafter v (List.mem_reverse.1 hv))
  · rintro ⟨before, last, after, hsplit, hlast, hafter⟩
    refine ⟨after.reverse, last, before.reverse, ?_, Visit.binding?_eq_some_iff.2 hlast, ?_⟩
    · rw [hsplit]
      simp
    · intro v hv
      exact Visit.binding?_eq_none_iff.2 (hafter v (List.mem_reverse.1 hv))

lemma exists_get?_of_mem_bindings (h : s.bind roles i scope = .ok b) {v : Visit}
    (hv : v ∈ (s.acl.walk roles scope).visits) {n : String} {x : VariableValue}
    (hx : (n, x) ∈ v.bindings i) : ∃ y, b.get? n = some y := by
  obtain ⟨_, rfl⟩ := bind_eq_ok_iff_foldl.1 h
  rw [Visit.get?_foldl_bindInto, NameMap.get?_empty, Option.or_none, ← Option.isSome_iff_exists,
    List.findSome?_isSome_iff]
  refine ⟨v, List.mem_reverse.2 hv, ?_⟩
  rw [Visit.binding?_eq_some_iff.2 hx, Option.isSome_some]

/-- The prefixes of different declared active roles are different. -/
def DistinctScopes (s : Schema) (roles : List String) : Prop :=
  ∀ a ∈ roles, ∀ b ∈ roles, ∀ ra ∈ s.acl.roles.get? a, ∀ rb ∈ s.acl.roles.get? b,
    ra.scope a = rb.scope b → a = b

/-- Every declared active role finds the values of its own variables under its prefix. -/
def BindsIndependently (s : Schema) (roles : List String) (i : Identity) : Prop :=
  ∀ b, s.bind roles i none = .ok b →
    ∀ active ∈ roles, ∀ role, s.acl.roles.get? active = some role →
      ∀ name d test, role.definitions.get? name = some d → d.value? name i [active] = some test →
        b.get? (prefixed (role.scope active) name) = some (.test test)

/-- The active role alone declares a variable whose prefixed name is spelled like that of its own
variable `name`: no role that it inherits declares `name`, and no other active role comes to the
same spelling through a variable in its tree. -/
structure Unrivalled (s : Schema) (roles : List String) (active : String) (role : Role)
    (name : String) : Prop where
  inherited : ∀ reached below, s.acl.Reaches active reached → s.acl.roles.get? reached = some below →
    (below.definitions.get? name).isSome → reached = active
  others : ∀ other ∈ roles, ∀ otherRole, s.acl.roles.get? other = some otherRole →
    ∀ reached below, s.acl.Reaches other reached → s.acl.roles.get? reached = some below →
      ∀ n, (below.definitions.get? n).isSome →
        prefixed (otherRole.scope other) n = prefixed (role.scope active) name → other = active

lemma own_value_mem_bindings {active name : String} {role : Role} {d : VariableDefinition}
    {test : ColumnTest} (hd : role.definitions.get? name = some d)
    (htest : d.value? name i [active] = some test) :
    (prefixed (role.scope active) name, .test test) ∈
      (⟨[], active, role, role.scope active⟩ : Visit).bindings i := by
  refine Visit.mem_bindings_iff.2 ⟨name, d, test, hd, ?_, rfl, rfl⟩
  exact (d.value?_twice name i active).trans htest

lemma Unrivalled.eq_own_value {active name : String} {role : Role} {d : VariableDefinition}
    {test : ColumnTest} (hu : s.Unrivalled roles active role name)
    (hrole : s.acl.roles.get? active = some role) (hd : role.definitions.get? name = some d)
    (htest : d.value? name i [active] = some test) {v : Visit}
    (hv : v ∈ (s.acl.walk roles none).visits) {x : VariableValue}
    (hx : (prefixed (role.scope active) name, x) ∈ v.bindings i) : x = .test test := by
  obtain ⟨other, hother, otherRole, hotherRole, hmade⟩ := RoleSchema.mem_visits_walk hv
  obtain ⟨n, d', test', hd', htest', hspelled, rfl⟩ := Visit.mem_bindings_iff.1 hx
  -- The spelling leads to the active role, and under its prefix back to the variable and the role.
  rw [hmade.scope_eq, Option.getD_none] at hspelled
  obtain rfl : other = active := hu.others other hother otherRole hotherRole v.name v.role
    hmade.reached hmade.declared n (by rw [hd', Option.isSome_some]) hspelled
  obtain rfl : role = otherRole := Option.some.inj (hrole.symm.trans hotherRole)
  obtain rfl : n = name := prefixed_inj.1 hspelled
  have hself : v.name = other := hu.inherited v.name v.role hmade.reached hmade.declared
    (by rw [hd', Option.isSome_some])
  have hvrole := hmade.declared
  rw [hself] at hvrole
  obtain hsame : role = v.role := Option.some.inj (hrole.symm.trans hvrole)
  rw [← hsame] at hd'
  obtain rfl : d = d' := Option.some.inj (hd.symm.trans hd')
  rw [hself, hmade.member_eq, d.value?_twice] at htest'
  obtain rfl : test = test' := Option.some.inj (htest.symm.trans htest')
  rfl

/-- A variable that an active role declares is always bound, though perhaps to the value of another
role. It has the role's own value exactly where the last visit that binds the spelling of its
prefixed name binds it to that value, and so in particular where it has no rival. -/
theorem own_value_iff_last_binding {active name : String} {role : Role} {d : VariableDefinition}
    {test : ColumnTest} (h : s.bind roles i none = .ok b) (hactive : active ∈ roles)
    (hrole : s.acl.roles.get? active = some role) (hd : role.definitions.get? name = some d)
    (htest : d.value? name i [active] = some test) :
    (b.get? (prefixed (role.scope active) name)).isSome ∧
    (b.get? (prefixed (role.scope active) name) = some (.test test) ↔
      ∃ before last after, (s.acl.walk roles none).visits = before ++ last :: after ∧
        (prefixed (role.scope active) name, .test test) ∈ last.bindings i ∧
        ∀ v ∈ after, ∀ x, (prefixed (role.scope active) name, x) ∉ v.bindings i) ∧
    (s.Unrivalled roles active role name →
      b.get? (prefixed (role.scope active) name) = some (.test test)) := by
  obtain ⟨hfault, _⟩ := bind_eq_ok_iff_foldl.1 h
  have hown : ⟨[], active, role, role.scope active⟩ ∈ (s.acl.walk roles none).visits :=
    RoleSchema.active_mem_visits_walk hfault hactive hrole
  obtain ⟨y, hy⟩ := exists_get?_of_mem_bindings h hown (own_value_mem_bindings hd htest)
  refine ⟨by rw [hy, Option.isSome_some], get?_eq_some_iff_last h, fun hu => ?_⟩
  obtain ⟨before, last, after, hsplit, hlast, _⟩ := (get?_eq_some_iff_last h).1 hy
  have hmem : last ∈ (s.acl.walk roles none).visits := by
    rw [hsplit]
    exact List.mem_append_right before List.mem_cons_self
  rw [hy, hu.eq_own_value hrole hd htest hmem hlast]

/-- Editors have a site and a locale, and are readers. -/
def siteEditor : Role :=
  Role.inherit ((Role.declareVariable {} "site" (.entity "Site" none)).declareVariable "locale"
    (.condition none)) ["reader"]

def siteReader : Role := Role.declareVariable {} "site" (.entity "Site" none)

def sites : Schema :=
  ⟨{}, (RoleSchema.declare {} "reader" siteReader).declare "editor" siteEditor⟩

/-- An editor of the first site, in all locales, who reads the second site. -/
def siteMember : Identity :=
  ((Identity.assign {} "editor" "site" [.int 1]).assign "reader" "site"
    [.int 2]).assignCondition "editor" "locale" .always

theorem editor_keeps_locale :
    ∃ b, sites.bind ["editor"] siteMember none = .ok b ∧
      b.get? "editor__locale" = some (.test .always) := by
  have hrole : sites.acl.roles.get? "editor" = some siteEditor := rfl
  have hreader : sites.acl.roles.get? "reader" = some siteReader := rfl
  have hunrivalled : sites.Unrivalled ["editor"] "editor" siteEditor "locale" := by
    constructor
    · intro reached below hreach hbelow hname
      cases hreach with
      | refl => rfl
      | step edge hreach =>
        obtain ⟨role, hget, hmem⟩ := edge
        obtain rfl : siteEditor = role := Option.some.inj (hrole.symm.trans hget)
        obtain rfl : _ = "reader" := List.mem_singleton.1 hmem
        cases hreach with
        | refl =>
          obtain rfl : siteReader = below := Option.some.inj (hreader.symm.trans hbelow)
          exact absurd hname (by decide)
        | step edge _ =>
          obtain ⟨role, hget, hmem⟩ := edge
          obtain rfl : siteReader = role := Option.some.inj (hreader.symm.trans hget)
          exact absurd hmem List.not_mem_nil
    · intro other hother _ _ _ _ _ _ _ _ _
      exact List.mem_singleton.1 hother
  have hok : (sites.bind ["editor"] siteMember none).isOk = true := by decide +kernel
  obtain ⟨b, hb⟩ := exists_of_isOk hok
  have hd : siteEditor.definitions.get? "locale" = some (.condition none) := rfl
  have htest : (VariableDefinition.condition none).value? "locale" siteMember ["editor"] =
      some .always := rfl
  obtain ⟨_, _, hkept⟩ := own_value_iff_last_binding hb List.mem_cons_self hrole hd htest
  exact ⟨b, hb, hkept hunrivalled⟩

lemma not_bindsIndependently {active name : String} {role : Role} {d : VariableDefinition}
    {test : ColumnTest} {y : VariableValue} (hactive : active ∈ roles)
    (hrole : s.acl.roles.get? active = some role) (hd : role.definitions.get? name = some d)
    (htest : d.value? name i [active] = some test)
    (hy : (s.bind roles i none).toOption.bind (·.get? (prefixed (role.scope active) name)) = some y)
    (hne : y ≠ .test test) : ¬ s.BindsIndependently roles i := by
  intro hbinds
  obtain ⟨b, hb, hlost⟩ := exists_of_toOption_bind hy
  have hown := hbinds b hb active hactive role hrole name d test hd htest
  exact hne (Option.some.inj (hlost.symm.trans hown))

/-- Two roles of which the second, with its variable, spells what the first does with its own. -/
def spelledAlike : Schema :=
  ⟨{}, (RoleSchema.declare {} "a" (Role.declareVariable {} "b__site" (.entity "Site" none))).declare
    "a__b" siteReader⟩

def alikeMember : Identity :=
  (Identity.assign {} "a" "b__site" [.int 1]).assign "a__b" "site" [.int 2]

/-- A role loses its own value to a role that it inherits, and also to another active role. -/
theorem own_value_replaced :
    (sites.DistinctScopes ["editor"] ∧ ¬ sites.BindsIndependently ["editor"] siteMember) ∧
    (spelledAlike.DistinctScopes ["a", "a__b"] ∧
      ¬ spelledAlike.BindsIndependently ["a", "a__b"] alikeMember) := by
  refine ⟨⟨?_, ?_⟩, ?_, ?_⟩
  · unfold DistinctScopes
    decide
  · have hd : siteEditor.definitions.get? "site" = some (.entity "Site" none) := rfl
    have htest : (VariableDefinition.entity "Site" none).value? "site" siteMember ["editor"] =
        some (.oneOf [.int 1]) := rfl
    have hlost : (sites.bind ["editor"] siteMember none).toOption.bind
        (·.get? (prefixed (siteEditor.scope "editor") "site")) =
          some (.test (.oneOf [.int 2])) := by decide +kernel
    exact not_bindsIndependently List.mem_cons_self rfl hd htest hlost (by decide)
  · unfold DistinctScopes
    decide
  · have hd : (Role.declareVariable {} "b__site" (.entity "Site" none)).definitions.get? "b__site" =
        some (.entity "Site" none) := rfl
    have htest : (VariableDefinition.entity "Site" none).value? "b__site" alikeMember ["a"] =
        some (.oneOf [.int 1]) := rfl
    have hlost : (spelledAlike.bind ["a", "a__b"] alikeMember none).toOption.bind
        (·.get? (prefixed (Role.scope (Role.declareVariable {} "b__site" (.entity "Site" none)) "a")
          "b__site")) = some (.test (.oneOf [.int 2])) := by decide +kernel
    exact not_bindsIndependently List.mem_cons_self rfl hd htest hlost (by decide)

end Schema

end RoleAccess
