import RoleAccess.Proofs.Failure
import RoleAccess.Proofs.OwnVariables

/-!
# Bound values

A visit gives values to the variables that its role declares: the identity's own, or that of the
membership in this role, or else in the active one, or else the fallback. Of the visits that give a
value to one name the last decides, and a name that none of them gives a value is unbound. Binding
has no faults but those of the walk.
-/

namespace RoleAccess

/-! ## Values of variables -/

namespace VariableDefinition

variable {d : VariableDefinition} {i : Identity} {name declaring active : String}
  {test : ColumnTest}

/-- What the membership in a role carries for a variable of this kind. -/
def carried? (d : VariableDefinition) (name : String) (i : Identity) (role : String) :
    Option ColumnTest :=
  match d with
  | predefined _ => none
  | entity _ _ => ((i.memberships.get? role).bind (·.assigned.get? name)).map .oneOf
  | condition _ => (i.memberships.get? role).bind (·.conditions.get? name)

/-- The value of the variable `name` at a visit of the role `declaring` in the name of the role
`active`. -/
inductive HasValue (i : Identity) (name declaring active : String) :
    VariableDefinition → ColumnTest → Prop
  | own {kind : IdentityValue} {id : Uuid} : i.value? kind = some id →
    HasValue i name declaring active (.predefined kind) (.oneOf [.uuid id])
  | declaring {d : VariableDefinition} {test : ColumnTest} :
    d.carried? name i declaring = some test → HasValue i name declaring active d test
  | active {d : VariableDefinition} {test : ColumnTest} :
    d.carried? name i declaring = none → d.carried? name i active = some test →
      HasValue i name declaring active d test
  | fallback {d : VariableDefinition} {test : ColumnTest} :
    d.carried? name i declaring = none → d.carried? name i active = none →
      d.fallback? = some test → HasValue i name declaring active d test

/-- Of a variable that is not predefined the memberships are asked in order before the fallback. -/
lemma value?_eq_or (hd : ∀ kind, d ≠ .predefined kind) :
    d.value? name i [declaring, active] =
      (d.carried? name i declaring).or ((d.carried? name i active).or d.fallback?) := by
  cases d with
  | predefined kind => exact absurd rfl (hd kind)
  | entity entityName fallback =>
    rw [value?, Identity.find?_pair, Option.map_or, Option.or_assoc]
    rfl
  | condition fallback =>
    rw [value?, Identity.find?_pair, Option.or_assoc]
    rfl

lemma hasValue_iff : HasValue i name declaring active d test ↔
    d.value? name i [declaring, active] = some test := by
  by_cases hd : ∃ kind, d = .predefined kind
  · obtain ⟨kind, rfl⟩ := hd
    constructor
    · intro h
      cases h with
      | own hid => rw [value?, hid, Option.map_some]
      | declaring h => cases h
      | active _ h => cases h
      | fallback _ _ h => cases h
    · intro h
      obtain ⟨id, hid, rfl⟩ := Option.map_eq_some_iff.1 h
      exact .own hid
  · rw [value?_eq_or (not_exists.1 hd), Option.or_eq_some_iff, Option.or_eq_some_iff]
    constructor
    · intro h
      cases h with
      | own _ => exact absurd ⟨_, rfl⟩ hd
      | declaring h => exact .inl h
      | active hnone h => exact .inr ⟨hnone, .inl h⟩
      | fallback hnone hnone' h => exact .inr ⟨hnone, .inr ⟨hnone', h⟩⟩
    · rintro (h | ⟨hnone, h | ⟨hnone', h⟩⟩)
      · exact .declaring h
      · exact .active hnone h
      · exact .fallback hnone hnone' h

end VariableDefinition

/-! ## Values at a visit -/

/-- The visited role declares a variable that has the value, and the name is that of the variable
under the prefix of the visit. -/
def Visit.Gives (v : Visit) (i : Identity) (n : String) (x : VariableValue) : Prop :=
  ∃ name d test, v.role.definitions.get? name = some d ∧ prefixed v.scope name = n ∧
    d.HasValue i name v.name v.member test ∧ x = .test test

lemma Visit.mem_bindings_iff_gives {v : Visit} {i : Identity} {n : String} {x : VariableValue} :
    (n, x) ∈ v.bindings i ↔ v.Gives i n x := by
  rw [mem_bindings_iff]
  constructor
  · rintro ⟨name, d, test, hd, htest, hn, hx⟩
    exact ⟨name, d, test, hd, hn, VariableDefinition.hasValue_iff.2 htest, hx.symm⟩
  · rintro ⟨name, d, test, hd, hn, htest, hx⟩
    exact ⟨name, d, test, hd, VariableDefinition.hasValue_iff.1 htest, hn, hx.symm⟩

/-! ## Bindings of a walk -/

namespace Schema

variable {s : Schema} {roles : List String} {scope : Option String} {i : Identity} {b : Bindings}
  {fault : Fault}

lemma bind_eq_error_iff_walk :
    s.bind roles i scope = .error fault ↔ (s.acl.walk roles scope).fault = some fault := by
  have hwalk : ∀ {other}, s.bind roles i scope = .error other →
      (s.acl.walk roles scope).fault = some other := by
    intro other h
    rcases Walk.exists_of_foldM_eq_error h with h | ⟨_, _, _, h⟩
    · exact h
    · cases h
  refine ⟨hwalk, fun h => ?_⟩
  cases hbind : s.bind roles i scope with
  | ok b => cases h.symm.trans (bind_eq_ok_iff_foldl.1 hbind).1
  | error other =>
    obtain rfl : other = fault := Option.some.inj ((hwalk hbind).symm.trans h)
    rfl

lemma get?_eq_none_iff_gives (h : s.bind roles i scope = .ok b) {n : String} :
    b.get? n = none ↔ ∀ v ∈ (s.acl.walk roles scope).visits, ∀ x, ¬ v.Gives i n x := by
  constructor
  · intro hnone v hv x hx
    obtain ⟨y, hy⟩ := exists_get?_of_mem_bindings h hv (Visit.mem_bindings_iff_gives.2 hx)
    cases hnone.symm.trans hy
  · intro hall
    cases hget : b.get? n with
    | none => rfl
    | some x =>
      obtain ⟨before, last, after, hsplit, hlast, _⟩ := (get?_eq_some_iff_last h).1 hget
      have hmem : last ∈ (s.acl.walk roles scope).visits := by
        rw [hsplit]
        exact List.mem_append_right before List.mem_cons_self
      exact absurd (Visit.mem_bindings_iff_gives.1 hlast) (hall last hmem x)

/-- Binding fails with the fault of the walk and with no other. Where the walk has none, the last
visit that gives a name a value decides on it, and a name that no visit gives a value is unbound. -/
theorem bind_gives_last_value (s : Schema) (roles : List String) (i : Identity)
    (scope : Option String) :
    (∀ fault, s.bind roles i scope = .error fault ↔
      (s.acl.walk roles scope).fault = some fault) ∧
    ((s.acl.walk roles scope).fault = none →
      ∃ b, s.bind roles i scope = .ok b ∧ ∀ n,
        (∀ x, b.get? n = some x ↔
          ∃ before last after, (s.acl.walk roles scope).visits = before ++ last :: after ∧
            last.Gives i n x ∧ ∀ v ∈ after, ∀ y, ¬ v.Gives i n y) ∧
        (b.get? n = none ↔ ∀ v ∈ (s.acl.walk roles scope).visits, ∀ x, ¬ v.Gives i n x)) := by
  refine ⟨fun fault => bind_eq_error_iff_walk, fun hfault => ?_⟩
  have hb := (bind_eq_ok_iff_foldl (i := i)).2 ⟨hfault, rfl⟩
  refine ⟨_, hb, fun n => ⟨fun x => ?_, get?_eq_none_iff_gives hb⟩⟩
  simp only [← Visit.mem_bindings_iff_gives]
  exact get?_eq_some_iff_last hb

/-- Readers have a site, a locale, which is any if none is assigned, and a name of their own. -/
def newsDeskReader : Role :=
  ((Role.declareVariable {} "site" (.entity "Site" none)).declareVariable "locale"
    (.condition (some .always))).declareVariable "me" (.predefined .identityId)

/-- Editors are readers and declare their site themselves. -/
def newsDesk : Schema :=
  ⟨{}, (RoleSchema.declare {} "reader" newsDeskReader).declare "editor"
    ((Role.declareVariable {} "site" (.entity "Site" none)).inherit ["reader"])⟩

/-- The reader's visit comes last: it reads the site in the membership of the editor, and nobody is
signed in. -/
theorem editor_at_desk :
    let i := Identity.assign {} "editor" "site" [.int 1]
    let visits := (newsDesk.acl.walk ["guest", "editor"] none).visits
    (newsDesk.acl.walk ["guest", "editor"] none).fault = none ∧
      ∃ b, newsDesk.bind ["guest", "editor"] i none = .ok b ∧
        (b.get? "editor__site" = some (.test (.oneOf [.int 1])) ∧
          ∃ before last after, visits = before ++ last :: after ∧
            last.Gives i "editor__site" (.test (.oneOf [.int 1])) ∧
            ∀ v ∈ after, ∀ y, ¬ v.Gives i "editor__site" y) ∧
        b.get? "editor__locale" = some (.test .always) ∧
        (b.get? "editor__me" = none ∧ ∀ v ∈ visits, ∀ x, ¬ v.Gives i "editor__me" x) := by
  intro i visits
  have hfault : (newsDesk.acl.walk ["guest", "editor"] none).fault = none := by decide +kernel
  have read : ((newsDesk.bind ["guest", "editor"] i none).toOption.map fun b =>
      (b.get? "editor__site", b.get? "editor__locale", b.get? "editor__me")) =
        some (some (.test (.oneOf [.int 1])), some (.test .always), none) := by decide +kernel
  obtain ⟨b, hb, hvalues⟩ := (bind_gives_last_value newsDesk ["guest", "editor"] i none).2 hfault
  obtain ⟨b', hb', hnames⟩ := exists_of_toOption_map read
  obtain rfl : b = b' := Except.ok.inj (hb.symm.trans hb')
  obtain ⟨hsite, hothers⟩ := Prod.mk.inj hnames
  obtain ⟨hlocale, hme⟩ := Prod.mk.inj hothers
  exact ⟨hfault, b, hb, ⟨hsite, ((hvalues "editor__site").1 _).1 hsite⟩, hlocale, hme,
    (hvalues "editor__me").2.1 hme⟩

end Schema

end RoleAccess
