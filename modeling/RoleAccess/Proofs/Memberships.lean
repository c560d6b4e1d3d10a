import Mathlib.Data.List.Basic
import RoleAccess.Proofs.BoundValues
import RoleAccess.Resolver

/-!
# Memberships that are asked for

A visit asks for the memberships in two roles: the one that it visits, and the active one in whose
name it is made. Both are reached from a declared active role. So two identities that differ only in
what they hold in other roles have the same bindings, and are asked for the same rows.
-/

namespace RoleAccess

/-! ## Identities that agree -/

/-- The identities have the same ids, and the same memberships in the roles inside. Having no
membership in a role and having an empty one are the same. -/
structure Identity.AgreeOn (inside : String → Prop) (i j : Identity) : Prop where
  identityId : i.identityId = j.identityId
  personId : i.personId = j.personId
  membership : ∀ role, inside role → i.membership role = j.membership role

lemma Identity.bind_membership {α : Type} {read : Membership → Option α} (hread : read {} = none)
    (i : Identity) (role : String) :
    (i.memberships.get? role).bind read = read (i.membership role) := by
  unfold membership
  cases i.memberships.get? role with
  | none => exact hread.symm
  | some m => rfl

namespace Identity.AgreeOn

variable {inside : String → Prop} {i j : Identity} {v : Visit}

lemma value?_eq (h : i.AgreeOn inside j) (kind : IdentityValue) :
    i.value? kind = j.value? kind := by
  cases kind with
  | identityId => exact h.identityId
  | personId => exact h.personId

lemma find?_eq (h : i.AgreeOn inside j) {declaring active : String} (hdeclaring : inside declaring)
    (hactive : inside active) {α : Type} {read : Membership → Option α} (hread : read {} = none) :
    i.find? [declaring, active] read = j.find? [declaring, active] read := by
  simp only [find?_pair, bind_membership hread, h.membership declaring hdeclaring,
    h.membership active hactive]

lemma valueAt_eq (h : i.AgreeOn inside j) {declaring active : String}
    (hdeclaring : inside declaring) (hactive : inside active) (d : VariableDefinition)
    (name : String) :
    d.value? name i [declaring, active] = d.value? name j [declaring, active] := by
  cases d with
  | predefined kind => simp only [VariableDefinition.value?, h.value?_eq]
  | entity entityName fallback =>
    simp only [VariableDefinition.value?]
    rw [h.find?_eq hdeclaring hactive rfl]
  | condition fallback =>
    simp only [VariableDefinition.value?]
    rw [h.find?_eq hdeclaring hactive rfl]

/-- One visit reads no more than the ids and the memberships in its two roles. -/
lemma bindings_eq (h : i.AgreeOn inside j) (hname : inside v.name) (hmember : inside v.member) :
    v.bindings i = v.bindings j := by
  unfold Visit.bindings
  refine List.filterMap_congr fun e _ => ?_
  rw [h.valueAt_eq hname hmember]

end Identity.AgreeOn

/-! ## The whole walk -/

namespace RoleSchema

/-- The visited role, and the active one in whose name it is visited, are both in reach. -/
lemma reachable_of_mem_visits {s : RoleSchema} {roles : List String} {scope : Option String}
    {v : Visit} (hv : v ∈ (s.walk roles scope).visits) :
    s.Reachable roles v.name ∧ s.Reachable roles v.member := by
  obtain ⟨active, hactive, role, hrole, hmade⟩ := mem_visits_walk hv
  rw [hmade.member_eq]
  exact ⟨⟨active, hactive, ⟨role, hrole⟩, hmade.reached⟩,
    ⟨active, hactive, ⟨role, hrole⟩, .refl active⟩⟩

end RoleSchema

namespace Schema

variable {s : Schema} {roles : List String} {scope : Option String} {i j : Identity}

/-- Identities that are given the same values at every visit are given the same bindings. -/
lemma bind_eq_of_visits
    (h : ∀ v ∈ (s.acl.walk roles scope).visits, v.bindings i = v.bindings j) :
    s.bind roles i scope = s.bind roles j scope := by
  cases hi : s.bind roles i scope with
  | error fault => exact (bind_eq_error_iff_walk.2 (bind_eq_error_iff_walk.1 hi)).symm
  | ok b =>
    obtain ⟨hfault, rfl⟩ := bind_eq_ok_iff_foldl.1 hi
    refine (bind_eq_ok_iff_foldl.2 ⟨hfault, ?_⟩).symm
    refine List.foldl_ext _ _ _ fun b v hv => ?_
    rw [Visit.bindInto, Visit.bindInto, h v hv]

lemma bind_eq_of_agreeOn (h : i.AgreeOn (s.acl.Reachable roles) j) :
    s.bind roles i scope = s.bind roles j scope := by
  refine bind_eq_of_visits fun v hv => ?_
  obtain ⟨hname, hmember⟩ := RoleSchema.reachable_of_mem_visits hv
  exact h.bindings_eq hname hmember

end Schema

namespace Resolver

/-- The condition that an identity has to meet under permissions, with the bindings of a role list
injected over the resolver's model. -/
def conditionFor (r : Resolver) (p : Permissions) (roles : List String) (i : Identity)
    (entity : String) (op : Operation) (fields : List String) (along : Option Traversal) :
    Except Fault Condition := do
  return (RowFilter.mk p (r.injector (← r.bindings roles i))).create entity op fields along

/-- Memberships in roles that are not reached from a declared active role have no effect: neither on
the bindings, nor on the fault if there are none, nor on any condition that rows are filtered by. -/
theorem memberships_out_of_reach_have_no_effect {r : Resolver} {roles : List String}
    {i j : Identity} (h : i.AgreeOn (r.schema.acl.Reachable roles) j) :
    r.bindings roles i = r.bindings roles j ∧
      ∀ p entity op fields along, r.conditionFor p roles i entity op fields along =
        r.conditionFor p roles j entity op fields along := by
  have hbindings : r.bindings roles i = r.bindings roles j := Schema.bind_eq_of_agreeOn h
  refine ⟨hbindings, fun p entity op fields along => ?_⟩
  rw [conditionFor, conditionFor, hbindings]

/-- Readers see the pages of their own sites. -/
def siteReaders : Role :=
  let rules := EntityRules.define {} "own" (.columnVariable "site" "site")
  (Role.declareVariable {} "site" (.entity "Site" none)).declareEntity "Page"
    (rules.declareField (.fields .read) "title" (.direct (.named "own")))

/-- Editors and auditors are readers of the sites that are assigned to them. -/
def audited : Schema where
  model := Model.insert {} (((Entity.new "Page").column "title").column "site")
  acl := ((RoleSchema.declare {} "reader" siteReaders).declare "editor"
    (Role.inherit {} ["reader"])).declare "auditor" (Role.inherit {} ["reader"])

lemma reachable_from_editor {name : String} (h : audited.acl.Reachable ["editor"] name) :
    name = "editor" ∨ name = "reader" := by
  obtain ⟨active, hactive, _, hreach⟩ := h
  obtain rfl : active = "editor" := List.mem_singleton.1 hactive
  have hinherits : ∀ {n inherited}, n = "editor" ∨ n = "reader" →
      audited.acl.Inherits n inherited → inherited = "editor" ∨ inherited = "reader" := by
    rintro n inherited (rfl | rfl) ⟨role, hrole, hmem⟩
    · obtain rfl : Role.inherit {} ["reader"] = role := Option.some.inj hrole
      exact .inr (List.mem_singleton.1 hmem)
    · obtain rfl : siteReaders = role := Option.some.inj hrole
      cases hmem
  have hreaches : ∀ {n reached}, audited.acl.Reaches n reached → n = "editor" ∨ n = "reader" →
      reached = "editor" ∨ reached = "reader" := by
    intro n reached hreach hn
    induction hreach with
    | refl _ => exact hn
    | step hedge _ ih => exact ih (hinherits hn hedge)
  exact hreaches hreach (.inl rfl)

/-- An editor of the first site sees its pages, whatever sites the same person audits. -/
theorem audited_sites_stay_hidden :
    let editor := Identity.assign {} "editor" "site" [.int 1]
    let auditor := editor.assign "auditor" "site" [.int 7]
    editor.AgreeOn (audited.acl.Reachable ["editor"]) auditor ∧
      (new audited {}).bindings ["editor"] editor = (new audited {}).bindings ["editor"] auditor ∧
      ∃ p, (new audited {}).compile ["editor"] = .ok p ∧
        (new audited {}).conditionFor p ["editor"] editor "Page" (.fields .read) ["title"] none =
          .ok (.column "site" (.oneOf [.int 1])) ∧
        (new audited {}).conditionFor p ["editor"] auditor "Page" (.fields .read) ["title"] none =
          .ok (.column "site" (.oneOf [.int 1])) := by
  intro editor auditor
  have hagree : editor.AgreeOn (audited.acl.Reachable ["editor"]) auditor := by
    refine ⟨rfl, rfl, fun name hname => ?_⟩
    rcases reachable_from_editor hname with rfl | rfl <;> decide
  obtain ⟨hbindings, hconditions⟩ :=
    memberships_out_of_reach_have_no_effect (r := new audited {}) hagree
  have hcondition : ((new audited {}).compile ["editor"] >>= fun p =>
      (new audited {}).conditionFor p ["editor"] editor "Page" (.fields .read) ["title"] none) =
        .ok (.column "site" (.oneOf [.int 1])) := by decide +kernel
  obtain ⟨p, hp, heditor⟩ := bind_eq_ok_iff.1 hcondition
  exact ⟨hagree, hbindings, p, hp, heditor, (hconditions p _ _ _ _).symm.trans heditor⟩

end Resolver

end RoleAccess
