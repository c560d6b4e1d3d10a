import Mathlib.Logic.Basic
import RoleAccess.Compilation

/-!
# What success tells

Compilation and binding fail as a whole, so where they succeed, every part of them has succeeded.
The lemmas here take a successful computation apart into its parts.
-/

namespace RoleAccess

lemma bind_eq_ok_iff {ε α β : Type} {x : Except ε α} {f : α → Except ε β} {b : β} :
    (x >>= f) = .ok b ↔ ∃ a, x = .ok a ∧ f a = .ok b := by
  cases x with
  | error e =>
    constructor
    · intro h
      cases h
    · rintro ⟨a, h, _⟩
      cases h
  | ok a =>
    constructor
    · intro h
      exact ⟨a, rfl, h⟩
    · rintro ⟨a', h, hf⟩
      cases h
      exact hf

/-- What every step that succeeds keeps, a fold that succeeds keeps. -/
lemma foldlM_preserves {ε α β : Type} {P : β → Prop} {f : β → α → Except ε β} {items : List α}
    {start last : β} (hstep : ∀ b a next, P b → f b a = .ok next → P next) (hstart : P start)
    (h : items.foldlM f start = .ok last) : P last := by
  induction items generalizing start with
  | nil =>
    cases h
    exact hstart
  | cons a items ih =>
    rw [List.foldlM_cons] at h
    obtain ⟨next, hnext, h⟩ := bind_eq_ok_iff.1 h
    exact ih (hstep start a next hstart hnext) h

/-- In a fold that succeeds every step has succeeded. -/
lemma exists_step_of_foldlM_eq_ok {ε α β : Type} {f : β → α → Except ε β} {items : List α}
    {start last : β} (h : items.foldlM f start = .ok last) :
    ∀ a ∈ items, ∃ b next, f b a = .ok next := by
  induction items generalizing start with
  | nil => exact fun _ ha => (nomatch ha)
  | cons a items ih =>
    rw [List.foldlM_cons] at h
    obtain ⟨next, hnext, h⟩ := bind_eq_ok_iff.1 h
    exact List.forall_mem_cons.2 ⟨⟨start, next, hnext⟩, ih h⟩

lemma exists_of_isOk {ε α : Type} {x : Except ε α} (h : x.isOk = true) : ∃ a, x = .ok a := by
  cases x with
  | error e => cases h
  | ok a => exact ⟨a, rfl⟩

/-- A value that is read off a computation tells that it succeeds. -/
lemma exists_of_toOption_bind {ε α β : Type} {x : Except ε α} {f : α → Option β} {b : β}
    (h : x.toOption.bind f = some b) : ∃ a, x = .ok a ∧ f a = some b := by
  cases x with
  | error e => cases h
  | ok a => exact ⟨a, rfl, h⟩

lemma exists_of_toOption_map {ε α β : Type} {x : Except ε α} {f : α → β} {b : β}
    (h : x.toOption.map f = some b) : ∃ a, x = .ok a ∧ f a = b := by
  cases x with
  | error e => cases h
  | ok a => exact ⟨a, rfl, Option.some.inj h⟩

namespace NameMap

variable {ε α β : Type} {f : String → α → Except ε β}

lemma lookup_of_mapM_eq_ok {l : List (String × α)} {l' : List (String × β)}
    (h : (l.mapM fun e => do return (e.1, ← f e.1 e.2)) = .ok l') (n : String) :
    Option.Rel (fun a b => f n a = .ok b) (l.lookup n) (l'.lookup n) := by
  induction l generalizing l' with
  | nil =>
    rw [List.mapM_nil] at h
    cases h
    exact .none
  | cons e l ih =>
    rw [List.mapM_cons] at h
    obtain ⟨_, hhead, h⟩ := bind_eq_ok_iff.1 h
    obtain ⟨b, hb, hpair⟩ := bind_eq_ok_iff.1 hhead
    obtain ⟨tail, htail, h⟩ := bind_eq_ok_iff.1 h
    cases hpair
    cases h
    rw [lookup_cons_eq_ite, lookup_cons_eq_ite]
    by_cases hn : n = e.1
    · rw [if_pos hn, if_pos hn]
      exact .some (hn ▸ hb)
    · rw [if_neg hn, if_neg hn]
      exact ih htail

/-- A successful traversal has the same names, each with the value computed for it. -/
theorem get?_of_traverse_eq_ok {m : NameMap α} {m' : NameMap β} (h : m.traverse f = .ok m')
    (n : String) : Option.Rel (fun a b => f n a = .ok b) (m.get? n) (m'.get? n) := by
  obtain ⟨l, hl, h⟩ := bind_eq_ok_iff.1 h
  cases h
  rw [get?_ofList]
  exact lookup_of_mapM_eq_ok hl n

end NameMap

lemma PerAction.get_of_traverse_eq_ok {ε α β : Type} {f : α → Except ε β} {p : PerAction α}
    {q : PerAction β} (h : p.traverse f = .ok q) (a : FieldAction) :
    f (p.get a) = .ok (q.get a) := by
  obtain ⟨c, hc, h⟩ := bind_eq_ok_iff.1 h
  obtain ⟨r, hr, h⟩ := bind_eq_ok_iff.1 h
  obtain ⟨u, hu, h⟩ := bind_eq_ok_iff.1 h
  cases h
  cases a with
  | create => exact hc
  | read => exact hr
  | update => exact hu

/-- Working through a walk succeeds where the walk has no fault and no visit fails. -/
theorem Walk.foldM_eq_ok_iff {β : Type} {f : β → Visit → Except Fault β} {start b : β} {w : Walk} :
    w.foldM f start = .ok b ↔ w.fault = none ∧ w.visits.foldlM f start = .ok b := by
  rw [Walk.foldM, bind_eq_ok_iff]
  cases w.fault with
  | none =>
    constructor
    · rintro ⟨b', hb', h⟩
      cases h
      exact ⟨rfl, hb'⟩
    · rintro ⟨_, h⟩
      exact ⟨b, h, rfl⟩
  | some fault =>
    constructor
    · rintro ⟨_, _, h⟩
      cases h
    · rintro ⟨h, _⟩
      cases h

/-- Compiled grants are those merged over the whole walk, with primary keys unified. -/
theorem Schema.compile_eq_ok_iff {s : Schema} {roles : List String} {scope : Option String}
    {t : GrantTable} :
    s.compile roles scope = .ok t ↔ (s.acl.walk roles scope).fault = none ∧
      ∃ merged, (s.acl.walk roles scope).visits.foldlM s.mergeVisit .empty = .ok merged ∧
        merged.unifyPrimaries s.model = t := by
  rw [compile_eq_walk, bind_eq_ok_iff]
  constructor
  · rintro ⟨merged, hmerged, h⟩
    cases h
    obtain ⟨hfault, hmerged⟩ := Walk.foldM_eq_ok_iff.1 hmerged
    exact ⟨hfault, merged, hmerged, rfl⟩
  · rintro ⟨hfault, merged, hmerged, rfl⟩
    exact ⟨merged, Walk.foldM_eq_ok_iff.2 ⟨hfault, hmerged⟩, rfl⟩

end RoleAccess
