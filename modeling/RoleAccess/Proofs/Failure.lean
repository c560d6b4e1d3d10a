import Mathlib.Logic.Basic
import RoleAccess.Compilation

/-!
# What failure tells

A computation that is made of parts fails with the fault of one of them. The lemmas here name that
part, for the traversals and folds that compilation is made of.
-/

namespace RoleAccess

lemma bind_eq_error_iff {ε α β : Type} {x : Except ε α} {f : α → Except ε β} {e : ε} :
    (x >>= f) = .error e ↔ x = .error e ∨ ∃ a, x = .ok a ∧ f a = .error e := by
  cases x with
  | error other =>
    constructor
    · intro h
      cases h
      exact .inl rfl
    · rintro (h | ⟨_, h, _⟩)
      · cases h
        rfl
      · cases h
  | ok a =>
    constructor
    · intro h
      exact .inr ⟨a, rfl, h⟩
    · rintro (h | ⟨_, h, hf⟩)
      · cases h
      · cases h
        exact hf

/-- What is computed from a value without a fault of its own fails where the value fails. -/
lemma eq_error_of_map {ε α β : Type} {x : Except ε α} {f : α → β} {e : ε}
    (h : (do return f (← x) : Except ε β) = .error e) : x = .error e := by
  rcases bind_eq_error_iff.1 h with h | ⟨_, _, h⟩
  · exact h
  · cases h

lemma exists_of_foldlM_eq_error {ε α β : Type} {f : β → α → Except ε β} {items : List α}
    {start : β} {e : ε} (h : items.foldlM f start = .error e) :
    ∃ b, ∃ a ∈ items, f b a = .error e := by
  induction items generalizing start with
  | nil => cases h
  | cons a items ih =>
    rw [List.foldlM_cons] at h
    rcases bind_eq_error_iff.1 h with h | ⟨next, _, h⟩
    · exact ⟨start, a, List.mem_cons_self, h⟩
    · obtain ⟨b, a', ha', h⟩ := ih h
      exact ⟨b, a', List.mem_cons_of_mem a ha', h⟩

lemma exists_of_mapM_eq_error {ε α β : Type} {f : α → Except ε β} {items : List α} {e : ε}
    (h : items.mapM f = .error e) : ∃ a ∈ items, f a = .error e := by
  induction items with
  | nil => cases h
  | cons a items ih =>
    rw [List.mapM_cons] at h
    rcases bind_eq_error_iff.1 h with h | ⟨_, _, h⟩
    · exact ⟨a, List.mem_cons_self, h⟩
    · obtain ⟨a', ha', h⟩ := ih (eq_error_of_map h)
      exact ⟨a', List.mem_cons_of_mem a ha', h⟩

lemma NameMap.exists_of_traverse_eq_error {ε α β : Type} {f : String → α → Except ε β}
    {m : NameMap α} {e : ε} (h : m.traverse f = .error e) :
    ∃ n a, m.get? n = some a ∧ f n a = .error e := by
  obtain ⟨⟨n, a⟩, hentry, h⟩ := exists_of_mapM_eq_error (eq_error_of_map h)
  exact ⟨n, a, mem_entries.1 hentry, eq_error_of_map h⟩

lemma PerAction.exists_of_traverse_eq_error {ε α β : Type} {f : α → Except ε β} {p : PerAction α}
    {e : ε} (h : p.traverse f = .error e) : ∃ a, f (p.get a) = .error e := by
  rcases bind_eq_error_iff.1 h with h | ⟨_, _, h⟩
  · exact ⟨.create, h⟩
  rcases bind_eq_error_iff.1 h with h | ⟨_, _, h⟩
  · exact ⟨.read, h⟩
  · exact ⟨.update, eq_error_of_map h⟩

/-- Working through a walk fails with a fault of the walk or at a visit. -/
lemma Walk.exists_of_foldM_eq_error {β : Type} {f : β → Visit → Except Fault β} {start : β}
    {w : Walk} {fault : Fault} (h : w.foldM f start = .error fault) :
    w.fault = some fault ∨ ∃ b, ∃ v ∈ w.visits, f b v = .error fault := by
  rcases bind_eq_error_iff.1 h with h | ⟨b, _, h⟩
  · exact .inr (exists_of_foldlM_eq_error h)
  · cases hfault : w.fault with
    | none =>
      rw [hfault] at h
      cases h
    | some other =>
      rw [hfault] at h
      cases h
      exact .inl rfl

end RoleAccess
