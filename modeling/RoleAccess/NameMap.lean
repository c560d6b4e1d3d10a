/-!
# Maps keyed by names

A `NameMap` keeps its entries in strictly increasing order of their names, compared by code point,
so equal contents are equal values. Every operation is described by what `get?` reads afterwards,
and `ext_get?` says that a map is determined by what `get?` reads.
-/

namespace RoleAccess

universe u v

/-- A finite map from names to values, listed in the order of the names. -/
structure NameMap (α : Type u) where
  entries : List (String × α)
  sorted : entries.Pairwise (fun a b => a.1 < b.1)
deriving DecidableEq

namespace NameMap

variable {α : Type u} {β : Type v}

def empty : NameMap α := ⟨[], .nil⟩

instance : EmptyCollection (NameMap α) := ⟨empty⟩
instance : Inhabited (NameMap α) := ⟨empty⟩

def get? (m : NameMap α) (name : String) : Option α := m.entries.lookup name

def contains (m : NameMap α) (name : String) : Bool := (m.get? name).isSome

/-- The names of the map, in increasing order. -/
def names (m : NameMap α) : List String := m.entries.map (·.1)

def values (m : NameMap α) : List α := m.entries.map (·.2)

def size (m : NameMap α) : Nat := m.entries.length

def isEmpty (m : NameMap α) : Bool := m.entries.isEmpty

/-- Writes an entry into a sorted list, over an earlier entry of the same name. -/
def insertEntry (name : String) (value : α) : List (String × α) → List (String × α)
  | [] => [(name, value)]
  | (n, v) :: rest =>
    if name < n then (name, value) :: (n, v) :: rest
    else if n < name then (n, v) :: insertEntry name value rest
    else (name, value) :: rest

theorem mem_insertEntry {name : String} {value : α} {e : String × α} {l : List (String × α)}
    (h : e ∈ insertEntry name value l) : e = (name, value) ∨ e ∈ l := by
  induction l with
  | nil => exact .inl (by simpa [insertEntry] using h)
  | cons head rest ih =>
    obtain ⟨n, v⟩ := head
    rw [insertEntry] at h
    split at h
    · simpa using h
    · split at h
      · rcases List.mem_cons.1 h with h | h
        · exact .inr (by simp [h])
        · rcases ih h with h | h
          · exact .inl h
          · exact .inr (List.mem_cons_of_mem _ h)
      · rcases List.mem_cons.1 h with h | h
        · exact .inl h
        · exact .inr (List.mem_cons_of_mem _ h)

theorem insertEntry_sorted {name : String} {value : α} {l : List (String × α)}
    (h : l.Pairwise (fun a b => a.1 < b.1)) :
    (insertEntry name value l).Pairwise (fun a b => a.1 < b.1) := by
  induction l with
  | nil => simp [insertEntry]
  | cons head rest ih =>
    obtain ⟨n, v⟩ := head
    have hrest := List.pairwise_cons.1 h
    rw [insertEntry]
    split
    · rename_i hlt
      refine List.pairwise_cons.2 ⟨fun e he => ?_, h⟩
      rcases List.mem_cons.1 he with rfl | he
      · exact hlt
      · exact String.lt_trans hlt (hrest.1 e he)
    · split
      · rename_i hlt
        refine List.pairwise_cons.2 ⟨fun e he => ?_, ih hrest.2⟩
        rcases mem_insertEntry he with rfl | he
        · exact hlt
        · exact hrest.1 e he
      · rename_i hle hge
        have heq : name = n := String.le_antisymm (String.not_lt.1 hge) (String.not_lt.1 hle)
        subst heq
        exact List.pairwise_cons.2 ⟨hrest.1, hrest.2⟩

theorem lookup_cons_eq_ite (n : String) (e : String × α) (l : List (String × α)) :
    (e :: l).lookup n = if n = e.1 then some e.2 else l.lookup n := by
  rw [List.lookup_cons]
  by_cases h : n = e.1
  · simp [h]
  · have hne : (n == e.1) = false := by simpa using h
    simp [hne, h]

theorem lookup_insertEntry (name other : String) (value : α) (l : List (String × α)) :
    (insertEntry name value l).lookup other =
      if other = name then some value else l.lookup other := by
  induction l with
  | nil => simp [insertEntry, lookup_cons_eq_ite]
  | cons head rest ih =>
    obtain ⟨n, v⟩ := head
    rw [insertEntry]
    split
    · rw [lookup_cons_eq_ite]
    · split
      · rename_i hlt
        have hne : name ≠ n := fun h => String.lt_irrefl _ (h ▸ hlt)
        rw [lookup_cons_eq_ite, lookup_cons_eq_ite, ih]
        by_cases h : other = name
        · simp [h, hne]
        · simp [h]
      · rename_i hle hge
        have heq : name = n := String.le_antisymm (String.not_lt.1 hge) (String.not_lt.1 hle)
        subst heq
        by_cases h : other = name <;> simp [lookup_cons_eq_ite, h]

/-- The map with `value` under `name`, in place of what stood there. -/
def insert (m : NameMap α) (name : String) (value : α) : NameMap α :=
  ⟨insertEntry name value m.entries, insertEntry_sorted m.sorted⟩

/-- The map of a list of entries; of several entries with one name the first counts. -/
def ofList (l : List (String × α)) : NameMap α :=
  l.foldr (fun e m => m.insert e.1 e.2) empty

/-- The values of `f` at those of `names` where it has one. -/
def tabulate (names : List String) (f : String → Option α) : NameMap α :=
  names.foldr (fun n m => match f n with | some v => m.insert n v | none => m) empty

/-- The union of two maps; `f` joins the values of a name that both have. -/
def mergeWith (f : α → α → α) (l r : NameMap α) : NameMap α :=
  tabulate (l.names ++ r.names) fun n => Option.merge f (l.get? n) (r.get? n)

theorem map_entries_sorted {l : List (String × α)} (f : String → α → β)
    (h : l.Pairwise (fun a b => a.1 < b.1)) :
    (l.map fun e => (e.1, f e.1 e.2)).Pairwise (fun a b => a.1 < b.1) :=
  List.pairwise_map.2 h

/-- The same names with new values. -/
def mapValues (f : String → α → β) (m : NameMap α) : NameMap β :=
  ⟨m.entries.map fun e => (e.1, f e.1 e.2), map_entries_sorted f m.sorted⟩

/-- `mapValues` for a function with an effect, run in the order of the names. -/
def traverse {μ : Type v → Type v} [Monad μ] (f : String → α → μ β) (m : NameMap α) :
    μ (NameMap β) := do
  return ofList (← m.entries.mapM fun e => return (e.1, ← f e.1 e.2))

@[simp]
theorem get?_empty (n : String) : (empty : NameMap α).get? n = none := rfl

@[simp]
theorem get?_insert (m : NameMap α) (name n : String) (value : α) :
    (m.insert name value).get? n = if n = name then some value else m.get? n :=
  lookup_insertEntry name n value m.entries

@[simp]
theorem get?_ofList (l : List (String × α)) (n : String) : (ofList l).get? n = l.lookup n := by
  induction l with
  | nil => rfl
  | cons e l ih =>
    have hcons : ofList (e :: l) = (ofList l).insert e.1 e.2 := rfl
    rw [hcons, get?_insert, ih, lookup_cons_eq_ite]

theorem get?_tabulate (names : List String) (f : String → Option α) (n : String) :
    (tabulate names f).get? n = if n ∈ names then f n else none := by
  induction names with
  | nil => simp [tabulate]
  | cons m names ih =>
    simp only [tabulate, List.foldr_cons] at ih ⊢
    by_cases hm : n = m
    · subst hm
      cases hf : f n with
      | some v => simp
      | none => simp [ih, hf]
    · cases hf : f m with
      | some v => simp [ih, hm]
      | none => simp [ih, hm]

theorem mem_names_of_lookup {l : List (String × α)} {n : String} {v : α}
    (h : l.lookup n = some v) : n ∈ l.map (·.1) := by
  induction l with
  | nil => simp at h
  | cons e l ih =>
    rw [lookup_cons_eq_ite] at h
    split at h
    · rename_i heq
      simp [heq]
    · exact List.mem_cons_of_mem _ (ih h)

/-- The entries are the pairs of a name and what `get?` reads under it. -/
theorem mem_entries {m : NameMap α} {n : String} {v : α} :
    (n, v) ∈ m.entries ↔ m.get? n = some v := by
  obtain ⟨l, h⟩ := m
  simp only [get?]
  induction l with
  | nil => simp
  | cons e l ih =>
    obtain ⟨he, hl⟩ := List.pairwise_cons.1 h
    rw [List.mem_cons, lookup_cons_eq_ite, ih hl]
    by_cases hn : n = e.1
    · subst hn
      have hnone : l.lookup e.1 ≠ some v := fun hsome => by
        obtain ⟨e', he', heq⟩ := List.mem_map.1 (mem_names_of_lookup hsome)
        exact String.lt_irrefl _ (heq ▸ he e' he')
      simp [hnone, Prod.ext_iff, eq_comm]
    · simp [hn, Prod.ext_iff]

theorem get?_eq_none_of_not_mem {m : NameMap α} {n : String} (h : n ∉ m.names) :
    m.get? n = none := by
  cases hg : m.get? n with
  | none => rfl
  | some v => exact absurd (mem_names_of_lookup hg) h

@[simp]
theorem get?_mergeWith (f : α → α → α) (l r : NameMap α) (n : String) :
    (l.mergeWith f r).get? n = Option.merge f (l.get? n) (r.get? n) := by
  rw [mergeWith, get?_tabulate]
  split
  · rfl
  · rename_i h
    rw [List.mem_append, not_or] at h
    rw [get?_eq_none_of_not_mem h.1, get?_eq_none_of_not_mem h.2]
    rfl

@[simp]
theorem get?_mapValues (f : String → α → β) (m : NameMap α) (n : String) :
    (m.mapValues f).get? n = (m.get? n).map (f n) := by
  obtain ⟨l, h⟩ := m
  simp only [get?, mapValues]
  clear h
  induction l with
  | nil => rfl
  | cons e l ih =>
    rw [List.map_cons, lookup_cons_eq_ite, lookup_cons_eq_ite, ih]
    by_cases h : n = e.1 <;> simp [h]

theorem lookup_eq_none_of_lt {l : List (String × α)} {n : String}
    (h : ∀ e ∈ l, n < e.1) : l.lookup n = none := by
  induction l with
  | nil => rfl
  | cons e l ih =>
    have hne : n ≠ e.1 := fun heq => String.lt_irrefl _ (heq ▸ h e List.mem_cons_self)
    rw [lookup_cons_eq_ite, if_neg hne]
    exact ih fun e' he' => h e' (List.mem_cons_of_mem _ he')

theorem entries_eq_of_lookup {l r : List (String × α)}
    (hl : l.Pairwise (fun a b => a.1 < b.1)) (hr : r.Pairwise (fun a b => a.1 < b.1))
    (h : ∀ n, l.lookup n = r.lookup n) : l = r := by
  induction l generalizing r with
  | nil =>
    cases r with
    | nil => rfl
    | cons e r => exact absurd (h e.1) (by simp [lookup_cons_eq_ite])
  | cons e l ih =>
    obtain ⟨hel, hl⟩ := List.pairwise_cons.1 hl
    cases r with
    | nil => exact absurd (h e.1) (by simp [lookup_cons_eq_ite])
    | cons d r =>
      obtain ⟨hdr, hr⟩ := List.pairwise_cons.1 hr
      have hle : ¬ e.1 < d.1 := fun hlt => by
        have hnone : (d :: r).lookup e.1 = none := lookup_eq_none_of_lt fun x hx => by
          rcases List.mem_cons.1 hx with rfl | hx
          · exact hlt
          · exact String.lt_trans hlt (hdr x hx)
        simp [← h, lookup_cons_eq_ite] at hnone
      have hge : ¬ d.1 < e.1 := fun hlt => by
        have hnone : (e :: l).lookup d.1 = none := lookup_eq_none_of_lt fun x hx => by
          rcases List.mem_cons.1 hx with rfl | hx
          · exact hlt
          · exact String.lt_trans hlt (hel x hx)
        simp [h, lookup_cons_eq_ite] at hnone
      have hname : e.1 = d.1 := String.le_antisymm (String.not_lt.1 hge) (String.not_lt.1 hle)
      have hvalue : e.2 = d.2 := by simpa [lookup_cons_eq_ite, hname] using h e.1
      have htail : l = r := ih hl hr fun n => by
        by_cases hn : n = e.1
        · rw [lookup_eq_none_of_lt (l := l) fun x hx => hn ▸ hel x hx,
            lookup_eq_none_of_lt (l := r) fun x hx => hn ▸ hname ▸ hdr x hx]
        · have hd : n ≠ d.1 := hname ▸ hn
          simpa [lookup_cons_eq_ite, hn, hd] using h n
      rw [htail, Prod.ext hname hvalue]

theorem ext_get? {l r : NameMap α} (h : ∀ n, l.get? n = r.get? n) : l = r := by
  obtain ⟨l, hl⟩ := l
  obtain ⟨r, hr⟩ := r
  have := entries_eq_of_lookup hl hr h
  subst this
  rfl

/-- Reading the entries of a map back gives the map. -/
@[simp]
theorem ofList_entries (m : NameMap α) : ofList m.entries = m :=
  ext_get? fun n => get?_ofList m.entries n

end NameMap

end RoleAccess
