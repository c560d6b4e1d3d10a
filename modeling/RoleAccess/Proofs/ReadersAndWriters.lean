import RoleAccess.Proofs.CanonicalForms

/-!
# Readers and writers

A reader and a writer of one type settle its values if what is written of a value is read as the
settled value, and if nothing but canonical values is read, whatever the input. Both carry over
from the items to lists, to maps and to the fields of records.
-/

namespace RoleAccess

/-- Values are settled by being written and read, and only canonical values are read. -/
structure Settles {α : Type} (read : Json → Option α) (write : α → Json) (settled : α → α)
    (Canonical : α → Prop) : Prop where
  read_write : ∀ a, read (write a) = some (settled a)
  canonical_of_read : ∀ j a, read j = some a → Canonical a
  settled_of_canonical : ∀ a, Canonical a → settled a = a

/-! ## Lists -/

section Lists

variable {α β : Type} {f : α → Option β} {l : List α} {l' : List β}

lemma mapM_eq_some_iff : l.mapM f = some l' ↔ l.map f = l'.map some := by
  induction l generalizing l' with
  | nil => cases l' <;> simp
  | cons a l ih =>
    rw [List.mapM_cons, Option.bind_eq_bind, Option.bind_eq_some_iff, List.map_cons,
      eq_comm (b := l'.map some), List.map_eq_cons_iff]
    constructor
    · rintro ⟨b, hb, h⟩
      obtain ⟨bs, hbs, h⟩ := Option.bind_eq_some_iff.1 h
      exact ⟨b, bs, (Option.some.inj h).symm, hb.symm, (ih.1 hbs).symm⟩
    · rintro ⟨b, bs, rfl, hb, hbs⟩
      exact ⟨b, hb.symm, Option.bind_eq_some_iff.2 ⟨bs, ih.2 hbs.symm, rfl⟩⟩

lemma exists_of_mem_of_mapM {b : β} (h : l.mapM f = some l') (hb : b ∈ l') :
    ∃ a ∈ l, f a = some b := by
  have hmem : some b ∈ l.map f := mapM_eq_some_iff.1 h ▸ List.mem_map_of_mem hb
  exact List.mem_map.1 hmem

/-- Items that are read back one by one are read back as a list. -/
lemma mapM_map_eq_some {read : β → Option α} {write : α → β} {g : α → α}
    (h : ∀ a ∈ l, read (write a) = some (g a)) : (l.map write).mapM read = some (l.map g) := by
  rw [mapM_eq_some_iff, List.map_map, List.map_map]
  exact List.map_congr_left h

/-- What holds of the first item and of the others, however they are read, holds of all. -/
lemma forall_of_read_cons {P : α → Prop} {head : Option α} {rest : Option (List α)}
    (h : (do return (← head) :: (← rest)) = some l) (hhead : ∀ a, head = some a → P a)
    (hrest : ∀ as, rest = some as → ∀ a ∈ as, P a) : ∀ a ∈ l, P a := by
  obtain ⟨a, ha, h⟩ := Option.bind_eq_some_iff.1 h
  obtain ⟨as, has, h⟩ := Option.bind_eq_some_iff.1 h
  cases h
  exact List.forall_mem_cons.2 ⟨hhead a ha, hrest as has⟩

end Lists

/-! ## Items and maps -/

section Containers

variable {α : Type} {read : Json → Option α} {write : α → Json} {f : α → α} {P : α → Prop}

lemma items?_arr_map {l : List α} (h : ∀ a, read (write a) = some (f a)) :
    (Json.arr (l.map write)).items? read = some (l.map f) :=
  mapM_map_eq_some fun a _ => h a

lemma items?_arr_map_self {l : List α} (h : ∀ a, read (write a) = some a) :
    (Json.arr (l.map write)).items? read = some l := by
  rw [items?_arr_map (f := id) h, List.map_id]

lemma forall_of_items? {j : Json} {l : List α} (h : j.items? read = some l)
    (hread : ∀ k a, read k = some a → P a) : ∀ a ∈ l, P a := by
  cases j with
  | arr items =>
    intro a ha
    obtain ⟨k, -, hk⟩ := exists_of_mem_of_mapM h ha
    exact hread k a hk
  | _ => cases h

lemma map?_ofMap {m : NameMap α} (h : ∀ a, read (write a) = some (f a)) :
    Json.map? read (Json.ofMap write m) = some (m.mapValues fun _ => f) := by
  have hentries : ((m.entries.map fun e => (e.1, write e.2)).mapM
      fun e => do return (e.1, ← read e.2)) = some (m.mapValues fun _ => f).entries := by
    rw [mapM_eq_some_iff, NameMap.mapValues, List.map_map, List.map_map]
    refine List.map_congr_left fun e _ => ?_
    simp [h]
  rw [Json.ofMap, Json.map?, hentries]
  exact congrArg some (NameMap.ofList_entries _)

lemma map?_ofMap_self {m : NameMap α} (h : ∀ a, read (write a) = some a) :
    Json.map? read (Json.ofMap write m) = some m := by
  rw [map?_ofMap (f := id) h]
  exact congrArg some (NameMap.mapValues_eq_self (P := fun _ => True) (fun _ _ => rfl)
    fun _ _ _ => trivial)

lemma each_of_map? {j : Json} {m : NameMap α} (h : Json.map? read j = some m)
    (hread : ∀ k a, read k = some a → P a) : m.Each P := by
  cases j with
  | obj members =>
    obtain ⟨entries, hentries, hm⟩ := Option.bind_eq_some_iff.1 h
    intro name value hvalue
    have hlookup : entries.lookup name = some value := by
      rw [← NameMap.get?_ofList, Option.some.inj hm, hvalue]
    obtain ⟨before, after, heq, -⟩ := List.lookup_eq_some_iff.1 hlookup
    have hmem : (name, value) ∈ entries := by simp [heq]
    obtain ⟨⟨key, k⟩, -, hk⟩ := exists_of_mem_of_mapM hentries hmem
    obtain ⟨a, ha, hpair⟩ := Option.bind_eq_some_iff.1 hk
    obtain ⟨-, rfl⟩ := Prod.mk.inj (Option.some.inj hpair)
    exact hread k a ha
  | _ => cases h

lemma each_empty : (NameMap.empty : NameMap α).Each P := fun _ _ h => nomatch h

/-- Maps are settled value by value. -/
lemma Settles.map {Canonical : α → Prop} (h : Settles read write f Canonical) :
    Settles (Json.map? read) (Json.ofMap write) (NameMap.mapValues fun _ => f)
      (NameMap.Each Canonical) where
  read_write _ := map?_ofMap h.read_write
  canonical_of_read _ _ hm := each_of_map? hm h.canonical_of_read
  settled_of_canonical _ := NameMap.mapValues_eq_self h.settled_of_canonical

end Containers

/-! ## Fields of records -/

/-- The members of an object. -/
def Json.members : Json → Members
  | .obj members => members
  | _ => []

namespace Members

variable {α : Type} {members : Members} {name : String} {read : Json → Option α}
  {write : α → Json} {f : α → α} {P : α → Prop}

@[simp]
lemma lookup_ofOption (n : String) (o : Option α) :
    (ofOption name write o).lookup n = if n = name then o.map write else none := by
  cases o with
  | none => simp [ofOption]
  | some a => simp [ofOption, NameMap.lookup_cons_eq_ite]

lemma defaulted_of_lookup {j : Json} {default : α} (h : members.lookup name = some j) :
    members.defaulted name default read = read j := by
  rw [defaulted, h]

/-- An optional field is read back, since its value is never written as null. -/
lemma optional_of_lookup {o : Option α} (h : members.lookup name = o.map write)
    (hread : ∀ a, read (write a) = some (f a)) (hnull : ∀ a, write a ≠ .null) :
    members.optional name read = some (o.map f) := by
  rw [optional, h]
  cases o with
  | none => rfl
  | some a =>
    rw [Option.map_some, Option.map_some]
    split
    · rename_i heq
      cases heq
    · rename_i heq
      exact absurd (Option.some.inj heq) (hnull a)
    · rename_i heq
      rw [← Option.some.inj heq, hread, Option.map_some]

lemma optional_of_lookup_self {o : Option α} (h : members.lookup name = o.map write)
    (hread : ∀ a, read (write a) = some a) (hnull : ∀ a, write a ≠ .null) :
    members.optional name read = some o := by
  rw [optional_of_lookup (f := id) h hread hnull, Option.map_id, id]

lemma of_required {a : α} (h : members.required name read = some a)
    (hread : ∀ j a, read j = some a → P a) : P a := by
  obtain ⟨j, -, hj⟩ := Option.bind_eq_some_iff.1 h
  exact hread j a hj

lemma of_defaulted {a default : α} (h : members.defaulted name default read = some a)
    (hdefault : P default) (hread : ∀ j a, read j = some a → P a) : P a := by
  unfold defaulted at h
  split at h
  · exact Option.some.inj h ▸ hdefault
  · exact hread _ a h

lemma of_optional {o : Option α} (h : members.optional name read = some o)
    (hread : ∀ j a, read j = some a → P a) : ∀ a, o = some a → P a := by
  rintro a rfl
  unfold optional at h
  split at h
  · cases h
  · cases h
  · obtain ⟨b, hb, hab⟩ := Option.map_eq_some_iff.1 h
    exact Option.some.inj hab ▸ hread _ b hb

end Members

end RoleAccess
