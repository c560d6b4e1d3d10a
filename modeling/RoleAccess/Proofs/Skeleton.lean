import RoleAccess.Proofs.Replacement

/-!
# Subtrees on the same row

The subtrees that are reached through `and`, `or` and `not` speak of the same row as the condition
itself, and they are the places that replacement looks at. A column or relation node is replaced at
all of these places, so it is gone afterwards unless the replacement brings it along, and whatever
is not found stays in its place. Reducing the way back along a traversal twice is therefore reducing
it once.
-/

namespace RoleAccess

universe u

namespace Condition

/-- The parts of a condition that speak of the same row. -/
def parts : Condition → List Condition
  | and parts => parts
  | or parts => parts
  | not part => [part]
  | column _ _ => []
  | relation _ _ => []

/-- The subtree at a place. The place tells at every step which of the parts is gone on to. -/
def subtree? : Condition → List Nat → Option Condition
  | c, [] => some c
  | c, n :: place => c.parts[n]?.bind (subtree? · place)

def Contains (c find : Condition) : Prop := ∃ place, c.subtree? place = some find

/-- A condition without parts that could be found or replaced on their own. -/
inductive IsLeaf : Condition → Prop
  | column (field : String) (test : ColumnTest) : IsLeaf (.column field test)
  | relation (field : String) (inner : Condition) : IsLeaf (.relation field inner)

variable {c find replacement sub : Condition} {field : String} {inner : Condition}

/-! ## Places -/

lemma subtree?_cons {n : Nat} {place : List Nat} :
    c.subtree? (n :: place) = c.parts[n]?.bind (·.subtree? place) := rfl

lemma contains_iff : c.Contains find ↔ c = find ∨ ∃ part ∈ c.parts, part.Contains find := by
  constructor
  · rintro ⟨_ | ⟨n, place⟩, hplace⟩
    · exact .inl (Option.some.inj hplace)
    · obtain ⟨part, hpart, hplace⟩ := Option.bind_eq_some_iff.1 hplace
      exact .inr ⟨part, List.mem_of_getElem? hpart, place, hplace⟩
  · rintro (rfl | ⟨part, hpart, place, hplace⟩)
    · exact ⟨[], rfl⟩
    · obtain ⟨n, hn⟩ := List.mem_iff_getElem?.1 hpart
      refine ⟨n :: place, ?_⟩
      rw [subtree?_cons, hn, Option.bind_some, hplace]

@[simp]
lemma contains_and {parts : List Condition} :
    (and parts).Contains find ↔ and parts = find ∨ ∃ part ∈ parts, part.Contains find :=
  contains_iff

@[simp]
lemma contains_or {parts : List Condition} :
    (or parts).Contains find ↔ or parts = find ∨ ∃ part ∈ parts, part.Contains find :=
  contains_iff

@[simp]
lemma contains_not {part : Condition} :
    (not part).Contains find ↔ not part = find ∨ part.Contains find := by
  rw [contains_iff]
  simp [parts]

@[simp]
lemma contains_column {test : ColumnTest} :
    (column field test).Contains find ↔ column field test = find := by
  rw [contains_iff]
  simp [parts]

@[simp]
lemma contains_relation : (relation field inner).Contains find ↔ relation field inner = find := by
  rw [contains_iff]
  simp [parts]

lemma IsLeaf.parts_eq_nil (h : c.IsLeaf) : c.parts = [] := by
  cases h <;> rfl

/-- Nothing is below a leaf. -/
lemma IsLeaf.subtree?_append (hfind : find.IsLeaf) {outer : List Nat}
    (houter : c.subtree? outer = some find) (n : Nat) (rest : List Nat) :
    c.subtree? (outer ++ n :: rest) = none := by
  induction outer generalizing c with
  | nil =>
    obtain rfl : c = find := Option.some.inj houter
    rw [List.nil_append, subtree?_cons, hfind.parts_eq_nil, List.getElem?_nil, Option.bind_none]
  | cons m outer ih =>
    obtain ⟨part, hpart, houter⟩ := Option.bind_eq_some_iff.1 houter
    rw [List.cons_append, subtree?_cons, hpart, Option.bind_some, ih houter]

/-! ## Replacing at places -/

lemma parts_replace (h : c ≠ find) :
    (c.replace find replacement).parts = c.parts.map (·.replace find replacement) := by
  cases c with
  | and parts => rw [replace_and h]; rfl
  | or parts => rw [replace_or h]; rfl
  | not part => rw [replace_not h]; rfl
  | column field test => rw [replace_column h]; rfl
  | relation field inner => rw [replace_relation h]; rfl

/-- What is not found on the way to a place stays on the way to it. -/
lemma subtree?_replace {place : List Nat} (hsub : c.subtree? place = some sub)
    (hway : ∀ outer n rest, place = outer ++ n :: rest → c.subtree? outer ≠ some find) :
    (c.replace find replacement).subtree? place = some (sub.replace find replacement) := by
  induction place generalizing c with
  | nil =>
    obtain rfl : c = sub := Option.some.inj hsub
    rfl
  | cons n place ih =>
    have hroot : c ≠ find := fun h => hway [] n place rfl (congrArg some h)
    obtain ⟨part, hpart, hsub⟩ := Option.bind_eq_some_iff.1 hsub
    have hbelow : ∀ outer m rest, place = outer ++ m :: rest → part.subtree? outer ≠ some find := by
      intro outer m rest heq houter
      refine hway (n :: outer) m rest (by rw [heq, List.cons_append]) ?_
      rw [subtree?_cons, hpart, Option.bind_some, houter]
    rw [subtree?_cons, parts_replace hroot, List.getElem?_map, hpart, Option.map_some,
      Option.bind_some, ih hsub hbelow]

/-- A relation that is neither found nor inside of what is found stays whole in its place. -/
lemma subtree?_replace_relation {place : List Nat}
    (hsub : c.subtree? place = some (relation field inner))
    (hway : ∀ outer, outer <+: place → c.subtree? outer ≠ some find) :
    (c.replace find replacement).subtree? place = some (relation field inner) := by
  have hself : relation field inner ≠ find := fun h => hway place List.prefix_rfl (h ▸ hsub)
  rw [subtree?_replace hsub fun outer n rest heq => hway outer ⟨n :: rest, heq.symm⟩,
    replace_relation hself]

/-- Inside of a leaf there is no place, so next to one every other relation stays. -/
lemma IsLeaf.subtree?_replace_relation (hfind : find.IsLeaf) {place : List Nat}
    (hsub : c.subtree? place = some (.relation field inner)) (hne : .relation field inner ≠ find) :
    (c.replace find replacement).subtree? place = some (.relation field inner) := by
  rw [subtree?_replace hsub, replace_relation hne]
  intro outer n rest heq houter
  rw [heq, hfind.subtree?_append houter] at hsub
  cases hsub

lemma replace_eq_self (h : ¬ c.Contains find) : c.replace find replacement = c := by
  induction c using induction_on_places find with
  | found => exact absurd ⟨[], rfl⟩ h
  | and parts hne ih =>
    rw [contains_and, not_or, not_exists] at h
    rw [replace_and hne, List.map_congr_left fun part hpart =>
      ih part hpart fun hsub => h.2 part ⟨hpart, hsub⟩, List.map_id']
  | or parts hne ih =>
    rw [contains_or, not_or, not_exists] at h
    rw [replace_or hne, List.map_congr_left fun part hpart =>
      ih part hpart fun hsub => h.2 part ⟨hpart, hsub⟩, List.map_id']
  | not part hne ih =>
    rw [contains_not, not_or] at h
    rw [replace_not hne, ih h.2]
  | column field test hne => exact replace_column hne
  | relation field inner hne => exact replace_relation hne

/-- A leaf that the replacement does not bring along is nowhere left. Rewriting the parts of a node
makes no leaf of it, and this is where a found subtree with parts of its own would differ. -/
lemma IsLeaf.not_contains_replace (hfind : find.IsLeaf) (hnew : ¬ replacement.Contains find)
    (c : Condition) : ¬ (c.replace find replacement).Contains find := by
  induction c using induction_on_places find with
  | found => rwa [replace_self]
  | and parts hne ih =>
    rw [replace_and hne, contains_and]
    rintro (h | ⟨_, hmem, hsub⟩)
    · cases hfind <;> cases h
    · obtain ⟨part, hpart, rfl⟩ := List.mem_map.1 hmem
      exact ih part hpart hsub
  | or parts hne ih =>
    rw [replace_or hne, contains_or]
    rintro (h | ⟨_, hmem, hsub⟩)
    · cases hfind <;> cases h
    · obtain ⟨part, hpart, rfl⟩ := List.mem_map.1 hmem
      exact ih part hpart hsub
  | not part hne ih =>
    rw [replace_not hne, contains_not]
    rintro (h | hsub)
    · cases hfind <;> cases h
    · exact ih hsub
  | column field test hne => rwa [replace_column hne, contains_column]
  | relation field inner hne => rwa [replace_relation hne, contains_relation]

lemma IsLeaf.replace_replace (hfind : find.IsLeaf) (hnew : ¬ replacement.Contains find)
    (c : Condition) : (c.replace find replacement).replace find replacement =
      c.replace find replacement :=
  replace_eq_self (hfind.not_contains_replace hnew c)

end Condition

/-! ## The reduced way back -/

namespace RowFilter

/-- Whether the way back is replaced, and by what, does not depend on the condition. -/
lemma optimize_eq_id_or_replace (f : RowFilter) (along : Option Traversal) :
    (∀ c, f.optimize along c = c) ∨
      ∃ back read check, ∀ c,
        f.optimize along c = c.replace (.relation back read) (.relation back check) := by
  rcases along with _ | ⟨source, relation, _ | back⟩
  · exact .inl fun _ => rfl
  · exact .inl fun _ => rfl
  · by_cases hread : (f.direct source (.fields .read) [relation]).isAlways = true
    · exact .inl fun c => by simp only [optimize, if_pos hread]
    · cases hprimary : f.permissions.primary? source with
      | none => exact .inl fun c => by simp only [optimize, if_neg hread, hprimary]
      | some primary =>
        refine .inr ⟨back, f.direct source (.fields .read) [relation], .column primary .always, ?_⟩
        exact fun c => by simp only [optimize, if_neg hread, hprimary]

lemma optimize_optimize (f : RowFilter) (along : Option Traversal) (c : Condition) :
    f.optimize along (f.optimize along c) = f.optimize along c := by
  obtain hid | ⟨back, read, check, hreplace⟩ := f.optimize_eq_id_or_replace along
  · rw [hid]
  · rw [hreplace, hreplace]
    by_cases heq : check = read
    · rw [heq, Condition.replace_by_itself]
    · exact (Condition.IsLeaf.relation back read).replace_replace (by simpa using heq) c

end RowFilter

namespace Condition

/-- Replacing keeps the truth of a condition on the rows on which both subtrees agree, and changes
nothing if they are the same or the one is not there. A relation stays whole in its place unless it
is found or lies inside of what is found, which for a leaf is never so. A leaf that the replacement
does not bring along is gone everywhere, so replacing it again changes nothing; nor does reducing
the way back along a traversal again. -/
theorem replacement_congruent_and_complete (find replacement : Condition) :
    (∀ (Row : Type u) (I : Reading Row) (row : Row),
      (find.Holds I row ↔ replacement.Holds I row) →
        ∀ c : Condition, (c.replace find replacement).Holds I row ↔ c.Holds I row) ∧
    (∀ c : Condition, c.replace find find = c ∧
      (¬ c.Contains find → c.replace find replacement = c)) ∧
    (∀ (c : Condition) place field inner, c.subtree? place = some (.relation field inner) →
      (∀ outer, outer <+: place → c.subtree? outer ≠ some find) →
        (c.replace find replacement).subtree? place = some (.relation field inner)) ∧
    (find.IsLeaf → ∀ (c : Condition) place field inner,
      c.subtree? place = some (.relation field inner) → .relation field inner ≠ find →
        (c.replace find replacement).subtree? place = some (.relation field inner)) ∧
    (find.IsLeaf → ¬ replacement.Contains find → ∀ c : Condition,
      ¬ (c.replace find replacement).Contains find ∧
        (c.replace find replacement).replace find replacement = c.replace find replacement) ∧
    ∀ (f : RowFilter) along c, f.optimize along (f.optimize along c) = f.optimize along c := by
  refine ⟨fun Row I row agree => holds_replace I agree, fun c => ⟨replace_by_itself c find, ?_⟩,
    ?_, ?_, ?_, RowFilter.optimize_optimize⟩
  · exact replace_eq_self
  · exact fun c place field inner => subtree?_replace_relation
  · exact fun hfind c place field inner => hfind.subtree?_replace_relation
  · exact fun hfind hnew c => ⟨hfind.not_contains_replace hnew c, hfind.replace_replace hnew c⟩

/-- The way back from an image is found twice, once below a negation, and its tags stay. -/
theorem way_back_found_twice :
    let wayBack : Condition := .relation "articles" (.column "isPublished" .always)
    let check : Condition := .relation "articles" (.column "id" .always)
    let tagged : Condition := .relation "tags" wayBack
    let c : Condition := .and [.not wayBack, .or [tagged, .and [wayBack]]]
    c.subtree? [1, 0] = some tagged ∧ ¬ check.Contains wayBack ∧
      c.replace wayBack check = .and [.not check, .or [tagged, .and [check]]] ∧
      (c.replace wayBack check).subtree? [1, 0] = some tagged ∧
      ¬ (c.replace wayBack check).Contains wayBack ∧
      (c.replace wayBack check).replace wayBack check = c.replace wayBack check := by
  intro wayBack check tagged c
  have hnew : ¬ check.Contains wayBack := by simp [check, wayBack]
  have hleaf : wayBack.IsLeaf := .relation _ _
  obtain ⟨_, _, _, hkept, hgone, _⟩ := replacement_congruent_and_complete.{0} wayBack check
  refine ⟨rfl, hnew, by decide, ?_, hgone hleaf hnew c⟩
  exact hkept hleaf c [1, 0] "tags" wayBack rfl (by decide)

/-- A subtree with parts may come up anew: rewriting a part makes the outer node the one that is
looked for. -/
example :
    let published : Condition := .column "isPublished" .always
    let c : Condition := .and [.and [published]]
    c.replace (.and [published]) published = .and [published] ∧
      (c.replace (.and [published]) published).replace (.and [published]) published =
        published := by
  decide

end Condition

end RoleAccess
