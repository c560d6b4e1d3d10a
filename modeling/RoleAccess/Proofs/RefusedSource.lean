import RoleAccess.Proofs.Polarity
import RoleAccess.Proofs.Replacement

/-!
# The way back to refused sources

Where the source rows of a traversal are refused, the way back to them leads nowhere, while the
existence check that takes its place may well hold. The replacement widens a condition where the
way back stands under an even number of `not` and narrows it where it stands under an odd number.
So it exposes no row exactly where the way back has no positive place.
-/

namespace RoleAccess

universe u

lemma Polarity.mem_map_flip {sign : Polarity} {signs : List Polarity} :
    sign ∈ signs.map flip ↔ sign.flip ∈ signs := by
  rw [List.mem_map]
  constructor
  · rintro ⟨other, h, rfl⟩
    cases other <;> exact h
  · intro h
    refine ⟨sign.flip, h, ?_⟩
    cases sign <;> rfl

namespace Condition

mutual

/-- The places of a subtree that are reached through `and`, `or` and `not`, each by its sign. -/
def signsOf (c find : Condition) : List Polarity :=
  if c = find then [.positive]
  else match c with
    | .and parts => signsOfList parts find
    | .or parts => signsOfList parts find
    | .not part => (signsOf part find).map Polarity.flip
    | .column _ _ => []
    | .relation _ _ => []

def signsOfList (parts : List Condition) (find : Condition) : List Polarity :=
  match parts with
  | [] => []
  | part :: parts => signsOf part find ++ signsOfList parts find

end

variable {find left right : Condition}

lemma signsOfList_eq_flatMap (parts : List Condition) (find : Condition) :
    signsOfList parts find = parts.flatMap (·.signsOf find) := by
  induction parts with
  | nil => rfl
  | cons part parts ih => rw [signsOfList, ih, List.flatMap_cons]

@[simp]
lemma signsOf_self : find.signsOf find = [.positive] := by
  rw [signsOf.eq_def, if_pos rfl]

lemma signsOf_and {parts : List Condition} (h : Condition.and parts ≠ find) :
    (Condition.and parts).signsOf find = parts.flatMap (·.signsOf find) := by
  rw [signsOf, if_neg h, signsOfList_eq_flatMap]

lemma signsOf_or {parts : List Condition} (h : Condition.or parts ≠ find) :
    (Condition.or parts).signsOf find = parts.flatMap (·.signsOf find) := by
  rw [signsOf, if_neg h, signsOfList_eq_flatMap]

lemma signsOf_not {part : Condition} (h : Condition.not part ≠ find) :
    (Condition.not part).signsOf find = (part.signsOf find).map Polarity.flip := by
  rw [signsOf, if_neg h]

/-- Of two replacements for the same subtree the one that follows from the other keeps the rows at
positive places, and gives way at negative ones. They change places below a negation, so the
induction is over both at once. -/
theorem holds_replace_of_signs {Row : Type u} (I : Reading Row) {row : Row} (c : Condition)
    (hpos : .positive ∈ c.signsOf find → left.Holds I row → right.Holds I row)
    (hneg : .negative ∈ c.signsOf find → right.Holds I row → left.Holds I row)
    (h : (c.replace find left).Holds I row) : (c.replace find right).Holds I row := by
  induction c using induction_on_places find generalizing left right with
  | found =>
    rw [replace_self] at h ⊢
    rw [signsOf_self] at hpos
    exact hpos (List.mem_singleton_self _) h
  | and parts hfind ih =>
    rw [signsOf_and hfind] at hpos hneg
    rw [replace_and hfind, holds_and, List.forall_mem_map] at h ⊢
    intro part hpart
    apply ih part hpart _ _ (h part hpart)
    · exact fun hmem => hpos (List.mem_flatMap.2 ⟨part, hpart, hmem⟩)
    · exact fun hmem => hneg (List.mem_flatMap.2 ⟨part, hpart, hmem⟩)
  | or parts hfind ih =>
    rw [signsOf_or hfind] at hpos hneg
    rw [replace_or hfind, holds_or] at h ⊢
    obtain ⟨_, hmem, h⟩ := h
    obtain ⟨part, hpart, rfl⟩ := List.mem_map.1 hmem
    refine ⟨_, List.mem_map_of_mem hpart, ih part hpart ?_ ?_ h⟩
    · exact fun hmem => hpos (List.mem_flatMap.2 ⟨part, hpart, hmem⟩)
    · exact fun hmem => hneg (List.mem_flatMap.2 ⟨part, hpart, hmem⟩)
  | not part hfind ih =>
    rw [signsOf_not hfind, Polarity.mem_map_flip] at hpos hneg
    rw [replace_not hfind, holds_not] at h ⊢
    exact fun hright => h (ih hneg hpos hright)
  | column field test hfind => rwa [replace_column hfind] at h ⊢
  | relation field inner hfind => rwa [replace_relation hfind] at h ⊢

/-- A weaker subtree in the place of `find` adds no row where `find` has no positive place. -/
lemma holds_of_holds_replace {Row : Type u} (I : Reading Row) {row : Row} {c : Condition}
    (weaker : find.Holds I row → right.Holds I row) (hsigns : .positive ∉ c.signsOf find)
    (h : (c.replace find right).Holds I row) : c.Holds I row := by
  have hself : (c.replace find find).Holds I row :=
    holds_replace_of_signs I c (fun hmem => absurd hmem hsigns) (fun _ => weaker) h
  rwa [replace_by_itself] at hself

/-- A conjunct with one place of `find`, of the given sign. Under the negative sign every row
satisfies it. -/
def signedPart (find : Condition) : Polarity → Condition
  | .positive => find
  | .negative => .or [always, .not find]

/-- Every row is related to every row, and only the test `always` is passed. -/
def allRelated : Interpretation PUnit.{u + 1} where
  passes _ _ test := test = .always
  related _ _ _ := True
  not_passes_never _ _ := by simp
  passes_always _ _ := rfl

lemma signsOf_and_signedParts {field : String} {inner : Condition} (signs : List Polarity) :
    (Condition.and (signs.map (relation field inner).signedPart)).signsOf (relation field inner) =
      signs := by
  rw [signsOf_and (by simp)]
  induction signs with
  | nil => rfl
  | cons sign signs ih =>
    rw [List.map_cons, List.flatMap_cons, ih]
    cases sign with
    | positive => simp [signedPart]
    | negative => simp [signedPart, signsOf_or, signsOf_not, signsOf_and, always, Polarity.flip]

end Condition

namespace RowFilter

variable (f : RowFilter) (along : Traversal)

/-- The places of the way back of a traversal, under the condition for its source rows. -/
def signsOfWayBack (c : Condition) : List Polarity :=
  match along.back with
  | none => []
  | some back => c.signsOf (.relation back (f.sourceCondition along))

/-- On no row does the reduced condition hold where the condition itself fails. -/
def ExposesNothing (c : Condition) : Prop :=
  ∀ (Row : Type u) (I : Interpretation Row) (row : Row),
    (f.optimize (some along) c).Holds I row → c.Holds I row

variable {f along}

lemma optimize_eq_self (h : f.permissions.primary? along.entity = none) (c : Condition) :
    f.optimize (some along) c = c := by
  obtain ⟨source, relation, back⟩ := along
  cases back with
  | none => rfl
  | some back => simp [optimize, h]

lemma optimize_eq_replace {back primary : String} (hback : along.back = some back)
    (hprimary : f.permissions.primary? along.entity = some primary)
    (denied : (f.sourceCondition along).isNever) (c : Condition) :
    f.optimize (some along) c =
      c.replace (.relation back (f.sourceCondition along))
        (.relation back (.column primary .always)) := by
  obtain ⟨source, relation, _⟩ := along
  obtain rfl : _ = some back := hback
  have hsource : ¬ (f.direct source (.fields .read) [relation]).isAlways = true := by
    unfold sourceCondition at denied
    rw [create_none] at denied
    intro hall
    have : f.direct source (.fields .read) [relation] = .always := by
      simpa [Condition.isAlways] using hall
    simp [this, Condition.always, Condition.isNever] at denied
  unfold sourceCondition
  simp only [optimize, create_none, if_neg hsource, hprimary]

section Denied

variable (denied : (f.sourceCondition along).isNever)

include denied

/-- No row has a way back to a source row that passes a condition which none passes. -/
lemma not_holds_wayBack {Row : Type u} (I : Interpretation Row) (row : Row) (back : String) :
    ¬ (Condition.relation back (f.sourceCondition along)).Holds I row := by
  rw [Condition.holds_relation]
  rintro ⟨source, _, h⟩
  exact Condition.not_holds_of_isNever I denied source h

lemma exposesNothing_of_signs {c : Condition} (h : .positive ∉ f.signsOfWayBack along c) :
    ExposesNothing.{u} f along c := by
  intro Row I row hhold
  obtain heq | ⟨back, primary, hback, heq⟩ := f.optimize_eq_or_replace along c
  · rwa [heq] at hhold
  · rw [heq] at hhold
    simp only [signsOfWayBack, hback] at h
    exact Condition.holds_of_holds_replace I.toReading
      (fun hway => absurd hway (not_holds_wayBack denied I row back)) h hhold

/-- Without a source row to go back to, the existence check fails like the way back. -/
lemma holds_optimize_of_no_source {Row : Type u} (I : Interpretation Row) {row : Row}
    (alone : ∀ back source, along.back = some back → ¬ I.related row back source)
    (c : Condition) : (f.optimize (some along) c).Holds I row ↔ c.Holds I row := by
  obtain heq | ⟨back, primary, hback, heq⟩ := f.optimize_eq_or_replace along c
  · rw [heq]
  · rw [heq]
    apply Condition.holds_replace
    refine iff_of_false (not_holds_wayBack denied I row back) ?_
    rw [Condition.holds_relation]
    rintro ⟨source, related, _⟩
    exact alone back source hback related

/-- A positive place is enough to expose a row in some condition with the same places. -/
lemma not_exposesNothing_signedParts {back primary : String} {signs : List Polarity}
    (hback : along.back = some back)
    (hprimary : f.permissions.primary? along.entity = some primary)
    (h : Polarity.positive ∈ signs) :
    ¬ ExposesNothing.{u} f along
      (.and (signs.map (Condition.relation back (f.sourceCondition along)).signedPart)) := by
  intro hsafe
  have hopen : (f.optimize (some along) (.and (signs.map
      (Condition.relation back (f.sourceCondition along)).signedPart))).Holds
      Condition.allRelated.{u}.toReading ⟨⟩ := by
    rw [optimize_eq_replace hback hprimary denied, Condition.replace_and (by simp),
      Condition.holds_and, List.map_map, List.forall_mem_map]
    -- where all rows are related the check holds, and a negative part holds everywhere
    intro sign _
    cases sign with
    | positive => simp [Condition.signedPart, Condition.allRelated]
    | negative =>
      simp [Condition.signedPart, Condition.replace_or, Condition.replace_and, Condition.always]
  have hway := (Condition.holds_and _).1 (hsafe _ Condition.allRelated ⟨⟩ hopen) _
    (List.mem_map_of_mem h)
  exact not_holds_wayBack denied Condition.allRelated ⟨⟩ back hway

end Denied

/-- Where the source rows of a traversal are refused, reducing the way back exposes no row of any
condition in which the way back has no positive place, nor of any at all where the source has no
primary key to check. Of the conditions on the signs of the places this is the weakest. On rows
without a source row the reduction changes nothing. A filter along the traversal exposes nothing
where the filter without it has no positive way back. -/
theorem exposure_needs_positive_way_back (denied : (f.sourceCondition along).isNever)
    (c : Condition) :
    ((∀ d, f.signsOfWayBack along d = f.signsOfWayBack along c → ExposesNothing.{u} f along d) ↔
      f.permissions.primary? along.entity = none ∨ .positive ∉ f.signsOfWayBack along c) ∧
    ∀ (Row : Type u) (I : Interpretation Row) (row : Row),
      ((∀ back source, along.back = some back → ¬ I.related row back source) →
        ((f.optimize (some along) c).Holds I row ↔ c.Holds I row)) ∧
      ∀ entity op fields,
        .positive ∉ f.signsOfWayBack along (f.create entity op fields none) →
          (f.create entity op fields (some along)).Holds I row →
            (f.create entity op fields none).Holds I row := by
  refine ⟨⟨fun hsafe => ?_, ?_⟩, fun Row I row => ⟨?_, ?_⟩⟩
  · rw [or_iff_not_imp_left]
    intro hknown hmem
    obtain ⟨primary, hprimary⟩ := Option.ne_none_iff_exists'.1 hknown
    cases hback : along.back with
    | none => simp [signsOfWayBack, hback] at hmem
    | some back =>
      refine not_exposesNothing_signedParts denied hback hprimary hmem (hsafe _ ?_)
      simp only [signsOfWayBack, hback]
      exact Condition.signsOf_and_signedParts _
  · rintro (hprimary | hsigns) d hd
    · intro Row I row h
      rwa [optimize_eq_self hprimary] at h
    · exact exposesNothing_of_signs denied (hd ▸ hsigns)
  · exact fun alone => holds_optimize_of_no_source denied I alone c
  · intro entity op fields hsigns h
    rw [create_none] at hsigns ⊢
    obtain heq | heq := f.create_eq_or_optimize entity op fields (some along)
    · rwa [heq] at h
    · rw [heq] at h
      exact exposesNothing_of_signs denied hsigns Row I row h

/-- The urls of images are read through the articles assigned to a reader, and the captions of all
other images. No article is assigned, and the covers of articles may not be read. -/
def imagesOfMine : RowFilter where
  permissions :=
    let mine : Predicate := .relationVariable "articles" "mine"
    let url : GrantMap := { root := some (.rows [mine]) }
    let caption : GrantMap := { root := some (.rows [.not mine]) }
    { model := imagesOfPublished.permissions.model
      grants := ⟨NameMap.empty.insert "Image"
        { fields := ⟨.empty, (NameMap.empty.insert "url" url).insert "caption" caption, .empty⟩ }⟩
      defaultCustomPrimary := false }
  injector := imagesOfPublished.injector

theorem captions_stay_hidden :
    let along : Traversal := ⟨"Article", "cover", some "articles"⟩
    (imagesOfMine.sourceCondition along).isNever = true ∧
      imagesOfMine.create "Image" (.fields .read) ["caption"] (some along) =
        .not (.relation "articles" (.column "id" .always)) ∧
      ∀ (Row : Type) (I : Interpretation Row) (row : Row),
        (imagesOfMine.create "Image" (.fields .read) ["caption"] (some along)).Holds I row →
          (imagesOfMine.create "Image" (.fields .read) ["caption"] none).Holds I row := by
  have denied : (imagesOfMine.sourceCondition ⟨"Article", "cover", some "articles"⟩).isNever = true := by
    decide
  refine ⟨denied, by decide, fun Row I row => ?_⟩
  exact ((exposure_needs_positive_way_back denied .always).2 Row I row).2 "Image" (.fields .read)
    ["caption"] (by decide)

/-- The url of an image is hidden, as no article is assigned, and open to whoever comes from an
article that may not be read. -/
theorem unassigned_article_opens_image :
    let along : Traversal := ⟨"Article", "cover", some "articles"⟩
    let hidden := imagesOfMine.create "Image" (.fields .read) ["url"] none
    (imagesOfMine.sourceCondition along).isNever = true ∧
      ¬ hidden.Holds Condition.allRelated.{0}.toReading ⟨⟩ ∧
      (imagesOfMine.optimize (some along) hidden).Holds Condition.allRelated.{0}.toReading ⟨⟩ ∧
      (imagesOfMine.create "Image" (.fields .read) ["url"] (some along)).Holds
        Condition.allRelated.{0}.toReading ⟨⟩ := by
  intro along hidden
  have hhidden : hidden = .relation "articles" (.neverOn "id") := by decide
  have hopen : imagesOfMine.create "Image" (.fields .read) ["url"] (some along) =
      .relation "articles" (.column "id" .always) := by decide
  have hreduced : imagesOfMine.optimize (some along) hidden =
      .relation "articles" (.column "id" .always) := by decide
  refine ⟨by decide, ?_, ?_, ?_⟩
  · rw [hhidden]
    simp [Condition.neverOn, Condition.allRelated]
  · rw [hreduced]
    simp [Condition.allRelated]
  · rw [hopen]
    simp [Condition.allRelated]

end RowFilter

end RoleAccess
