import RoleAccess.Proofs.ReadersAndWriters

/-!
# Tests, conditions and predicates read back

Reading what was written of a scalar, a test, a condition or a predicate gives the settled value,
by induction on the value. What is read of any JSON value is canonical, by the recursion of the
reader: a text has been tried as a UUID before, and a variable as a test.
-/

namespace RoleAccess

/-! ## UUIDs -/

namespace Uuid

/-- The groups of a hyphenated text put together again. -/
lemma append_groups (cs : List Char) :
    cs.take 8 ++ ((cs.drop 8).take 4 ++ ((cs.drop 12).take 4 ++ ((cs.drop 16).take 4 ++
      cs.drop 20))) = cs := by
  have h16 : (cs.drop 16).take 4 ++ cs.drop 20 = cs.drop 16 := by
    simpa using List.take_append_drop 4 (cs.drop 16)
  have h12 : (cs.drop 12).take 4 ++ cs.drop 16 = cs.drop 12 := by
    simpa using List.take_append_drop 4 (cs.drop 12)
  have h8 : (cs.drop 8).take 4 ++ cs.drop 12 = cs.drop 8 := by
    simpa using List.take_append_drop 4 (cs.drop 8)
  rw [h16, h12, h8, List.take_append_drop]

lemma filter_hyphenate {cs : List Char} (h : ∀ c ∈ cs, c ≠ '-') :
    (hyphenate cs).filter (· ≠ '-') = cs := by
  have hbare : ∀ group : List Char, group ⊆ cs → group.filter (· ≠ '-') = group :=
    fun group hgroup => List.filter_eq_self.2 fun c hc => decide_eq_true (h c (hgroup hc))
  have htake : ∀ m n, (cs.drop m).take n ⊆ cs := fun m n =>
    List.Subset.trans (List.take_subset n _) (List.drop_subset m cs)
  have hhyphen : ['-'].filter (· ≠ '-') = [] := rfl
  simp only [hyphenate, List.filter_append, hhyphen, List.append_assoc,
    hbare _ (List.take_subset 8 cs), hbare _ (htake _ _), hbare _ (List.drop_subset 20 cs)]
  exact append_groups cs

lemma hexChar_ne_hyphen (d : Fin 16) : hexChar d ≠ '-' := by
  revert d
  decide

lemma hexDigit?_hyphen : hexDigit? '-' = none := by decide

lemma ofDigits?_eq_none {cs : List Char} (h : '-' ∈ cs) : ofDigits? cs = none := by
  rw [ofDigits?, Option.bind_eq_bind, Option.bind_eq_none_iff]
  intro digits hdigits
  obtain ⟨d, -, hd⟩ := List.mem_map.1 (mapM_eq_some_iff.1 hdigits ▸ List.mem_map_of_mem h)
  rw [hexDigit?_hyphen] at hd
  cases hd

lemma ofDigits?_map_hexChar (u : Uuid) : ofDigits? (u.digits.map hexChar) = some u := by
  have hdigits : (u.digits.map hexChar).mapM hexDigit? = some u.digits := by
    rw [mapM_map_eq_some (g := id) fun d _ => hexDigit?_hexChar d, List.map_id]
  rw [ofDigits?, hdigits]
  exact dif_pos u.length_digits

lemma ofHyphenated?_hyphenate (u : Uuid) :
    ofHyphenated? (hyphenate (u.digits.map hexChar)) = some u := by
  have hbare : (hyphenate (u.digits.map hexChar)).filter (· ≠ '-') = u.digits.map hexChar :=
    filter_hyphenate (List.forall_mem_map.2 fun d _ => hexChar_ne_hyphen d)
  simp only [ofHyphenated?, hbare, if_true]
  exact ofDigits?_map_hexChar u

/-- A hyphenated text that starts with a digit is neither in braces nor a URN. -/
lemma ofChars?_cons_hexChar (d : Fin 16) (cs : List Char) (h : '-' ∈ cs) :
    ofChars? (hexChar d :: cs) = ofHyphenated? (hexChar d :: cs) := by
  have hchar : ∀ d, hexChar d ≠ '\x7b' ∧ (hexChar d).toLower ≠ 'u' := by decide
  have hurn : ((hexChar d :: cs).take urn.length).map Char.toLower ≠ urn := fun heq =>
    (hchar d).2 (List.cons.inj heq).1
  unfold ofChars?
  split
  · rename_i heq
    exact absurd (List.cons.inj heq).1 (hchar d).1
  · rw [if_neg hurn, ofDigits?_eq_none (List.mem_cons_of_mem _ h), Option.none_or]

lemma ofText?_toText (u : Uuid) : ofText? u.toText = some u := by
  obtain ⟨d, digits, hdigits⟩ : ∃ d digits, u.digits = d :: digits :=
    List.exists_cons_of_length_pos (by rw [u.length_digits]; decide)
  have hback := ofHyphenated?_hyphenate u
  rw [hdigits, List.map_cons] at hback
  rw [ofText?, toText, String.toList_ofList, hdigits, List.map_cons]
  refine (ofChars?_cons_hexChar d _ ?_).trans hback
  simp

end Uuid

/-! ## Scalars -/

namespace Scalar

lemma word?_toInt (n : Int64) : word? n.toInt = some n := by
  rw [word?, if_pos ⟨Int64.minValue_le_toInt n, Int64.toInt_le n⟩, Int64.ofInt_toInt]

lemma canonical_of_ofJson? {j : Json} {v : Scalar} (h : ofJson? j = some v) : v.Canonical := by
  cases j with
  | bool b =>
    rw [← Option.some.inj h]
    trivial
  | int n =>
    obtain ⟨word, -, rfl⟩ := Option.map_eq_some_iff.1 h
    trivial
  | str s => exact Option.some.inj h ▸ canonical_ofText s
  | _ => cases h

lemma settles : Settles ofJson? toJson settled Canonical where
  read_write v := by
    cases v with
    | bool b => rfl
    | int n =>
      rw [toJson, ofJson?, word?_toInt]
      rfl
    | uuid u =>
      rw [toJson, ofJson?, ofText, Uuid.ofText?_toText]
      rfl
    | text s => rfl
  canonical_of_read _ _ := canonical_of_ofJson?
  settled_of_canonical _ := settled_of_canonical

end Scalar

/-! ## Tests -/

namespace ColumnTest

lemma listToJson_eq_map (parts : List ColumnTest) : listToJson parts = parts.map toJson := by
  induction parts with
  | nil => rfl
  | cons part parts ih => rw [listToJson, ih, List.map_cons]

lemma listOfJson?_eq_mapM (blank : Bool) (js : List Json) :
    listOfJson? blank js = js.mapM (ofJson? blank) := by
  induction js with
  | nil => rfl
  | cons j js ih => rw [listOfJson?, ih, List.mapM_cons]

lemma listOfJson?_listToJson {blank : Bool} {parts : List ColumnTest}
    (h : ∀ part ∈ parts, ofJson? blank part.toJson = some part.settled) :
    listOfJson? blank (listToJson parts) = some (settledList parts) := by
  rw [listOfJson?_eq_mapM, listToJson_eq_map, mapM_map_eq_some h, settledList_eq_map]

/-- What is written of a test is its bare name or an object. -/
lemma toJson_shape (t : ColumnTest) :
    (∃ name, t.toJson = .str name) ∨ ∃ member, t.toJson = .obj [member] := by
  cases t with
  | never => exact .inl ⟨_, rfl⟩
  | always => exact .inl ⟨_, rfl⟩
  | _ => exact .inr ⟨_, rfl⟩

/-- An object whose payload no constant has is read as a leaf. -/
lemma ofJson?_leaf {blank : Bool} {name : String} {payload : Json}
    (hand : name ≠ "and") (hor : name ≠ "or") (hnot : name ≠ "not")
    (hpayload : (Json.obj [(name, payload)]).constant? blank = none) :
    ofJson? blank (.obj [(name, payload)]) = leafOfJson? name payload := by
  cases payload with
  | arr items => rw [ofJson?, if_neg hand, if_neg hor]
  | _ => simp only [ofJson?, if_neg hnot, hpayload]

lemma constant?_scalar (blank : Bool) (name : String) (v : Scalar) :
    (Json.obj [(name, v.toJson)]).constant? blank = none := by
  cases v <;> rfl

lemma ofJson?_compare (blank : Bool) (c : Comparison) (operand : Scalar) :
    ofJson? blank (.obj [(c.name, operand.toJson)]) = some (compare c operand.settled) := by
  have hleaf : leafOfJson? c.name operand.toJson =
      (Scalar.ofJson? operand.toJson).map (compare c) := by cases c <;> rfl
  rw [ofJson?_leaf (by cases c <;> decide) (by cases c <;> decide) (by cases c <;> decide)
    (constant?_scalar blank _ operand), hleaf, Scalar.settles.read_write, Option.map_some]

lemma ofJson?_matchText (blank : Bool) (place : TextMatch) (text : String) :
    ofJson? blank (.obj [(place.name, .str text)]) = some (matchText place text) := by
  rw [ofJson?_leaf (by cases place <;> decide) (by cases place <;> decide)
    (by cases place <;> decide) rfl]
  cases place <;> rfl

lemma ofJson?_toJson (blank : Bool) (t : ColumnTest) : ofJson? blank t.toJson = some t.settled := by
  induction t with
  | and parts ih =>
    rw [toJson, ofJson?, if_pos rfl, listOfJson?_listToJson ih, Option.map_some, settled]
  | or parts ih =>
    rw [toJson, ofJson?, if_neg (by decide), if_pos rfl, listOfJson?_listToJson ih,
      Option.map_some, settled]
  | not part ih =>
    have harr : ∀ items, part.toJson ≠ .arr items := fun items heq => by
      obtain ⟨name, h⟩ | ⟨member, h⟩ := toJson_shape part <;> rw [h] at heq <;> cases heq
    rw [toJson, ofJson?, if_pos rfl, ih, Option.map_some, settled]
    exact harr
  | compare c operand => exact ofJson?_compare blank c operand
  | oneOf operands =>
    rw [toJson, ofJson?_leaf (by decide) (by decide) (by decide) rfl, leafOfJson?, if_pos rfl,
      items?_arr_map Scalar.settles.read_write, Option.map_some, settled]
  | noneOf operands =>
    rw [toJson, ofJson?_leaf (by decide) (by decide) (by decide) rfl, leafOfJson?,
      if_neg (by decide), if_pos rfl, items?_arr_map Scalar.settles.read_write, Option.map_some,
      settled]
  | isNull expected => rfl
  | matchText place text => exact ofJson?_matchText blank place text
  | never => rfl
  | always => rfl

lemma canonical_of_constantOfName? {name : String} {t : ColumnTest}
    (h : constantOfName? name = some t) : t.Canonical := by
  unfold constantOfName? at h
  split at h
  · cases h
    exact fun _ hv => nomatch hv
  · split at h
    · cases h
      exact fun _ hv => nomatch hv
    · cases h

lemma canonical_of_leafOfJson? {name : String} {payload : Json} {t : ColumnTest}
    (h : leafOfJson? name payload = some t) : t.Canonical := by
  have hitems : ∀ operands, payload.items? Scalar.ofJson? = some operands →
      ∀ v ∈ operands, v.Canonical :=
    fun operands hoperands => forall_of_items? hoperands Scalar.settles.canonical_of_read
  unfold leafOfJson? at h
  split at h
  · obtain ⟨operands, hoperands, rfl⟩ := Option.map_eq_some_iff.1 h
    exact hitems operands hoperands
  · split at h
    · obtain ⟨operands, hoperands, rfl⟩ := Option.map_eq_some_iff.1 h
      exact hitems operands hoperands
    · split at h
      · obtain ⟨expected, -, rfl⟩ := Option.map_eq_some_iff.1 h
        exact fun _ hv => nomatch hv
      · split at h
        · obtain ⟨operand, hoperand, rfl⟩ := Option.map_eq_some_iff.1 h
          exact List.forall_mem_singleton.2 (Scalar.canonical_of_ofJson? hoperand)
        · obtain ⟨place, -, h⟩ := Option.bind_eq_some_iff.1 h
          obtain ⟨text, -, h⟩ := Option.bind_eq_some_iff.1 h
          cases h
          exact fun _ hv => nomatch hv

lemma canonical_of_ofJson? (blank : Bool) (j : Json) (t : ColumnTest)
    (h : ofJson? blank j = some t) : t.Canonical := by
  -- by the recursion of the reader; along with a test goes the list of parts of an `and` or `or`
  induction j using ofJson?.induct blank _ (fun js => ∀ ts, listOfJson? blank js = some ts →
    ∀ t ∈ ts, t.Canonical) generalizing t with
  | case1 name => exact canonical_of_constantOfName? h
  | case2 items ih =>
    rw [ofJson?, if_pos rfl] at h
    obtain ⟨parts, hparts, rfl⟩ := Option.map_eq_some_iff.1 h
    exact canonical_and.2 (ih parts hparts)
  | case3 items hname ih =>
    rw [ofJson?, if_neg hname, if_pos rfl] at h
    obtain ⟨parts, hparts, rfl⟩ := Option.map_eq_some_iff.1 h
    exact canonical_or.2 (ih parts hparts)
  | case4 name items hand hor =>
    rw [ofJson?, if_neg hand, if_neg hor] at h
    exact canonical_of_leafOfJson? h
  | case5 payload hp ih =>
    rw [ofJson?, if_pos rfl] at h
    · obtain ⟨part, hpart, rfl⟩ := Option.map_eq_some_iff.1 h
      exact canonical_not.2 (ih part hpart)
    · exact hp
  | case6 name payload hp hnot constant hconstant =>
    rw [ofJson?, if_neg hnot] at h
    · simp only [hconstant] at h
      exact canonical_of_constantOfName? h
    · exact hp
  | case7 name payload hp hnot hconstant =>
    rw [ofJson?, if_neg hnot] at h
    · simp only [hconstant] at h
      exact canonical_of_leafOfJson? h
    · exact hp
  | case8 j hstr harr hobj =>
    rw [ofJson?] at h
    · cases h
    · exact hstr
    · exact harr
    · exact hobj
  | case9 ts h t ht =>
    cases h
    cases ht
  | case10 j js ihHead ihRest ts h t ht => exact forall_of_read_cons h ihHead ihRest t ht

lemma settles (blank : Bool) : Settles (ofJson? blank) toJson settled Canonical where
  read_write := ofJson?_toJson blank
  canonical_of_read := canonical_of_ofJson? blank
  settled_of_canonical _ := settled_of_canonical

end ColumnTest

/-! ## Column and relation nodes -/

namespace Members

lemma required_field (field : String) (operand : Json) :
    required [("field", .str field), ("condition", operand)] "field" Json.text? = some field := rfl

lemma required_condition {α : Type} (field operand : Json) (read : Json → Option α) :
    required [("field", field), ("condition", operand)] "condition" read = read operand := rfl

end Members

/-! ## Conditions -/

namespace Condition

lemma listToJson_eq_map (parts : List Condition) : listToJson parts = parts.map toJson := by
  induction parts with
  | nil => rfl
  | cons part parts ih => rw [listToJson, ih, List.map_cons]

lemma listOfJson?_eq_mapM (js : List Json) : listOfJson? js = js.mapM ofJson? := by
  induction js with
  | nil => rfl
  | cons j js ih => rw [listOfJson?, ih, List.mapM_cons]

lemma innerOfJson?_eq_required (members : Members) :
    innerOfJson? members = members.required "condition" ofJson? := by
  induction members with
  | nil => rfl
  | cons member members ih =>
    rw [innerOfJson?, ih, Members.required, Members.required, NameMap.lookup_cons_eq_ite,
      apply_ite (Option.bind · ofJson?), Option.bind_some]
    simp only [eq_comm]

lemma listOfJson?_listToJson {parts : List Condition}
    (h : ∀ part ∈ parts, ofJson? part.toJson = some part.settled) :
    listOfJson? (listToJson parts) = some (settledList parts) := by
  rw [listOfJson?_eq_mapM, listToJson_eq_map, mapM_map_eq_some h, settledList_eq_map]

lemma toJson_shape (c : Condition) : ∃ members, c.toJson = .obj members := by
  cases c <;> exact ⟨_, rfl⟩

lemma ofJson?_toJson (c : Condition) : ofJson? c.toJson = some c.settled := by
  induction c with
  | and parts ih =>
    rw [toJson, ofJson?, if_pos rfl, listOfJson?_listToJson ih, Option.map_some, settled]
  | or parts ih =>
    rw [toJson, ofJson?, if_neg (by decide), if_pos rfl, listOfJson?_listToJson ih,
      Option.map_some, settled]
  | not part ih =>
    obtain ⟨members, hmembers⟩ := toJson_shape part
    rw [toJson, hmembers, ofJson?, if_pos rfl, ← hmembers, ih, Option.map_some, settled]
  | column field test =>
    rw [toJson, ofJson?, if_neg (by decide), if_pos rfl, Members.required_field,
      Members.required_condition, (ColumnTest.settles false).read_write]
    rfl
  | relation field inner ih =>
    rw [toJson, ofJson?, if_neg (by decide), if_neg (by decide), if_pos rfl,
      Members.required_field, innerOfJson?_eq_required, Members.required_condition, ih]
    rfl

lemma canonical_of_ofJson? (j : Json) (c : Condition) (h : ofJson? j = some c) :
    c.Canonical := by
  -- along with a condition go the members of a relation node and the parts of an `and` or `or`
  induction j using ofJson?.induct _
    (fun members => ∀ c, innerOfJson? members = some c → c.Canonical)
    (fun js => ∀ cs, listOfJson? js = some cs → ∀ c ∈ cs, c.Canonical) generalizing c with
  | case1 items ih =>
    rw [ofJson?, if_pos rfl] at h
    obtain ⟨parts, hparts, rfl⟩ := Option.map_eq_some_iff.1 h
    exact canonical_and.2 (ih parts hparts)
  | case2 items hname ih =>
    rw [ofJson?, if_neg hname, if_pos rfl] at h
    obtain ⟨parts, hparts, rfl⟩ := Option.map_eq_some_iff.1 h
    exact canonical_or.2 (ih parts hparts)
  | case3 name items hand hor =>
    rw [ofJson?, if_neg hand, if_neg hor] at h
    cases h
  | case4 members ih =>
    rw [ofJson?, if_pos rfl] at h
    obtain ⟨part, hpart, rfl⟩ := Option.map_eq_some_iff.1 h
    exact canonical_not.2 (ih part hpart)
  | case5 members hnot =>
    rw [ofJson?, if_neg hnot, if_pos rfl] at h
    obtain ⟨field, -, h⟩ := Option.bind_eq_some_iff.1 h
    obtain ⟨test, htest, h⟩ := Option.bind_eq_some_iff.1 h
    cases h
    exact canonical_column.2
      (Members.of_required htest (ColumnTest.settles false).canonical_of_read)
  | case6 members hnot hcolumn ih =>
    rw [ofJson?, if_neg hnot, if_neg hcolumn, if_pos rfl] at h
    obtain ⟨field, -, h⟩ := Option.bind_eq_some_iff.1 h
    obtain ⟨inner, hinner, h⟩ := Option.bind_eq_some_iff.1 h
    cases h
    exact canonical_relation.2 (ih inner hinner)
  | case7 name members hnot hcolumn hrelation =>
    rw [ofJson?, if_neg hnot, if_neg hcolumn, if_neg hrelation] at h
    cases h
  | case8 j harr hobj =>
    rw [ofJson?] at h
    · cases h
    · exact harr
    · exact hobj
  | case9 cs h c hc =>
    cases h
    cases hc
  | case10 j js ihHead ihRest cs h c hc => exact forall_of_read_cons h ihHead ihRest c hc
  | case11 c h => cases h
  | case12 j members ih c h =>
    rw [innerOfJson?, if_pos rfl] at h
    exact ih c h
  | case13 name j members hname ih c h =>
    rw [innerOfJson?, if_neg hname] at h
    exact ih c h

lemma settles : Settles ofJson? toJson settled Canonical where
  read_write := ofJson?_toJson
  canonical_of_read := canonical_of_ofJson?
  settled_of_canonical _ := settled_of_canonical

end Condition

/-! ## Predicates -/

namespace Operand

variable {α : Type} {read : Option α} {j : Json} {o : Operand α}

lemma orNamed_cases (h : orNamed read j = some o) :
    (∃ a, read = some a ∧ o = .value a) ∨
      (read = none ∧ ∃ name, j = .str name ∧ o = .named name) := by
  unfold orNamed at h
  split at h
  · exact .inl ⟨_, rfl, (Option.some.inj h).symm⟩
  · exact .inr ⟨rfl, _, rfl, (Option.some.inj h).symm⟩
  · cases h

end Operand

namespace Predicate

lemma listToJson_eq_map (parts : List Predicate) : listToJson parts = parts.map toJson := by
  induction parts with
  | nil => rfl
  | cons part parts ih => rw [listToJson, ih, List.map_cons]

lemma listOfJson?_eq_mapM (positional : Bool) (js : List Json) :
    listOfJson? positional js = js.mapM (ofJson? positional) := by
  induction js with
  | nil => rfl
  | cons j js ih => rw [listOfJson?, ih, List.mapM_cons]

lemma operandMember?_eq_required (members : Members) :
    operandMember? members = members.required "condition" Operand.ofRelationJson? := by
  induction members with
  | nil => rfl
  | cons member members ih =>
    rw [operandMember?, ih, Members.required, Members.required, NameMap.lookup_cons_eq_ite,
      apply_ite (Option.bind · Operand.ofRelationJson?), Option.bind_some]
    simp only [eq_comm, Operand.ofRelationJson?]

lemma listOfJson?_listToJson {positional : Bool} {parts : List Predicate}
    (h : ∀ part ∈ parts, ofJson? positional part.toJson = some part.settled) :
    listOfJson? positional (listToJson parts) = some (settledList parts) := by
  rw [listOfJson?_eq_mapM, listToJson_eq_map, mapM_map_eq_some h, settledList_eq_map]

lemma toJson_shape (p : Predicate) : ∃ members, p.toJson = .obj members := by
  cases p <;> exact ⟨_, rfl⟩

/-- A column node is read from what stands at its leaf. -/
lemma ofJson?_column {positional : Bool} {field : String} {j : Json} {o : Operand ColumnTest}
    (h : Operand.ofColumnJson? j = some o) :
    ofJson? positional (leafToJson "column" field j) = some (ofColumnOperand field o) := by
  rw [leafToJson, ofJson?, if_neg (by decide), if_pos rfl, Members.required_field,
    Members.required_condition, h]
  rfl

/-- A relation node is read from what stands at its leaf. -/
lemma ofJson?_relation {positional : Bool} {field : String} {j : Json} {o : Operand Predicate}
    (h : Operand.ofRelationJson? j = some o) :
    ofJson? positional (leafToJson "relation" field j) = some (ofRelationOperand field o) := by
  rw [leafToJson, ofJson?, if_neg (by decide), if_neg (by decide), if_pos rfl,
    Members.required_field, operandMember?_eq_required, Members.required_condition, h]
  rfl

lemma ofJson?_toJson (p : Predicate) (positional : Bool) :
    ofJson? positional p.toJson = some p.settled := by
  induction p generalizing positional with
  | and parts ih =>
    rw [toJson, ofJson?, if_pos rfl, listOfJson?_listToJson fun part hpart => ih part hpart _,
      Option.map_some, settled]
  | or parts ih =>
    rw [toJson, ofJson?, if_neg (by decide), if_pos rfl,
      listOfJson?_listToJson fun part hpart => ih part hpart _, Option.map_some, settled]
  | not part ih =>
    obtain ⟨members, hmembers⟩ := toJson_shape part
    rw [toJson, hmembers, ofJson?, if_pos rfl, ← hmembers, ih, Option.map_some, settled]
  | column field test =>
    have hoperand : Operand.ofColumnJson? test.toJson = some (.value test.settled) := by
      rw [Operand.ofColumnJson?, (ColumnTest.settles false).read_write, Operand.orNamed]
    exact ofJson?_column hoperand
  | columnVariable field name =>
    rw [toJson, settled]
    cases hconstant : ColumnTest.constantOfName? name with
    | some test =>
      have hread : ColumnTest.ofJson? false (.str name) = some test := hconstant
      exact ofJson?_column (o := .value test) (by
        rw [Operand.ofColumnJson?, hread, Operand.orNamed])
    | none =>
      have hread : ColumnTest.ofJson? false (.str name) = none := hconstant
      exact ofJson?_column (o := .named name) (by
        rw [Operand.ofColumnJson?, hread, Operand.orNamed])
  | relation field inner ih =>
    have hoperand : Operand.ofRelationJson? inner.toJson = some (.value inner.settled) := by
      rw [Operand.ofRelationJson?, ih, Operand.orNamed]
    exact ofJson?_relation hoperand
  | relationVariable field name => exact ofJson?_relation (o := .named name) rfl

lemma canonical_ofColumnOperand {field : String} {j : Json} {o : Operand ColumnTest}
    (h : Operand.ofColumnJson? j = some o) : (ofColumnOperand field o).Canonical := by
  obtain ⟨test, htest, rfl⟩ | ⟨hnone, name, rfl, rfl⟩ := Operand.orNamed_cases h
  · exact canonical_column.2 ((ColumnTest.settles false).canonical_of_read j test htest)
  · exact canonical_columnVariable.2 hnone

lemma canonical_ofRelationOperand {field : String} {j : Json} {o : Operand Predicate}
    (h : Operand.ofRelationJson? j = some o)
    (hread : ∀ p, ofJson? true j = some p → p.Canonical) :
    (ofRelationOperand field o).Canonical := by
  obtain ⟨inner, hinner, rfl⟩ | ⟨-, name, -, rfl⟩ := Operand.orNamed_cases h
  · exact canonical_relation.2 (hread inner hinner)
  · exact canonical_relationVariable field name

lemma canonical_of_ofJson? (positional : Bool) (j : Json) (p : Predicate)
    (h : ofJson? positional j = some p) : p.Canonical := by
  -- along with a predicate go both forms of a relation node, by members and by position
  induction positional, j using ofJson?.induct _
    (fun members => ∀ o, operandMember? members = some o →
      ∀ field, (ofRelationOperand field o).Canonical)
    (fun name items => ∀ p, pairOfJson? name items = some p → p.Canonical)
    (fun positional js => ∀ ps, listOfJson? positional js = some ps → ∀ p ∈ ps, p.Canonical)
    generalizing p with
  | case1 positional items ih =>
    rw [ofJson?, if_pos rfl] at h
    obtain ⟨parts, hparts, rfl⟩ := Option.map_eq_some_iff.1 h
    exact canonical_and.2 (ih parts hparts)
  | case2 positional items hname ih =>
    rw [ofJson?, if_neg hname, if_pos rfl] at h
    obtain ⟨parts, hparts, rfl⟩ := Option.map_eq_some_iff.1 h
    exact canonical_or.2 (ih parts hparts)
  | case3 name items hand hor ih =>
    rw [ofJson?, if_neg hand, if_neg hor, if_pos rfl] at h
    exact ih p h
  | case4 positional name items hand hor hpositional =>
    rw [ofJson?, if_neg hand, if_neg hor, if_neg hpositional] at h
    cases h
  | case5 positional members ih =>
    rw [ofJson?, if_pos rfl] at h
    obtain ⟨part, hpart, rfl⟩ := Option.map_eq_some_iff.1 h
    exact canonical_not.2 (ih part hpart)
  | case6 positional members hnot =>
    rw [ofJson?, if_neg hnot, if_pos rfl] at h
    obtain ⟨field, -, h⟩ := Option.bind_eq_some_iff.1 h
    obtain ⟨o, ho, h⟩ := Option.bind_eq_some_iff.1 h
    cases h
    obtain ⟨j, -, hj⟩ := Option.bind_eq_some_iff.1 ho
    exact canonical_ofColumnOperand hj
  | case7 positional members hnot hcolumn ih =>
    rw [ofJson?, if_neg hnot, if_neg hcolumn, if_pos rfl] at h
    obtain ⟨field, -, h⟩ := Option.bind_eq_some_iff.1 h
    obtain ⟨o, ho, h⟩ := Option.bind_eq_some_iff.1 h
    cases h
    exact ih o ho field
  | case8 positional name members hnot hcolumn hrelation =>
    rw [ofJson?, if_neg hnot, if_neg hcolumn, if_neg hrelation] at h
    cases h
  | case9 j positional harr hobj =>
    rw [ofJson?] at h
    · cases h
    · exact harr
    · exact hobj
  | case10 field j p h =>
    rw [pairOfJson?, if_pos rfl] at h
    obtain ⟨o, ho, rfl⟩ := Option.map_eq_some_iff.1 h
    exact canonical_ofColumnOperand ho
  | case11 field j hcolumn ih p h =>
    rw [pairOfJson?, if_neg hcolumn, if_pos rfl] at h
    obtain ⟨o, ho, rfl⟩ := Option.map_eq_some_iff.1 h
    exact canonical_ofRelationOperand ho ih
  | case12 name field j hcolumn hrelation p h =>
    rw [pairOfJson?, if_neg hcolumn, if_neg hrelation] at h
    cases h
  | case13 items name hitems p h =>
    rw [pairOfJson?] at h
    · cases h
    · exact hitems
  | case14 positional ps h p hp =>
    cases h
    cases hp
  | case15 positional j js ihHead ihRest ps h p hp => exact forall_of_read_cons h ihHead ihRest p hp
  | case16 o h => cases h
  | case17 j members ih o h field =>
    rw [operandMember?, if_pos rfl] at h
    exact canonical_ofRelationOperand h ih
  | case18 name j members hname ih o h field =>
    rw [operandMember?, if_neg hname] at h
    exact ih o h field

lemma settles (positional : Bool) : Settles (ofJson? positional) toJson settled Canonical where
  read_write p := ofJson?_toJson p positional
  canonical_of_read := canonical_of_ofJson? positional
  settled_of_canonical _ := settled_of_canonical

end Predicate

end RoleAccess
