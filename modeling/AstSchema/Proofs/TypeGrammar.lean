import AstSchema.Proofs.Codec

/-! The documents that are types. The decoder of types accepts these and no others; any other it
refuses as invalid, unless the first fault in it is a key that a punctuated type lacks. -/
namespace AstSchema

/-! ## Grammar -/

namespace Json

/-- Induction in which every part of a document counts. -/
@[elab_as_elim]
theorem induct {motive : Json → Prop} (scalar : ∀ s, motive (.scalar s))
    (array : ∀ items, (∀ j ∈ items, motive j) → motive (.array items))
    (object : ∀ members, (∀ m ∈ members, motive m.2) → motive (.object members)) (j : Json) :
    motive j := by
  cases j with
  | scalar s => exact scalar s
  | array items => exact array items fun j _ => induct scalar array object j
  | object members =>
    apply object
    intro m hm
    have : sizeOf m.2 < sizeOf members := by
      have hsize := List.sizeOf_lt_of_mem hm
      cases m
      simp only [Prod.mk.sizeOf_spec] at hsize ⊢
      omega
    exact induct scalar array object m.2

/-- A type is an object whose single key is its tag. A punctuated type may have any further members
in its payload. -/
inductive IsType : Json → Prop
  | name (cls : NameClass) (text : String) : IsType (.object [(cls.tag, .text text)])
  | wrap (cls : WrapClass) {payload : Json} (h : IsType payload) :
      IsType (.object [(cls.tag, payload)])
  | punctuated {members : List (String × Json)} {element : Json} {punct : String}
      (helement : members.lookup "element" = some element) (h : IsType element)
      (hpunct : members.lookup "punct" = some (.text punct)) :
      IsType (.object [("punctuated", .object members)])
  | tuple {items : List Json} (h : ∀ j ∈ items, IsType j) :
      IsType (.object [("tuple", .array items)])

/-- The first fault on the way through a document is a punctuated type that lacks this key: items
come from left to right, and an element comes before its punctuation. -/
inductive Lacks : Json → String → Prop
  | element {members : List (String × Json)} (h : members.lookup "element" = none) :
      Lacks (.object [("punctuated", .object members)]) "element"
  | punct {members : List (String × Json)} {element : Json}
      (helement : members.lookup "element" = some element) (htype : IsType element)
      (h : members.lookup "punct" = none) :
      Lacks (.object [("punctuated", .object members)]) "punct"
  | withinElement {members : List (String × Json)} {element : Json} {key : String}
      (helement : members.lookup "element" = some element) (h : Lacks element key) :
      Lacks (.object [("punctuated", .object members)]) key
  | wrap (cls : WrapClass) {payload : Json} {key : String} (h : Lacks payload key) :
      Lacks (.object [(cls.tag, payload)]) key
  | tuple {before after : List Json} {j : Json} {key : String}
      (hbefore : ∀ i ∈ before, IsType i) (h : Lacks j key) :
      Lacks (.object [("tuple", .array (before ++ j :: after))]) key

mutual
/-- The document of a type without the members of punctuated types that are not fields of theirs,
and with the others in the order of the fields. -/
def normalType : Json → Json
  | .object members => .object (normalTagged members)
  | .array items => .array (normalTypes items)
  | .scalar s => .scalar s
termination_by structural j => j
def normalTagged : List (String × Json) → List (String × Json)
  | [(tag, payload)] =>
    [(tag, if tag == "punctuated" then normalPunctuated payload else normalType payload)]
  | members => members
termination_by structural members => members
def normalPunctuated : Json → Json
  | .object members => .object (normalMember "element" members ++ normalMember "punct" members)
  | j => j
termination_by structural j => j
def normalMember (key : String) : List (String × Json) → List (String × Json)
  | [] => []
  | (k, j) :: rest => if key == k then [(k, normalType j)] else normalMember key rest
termination_by structural members => members
def normalTypes : List Json → List Json
  | [] => []
  | j :: js => normalType j :: normalTypes js
termination_by structural js => js
end

@[simp] theorem normalTypes_eq_map (js : List Json) : normalTypes js = js.map normalType := by
  induction js with
  | nil => rfl
  | cons j js ih => rw [normalTypes, ih, List.map_cons]

theorem normalMember_eq (key : String) (members : List (String × Json)) :
    normalMember key members =
      ((members.lookup key).map fun j => (key, j.normalType)).toList := by
  induction members with
  | nil => rfl
  | cons m rest ih =>
    obtain ⟨k, j⟩ := m
    rw [normalMember, List.lookup_cons, ih]
    by_cases h : key = k
    · simp [h]
    · simp [beq_false_of_ne h]

theorem normalType_wrap (cls : WrapClass) (payload : Json) :
    normalType (.object [(cls.tag, payload)]) = .object [(cls.tag, payload.normalType)] := by
  cases cls <;> rfl

theorem normalType_tuple (items : List Json) :
    normalType (.object [("tuple", .array items)]) =
      .object [("tuple", .array (items.map normalType))] := by
  change Json.object [("tuple", .array (normalTypes items))] = _
  rw [normalTypes_eq_map]

theorem normalType_punctuated (members : List (String × Json)) :
    normalType (.object [("punctuated", .object members)]) = .object [("punctuated", .object
      (((members.lookup "element").map fun j => ("element", j.normalType)).toList ++
        ((members.lookup "punct").map fun j => ("punct", j.normalType)).toList))] := by
  rw [← normalMember_eq, ← normalMember_eq]
  rfl

end Json

/-! ## Steps of the decoder -/

/-- The step is refused for what it was given, and not for a key that is missing in it. -/
def Refused {α : Type} (x : Except Error α) : Prop := ∃ e, x = .error e ∧ e.kind = .invalid

theorem not_refused_ok {α : Type} {a : α} : ¬ Refused (.ok a) := by
  simp [Refused]

theorem not_refused_missing {α : Type} {key : Value} :
    ¬ Refused (.error (.missingKey key) : Except Error α) := by
  simp [Refused, Error.kind]

theorem Refused.bind {α β : Type} {x : Except Error α} (h : Refused x)
    (f : α → Except Error β) : Refused (x >>= f) := by
  obtain ⟨e, rfl, he⟩ := h
  exact ⟨e, rfl, he⟩

instance : Inhabited TypeTree := ⟨.tuple []⟩

namespace Registry

/-- The tags that the decoder knows are those of the two sorts of classes with a single field, and
the two that are apart. -/
theorem type?_builtin (tag : String) :
    (∃ cls : NameClass, tag = cls.tag) ∨ (∃ cls : WrapClass, tag = cls.tag) ∨
      tag = "punctuated" ∨ tag = "tuple" ∨ builtin.type? (.text tag) = none := by
  cases h : builtin.type? (.text tag) with
  | none => simp
  | some cls =>
    obtain ⟨k, hmem, hsame⟩ := Entries.exists_of_find? h
    have hk : k ∈ ["item", "std", "ext", "token", "group", "punctuated", "option", "box", "vec",
        "tuple"].map Scalar.text := List.mem_map_of_mem (f := Prod.fst) hmem
    have htext : ∀ s, Scalar.same (.text s) (.text tag) → tag = s := by
      intro s hs
      exact (Meaning.text.inj (Scalar.same_iff.1 hs)).symm
    simp only [List.map_cons, List.map_nil, List.mem_cons, List.not_mem_nil, or_false] at hk
    obtain rfl | rfl | rfl | rfl | rfl | rfl | rfl | rfl | rfl | rfl := hk
    · exact .inl ⟨.item, htext _ hsame⟩
    · exact .inl ⟨.std, htext _ hsame⟩
    · exact .inl ⟨.ext, htext _ hsame⟩
    · exact .inl ⟨.token, htext _ hsame⟩
    · exact .inl ⟨.group, htext _ hsame⟩
    · exact .inr (.inr (.inl (htext _ hsame)))
    · exact .inr (.inl ⟨.option, htext _ hsame⟩)
    · exact .inr (.inl ⟨.box, htext _ hsame⟩)
    · exact .inr (.inl ⟨.vec, htext _ hsame⟩)
    · exact .inr (.inr (.inr (.inl (htext _ hsame))))

theorem decodePayload_text (r : Registry) (tag name : String) (j : Json) :
    (∃ s, j = .text s) ∨ Refused (r.decodePayload tag { name := name, shape := .text } j) := by
  cases j with
  | scalar s =>
    cases s with
    | text s => exact .inl ⟨s, rfl⟩
    | _ => exact .inr ⟨_, rfl, rfl⟩
  | array items => exact .inr ⟨_, rfl, rfl⟩
  | object members => exact .inr ⟨_, rfl, rfl⟩

/-- What is no object is refused as a payload just as it is refused as a type. -/
theorem decodePayload_type (r : Registry) (tag name : String) (j : Json) :
    r.decodePayload tag { name := name, shape := .type } j = r.decodeType j ∨
      Refused (r.decodeType j) ∧
        Refused (r.decodePayload tag { name := name, shape := .type } j) := by
  cases j with
  | object members => exact .inl rfl
  | array items => exact .inr ⟨⟨_, rfl, rfl⟩, _, rfl, rfl⟩
  | scalar s => cases s <;> exact .inr ⟨⟨_, rfl, rfl⟩, _, rfl, rfl⟩

theorem decodePayload_type_eq {r : Registry} {tag name : String} {j : Json}
    {x : Except Error Value} (h : r.decodeType j = x) (hx : ¬ Refused x) :
    r.decodePayload tag { name := name, shape := .type } j = x := by
  obtain heq | ⟨hrefused, -⟩ := decodePayload_type r tag name j
  · rw [heq, h]
  · rw [h] at hrefused
    contradiction

theorem refused_decodePayload_type {r : Registry} {tag name : String} {j : Json}
    (h : Refused (r.decodeType j)) :
    Refused (r.decodePayload tag { name := name, shape := .type } j) := by
  obtain heq | ⟨-, hrefused⟩ := decodePayload_type r tag name j
  · rwa [heq]
  · exact hrefused

end Registry

/-! ## Documents of the grammar -/

namespace Json

open Registry

theorem IsType.decode {v : Json} (h : v.IsType) :
    ∃ t : TypeTree, builtin.decodeType v = .ok t.toValue ∧ v.normalType = t.toJson := by
  induction h with
  | name cls text =>
    refine ⟨.name cls text, decodeType_name cls text, ?_⟩
    cases cls <;> rfl
  | @wrap cls payload _ ih =>
    obtain ⟨inner, hdecode, hnormal⟩ := ih
    refine ⟨.wrap cls inner, ?_, ?_⟩
    · rw [decodeType_of_wrapTag, decodePayload_type_eq hdecode not_refused_ok]
      rfl
    · rw [normalType_wrap, hnormal, TypeTree.toJson]
  | @punctuated members element punct helement _ hpunct ih =>
    obtain ⟨tree, hdecode, hnormal⟩ := ih
    refine ⟨.punctuated tree punct, ?_, ?_⟩
    · rw [decodeType_of_punctuated, helement, hpunct]
      simp only [Option.elim]
      rw [decodePayload_type_eq hdecode not_refused_ok]
      rfl
    · rw [normalType_punctuated, helement, hpunct, TypeTree.toJson, ← hnormal]
      rfl
  | @tuple items _ ih =>
    choose! tree hdecode hnormal using ih
    refine ⟨.tuple (items.map tree), ?_, ?_⟩
    · have hitems := mapM_map_eq_ok (g := id) hdecode
      rw [List.map_id] at hitems
      rw [decodeType_of_tuple, hitems, TypeTree.toValue, TypeTree.toValues_eq_map, List.map_map]
      rfl
    · rw [normalType_tuple, List.map_congr_left hnormal, TypeTree.toJson, TypeTree.toJsons_eq_map,
        List.map_map]
      rfl

theorem Lacks.decode {v : Json} {key : String} (h : v.Lacks key) :
    builtin.decodeType v = .error (.missingKey (.text key)) := by
  induction h with
  | element h =>
    rw [decodeType_of_punctuated, h]
    rfl
  | punct helement htype h =>
    obtain ⟨tree, hdecode, -⟩ := htype.decode
    rw [decodeType_of_punctuated, helement, h]
    simp only [Option.elim]
    rw [decodePayload_type_eq hdecode not_refused_ok]
    rfl
  | withinElement helement _ ih =>
    rw [decodeType_of_punctuated, helement]
    simp only [Option.elim]
    rw [decodePayload_type_eq ih not_refused_missing]
    rfl
  | wrap cls _ ih =>
    rw [decodeType_of_wrapTag, decodePayload_type_eq ih not_refused_missing]
    rfl
  | @tuple before after j key hbefore _ ih =>
    have hdecoded : ∀ i ∈ before, ∃ v, builtin.decodeType i = .ok v := by
      intro i hi
      obtain ⟨tree, hdecode, -⟩ := (hbefore i hi).decode
      exact ⟨tree.toValue, hdecode⟩
    rw [decodeType_of_tuple, mapM_eq_error_iff.2 ⟨before, j, after, rfl, hdecoded, ih⟩]
    rfl

/-- What the decoder of types makes of a document. -/
inductive Verdict (v : Json) : Prop
  | accepted (h : v.IsType)
  | lacking {key : String} (h : v.Lacks key)
  | refused (h : Refused (builtin.decodeType v))

theorem verdict_name (cls : NameClass) (payload : Json) :
    Verdict (.object [(cls.tag, payload)]) := by
  obtain ⟨text, rfl⟩ | hrefused := decodePayload_text builtin cls.tag "name" payload
  · exact .accepted (.name cls text)
  · refine .refused ?_
    rw [decodeType_of_nameTag]
    exact hrefused.bind _

theorem verdict_wrap (cls : WrapClass) {payload : Json} (h : payload.Verdict) :
    Verdict (.object [(cls.tag, payload)]) := by
  cases h with
  | accepted h => exact .accepted (.wrap cls h)
  | lacking h => exact .lacking (.wrap cls h)
  | refused h =>
    refine .refused ?_
    rw [decodeType_of_wrapTag]
    exact (refused_decodePayload_type h).bind _

theorem verdict_punctuated {members : List (String × Json)}
    (h : ∀ m ∈ members, m.2.Verdict) : Verdict (.object [("punctuated", .object members)]) := by
  cases helement : members.lookup "element" with
  | none => exact .lacking (.element helement)
  | some element =>
    cases h _ (Entries.mem_of_lookup helement) with
    | lacking h => exact .lacking (.withinElement helement h)
    | refused h =>
      refine .refused ?_
      rw [decodeType_of_punctuated, helement]
      exact (refused_decodePayload_type h).bind _
    | accepted h =>
      cases hpunct : members.lookup "punct" with
      | none => exact .lacking (.punct helement h hpunct)
      | some punct =>
        obtain ⟨text, rfl⟩ | hrefused :=
          decodePayload_text builtin "punctuated" "punct" punct
        · exact .accepted (.punctuated helement h hpunct)
        · obtain ⟨tree, hdecode, -⟩ := h.decode
          refine .refused ?_
          rw [decodeType_of_punctuated, helement, hpunct]
          simp only [Option.elim]
          rw [decodePayload_type_eq hdecode not_refused_ok]
          exact hrefused.bind _

theorem Verdict.isType {v : Json} (hverdict : v.Verdict) {x : Value}
    (h : builtin.decodeType v = .ok x) : v.IsType := by
  cases hverdict with
  | accepted htype => exact htype
  | lacking hlacks => simp [hlacks.decode] at h
  | refused hrefused =>
    obtain ⟨e, he, -⟩ := hrefused
    simp [he] at h

/-- The first item that is no type settles it. -/
theorem verdict_tuple {items : List Json} (h : ∀ j ∈ items, j.Verdict) :
    Verdict (.object [("tuple", .array items)]) := by
  cases hitems : items.mapM builtin.decodeType with
  | ok vs =>
    refine .accepted (.tuple ?_)
    intro j hj
    obtain ⟨v, hv⟩ := exists_of_mapM_eq_ok hitems j hj
    exact (h j hj).isType hv
  | error e =>
    obtain ⟨before, j, after, rfl, hbefore, hj⟩ := mapM_eq_error_iff.1 hitems
    cases h j (by simp) with
    | accepted htype =>
      obtain ⟨tree, hdecode, -⟩ := htype.decode
      simp [hdecode] at hj
    | lacking hlacks =>
      refine .lacking (.tuple ?_ hlacks)
      intro i hi
      obtain ⟨v, hv⟩ := hbefore i hi
      exact (h i (List.mem_append_left _ hi)).isType hv
    | refused hrefused =>
      refine .refused ?_
      rw [decodeType_of_tuple, hitems]
      rw [hj] at hrefused
      obtain ⟨e', he', hkind⟩ := hrefused
      exact ⟨e, rfl, Except.error.inj he' ▸ hkind⟩

theorem verdict_tagged (tag : String) {payload : Json} (h : payload.Verdict)
    (hitems : ∀ items, payload = .array items → ∀ j ∈ items, j.Verdict)
    (hmembers : ∀ members, payload = .object members → ∀ m ∈ members, m.2.Verdict) :
    Verdict (.object [(tag, payload)]) := by
  obtain ⟨cls, rfl⟩ | ⟨cls, rfl⟩ | rfl | rfl | hnone := type?_builtin tag
  · exact verdict_name cls payload
  · exact verdict_wrap cls h
  · cases payload with
    | object members => exact verdict_punctuated (hmembers members rfl)
    | _ => exact .refused ⟨_, rfl, rfl⟩
  · cases payload with
    | array items => exact verdict_tuple (hitems items rfl)
    | scalar s => exact .refused (by cases s <;> exact ⟨_, rfl, rfl⟩)
    | object members => exact .refused ⟨_, rfl, rfl⟩
  · refine .refused ⟨.unknownTypeTag tag, ?_, rfl⟩
    rw [decodeType, decodeTagged, hnone]

/-- A punctuated type is two objects deep, so the induction keeps what it knows of the parts of a
document along with what it knows of the document. -/
theorem verdict_and_parts (v : Json) : v.Verdict ∧
    (∀ items, v = .array items → ∀ j ∈ items, j.Verdict) ∧
    (∀ members, v = .object members → ∀ m ∈ members, m.2.Verdict) := by
  induction v using induct with
  | scalar s => exact ⟨.refused ⟨_, rfl, rfl⟩, by simp, by simp⟩
  | array items ih =>
    refine ⟨.refused ⟨_, rfl, rfl⟩, ?_, by simp⟩
    rintro _ ⟨rfl⟩ j hj
    exact (ih j hj).1
  | object members ih =>
    refine ⟨?_, by simp, ?_⟩
    · match members, ih with
      | [], _ => exact .refused ⟨_, rfl, rfl⟩
      | [(tag, payload)], ih =>
        obtain ⟨hpayload, hitems, hmembers⟩ := ih (tag, payload) List.mem_cons_self
        exact verdict_tagged tag hpayload hitems hmembers
      | _ :: _ :: _, _ => exact .refused ⟨_, rfl, rfl⟩
    · rintro _ ⟨rfl⟩ m hm
      exact (ih m hm).1

theorem verdict (v : Json) : v.Verdict := (verdict_and_parts v).1

end Json

/-! ## Exactness -/

namespace Registry

/-- The decoder of types accepts the documents of the grammar. What it then gives is a well-formed
type, whose document is the one that was read, but for members that are fields of no type. It
refuses any other document in one of two ways: for a key that is missing if that is the first
fault, and as invalid otherwise. -/
theorem decodeType_exact (v : Json) :
    ((∃ x, builtin.decodeType v = .ok x) ↔ v.IsType) ∧
    (∀ x, builtin.decodeType v = .ok x →
      (∃ t : TypeTree, x = t.toValue) ∧ x.encode = .ok (.ofJson v.normalType)) ∧
    (∀ key, builtin.decodeType v = .error (.missingKey (.text key)) ↔ v.Lacks key) ∧
    (∀ e, builtin.decodeType v = .error e →
      e.kind = .invalid ∨ ∃ key, e = .missingKey (.text key)) := by
  refine ⟨⟨?_, ?_⟩, ?_, ?_, ?_⟩
  · rintro ⟨x, hx⟩
    exact v.verdict.isType hx
  · intro htype
    obtain ⟨t, ht, -⟩ := htype.decode
    exact ⟨t.toValue, ht⟩
  · intro x hx
    obtain ⟨t, ht, hnormal⟩ := (v.verdict.isType hx).decode
    obtain rfl : x = t.toValue := Except.ok.inj (hx.symm.trans ht)
    refine ⟨⟨t, rfl⟩, ?_⟩
    rw [t.encode_toValue, hnormal]
  · intro key
    constructor
    · intro he
      cases v.verdict with
      | accepted htype =>
        obtain ⟨t, ht, -⟩ := htype.decode
        simp [ht] at he
      | lacking hlacks =>
        rw [hlacks.decode] at he
        obtain ⟨rfl⟩ : _ = key := by simpa using he
        exact hlacks
      | refused hrefused =>
        obtain ⟨e, he', hkind⟩ := hrefused
        obtain rfl := Except.error.inj (he.symm.trans he')
        contradiction
    · exact Json.Lacks.decode
  · intro e he
    cases v.verdict with
    | accepted htype =>
      obtain ⟨t, ht, -⟩ := htype.decode
      simp [ht] at he
    | lacking hlacks =>
      right
      exact ⟨_, Except.error.inj (he.symm.trans hlacks.decode)⟩
    | refused hrefused =>
      left
      obtain ⟨e', he', hkind⟩ := hrefused
      obtain rfl := Except.error.inj (he.symm.trans he')
      exact hkind

/-- A fault in the element comes before the punctuation that is missing. -/
example : builtin.decodeType (.object [("punctuated", .object [("element", .scalar .null)])]) =
    .error (.badPayload "punctuated" "element" .type (.scalar .null)) := rfl

end Registry

end AstSchema
