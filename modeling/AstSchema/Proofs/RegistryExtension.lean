import AstSchema.Encode
import AstSchema.Proofs.FieldRow

/-! Registries that grow. A class declared later takes a tag that was free, so all that was decoded
before is decoded as it was; a declaration that is refused leaves no trace. -/
namespace AstSchema

namespace Registry

/-! ## More classes -/

/-- Every tag that is known to the one registry is known to the other, for the same class. -/
structure Extends (r r' : Registry) : Prop where
  type? : ∀ {tag : Scalar} {cls : Class}, r.type? tag = some cls → r'.type? tag = some cls
  node? : ∀ {tag : Scalar} {cls : Class}, r.node? tag = some cls → r'.node? tag = some cls

theorem Extends.refl (r : Registry) : r.Extends r := ⟨id, id⟩

theorem Extends.trans {r r' r'' : Registry} (h : r.Extends r') (h' : r'.Extends r'') :
    r.Extends r'' :=
  ⟨fun htag => h'.type? (h.type? htag), fun htag => h'.node? (h.node? htag)⟩

/-- What a declaration makes of a registry: the class comes last in its family, under a tag that
was free there, or it has no family. -/
inductive Declared (r : Registry) (d : Declaration) (cls : Class) : Registry → Prop
  | type {tag : Scalar} (hfamily : d.base.family = .type) (hcls : d.toClass = .ok cls)
      (htag : d.tag = .ok tag) (hfree : r.type? tag = none) :
      Declared r d cls { r with types := r.types ++ [(tag, cls)] }
  | node {tag : Scalar} (hfamily : d.base.family = .node) (hcls : d.toClass = .ok cls)
      (htag : d.tag = .ok tag) (hfree : r.node? tag = none) :
      Declared r d cls { r with nodes := r.nodes ++ [(tag, cls)] }
  | plain (hfamily : d.base.family = .plain) (hcls : d.toPlainClass = .ok cls) :
      Declared r d cls r

theorem declared_of_define {r r' : Registry} {d : Declaration} {cls : Class}
    (h : r.define d = .ok (r', cls)) : r.Declared d cls r' := by
  simp only [define] at h
  split at h
  · contradiction
  cases hfamily : d.base.family with
  | type =>
    simp only [hfamily, bind_eq_ok_iff] at h
    obtain ⟨cls, hcls, tag, htag, h⟩ := h
    split at h
    next => contradiction
    next hfree =>
      obtain ⟨rfl, rfl⟩ := Prod.mk.inj (Except.ok.inj h)
      exact .type hfamily hcls htag hfree
  | node =>
    simp only [hfamily, bind_eq_ok_iff] at h
    obtain ⟨cls, hcls, tag, htag, h⟩ := h
    split at h
    next => contradiction
    next hfree =>
      obtain ⟨rfl, rfl⟩ := Prod.mk.inj (Except.ok.inj h)
      exact .node hfamily hcls htag hfree
  | plain =>
    simp only [hfamily, bind_eq_ok_iff] at h
    obtain ⟨cls, hcls, h⟩ := h
    obtain ⟨rfl, rfl⟩ := Prod.mk.inj (Except.ok.inj h)
    exact .plain hfamily hcls

theorem Declared.extends {r r' : Registry} {d : Declaration} {cls : Class}
    (h : r.Declared d cls r') : r.Extends r' := by
  cases h with
  | type => exact ⟨fun htag => Entries.find?_append_of_some htag _, id⟩
  | node => exact ⟨id, fun htag => Entries.find?_append_of_some htag _⟩
  | plain => exact .refl r

/-! ## Decoding under more classes -/

section

variable {r r' : Registry}

mutual
theorem Extends.decodeType_eq (h : r.Extends r') {v : Value} :
    ∀ {j : Json}, r.decodeType j = .ok v → r'.decodeType j = .ok v
  | .object members, hv => by
    rw [decodeType] at hv ⊢
    exact h.decodeTagged_eq hv
  | .array items, hv => nomatch hv
  | .scalar s, hv => nomatch hv
termination_by j => sizeOf j
theorem Extends.decodeTagged_eq (h : r.Extends r') {v : Value} :
    ∀ {members : List (String × Json)}, r.decodeTagged members = .ok v →
      r'.decodeTagged members = .ok v
  | [(tag, payload)], hv => by
    rw [decodeTagged] at hv ⊢
    split at hv
    next => contradiction
    next cls hcls =>
      rw [h.type? hcls]
      dsimp only at hv ⊢
      split at hv
      next spec hspec =>
        obtain ⟨value, hvalue, hmake⟩ := bind_eq_ok_iff.1 hv
        rw [h.decodePayload_eq hvalue]
        exact hmake
      next specs hspecs =>
        split at hv
        next members =>
          obtain ⟨fields, hfields, hmake⟩ := bind_eq_ok_iff.1 hv
          rw [mapM_eq_ok_of_imp (fun spec _ _ => h.decodeMember_eq) hfields]
          exact hmake
        next => contradiction
  | [], hv => nomatch hv
  | _ :: _ :: _, hv => nomatch hv
termination_by members => sizeOf members
theorem Extends.decodePayload_eq (h : r.Extends r') {tag : String} {spec : FieldSpec} {v : Value} :
    ∀ {j : Json}, r.decodePayload tag spec j = .ok v → r'.decodePayload tag spec j = .ok v
  | .scalar s, hv => by
    cases s <;> exact hv
  | .array items, hv => by
    rw [decodePayload] at hv ⊢
    split at hv
    next =>
      obtain ⟨types, htypes, hv⟩ := bind_eq_ok_iff.1 hv
      rw [h.decodeTypes_eq htypes]
      exact hv
    next => contradiction
  | .object members, hv => by
    rw [decodePayload] at hv ⊢
    split at hv
    next => exact h.decodeTagged_eq hv
    next => contradiction
termination_by j => sizeOf j
theorem Extends.decodeMember_eq (h : r.Extends r') {tag : String} {spec : FieldSpec} {v : Value} :
    ∀ {members : List (String × Json)}, r.decodeMember tag spec members = .ok v →
      r'.decodeMember tag spec members = .ok v
  | [], hv => hv
  | (key, j) :: rest, hv => by
    rw [decodeMember] at hv ⊢
    split at hv
    next hkey =>
      rw [if_pos hkey]
      exact h.decodePayload_eq hv
    next hkey =>
      rw [if_neg hkey]
      exact h.decodeMember_eq hv
termination_by members => sizeOf members
theorem Extends.decodeTypes_eq (h : r.Extends r') {vs : List Value} :
    ∀ {js : List Json}, r.decodeTypes js = .ok vs → r'.decodeTypes js = .ok vs
  | [], hvs => hvs
  | j :: js, hvs => by
    rw [decodeTypes] at hvs ⊢
    obtain ⟨v, hv, hvs⟩ := bind_eq_ok_iff.1 hvs
    obtain ⟨rest, hrest, hvs⟩ := bind_eq_ok_iff.1 hvs
    rw [h.decodeType_eq hv, h.decodeTypes_eq hrest]
    exact hvs
termination_by js => sizeOf js
end

variable (h : r.Extends r') {j : Json} {v : Value}
include h

theorem Extends.decodeField_eq (hv : r.decodeField j = .ok v) : r'.decodeField j = .ok v := by
  simp only [decodeField, bind_eq_ok_iff] at hv ⊢
  obtain ⟨ident, hident, type, htype, ty, hty, hmake⟩ := hv
  exact ⟨ident, hident, type, htype, ty, h.decodeType_eq hty, hmake⟩

theorem Extends.decodeVariant_eq (hv : r.decodeVariant j = .ok v) : r'.decodeVariant j = .ok v := by
  simp only [decodeVariant, bind_eq_ok_iff] at hv ⊢
  obtain ⟨ident, hident, fields, hfields, items, hitems, types, htypes, hmake⟩ := hv
  exact ⟨ident, hident, fields, hfields, items, hitems, types,
    mapM_eq_ok_of_imp (fun _ _ _ => h.decodeType_eq) htypes, hmake⟩

theorem Extends.decodeNodeField_eq {name : String} (hv : r.decodeNodeField name j = .ok v) :
    r'.decodeNodeField name j = .ok v := by
  unfold decodeNodeField at hv ⊢
  split
  next hname => rwa [if_pos hname] at hv
  next hname =>
    rw [if_neg hname] at hv
    split
    next hname =>
      rw [if_pos hname] at hv
      exact readRow_eq_ok_of_imp (fun _ _ => h.decodeField_eq) hv
    next hname =>
      rw [if_neg hname] at hv
      split
      next hname =>
        rw [if_pos hname] at hv
        exact readRow_eq_ok_of_imp (fun _ _ => h.decodeVariant_eq) hv
      next hname => rwa [if_neg hname] at hv

theorem Extends.nodeField_eq {tag : Scalar} {spec : FieldSpec}
    (hv : r.nodeField tag j spec = .ok v) : r'.nodeField tag j spec = .ok v := by
  simp only [nodeField, bind_eq_ok_iff] at hv ⊢
  obtain ⟨key, hkey, hv⟩ := hv
  refine ⟨key, hkey, ?_⟩
  split at hv
  next => exact h.decodeNodeField_eq hv
  next => contradiction

theorem Extends.decodeNode_eq (hv : r.decodeNode j = .ok v) : r'.decodeNode j = .ok v := by
  obtain ⟨tag, htag, hnode⟩ := bind_eq_ok_iff.1 hv
  cases tag with
  | scalar tag =>
    cases hcls : r.node? tag with
    | none => simp [hcls] at hnode
    | some cls =>
      rw [Registry.decodeNode_eq htag hcls, bind_eq_ok_iff] at hv
      obtain ⟨fields, hfields, hmake⟩ := hv
      rw [Registry.decodeNode_eq htag (h.node? hcls),
        mapM_eq_ok_of_imp (fun _ _ _ => h.nodeField_eq) hfields]
      exact hmake
  | _ => contradiction

theorem Extends.startsWithTypeTag_eq (hj : r.startsWithTypeTag j = .ok true) :
    r'.startsWithTypeTag j = .ok true := by
  obtain ⟨items, hitems, hj⟩ := bind_eq_ok_iff.1 hj
  refine bind_eq_ok_iff.2 ⟨items, hitems, ?_⟩
  split at hj
  next tag =>
    obtain ⟨cls, hcls⟩ := Option.isSome_iff_exists.1 (Except.ok.inj hj)
    rw [h.type? hcls]
    rfl
  next => contradiction
  next => exact hj

/-- What is accepted is accepted by every registry that knows more. Whether a document is of a node
or of a type does not depend on the registry, so no new tag comes between. -/
theorem Extends.decode_eq (hv : r.decode j = .ok v) : r'.decode j = .ok v := by
  obtain ⟨isNode, hnode, hv⟩ := bind_eq_ok_iff.1 hv
  refine bind_eq_ok_iff.2 ⟨isNode, hnode, ?_⟩
  cases isNode with
  | true => exact h.decodeNode_eq hv
  | false =>
    obtain ⟨isType, htype, hv⟩ := bind_eq_ok_iff.1 hv
    cases isType with
    | true => exact bind_eq_ok_iff.2 ⟨true, h.startsWithTypeTag_eq htype, h.decodeType_eq hv⟩
    | false => contradiction

end

end Registry

/-! ## Requests -/

/-- What can be asked while classes are declared. -/
inductive Request where
  | declare (d : Declaration)
  | decode (j : Json)
  | encode (v : Value)

inductive Answer where
  | declared (cls : Class)
  | decoded (v : Value)
  | encoded (document : Value)

namespace Registry

def answer (r : Registry) : Request → Except Error Answer
  | .declare d => return .declared (← r.define d).2
  | .decode j => return .decoded (← r.decode j)
  | .encode v => return .encoded (← v.encode)

/-- The registry after a request. Only a declaration that is accepted makes a difference. -/
def next (r : Registry) : Request → Registry
  | .declare d =>
    match r.define d with
    | .ok (r', _) => r'
    | .error _ => r
  | .decode _ | .encode _ => r

def after (r : Registry) (requests : List Request) : Registry := requests.foldl next r

theorem after_append (r : Registry) (earlier later : List Request) :
    r.after (earlier ++ later) = (r.after earlier).after later :=
  List.foldl_append

theorem extends_next (r : Registry) (q : Request) : r.Extends (r.next q) := by
  cases q with
  | declare d =>
    rw [next]
    split
    next r' cls h => exact (declared_of_define h).extends
    next => exact .refl r
  | _ => exact .refl r

theorem extends_after (r : Registry) (requests : List Request) : r.Extends (r.after requests) := by
  induction requests generalizing r with
  | nil => exact .refl r
  | cons q requests ih => exact (r.extends_next q).trans (ih (r.next q))

theorem answer_decode_iff {r : Registry} {j : Json} {v : Value} :
    r.answer (.decode j) = .ok (.decoded v) ↔ r.decode j = .ok v := by
  rw [answer]
  cases r.decode j <;> simp [bind, Except.bind, pure, Except.pure]

theorem next_of_refused {r : Registry} {d : Declaration} {e : Error}
    (h : r.answer (.declare d) = .error e) : r.next (.declare d) = r := by
  rw [answer] at h
  rw [next]
  split
  next heq =>
    rw [heq] at h
    contradiction
  next => rfl

/-- Whatever is asked, classes declared and classes refused: a document that was accepted is accepted
for the same object, and every object is encoded as it was, since it has its class with it. A
declaration that is refused is as good as not made: no request after it is answered otherwise, be it
with a result or with an error. -/
theorem after_conservative (r : Registry) (requests : List Request) :
    (∀ j v, r.answer (.decode j) = .ok (.decoded v) →
      (r.after requests).answer (.decode j) = .ok (.decoded v)) ∧
    (∀ v, (r.after requests).answer (.encode v) = r.answer (.encode v)) ∧
    ∀ d e, (r.after requests).answer (.declare d) = .error e → ∀ later q,
      (r.after (requests ++ .declare d :: later)).answer q =
        (r.after (requests ++ later)).answer q := by
  refine ⟨fun j v h => ?_, fun v => rfl, fun d e h later q => ?_⟩
  · rw [answer_decode_iff] at h ⊢
    exact (r.extends_after requests).decode_eq h
  · have hlater : (r.after requests).after (.declare d :: later) =
        (r.after requests).after later := congrArg (after · later) (next_of_refused h)
    rw [after_append, after_append, hlater]

end Registry

end AstSchema
