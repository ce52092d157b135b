import AstSchema.Proofs.Codec
import AstSchema.Proofs.Validation

/-! The walk over a type and the document of the type. A scan of the document from left to right
meets an object for each type that the walk meets, in the same order: that of the paths to the places
where the types stand, so that each place comes up once and after those around it. -/
namespace AstSchema

/-! ## Types in a document -/

/-- An object of a document that stands for a type. -/
structure TypeObject where
  tag : String
  payload : Json

namespace TypeObject

def toJson (o : TypeObject) : Json := .object [(o.tag, o.payload)]

def itemName? (o : TypeObject) : Option Json := if o.tag == "item" then some o.payload else none

end TypeObject

namespace Json

/-- What stands right under these tags is one type. -/
def wrapTags : List String := ["option", "box", "vec"]

mutual
/-- The objects that stand for types in the document of a type, in the order in which they are
written. Each tag says where under it the next ones are. -/
def typeObjects : Json → List TypeObject
  | .object members => taggedObjects members
  | _ => []
termination_by structural j => j
def taggedObjects : List (String × Json) → List TypeObject
  | [(tag, payload)] => ⟨tag, payload⟩ :: payloadObjects tag payload
  | _ => []
termination_by structural members => members
def payloadObjects (tag : String) : Json → List TypeObject
  | .object members =>
    if wrapTags.contains tag then taggedObjects members
    else if tag == "punctuated" then elementObjects members
    else []
  | .array items => if tag == "tuple" then itemObjects items else []
  | .scalar _ => []
termination_by structural j => j
def elementObjects : List (String × Json) → List TypeObject
  | [] => []
  | (key, j) :: rest => if key == "element" then typeObjects j else elementObjects rest
termination_by structural members => members
def itemObjects : List Json → List TypeObject
  | [] => []
  | j :: js => typeObjects j ++ itemObjects js
termination_by structural js => js
end

theorem itemObjects_eq_flatMap (js : List Json) : itemObjects js = js.flatMap typeObjects := by
  induction js with
  | nil => rfl
  | cons j js ih => rw [itemObjects, ih, List.flatMap_cons]

end Json

namespace TypeTree

def toObject : TypeTree → TypeObject
  | .name cls text => ⟨cls.tag, .text text⟩
  | .wrap cls inner => ⟨cls.tag, inner.toJson⟩
  | .punctuated element punct =>
    ⟨"punctuated", .object [("element", element.toJson), ("punct", .text punct)]⟩
  | .tuple elements => ⟨"tuple", .array (toJsons elements)⟩

theorem toJson_toObject (t : TypeTree) : t.toObject.toJson = t.toJson := by
  cases t <;> rfl

/-- The scan of a document meets the types of the tree in their order. -/
theorem typeObjects_toJson (t : TypeTree) : t.toJson.typeObjects = t.preorder.map toObject := by
  induction t with
  | name cls text => cases cls <;> rfl
  | wrap cls inner ih =>
    rw [preorder, List.map_cons, ← ih, toObject]
    obtain ⟨tag, payload, hinner, -⟩ := toJson_eq_tagged inner
    rw [toJson, hinner]
    cases cls <;> rfl
  | punctuated element punct ih =>
    rw [preorder, List.map_cons, ← ih]
    rfl
  | tuple elements ih =>
    have helements : Json.itemObjects (toJsons elements) = (preorders elements).map toObject := by
      rw [Json.itemObjects_eq_flatMap, toJsons_eq_map, preorders_eq_flatMap, List.map_flatMap,
        List.flatMap_map]
      exact List.flatMap_congr ih
    rw [preorder, List.map_cons, ← helements]
    rfl

/-! ## Places in a type -/

/-- The types that a type holds. -/
def children : TypeTree → List TypeTree
  | .name .. => []
  | .wrap _ inner => [inner]
  | .punctuated element _ => [element]
  | .tuple elements => elements

/-- The type at the end of a path, each step of which goes on to a type that is held. -/
def at? (t : TypeTree) : List Nat → Option TypeTree
  | [] => some t
  | i :: path => t.children[i]?.bind (·.at? path)

/-- Induction in which a type is settled once those that it holds are. -/
theorem induct_children {motive : TypeTree → Prop}
    (h : ∀ t : TypeTree, (∀ c ∈ t.children, motive c) → motive t) (t : TypeTree) : motive t := by
  induction t with
  | name cls text => exact h _ (by simp [children])
  | wrap cls inner ih => exact h _ (by simpa [children] using ih)
  | punctuated element punct ih => exact h _ (by simpa [children] using ih)
  | tuple elements ih => exact h _ ih

theorem preorder_eq (t : TypeTree) : t.preorder = t :: t.children.flatMap preorder := by
  cases t with
  | tuple elements => rw [preorder, preorders_eq_flatMap, children]
  | _ => simp [preorder, children]

mutual
/-- The paths to all types within a type, from left to right, each before those that go on from
it. -/
def paths : TypeTree → List (List Nat)
  | .name .. => [[]]
  | .wrap _ inner => [] :: (paths inner).map (0 :: ·)
  | .punctuated element _ => [] :: (paths element).map (0 :: ·)
  | .tuple elements => [] :: pathsFrom 0 elements
termination_by structural t => t
def pathsFrom (start : Nat) : List TypeTree → List (List Nat)
  | [] => []
  | t :: ts => (paths t).map (start :: ·) ++ pathsFrom (start + 1) ts
termination_by structural ts => ts
end

theorem pathsFrom_eq_flatMap (start : Nat) (ts : List TypeTree) :
    pathsFrom start ts = (ts.zipIdx start).flatMap fun c => c.1.paths.map (c.2 :: ·) := by
  induction ts generalizing start with
  | nil => rfl
  | cons t ts ih => rw [pathsFrom, ih, List.zipIdx_cons, List.flatMap_cons]

theorem paths_eq (t : TypeTree) :
    t.paths = [] :: t.children.zipIdx.flatMap fun c => c.1.paths.map (c.2 :: ·) := by
  cases t with
  | tuple elements => rw [paths, pathsFrom_eq_flatMap, children]
  | _ => simp [paths, children]

theorem mem_paths_iff (t : TypeTree) (path : List Nat) : path ∈ t.paths ↔ (t.at? path).isSome := by
  induction t using induct_children generalizing path with
  | h t ih =>
    rw [paths_eq]
    cases path with
    | nil => simp [at?]
    | cons i path =>
      have hchild : ∀ c, t.children[i]? = some c → (path ∈ c.paths ↔ (c.at? path).isSome) :=
        fun c hc => ih c (List.mem_of_getElem? hc) path
      simp only [List.mem_cons, reduceCtorEq, false_or, List.mem_flatMap, Prod.exists,
        List.mem_zipIdx_iff_getElem?, List.mem_map, List.cons.injEq, at?]
      cases hc : t.children[i]? with
      | none => simp [hc]
      | some c => simp [hc, hchild c hc]

theorem pairwise_paths (t : TypeTree) : t.paths.Pairwise (List.Lex (· < ·)) := by
  induction t using induct_children with
  | h t ih =>
    rw [paths_eq, List.pairwise_cons, List.pairwise_flatMap]
    refine ⟨?_, ?_, ?_⟩
    · simp only [List.mem_flatMap, List.mem_map]
      rintro _ ⟨c, -, path, -, rfl⟩
      exact .nil
    · rintro ⟨c, i⟩ hc
      rw [List.mem_zipIdx_iff_getElem?] at hc
      exact List.pairwise_map.2 ((ih c (List.mem_of_getElem? hc)).imp .cons)
    · have hplaces : t.children.zipIdx.Pairwise fun c d => c.2 < d.2 := by
        rw [List.pairwise_iff_getElem]
        intro i j hi hj hlt
        simpa using hlt
      refine hplaces.imp fun hlt => ?_
      simp only [List.mem_map]
      rintro _ ⟨path, -, rfl⟩ _ ⟨path', -, rfl⟩
      exact .rel hlt

/-- A path goes on from no later one. -/
theorem outer_first_paths (t : TypeTree) : t.paths.Pairwise fun path later => ¬ later <+: path := by
  refine t.pairwise_paths.imp ?_
  intro path later hlex
  induction hlex with
  | nil => simp
  | cons _ ih => simpa [List.cons_prefix_cons] using ih
  | rel hlt => simp [List.cons_prefix_cons, (Nat.ne_of_lt hlt).symm]

theorem preorder_eq_paths (t : TypeTree) : t.preorder.map some = t.paths.map t.at? := by
  induction t using induct_children with
  | h t ih =>
    rw [preorder_eq, paths_eq, List.map_cons, List.map_cons, List.map_flatMap, List.map_flatMap]
    have hplaces : t.children.flatMap (fun c => c.preorder.map some) =
        t.children.zipIdx.flatMap fun c => c.1.preorder.map some := by
      conv_lhs => rw [← List.zipIdx_map_fst 0 t.children]
      rw [List.flatMap_map]
    rw [hplaces]
    refine congrArg _ (List.flatMap_congr fun c hc => ?_)
    obtain ⟨c, i⟩ := c
    rw [List.mem_zipIdx_iff_getElem?] at hc
    simp only [ih c (List.mem_of_getElem? hc), List.map_map]
    refine List.map_congr_left fun path _ => ?_
    simp [at?, hc]

/-- Each path to a type comes up once, from left to right and after those that it goes on from. -/
structure IsDocumentOrder (t : TypeTree) (paths : List (List Nat)) : Prop where
  mem_iff : ∀ path, path ∈ paths ↔ (t.at? path).isSome
  ascending : paths.Pairwise (List.Lex (· < ·))
  outer_first : paths.Pairwise fun path later => ¬ later <+: path

theorem isDocumentOrder_paths (t : TypeTree) : t.IsDocumentOrder t.paths :=
  ⟨t.mem_paths_iff, t.pairwise_paths, t.outer_first_paths⟩

end TypeTree

/-! ## The walk and the document -/

/-- The tag of an object, which its class has. -/
def Value.tag? : Value → Option Scalar
  | .object cls _ => cls.tag?
  | _ => none

namespace TypeTree

theorem tag?_toValue (t : TypeTree) : t.toValue.tag? = some (.text t.toObject.tag) := by
  cases t with
  | name cls text => cases cls <;> rfl
  | wrap cls inner => cases cls <;> rfl
  | _ => rfl

theorem itemName?_toObject (t : TypeTree) : t.toObject.itemName? = t.itemName?.map .text := by
  cases t with
  | name cls text => cases cls <;> rfl
  | wrap cls inner => cases cls <;> rfl
  | _ => rfl

/-- The walk over a type yields the types that its document has objects for, in the order in which
a scan meets these: the tags agree, so do the names of items with what the objects of items have
under their tag, and each object is the document of the type at its place. It yields what stands at
each place within the type once, and after the types around that. -/
theorem walk_in_document_order (t : TypeTree) : ∃ (j : Json) (paths : List (List Nat)),
    t.toValue.encode = .ok (.ofJson j) ∧
    t.toValue.walk.map Value.tag? = j.typeObjects.map (fun o => some (.text o.tag)) ∧
    t.toValue.walk.filterMap Validate.itemName? =
      (j.typeObjects.filterMap TypeObject.itemName?).map .ofJson ∧
    t.toValue.walk.mapM Value.encode = .ok (j.typeObjects.map fun o => .ofJson o.toJson) ∧
    t.IsDocumentOrder paths ∧
    t.toValue.walk.map some = paths.map fun path => (t.at? path).map toValue := by
  refine ⟨t.toJson, t.paths, t.encode_toValue, ?_, ?_, ?_, t.isDocumentOrder_paths, ?_⟩ <;>
    rw [Value.walk_toValue]
  · rw [typeObjects_toJson, List.map_map, List.map_map]
    exact List.map_congr_left fun s _ => s.tag?_toValue
  · rw [typeObjects_toJson, List.filterMap_map, List.filterMap_map, List.map_filterMap]
    refine List.filterMap_congr fun s _ => ?_
    rw [Function.comp_apply, Function.comp_apply, Validate.itemName?_toValue, itemName?_toObject,
      Option.map_map]
    rfl
  · rw [typeObjects_toJson, List.map_map]
    refine mapM_map_eq_ok fun s _ => ?_
    rw [Function.comp_apply, toJson_toObject]
    exact s.encode_toValue
  · have hplaces := congrArg (List.map (Option.map toValue)) t.preorder_eq_paths
    simpa [List.map_map, Function.comp_def] using hplaces

end TypeTree

end AstSchema
