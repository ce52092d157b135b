import AstSchema.Features

/-! Well-formed objects of the built-in classes as trees, with the values that they are and the
documents that stand for them. What may be an ident, a flag or a mark of visibility is left open. -/
namespace AstSchema

/-- The classes of types that hold nothing but a name. -/
inductive NameClass where
  | item | std | ext | token | group
deriving DecidableEq

/-- The classes of types that hold one other type. -/
inductive WrapClass where
  | option | box | vec
deriving DecidableEq

def NameClass.toClass : NameClass → Class
  | .item => .item
  | .std => .std
  | .ext => .ext
  | .token => .token
  | .group => .group

def NameClass.tag : NameClass → String
  | .item => "item"
  | .std => "std"
  | .ext => "ext"
  | .token => "token"
  | .group => "group"

def WrapClass.toClass : WrapClass → Class
  | .option => .option
  | .box => .box
  | .vec => .vec

def WrapClass.tag : WrapClass → String
  | .option => "option"
  | .box => "box"
  | .vec => "vec"

inductive TypeTree where
  | name (cls : NameClass) (text : String)
  | wrap (cls : WrapClass) (inner : TypeTree)
  | punctuated (element : TypeTree) (punct : String)
  | tuple (elements : List TypeTree)

namespace TypeTree

/-- Induction in which every element of a tuple counts. -/
@[elab_as_elim, induction_eliminator]
theorem induct {motive : TypeTree → Prop} (name : ∀ cls text, motive (.name cls text))
    (wrap : ∀ cls inner, motive inner → motive (.wrap cls inner))
    (punctuated : ∀ element punct, motive element → motive (.punctuated element punct))
    (tuple : ∀ elements, (∀ t ∈ elements, motive t) → motive (.tuple elements)) :
    ∀ t, motive t
  | .name cls text => name cls text
  | .wrap cls inner => wrap cls inner (induct name wrap punctuated tuple inner)
  | .punctuated element punct =>
    punctuated element punct (induct name wrap punctuated tuple element)
  | .tuple elements => tuple elements fun t _ => induct name wrap punctuated tuple t

mutual
def toValue : TypeTree → Value
  | .name cls text => .object cls.toClass [.text text]
  | .wrap cls inner => .object cls.toClass [toValue inner]
  | .punctuated element punct => .object .punctuated [toValue element, .text punct]
  | .tuple elements => .object .tuple [.tuple (toValues elements)]
termination_by structural t => t
def toValues : List TypeTree → List Value
  | [] => []
  | t :: ts => toValue t :: toValues ts
termination_by structural ts => ts
end

mutual
/-- The type as a document: an object with its tag for a single key. -/
def toJson : TypeTree → Json
  | .name cls text => .object [(cls.tag, .text text)]
  | .wrap cls inner => .object [(cls.tag, toJson inner)]
  | .punctuated element punct =>
    .object [("punctuated", .object [("element", toJson element), ("punct", .text punct)])]
  | .tuple elements => .object [("tuple", .array (toJsons elements))]
termination_by structural t => t
def toJsons : List TypeTree → List Json
  | [] => []
  | t :: ts => toJson t :: toJsons ts
termination_by structural ts => ts
end

@[simp] theorem toValues_eq_map (ts : List TypeTree) : toValues ts = ts.map toValue := by
  induction ts with
  | nil => rfl
  | cons t ts ih => rw [toValues, ih, List.map_cons]

@[simp] theorem toJsons_eq_map (ts : List TypeTree) : toJsons ts = ts.map toJson := by
  induction ts with
  | nil => rfl
  | cons t ts ih => rw [toJsons, ih, List.map_cons]

end TypeTree

variable {ι φ π : Type}

structure FieldTree (ι : Type) where
  ident : ι
  type : TypeTree

structure VariantTree (ι : Type) where
  ident : ι
  types : List TypeTree

/-- Idents are from `ι`, flags from `φ`, and what says whether all fields are public from `π`. -/
inductive NodeTree (ι φ π : Type) where
  | struct (ident : ι) (flags : List φ) (fields : List (FieldTree ι)) (allPublic : π)
  | enum (ident : ι) (flags : List φ) (variants : List (VariantTree ι))

def FieldTree.toValue (ident : ι → Value) (f : FieldTree ι) : Value :=
  .object .field [ident f.ident, f.type.toValue]

def FieldTree.toJson (ident : ι → Json) (f : FieldTree ι) : Json :=
  .object [("ident", ident f.ident), ("type", f.type.toJson)]

def VariantTree.toValue (ident : ι → Value) (v : VariantTree ι) : Value :=
  .object .variant [ident v.ident, .tuple (v.types.map TypeTree.toValue)]

def VariantTree.toJson (ident : ι → Json) (v : VariantTree ι) : Json :=
  .object [("ident", ident v.ident), ("fields", .array (v.types.map TypeTree.toJson))]

namespace NodeTree

def ident : NodeTree ι φ π → ι
  | .struct ident .. => ident
  | .enum ident .. => ident

def toValue (ident : ι → Value) (flag : φ → Value) (pub : π → Value) : NodeTree ι φ π → Value
  | .struct i flags fields p =>
    .object .struct [ident i, Features.toValue (flags.map flag),
      .tuple (fields.map (FieldTree.toValue ident)), pub p]
  | .enum i flags variants =>
    .object .enum [ident i, Features.toValue (flags.map flag),
      .tuple (variants.map (VariantTree.toValue ident))]

/-- The node as a document: its tag comes first, and its gates have a key for their flags. -/
def toJson (ident : ι → Json) (flag : φ → Json) (pub : π → Json) : NodeTree ι φ π → Json
  | .struct i flags fields p =>
    .object [("node", .text "struct"), ("ident", ident i),
      ("features", .object [("any", .array (flags.map flag))]),
      ("fields", .array (fields.map (FieldTree.toJson ident))), ("all_fields_pub", pub p)]
  | .enum i flags variants =>
    .object [("node", .text "enum"), ("ident", ident i),
      ("features", .object [("any", .array (flags.map flag))]),
      ("variants", .array (variants.map (VariantTree.toJson ident)))]

end NodeTree

end AstSchema
