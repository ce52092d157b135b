import AstSchema.Declaration

/-! The tagged classes of either family, in the order of their registration. -/
namespace AstSchema

/-- The classes that documents can name, by tag. Types and nodes do not share their tags. -/
structure Registry where
  types : List (Scalar × Class)
  nodes : List (Scalar × Class)

namespace Registry

def tagged (classes : List Class) : List (Scalar × Class) :=
  classes.filterMap fun cls => cls.tag?.map fun tag => (tag, cls)

def builtin : Registry := ⟨tagged Class.builtinTypes, tagged Class.builtinNodes⟩

def type? (r : Registry) (tag : Scalar) : Option Class := Entries.find? Scalar.same tag r.types

def node? (r : Registry) (tag : Scalar) : Option Class := Entries.find? Scalar.same tag r.nodes

def nodeTags (r : Registry) : List Scalar := r.nodes.map (·.1)

/-- Register the declared class under its tag in its own family, unless the tag is taken there. A
class of no family is registered nowhere. -/
def define (r : Registry) (d : Declaration) : Except Error (Registry × Class) := do
  if d.name.contains '\x00' then .error .nullInName
  match d.base.family with
  | .type =>
    let cls ← d.toClass
    let tag ← d.tag
    match r.type? tag with
    | some holder => .error (.takenTag tag holder)
    | none => return ({ r with types := r.types ++ [(tag, cls)] }, cls)
  | .node =>
    let cls ← d.toClass
    let tag ← d.tag
    match r.node? tag with
    | some holder => .error (.takenTag tag holder)
    | none => return ({ r with nodes := r.nodes ++ [(tag, cls)] }, cls)
  | .plain => return (r, ← d.toPlainClass)

end Registry

end AstSchema
