import AstSchema.Value

/-! The types nested in a type. -/
namespace AstSchema

/-- The field of a type that other types stand in: one of them, or a row of them. -/
inductive Nesting where
  | none
  | one (field : String)
  | row (field : String)

def Role.nesting : Role → Nesting
  | .punctuated => .one "element"
  | .option | .box | .vec => .one "inner"
  | .tuple => .row "elements"
  | _ => .none

namespace Value

mutual
/-- A type and every type nested in it, the outer ones first and the others from left to right. -/
def walk : Value → List Value
  | .object cls fields => .object cls fields :: walkNested cls.role.nesting cls.fields fields
  | v => [v]
termination_by structural v => v
def walkNested (nesting : Nesting) : List FieldSpec → List Value → List Value
  | spec :: specs, v :: vs =>
    match nesting with
    | .none => []
    | .one field => if spec.name == field then walk v else walkNested nesting specs vs
    | .row field => if spec.name == field then walkRow v else walkNested nesting specs vs
  | _, _ => []
termination_by structural _ vs => vs
def walkRow : Value → List Value
  | .tuple items => walkItems items
  | _ => []
termination_by structural v => v
def walkItems : List Value → List Value
  | [] => []
  | v :: vs => walk v ++ walkItems vs
termination_by structural vs => vs
end

end Value

end AstSchema
