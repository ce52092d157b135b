import AstSchema.Proofs.Tree
import AstSchema.Walk
import Mathlib.Data.List.Basic

/-! The walk over a well-formed type is the pre-order of its tree. -/
namespace AstSchema

namespace TypeTree

mutual
/-- The type, then those nested in it from left to right, each before the ones nested in it. -/
def preorder : TypeTree → List TypeTree
  | .name cls text => [.name cls text]
  | .wrap cls inner => .wrap cls inner :: preorder inner
  | .punctuated element punct => .punctuated element punct :: preorder element
  | .tuple elements => .tuple elements :: preorders elements
termination_by structural t => t
def preorders : List TypeTree → List TypeTree
  | [] => []
  | t :: ts => preorder t ++ preorders ts
termination_by structural ts => ts
end

theorem preorders_eq_flatMap (ts : List TypeTree) : preorders ts = ts.flatMap preorder := by
  induction ts with
  | nil => rfl
  | cons t ts ih => rw [preorders, ih, List.flatMap_cons]

end TypeTree

namespace Value

theorem walkItems_eq_flatMap (vs : List Value) : walkItems vs = vs.flatMap walk := by
  induction vs with
  | nil => rfl
  | cons v vs ih => rw [walkItems, ih, List.flatMap_cons]

theorem walk_toValue (t : TypeTree) : t.toValue.walk = t.preorder.map TypeTree.toValue := by
  induction t with
  | name cls text => cases cls <;> rfl
  | wrap cls inner ih =>
    rw [TypeTree.preorder, List.map_cons, ← ih]
    cases cls <;> rfl
  | punctuated element punct ih =>
    rw [TypeTree.preorder, List.map_cons, ← ih]
    rfl
  | tuple elements ih =>
    have helements : walkItems (elements.map TypeTree.toValue) =
        (TypeTree.preorders elements).map TypeTree.toValue := by
      rw [walkItems_eq_flatMap, TypeTree.preorders_eq_flatMap, List.map_flatMap, List.flatMap_map]
      exact List.flatMap_congr ih
    rw [TypeTree.preorder, List.map_cons, ← helements, TypeTree.toValue, TypeTree.toValues_eq_map]
    rfl

end Value

end AstSchema
