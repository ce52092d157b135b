import AstSchema.Features

/-! One part of a collection, by position or by key. -/
namespace AstSchema.Value

/-- The item of a collection at an index, or the value under a key. -/
def entry (collection index : Value) : Except Error Value :=
  match collection with
  | .mapping entries => do
    match ← lookup index entries with
    | some v => return v
    | none => .error (.missingKey index)
  | .list xs => itemAt "list" xs index
  | .tuple xs => itemAt "tuple" xs index
  | .scalar (.text s) => itemAt "string" ((characters s).map text) index
  | .object ⟨_, _, .features, _, _⟩ _ => do Features.get (← collection.items) index
  | _ => .error .wrongType

end AstSchema.Value
