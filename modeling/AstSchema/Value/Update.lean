import AstSchema.Value

/-! Values with a part replaced. -/
namespace AstSchema.Value

/-- The collection with other items in place of its own. -/
def withItems : Value → List Value → Value
  | .list _, items => .list items
  | .tuple _, items => .tuple items
  | .object ⟨name, home, .features, tag?, fields⟩ (inner :: rest), items =>
    .object ⟨name, home, .features, tag?, fields⟩ (withItems inner items :: rest)
  | .object ⟨name, home, .definitions, tag?, fields⟩ (inner :: rest), items =>
    .object ⟨name, home, .definitions, tag?, fields⟩ (withItems inner items :: rest)
  | v, _ => v

def withField (v : Value) (name : String) (value : Value) : Value :=
  match v with
  | .object cls fields =>
    .object cls ((cls.fieldNames.zip fields).map fun (n, old) => if n == name then value else old)
  | v => v

end AstSchema.Value
