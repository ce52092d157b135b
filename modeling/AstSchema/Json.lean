import AstSchema.Entries
import AstSchema.Scalar

/-! Documents: what a text of the exchange format says. -/
namespace AstSchema

/-- Members keep their order of first appearance. -/
inductive Json where
  | scalar (s : Scalar)
  | array (items : List Json)
  | object (members : List (String × Json))
deriving Inhabited

namespace Json

abbrev text (s : String) : Json := .scalar (.text s)

end Json

end AstSchema
