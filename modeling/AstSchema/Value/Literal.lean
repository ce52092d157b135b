import AstSchema.Value

/-! The text of values as messages show them. -/
namespace AstSchema.Value

/-- A tuple of one item keeps a comma, so that it is not read as mere parentheses. -/
def tupleText : List String → String
  | [text] => "(" ++ text ++ ",)"
  | texts => "(" ++ ", ".intercalate texts ++ ")"

mutual
def literal : Value → String
  | .scalar s => s.literal
  | .list items => "[" ++ ", ".intercalate (literals items) ++ "]"
  | .tuple items => tupleText (literals items)
  | .mapping entries => "\x7b" ++ ", ".intercalate (entryLiterals entries) ++ "\x7d"
  | .object cls fields =>
    cls.name ++ "(" ++ ", ".intercalate (fieldLiterals cls.fields fields) ++ ")"
termination_by structural v => v
def literals : List Value → List String
  | [] => []
  | v :: vs => literal v :: literals vs
termination_by structural vs => vs
def entryLiterals : List (Scalar × Value) → List String
  | [] => []
  | (k, v) :: rest => (k.literal ++ ": " ++ literal v) :: entryLiterals rest
termination_by structural entries => entries
def fieldLiterals : List FieldSpec → List Value → List String
  | spec :: specs, v :: vs => (spec.name ++ "=" ++ literal v) :: fieldLiterals specs vs
  | _, _ => []
termination_by structural _ vs => vs
end

/-- The text of a value by itself: a text is its own. -/
def display : Value → String
  | .scalar s => s.display
  | v => v.literal

end AstSchema.Value
