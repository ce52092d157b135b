import AstSchema.Value.Literal

/-! What operations leave in the log. -/
namespace AstSchema

inductive Event where
  /-- A repeated declaration of an ident was joined with the stored one. -/
  | consolidated (ident : Value) (before added after : List Value)
  | validated (nodes problems : Nat)

namespace Event

def logger : Event → String
  | .consolidated .. => "nodegen.definitions"
  | .validated .. => "nodegen.validate"

def message : Event → String
  | .consolidated ident before added after =>
    s!"Consolidated duplicate declaration of {ident.display}: " ++
      s!"features {(Value.list before).literal} + {(Value.list added).literal} " ++
      s!"-> {(Value.list after).literal}"
  | .validated nodes problems => s!"Validated {nodes} node(s): {problems} error(s)"

def line (e : Event) : String := s!"DEBUG {e.logger}: {e.message}"

end Event

end AstSchema
