import AstSchema.Event
import AstSchema.Report
import AstSchema.Value.Tally
import AstSchema.Walk

/-! Whether the idents of definitions are unique and every item names a declared node. -/
namespace AstSchema

namespace Validate

def duplicates (location : Value) (idents : List Value) : List Value :=
  (Value.tally idents).filterMap fun (v, n) =>
    if 1 < n then some (Problem.duplicate location v n) else none

def itemName? (v : Value) : Option Value :=
  match v with
  | .object ⟨_, _, .item, _, _⟩ _ => v.field? "name"
  | _ => none

def unresolved (location : String) (declared : List Value) (ty : Value) :
    Except Error (List Value) := do
  let found ← ty.walk.mapM fun v =>
    match itemName? v with
    | none => .ok none
    | some name => do
      let name ← name.hashable
      if declared.any (·.isFoundBy name) then return none
      else return some (Problem.unresolved location name declared)
  return found.filterMap id

/-- The problems of fields or variants: repeated idents first, then what their types name. -/
def memberProblems (declared : List Value) (owner : Value) (separator : String)
    (members : List Value) (types : Value → Except Error (List Value)) :
    Except Error (List Value) := do
  let idents ← members.mapM fun m => do (← m.field "ident").hashable
  let unresolvedOnes ← members.mapM fun m => do
    let location := owner.display ++ separator ++ (← m.field "ident").display
    return (← (← types m).mapM (unresolved location declared)).flatten
  return duplicates owner idents ++ unresolvedOnes.flatten

def fieldTypes (m : Value) : Except Error (List Value) := return [← m.field "ty"]

def variantTypes (m : Value) : Except Error (List Value) := do (← m.field "fields").items

def nodeProblems (declared : List Value) (node : Value) : Except Error (List Value) := do
  let members (name : String) : Except Error (List Value) := do (← node.field name).items
  match node with
  | .object ⟨_, _, .struct, _, _⟩ _ =>
    memberProblems declared (← node.field "ident") "." (← members "fields") fieldTypes
  | .object ⟨_, _, .enum, _, _⟩ _ =>
    memberProblems declared (← node.field "ident") "::" (← members "variants") variantTypes
  | _ => return []

/-- All problems of definitions: repeated idents of nodes first, then node by node. -/
def problems (nodes : List Value) : Except Error (List Value) := do
  let idents ← nodes.mapM (·.field "ident")
  let _ ← idents.mapM Value.hashable
  let within ← nodes.mapM (nodeProblems idents)
  return duplicates (.text "definitions") idents ++ within.flatten

end Validate

def validate (definitions : Value) : Except Error (Value × Event) := do
  let nodes ← definitions.items
  let problems ← Validate.problems nodes
  return (Report.ofProblems problems, .validated nodes.length problems.length)

end AstSchema
