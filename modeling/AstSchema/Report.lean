import AstSchema.Object
import AstSchema.Text.Template

/-! Problems that validation finds, the report that holds them, and their text. -/
namespace AstSchema

namespace Problem

def duplicate (location ident : Value) (count : Nat) : Value :=
  .object .duplicateIdent
    [location, .text s!"'{ident.display}' declared {count} times", ident, .int count]

def unresolved (location : String) (name : Value) (available : List Value) : Value :=
  .object .unresolvedItem
    [.text location, .text s!"'{name.display}' is not a declared node", name, .tuple available]

def shownLimit : Nat := 5

/-- The first idents, as far as they are shown: of a sequence its items, of a text its characters. -/
def shown (available : Value) : Except Error (List Value) :=
  match available with
  | .list _ | .tuple _ | .scalar (.text _) => return (← available.items).take shownLimit
  | _ => .error .wrongType

def joinTexts (separator : String) (texts : List Value) : Except Error String := do
  let texts ← texts.mapM fun
    | .scalar (.text s) => .ok s
    | _ => .error .wrongType
  return separator.intercalate texts

/-- The declared idents that a problem shows, and how many there are if that is not all. -/
def availableText (available : Value) : Except Error String := do
  let text ← joinTexts ", " (← shown available)
  let total ← available.size
  return if shownLimit < total then s!"{text} ... ({total} total)" else text

def templateError : Template.Fault → Error
  | .named name => .noArgument name
  | .numbered position => .noPosition position
  | .broken reason => .badTemplate reason

/-- The text of a problem. A text in place of a problem is a template without arguments. -/
def text (problem : Value) : Except Error String := do
  match problem with
  | .scalar (.text s) => (Template.fill s).mapError templateError
  | .object cls _ =>
    match cls.role with
    | .problem =>
      let location ← problem.field "location"
      let message ← problem.field "message"
      return s!"{location.display}: {message.display}"
    | .duplicateIdent =>
      let location ← problem.field "location"
      let ident ← problem.field "ident"
      let count ← problem.field "count"
      return s!"{location.display}: Duplicate ident\n" ++
        s!"  Ident: '{ident.display}' declared {count.display} times"
    | .unresolvedItem =>
      let available ← availableText (← problem.field "available")
      let location ← problem.field "location"
      let name ← problem.field "name"
      return s!"{location.display}: Unresolved item\n  Item:      '{name.display}'\n" ++
        s!"  Available: {available}"
    | _ => .error (problem.cannot "format")
  | _ => .error .noAttribute

end Problem

namespace Report

/-- A report is a success exactly if it has no problems. -/
def ofProblems (problems : List Value) : Value :=
  .object .report [.bool problems.isEmpty, .list problems]

def numbered (problems : List Value) : Except Error (List String) :=
  go 1 problems
where
  go (n : Nat) : List Value → Except Error (List String)
    | [] => .ok []
    | p :: ps => do
      let text ← Problem.text p
      return s!"[{n}] {text}\n" :: (← go (n + 1) ps)

def textOf (success errors : Value) : Except Error String := do
  if ← success.isTrue then return "Validation passed."
  let count ← errors.size
  let texts ← numbered (← errors.items)
  return "\n".intercalate (s!"Validation failed with {count} error(s):\n" :: texts)

/-- The text of a report, or of a problem by itself. -/
def text (v : Value) : Except Error String :=
  match v with
  | .object ⟨_, _, .report, _, _⟩ [success, errors] => textOf success errors
  | v => Problem.text v

end Report

end AstSchema
