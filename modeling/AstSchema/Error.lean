import AstSchema.Json.Reader
import AstSchema.Value.Literal

/-! Why an operation is refused, and how that is told. -/
namespace AstSchema

inductive ErrorKind where
  | missing
  | invalid
  | malformedText
  | range
  | conflict
  | wrongType
  | noAttribute
deriving DecidableEq

inductive Error where
  | missingKey (key : Value)
  | noDiscriminator
  | missingField (key tag : Scalar)
  | missingSection (name : String)
  | unknownNodeTag (tag : Scalar) (known : List Scalar)
  | unknownTypeTag (tag : String)
  | notSingleKey (found : Json)
  | notObjectPayload (tag : String) (found : Json)
  | badPayload (tag field : String) (shape : Shape) (found : Json)
  | notTagged
  | notNode (className : String)
  | badPair (position length : Nat)
  | malformed (fault : Json.Fault)
  | takenTag (tag : Scalar) (holder : Class)
  | nullInName
  /-- What would stand for a field that is left out is a table that could change under it. -/
  | sharedDefault (field table : String)
  | flagsFromText (text : String)
  | unnestedFeatures (mine theirs : List Value)
  | noSuchFlag (index : Scalar) (count : Nat)
  | undeclared (ident : Value) (declared : List Value)
  | kindsDiffer (ident : Value) (stored added : String)
  | unknownSpelling (spelling : Value)
  | noSuchPosition (collection : String)
  /-- No collection is so large that a number like this could be a position in it. -/
  | positionTooLarge
  | noArgument (name : String)
  | noPosition (position : Nat)
  | badTemplate (fault : String)
  | wrongType
  | noAttribute
deriving Inhabited

namespace Error

def kind : Error → ErrorKind
  | .missingKey _ | .noDiscriminator | .missingField .. | .missingSection _ | .undeclared ..
  | .unknownSpelling _ | .noArgument _ => .missing
  | .unknownNodeTag .. | .unknownTypeTag _ | .notSingleKey _ | .notObjectPayload ..
  | .badPayload .. | .notTagged | .notNode _ | .badPair .. | .takenTag .. | .nullInName
  | .sharedDefault .. | .kindsDiffer .. | .badTemplate _ => .invalid
  | .malformed _ => .malformedText
  | .noSuchFlag .. | .noSuchPosition _ | .positionTooLarge | .noPosition _ => .range
  | .unnestedFeatures .. => .conflict
  | .flagsFromText _ | .wrongType => .wrongType
  | .noAttribute => .noAttribute

/-- The message of an error. A value that does not support what is asked of it has none. -/
def message? : Error → Option String
  | .missingKey key => key.display
  | .noDiscriminator => "Missing required 'node' field"
  | .missingField key tag => s!"Missing required '{key.display}' field for {tag.display}"
  | .missingSection name => s!"Missing required key '{name}' in definitions data"
  | .unknownNodeTag tag known =>
    s!"Unknown node tag '{tag.display}'. " ++
      s!"Available node tags: {(Value.list (known.map .scalar)).literal}"
  | .unknownTypeTag tag => s!"Unknown type tag '{tag}'"
  | .notSingleKey found =>
    s!"Expected a single-key type object, got {(Value.ofJson found).literal}"
  | .notObjectPayload tag found =>
    s!"Expected an object payload for '{tag}', got {(Value.ofJson found).literal}"
  | .badPayload tag field shape found =>
    s!"Invalid payload for '{tag}.{field}' ({shape.toText}): " ++
      (Value.ofJson found).literal
  | .notTagged => "Expected JSON object with a 'node' or type tag"
  | .notNode className => s!"Expected a node in 'types', got {className}"
  | .badPair position length =>
    s!"dictionary update sequence element #{position} has length {length}; 2 is required"
  | .malformed fault => fault.message
  | .takenTag tag holder =>
    s!"Tag '{tag.display}' already registered to {holder.display}. Choose a different tag."
  | .nullInName => "type name must not contain null characters"
  | .sharedDefault field table =>
    s!"mutable default <class '{table}'> for field {field} is not allowed: use default_factory"
  | .flagsFromText text =>
    s!"Features expects a sequence of flag names, got str {quoted text}"
  | .unnestedFeatures mine theirs =>
    s!"Feature sets {(Value.list mine).literal} and {(Value.list theirs).literal} " ++
      "are not nested; one must contain the other"
  | .noSuchFlag index count =>
    s!"Feature index {index.display} out of range for {count} flag(s)"
  | .undeclared ident declared =>
    s!"Node '{ident.display}' not found in definitions. " ++
      s!"Available node idents: {(Value.list declared).literal}"
  | .kindsDiffer ident stored added =>
    s!"Node '{ident.display}' declared as both {stored} and {added}"
  | .unknownSpelling spelling => s!"Unknown token spelling '{spelling.display}'"
  | .noSuchPosition collection => s!"{collection} index out of range"
  | .positionTooLarge => "cannot fit 'int' into an index-sized integer"
  | .noArgument name => name
  | .noPosition position =>
    s!"Replacement index {position} out of range for positional args tuple"
  | .badTemplate fault => fault
  | .wrongType | .noAttribute => none

end Error

end AstSchema
