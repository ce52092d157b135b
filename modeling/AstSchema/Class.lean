import AstSchema.Json

/-! Classes of objects: their tag, their fields in order, and the built-in ones. -/
namespace AstSchema

/-- What an object is for. A class declared later has the role of the built-in class it extends. -/
inductive Role where
  | type | item | std | ext | token | group | punctuated | option | box | vec | tuple
  | node | struct | enum
  | field | variant | features | definitions
  | problem | duplicateIdent | unresolvedItem | report
deriving DecidableEq

/-- Types and nodes are told apart by their own sets of tags; other objects carry no tag. -/
inductive Family where
  | type
  | node
  | plain
deriving DecidableEq

def Role.family : Role → Family
  | .type | .item | .std | .ext | .token | .group | .punctuated | .option | .box | .vec | .tuple =>
    .type
  | .node | .struct | .enum => .node
  | _ => .plain

inductive Shape where
  | text
  | type
  | types
  | other (written : String)
deriving DecidableEq

namespace Shape

def toText : Shape → String
  | .text => "str"
  | .type => "Type"
  | .types => "tuple[Type, ...]"
  | .other written => written

def ofText (written : String) : Shape :=
  if written == "str" then .text
  else if written == "Type" then .type
  else if written == "tuple[Type, ...]" then .types
  else .other written

@[simp] theorem toText_ofText (s : String) : (ofText s).toText = s := by
  unfold ofText
  split
  · simp_all [toText]
  · split
    · simp_all [toText]
    · split <;> simp_all [toText]

end Shape

inductive Blank where
  | list
  | tuple
  | mapping
  | scalar (s : Scalar)
  | part
deriving DecidableEq

/-- `key?` is the name of the field in documents; a field without one was declared with a collection
for a key, which no object can have. A field that is not `hashed` counts for equality alone. -/
structure FieldSpec where
  name : String
  shape : Shape
  key? : Option Scalar := some (.text name)
  hashed : Bool := true
  blank? : Option Blank := none
deriving DecidableEq

/-- `home` is the module that messages name as the place of the class. -/
structure Class where
  name : String
  home : String
  role : Role
  tag? : Option Scalar
  fields : List FieldSpec
deriving DecidableEq

namespace Class

def family (cls : Class) : Family := cls.role.family

def fieldNames (cls : Class) : List String := cls.fields.map (·.name)

def typeHome : String := "nodegen.types"

def nodeHome : String := "nodegen.nodes"

def builtinType (name tag : String) (role : Role) (fields : List FieldSpec) : Class :=
  ⟨name, typeHome, role, some (.text tag), fields⟩

/-- The base of all types has no tag, so no document says it. -/
def type : Class := ⟨"Type", typeHome, .type, none, []⟩

def item : Class := builtinType "Item" "item" .item [{ name := "name", shape := .text }]

def std : Class := builtinType "Std" "std" .std [{ name := "name", shape := .text }]

def ext : Class := builtinType "Ext" "ext" .ext [{ name := "name", shape := .text }]

def token : Class := builtinType "Token" "token" .token [{ name := "name", shape := .text }]

def group : Class := builtinType "Group" "group" .group [{ name := "name", shape := .text }]

def punctuated : Class := builtinType "Punctuated" "punctuated" .punctuated
  [{ name := "element", shape := .type }, { name := "punct", shape := .text }]

def option : Class := builtinType "Option" "option" .option [{ name := "inner", shape := .type }]

def box : Class := builtinType "Box" "box" .box [{ name := "inner", shape := .type }]

def vec : Class := builtinType "Vec" "vec" .vec [{ name := "inner", shape := .type }]

def tuple : Class := builtinType "Tuple" "tuple" .tuple
  [{ name := "elements", shape := .types }]

/-- Every node has an ident and gates; the gates do not count for hashing. -/
def nodeFields : List FieldSpec :=
  [{ name := "ident", shape := .text },
    { name := "features", shape := .other "Features", hashed := false }]

def node : Class := ⟨"Node", nodeHome, .node, none, nodeFields⟩

def struct : Class := ⟨"Struct", nodeHome, .struct, some (.text "struct"), nodeFields ++
  [{ name := "fields", shape := .other "tuple[Field, ...]" },
    { name := "all_fields_pub", shape := .other "bool" }]⟩

def enum : Class := ⟨"Enum", nodeHome, .enum, some (.text "enum"), nodeFields ++
  [{ name := "variants", shape := .other "tuple[Variant, ...]" }]⟩

/-- The type of a field has a key of its own in documents. -/
def field : Class := ⟨"Field", nodeHome, .field, none,
  [{ name := "ident", shape := .text }, { name := "ty", shape := .type, key? := some (.text "type") }]⟩

def variant : Class := ⟨"Variant", nodeHome, .variant, none,
  [{ name := "ident", shape := .text }, { name := "fields", shape := .types, blank? := some .tuple }]⟩

def features : Class := ⟨"Features", "nodegen.features", .features, none,
  [{ name := "flags", shape := .other "list[str]", blank? := some .list }]⟩

def definitions : Class := ⟨"Definitions", "nodegen.definitions", .definitions, none,
  [{ name := "types", shape := .other "list[Node]", blank? := some .list },
    { name := "tokens", shape := .other "dict[str, str]", blank? := some .mapping }]⟩

def problemHome : String := "nodegen.validate"

def problemFields : List FieldSpec :=
  [{ name := "location", shape := .text }, { name := "message", shape := .text }]

def problem : Class := ⟨"ValidationError", problemHome, .problem, none, problemFields⟩

def duplicateIdent : Class :=
  ⟨"DuplicateIdentError", problemHome, .duplicateIdent, none, problemFields ++
    [{ name := "ident", shape := .text }, { name := "count", shape := .other "int" }]⟩

def unresolvedItem : Class :=
  ⟨"UnresolvedItemError", problemHome, .unresolvedItem, none, problemFields ++
    [{ name := "name", shape := .text },
      { name := "available", shape := .other "tuple[str, ...]" }]⟩

def report : Class := ⟨"ValidationResult", problemHome, .report, none,
  [{ name := "success", shape := .other "bool" },
    { name := "errors", shape := .other "list[ValidationError]", blank? := some .list }]⟩

def builtinTypes : List Class :=
  [item, std, ext, token, group, punctuated, option, box, vec, tuple]

def builtinNodes : List Class := [struct, enum]

def builtins : List Class :=
  type :: builtinTypes ++ node :: builtinNodes ++
    [field, variant, features, definitions, problem, duplicateIdent, unresolvedItem, report]

def display (cls : Class) : String := s!"<class '{cls.home}.{cls.name}'>"

end Class

end AstSchema
