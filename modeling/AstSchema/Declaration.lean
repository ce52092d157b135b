import AstSchema.Error
import AstSchema.Text.Lowercase

/-! The declaration of classes: what is said of a new class, what it has under a name before any of
its fields is declared, and the fields that come of both. -/
namespace AstSchema

/-- A field to be declared, under a name that a declaration can write. Without a key of its own it
has its name for a key. -/
structure FieldDeclaration where
  name : String
  shape : Shape
  key? : Option Value

structure Declaration where
  name : String
  base : Class
  tag? : Option Value
  fields : List FieldDeclaration

namespace FieldDeclaration

/-- What is said of a field again replaces its shape, and its key if it says one. -/
def restate (f later : FieldDeclaration) : FieldDeclaration :=
  ⟨f.name, later.shape, later.key?.or f.key?⟩

def gather (fields : List FieldDeclaration) : List FieldDeclaration :=
  fields.foldl add []
where
  add : List FieldDeclaration → FieldDeclaration → List FieldDeclaration
    | [], f => [f]
    | g :: rest, f => if g.name == f.name then g.restate f :: rest else g :: add rest f

/-- A field that cannot be left out. -/
def required (f : FieldDeclaration) : FieldSpec :=
  match f.key? with
  | none => { name := f.name, shape := f.shape }
  | some (.scalar key) => { name := f.name, shape := f.shape, key? := some key }
  | some _ => { name := f.name, shape := f.shape, key? := none }

end FieldDeclaration

/-- What can stand for a field that is left out, or a table, which can change and so cannot. -/
inductive Standing where
  | blank (b : Blank)
  | table (name : String)

/-- What becomes of a key that is given to a field of a name the class has a use for: the field
has it, or the class keeps its own answer under the name and the key is lost, or there is no such
class. -/
inductive KeyUse where
  | kept
  | lost
  | refused (e : Error)

/-- What a class has a use for under a name, whatever fields are declared. -/
structure Attribute where
  name : String
  standing? : Option Standing
  keyUse : KeyUse := .kept

namespace Attribute

/-- A field that is left out stands for what the class has under its name, unless the field has a
key of its own and keeps it. -/
def spec (a : Attribute) (f : FieldDeclaration) : Except Error FieldSpec :=
  match f.key?, a.keyUse, a.standing? with
  | some _, .refused e, _ => .error e
  | some _, .kept, _ | _, _, none => .ok f.required
  | _, _, some (.table table) => .error (.sharedDefault f.name table)
  | _, _, some (.blank b) => .ok { name := f.name, shape := f.shape, blank? := some b }

/-- Methods, of objects and of classes. -/
def methods : List Attribute :=
  ["__call__", "__delattr__", "__dir__", "__eq__", "__format__", "__ge__", "__getattribute__",
    "__getstate__", "__gt__", "__hash__", "__init__", "__init_subclass__", "__instancecheck__",
    "__le__", "__lt__", "__match_args__", "__ne__", "__new__", "__or__", "__prepare__",
    "__reduce__", "__reduce_ex__", "__repr__", "__ror__", "__setattr__", "__sizeof__", "__str__",
    "__subclasscheck__", "__subclasses__", "__subclasshook__", "__weakref__", "mro"].map
    fun name => ⟨name, some (.blank .part), .kept⟩

/-- What is told of a class by nothing that it declares itself. -/
def answers : List Attribute :=
  ["__base__", "__bases__", "__basicsize__", "__class__", "__dataclass_params__",
    "__dictoffset__", "__flags__", "__itemsize__", "__mro__", "__weakrefoffset__"].map
    fun name => ⟨name, some (.blank .part), .lost⟩

def tables : List Attribute :=
  [⟨"registry", some (.table "dict"), .kept⟩,
    ⟨"__dataclass_fields__", some (.table "dict"), .kept⟩,
    ⟨"__dataclass_transform__", some (.table "dict"), .kept⟩,
    ⟨"__annotations__", some (.table "dict"), .refused .noAttribute⟩,
    ⟨"__dict__", some (.table "mappingproxy"), .lost⟩]

/-- What a declaration says to the interpreter rather than to the class. -/
def directives : List Attribute :=
  [⟨"__slots__", none, .refused .wrongType⟩, ⟨"__classcell__", none, .refused .wrongType⟩]

end Attribute

namespace Declaration

def home : String := "user"

/-- A class that asks for no tag is known by its name in small letters. A collection cannot be a
tag. -/
def tag (d : Declaration) : Except Error Scalar :=
  match d.tag? with
  | none => .ok (.text (lowercase d.name))
  | some (.scalar s) => .ok s
  | some _ => .error .wrongType

/-- A class has a tag and the registry of its family. -/
def tagName : String := "tag"

def registryName : String := "registry"

/-- What tells a class from others. -/
def particulars (d : Declaration) : List Attribute :=
  [⟨"__name__", some (.blank (.scalar (.text d.name))), .lost⟩,
    ⟨"__qualname__", some (.blank (.scalar (.text d.name))), .refused .wrongType⟩,
    ⟨"__module__", some (.blank (.scalar (.text home))), .refused .noAttribute⟩,
    ⟨"__doc__", some (.blank (.scalar .null)), .refused .wrongType⟩,
    ⟨"__text_signature__", some (.blank (.scalar .null)), .lost⟩]

/-- What the class has from the one that it extends: its tag, and what settles its fields. -/
def inherited (d : Declaration) : List Attribute :=
  (d.base.tag?.map fun tag => ⟨tagName, some (.blank (.scalar tag)), .kept⟩).toList ++
    if d.base.family = .node ∨ d.base.role = .tuple then
      [⟨"__post_init__", some (.blank .part), .kept⟩]
    else []

/-- All that a class has a use for before its fields are declared, as version 3.11 of the
interpreter has it. Under any other name there is nothing. -/
def attributes (d : Declaration) : List Attribute :=
  d.inherited ++ d.particulars ++ Attribute.tables ++ Attribute.directives ++ Attribute.answers ++
    Attribute.methods

def attribute? (d : Declaration) (name : String) : Option Attribute :=
  d.attributes.find? (·.name == name)

/-- The field as it is if there is nothing under its name. -/
def spec (d : Declaration) (f : FieldDeclaration) : Except Error FieldSpec :=
  match d.attribute? f.name with
  | none => .ok f.required
  | some found => found.spec f

/-- Fields named for the tag or the registry come first. -/
def rank (name : String) : Nat :=
  if name == tagName then 0
  else if name == registryName then 1
  else 2

/-- A field with an inherited name takes the inherited place; any other comes last of its rank. -/
def merge (inherited : List FieldSpec) (spec : FieldSpec) : List FieldSpec :=
  if inherited.any (·.name == spec.name) then
    inherited.map fun old => if old.name == spec.name then spec else old
  else
    let (before, after) := inherited.span fun old => rank old.name ≤ rank spec.name
    before ++ spec :: after

/-- Fields that can be left out come after all that cannot. -/
def blanksLast (fields : List FieldSpec) : Bool :=
  (fields.dropWhile (·.blank?.isNone)).all (·.blank?.isSome)

/-- Of several faults the first in order is told, where the interpreter may come upon another
one. -/
def allFields (d : Declaration) : Except Error (List FieldSpec) := do
  let own ← (FieldDeclaration.gather d.fields).mapM d.spec
  let fields := own.foldl merge d.base.fields
  if blanksLast fields then return fields else .error .wrongType

def toClass (d : Declaration) : Except Error Class := do
  let fields ← d.allFields
  return ⟨d.name, home, d.base.role, some (← d.tag), fields⟩

/-- What extends neither a type nor a node has no tag, and only the inherited fields. -/
def toPlainClass (d : Declaration) : Except Error Class :=
  if d.tag?.isSome then .error .wrongType else .ok ⟨d.name, home, d.base.role, none, d.base.fields⟩

end Declaration

end AstSchema
