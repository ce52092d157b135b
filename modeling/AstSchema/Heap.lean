import AstSchema.Object

/-! Gates as objects. All who hold the same gates see them change, so gates are known by their
address wherever they are held, and a heap has their flags. A node cannot change but for its gates,
and it owns those: its address is that of its gates. -/
namespace AstSchema

/-- The flags of all gates that were made, by address. Gates that are held in a flag are taken as
they look when the flag is given. -/
structure Heap where
  cells : List (List Value)

/-- Steps in which gates can be made. -/
abbrev Making := StateT Heap (Except Error)

namespace Value

/-- What stands for gates where they are held: an object of their class with the address for its
flags. The flags that gates are made with are a list, so no other value looks like this. -/
def gatesAt (cls : Class) (address : Nat) : Value := .object cls [.scalar (.int (.ofNat address))]

def address? : Value → Option Nat
  | .object ⟨_, _, .features, _, _⟩ [.scalar (.int (.ofNat address))] => some address
  | _ => none

end Value

namespace Heap

def flags (h : Heap) (address : Nat) : List Value := h.cells.getD address []

def write (h : Heap) (address : Nat) (flags : List Value) : Heap := ⟨h.cells.set address flags⟩

/-- An address that nothing holds yet. -/
def place (flags : List Value) : Making Nat :=
  modifyGet fun h => (h.cells.length, ⟨h.cells ++ [flags]⟩)

mutual
/-- How a value looks: all gates in it have the flags that they have now. -/
def view (h : Heap) : Value → Value
  | .scalar s => .scalar s
  | .list items => .list (viewItems h items)
  | .tuple items => .tuple (viewItems h items)
  | .mapping entries => .mapping (viewEntries h entries)
  | .object cls fields =>
    match (Value.object cls fields).address? with
    | some address => .object cls [.list (h.flags address)]
    | none => .object cls (viewItems h fields)
termination_by structural v => v
def viewItems (h : Heap) : List Value → List Value
  | [] => []
  | v :: vs => view h v :: viewItems h vs
termination_by structural vs => vs
def viewEntries (h : Heap) : List (Scalar × Value) → List (Scalar × Value)
  | [] => []
  | (k, v) :: rest => (k, view h v) :: viewEntries h rest
termination_by structural entries => entries
end

/-- A value to be opened: gates show their flags, and what anything else holds is held on to. -/
def opened (h : Heap) (v : Value) : Value := if v.address?.isSome then h.view v else v

/-- How fields are settled in a heap: a node gets new gates with the flags of the given ones. -/
def settling : Class.Settling Making where
  tuple v := do Class.asTuple ((← get).opened v)
  gates v := do
    let flags ← Features.ofValue (← ((← get).view v).field "flags")
    return .gatesAt .features (← place flags)
  flags v := do
    let flags ← Features.ofValue ((← get).view v)
    return .scalar (.int (.ofNat (← place flags)))

def make (cls : Class) (fields : List Value) : Making Value :=
  return .object cls (← cls.settleBy settling fields)

def apply (cls : Class) (args : List Value) (named : List (String × Value)) : Making Value := do
  make cls (← cls.matchArguments args named)

/-- What was read from a document: its nodes own their gates as all nodes do. -/
def takeIn : Value → Making Value
  | .object cls fields =>
    if cls.family = .node then make cls fields else return .object cls fields
  | v => return v

end Heap

end AstSchema
