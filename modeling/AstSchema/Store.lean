import AstSchema.Definitions
import AstSchema.Heap

/-! Definitions that change. What becomes of a declaration is decided by how things look; then the
node that was passed is stored as it is, or the gates of the stored one get other flags, for all who
hold them. -/
namespace AstSchema

/-- The list of nodes and the table are those of these definitions alone. -/
structure Store where
  heap : Heap
  definitions : Definitions

namespace Store

def view (s : Store) : Definitions :=
  ⟨s.heap.view s.definitions.types, s.heap.view s.definitions.tokens⟩

/-- The definitions with the list of nodes in sight, and the nodes as they are held. -/
def opened (s : Store) : Definitions :=
  { s.definitions with types := s.heap.opened s.definitions.types }

/-- Gates at an address change for all who hold them. What else can be joined, a text or gates that
are held in a flag, is replaced where it is. -/
def joined (s : Store) (j : Joining) : Except Error Store := do
  let nodes ← s.opened.nodes
  let some node := nodes[j.position]? | return s
  match (node.field? "features").bind Value.address? with
  | some address => return { s with heap := s.heap.write address (← j.gates.items) }
  | none => return { s with definitions := s.opened.withGates nodes { j with stored := node } }

/-- The definitions after a declaration, the position of the node now stored, and what the log says
of it. -/
def follow (s : Store) (node : Value) :
    Receipt → Except Error (Store × Nat × Except Error (Option Event))
  | .appended => do
    let nodes ← s.opened.nodes
    return ({ s with definitions := s.opened.withNodes (nodes ++ [node]) }, nodes.length, .ok none)
  | .joined j event? => return (← s.joined j, j.position, event?)

def add (s : Store) (node : Value) : Except Error (Store × Nat × Except Error (Option Event)) := do
  s.follow node (← s.view.receive (s.heap.view node))

def joinFlags (s : Store) (ident flags : Value) : Except Error Store := do
  s.joined (← s.view.receiveFlags (s.heap.view ident) (s.heap.view flags))

end Store

end AstSchema
