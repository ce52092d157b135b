import AstSchema.Json

/-! The text of a document, in printable characters of ASCII and line breaks between items only. -/
namespace AstSchema.Json

/-- A compact text is one line. An indented one has every item on a line of its own, set off by one
unit for each container around it. -/
inductive Layout where
  | compact
  | indented (unit : List Char)

namespace Layout

/-- Indentation by that many spaces; a negative width is no space. -/
def ofWidth (n : Int) : Layout := .indented (List.replicate n.toNat ' ')

def newline (layout : Layout) (depth : Nat) : List Char :=
  match layout with
  | .compact => []
  | .indented unit => '\n' :: (List.replicate depth unit).flatten

def comma : Layout → List Char
  | .compact => [',', ' ']
  | .indented _ => [',']

end Layout

/-- The code point of a character as one escape, or as a pair of surrogates past the first plane. -/
def escapeUnits (n : Nat) : List Char :=
  let escape (u : Nat) : List Char := '\\' :: 'u' :: hexDigits 4 u
  if n < 0x10000 then escape n
  else escape (0xD800 + (n - 0x10000) / 0x400) ++ escape (0xDC00 + (n - 0x10000) % 0x400)

def escapeChar (c : Char) : List Char :=
  if c == '\x22' || c == '\\' then ['\\', c]
  else if c == '\n' then ['\\', 'n']
  else if c == '\r' then ['\\', 'r']
  else if c == '\t' then ['\\', 't']
  else if c == '\x0c' then ['\\', 'f']
  else if c == '\x08' then ['\\', 'b']
  else if ' ' ≤ c && c ≤ '~' then [c]
  else escapeUnits c.toNat

def writeText (s : String) : List Char :=
  '\x22' :: s.toList.flatMap escapeChar ++ ['\x22']

/-- Floating-point numbers as in literals, except for the names of what is not finite. -/
def floatLayout : FloatLayout := ⟨-4, 15, 2, "Infinity", "NaN"⟩

def writeScalar : Scalar → List Char
  | .null => ['n', 'u', 'l', 'l']
  | .bool true => ['t', 'r', 'u', 'e']
  | .bool false => ['f', 'a', 'l', 's', 'e']
  | .int n => Scalar.writeInt n
  | .float x => floatLayout.write x
  | .text s => writeText s

mutual
def write (layout : Layout) (depth : Nat) : Json → List Char
  | .scalar s => writeScalar s
  | .array [] => ['[', ']']
  | .array (j :: js) =>
    '[' :: writeItems layout (depth + 1) [] (j :: js) ++ layout.newline depth ++ [']']
  | .object [] => ['\x7b', '\x7d']
  | .object (m :: ms) =>
    '\x7b' :: writeMembers layout (depth + 1) [] (m :: ms) ++ layout.newline depth ++ ['\x7d']
termination_by structural j => j
/-- Items each on their line; `lead` stands before the first. -/
def writeItems (layout : Layout) (depth : Nat) (lead : List Char) : List Json → List Char
  | [] => []
  | j :: js =>
    lead ++ layout.newline depth ++ write layout depth j ++
      writeItems layout depth layout.comma js
termination_by structural js => js
def writeMembers (layout : Layout) (depth : Nat) (lead : List Char) :
    List (String × Json) → List Char
  | [] => []
  | (k, j) :: ms =>
    lead ++ layout.newline depth ++ writeText k ++ [':', ' '] ++ write layout depth j ++
      writeMembers layout depth layout.comma ms
termination_by structural ms => ms
end

def render (layout : Layout) (j : Json) : String := String.ofList (write layout 0 j)

example : render (.ofWidth 1) (.array [.scalar .null, .array []]) = "[\n null,\n []\n]" := by rfl

/-- Past the first plane an escape is a pair. -/
example : escapeUnits 0x1F600 = "\\ud83d\\ude00".toList := by decide +kernel

end AstSchema.Json
