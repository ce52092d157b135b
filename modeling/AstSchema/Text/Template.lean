import AstSchema.Text.Digit

/-! Templates filled in without arguments: a doubled brace stands for one, and any field names an
argument that is not there. -/
namespace AstSchema.Template

/-- What a field asks for, or what is wrong with the template. -/
inductive Fault where
  | named (name : String)
  | numbered (position : Nat)
  | broken (reason : String)
deriving DecidableEq

/-- The name of a field, and the rest from the character on that ends it: a brace, a colon or an
exclamation mark outside of an index. -/
def fieldName (inIndex : Bool) : List Char → Except Fault (List Char × List Char)
  | [] => .error (.broken "expected '\x7d' before end of string")
  | c :: cs =>
    if inIndex then do
      let (name, rest) ← fieldName (c != ']') cs
      return (c :: name, rest)
    else if c == '\x7d' || c == ':' || c == '!' then .ok ([], c :: cs)
    else if c == '\x7b' then .error (.broken "unexpected '\x7b' in field name")
    else do
      let (name, rest) ← fieldName (c == '[') cs
      return (c :: name, rest)

/-- A format runs up to the brace that closes the field; braces in it nest. -/
def closeFormat : Nat → List Char → Except Fault Unit
  | _, [] => .error (.broken "unmatched '\x7b' in format spec")
  | 0, '\x7d' :: _ => .ok ()
  | depth + 1, '\x7d' :: cs => closeFormat depth cs
  | depth, '\x7b' :: cs => closeFormat (depth + 1) cs
  | depth, _ :: cs => closeFormat depth cs

/-- A conversion is one character, with the end of the field or a format after it. -/
def closeField : List Char → Except Fault Unit
  | ':' :: cs => closeFormat 0 cs
  | ['!'] => .error (.broken "end of string while looking for conversion specifier")
  | ['!', _] => closeFormat 0 []
  | '!' :: _ :: c :: cs =>
    if c == '\x7d' then .ok ()
    else if c == ':' then closeFormat 0 cs
    else .error (.broken "expected ':' after conversion specifier")
  | _ => .ok ()

def positionLimit : Nat := Nat.pow 2 63

/-- The position that a name says in decimal digits, or none if it has any other character. Reading
on from `position`, the first digit that leaves the limit behind ends it. -/
def positionFrom (position : Nat) : List Char → Except Fault (Option Nat)
  | [] => .ok (some position)
  | c :: cs =>
    match decimalDigit? c with
    | none => .ok none
    | some digit =>
      let next := 10 * position + digit
      if next < positionLimit then positionFrom next cs
      else .error (.broken "Too many decimal digits in format string")

/-- The argument that a name asks for, attributes and indices apart. Without a name it is the first
position. -/
def askedFor (name : List Char) : Fault :=
  let name := name.takeWhile fun c => c != '.' && c != '['
  match positionFrom 0 name with
  | .ok (some position) => .numbered position
  | .ok none => .named (String.ofList name)
  | .error fault => fault

def fieldFault (cs : List Char) : Fault :=
  let outcome := do
    let (name, rest) ← fieldName false cs
    closeField rest
    return name
  match outcome with
  | .ok name => askedFor name
  | .error fault => fault

def fillChars : List Char → Except Fault (List Char)
  | [] => .ok []
  | ['\x7b'] => .error (.broken "Single '\x7b' encountered in format string")
  | '\x7b' :: '\x7b' :: cs => return '\x7b' :: (← fillChars cs)
  | '\x7b' :: cs => .error (fieldFault cs)
  | '\x7d' :: '\x7d' :: cs => return '\x7d' :: (← fillChars cs)
  | '\x7d' :: _ => .error (.broken "Single '\x7d' encountered in format string")
  | c :: cs => return c :: (← fillChars cs)

def fill (s : String) : Except Fault String := return String.ofList (← fillChars s.toList)

end AstSchema.Template
