import AstSchema.Json

/-! The document that a text says, or the first place where it stops being one. Numbers with a point
or an exponent are floating-point, all others integers of any size.

Texts are of Unicode scalar values, those that are read and those inside them, and what is proved of
every text is proved of these. -/
namespace AstSchema.Json

inductive Reason where
  | byteOrderMark
  | value
  | propertyName
  | colon
  | comma
  | unterminatedText
  | controlCharacter
  | escape
  | unicodeEscape
  | trailing
deriving DecidableEq

def Reason.message : Reason → String
  | .byteOrderMark => "Unexpected UTF-8 BOM (decode using utf-8-sig)"
  | .value => "Expecting value"
  | .propertyName => "Expecting property name enclosed in double quotes"
  | .colon => "Expecting ':' delimiter"
  | .comma => "Expecting ',' delimiter"
  | .unterminatedText => "Unterminated string starting at"
  | .controlCharacter => "Invalid control character at"
  | .escape => "Invalid \\escape"
  | .unicodeEscape => "Invalid \\uXXXX escape"
  | .trailing => "Extra data"

structure Halt where
  reason : Reason
  rest : List Char

/-- A reason at a place of the whole text: characters before it, and its line and column from one. -/
structure Fault where
  reason : Reason
  position : Nat
  line : Nat
  column : Nat
deriving DecidableEq

def Fault.message (f : Fault) : String :=
  s!"{f.reason.message}: line {f.line} column {f.column} (char {f.position})"

/-- What is left is as long as the text after the place, so its length gives the place. -/
def Halt.locate (h : Halt) (whole : List Char) : Fault :=
  let position := whole.length - h.rest.length
  let before := whole.take position
  ⟨h.reason, position, before.count '\n' + 1, (before.reverse.takeWhile (· != '\n')).length + 1⟩

def isBlank (c : Char) : Bool := c == ' ' || c == '\t' || c == '\n' || c == '\r'

def skipBlank (cs : List Char) : List Char := cs.dropWhile isBlank

def hexValue (c : Char) : Option Nat :=
  if '0' ≤ c && c ≤ '9' then some (c.toNat - 48)
  else if 'a' ≤ c && c ≤ 'f' then some (c.toNat - 87)
  else if 'A' ≤ c && c ≤ 'F' then some (c.toNat - 55)
  else none

def hexUnit (a b c d : Char) : Option Nat := do
  let a ← hexValue a
  let b ← hexValue b
  let c ← hexValue c
  let d ← hexValue d
  return ((a * 16 + b) * 16 + c) * 16 + d

def shortEscape (c : Char) : Option Nat :=
  if c == '\x22' || c == '\\' || c == '/' then some c.toNat
  else if c == 'b' then some 8
  else if c == 'f' then some 12
  else if c == 'n' then some 10
  else if c == 'r' then some 13
  else if c == 't' then some 9
  else none

/-- The units of a text up to its closing quote: code points, or halves of a surrogate pair. After
the four digits of a unit escape the text has to go on. -/
def readUnits (opening : List Char) : List Char → Except Halt (List Nat × List Char)
  | [] => .error ⟨.unterminatedText, opening⟩
  | c :: cs =>
    if c == '\x22' then .ok ([], cs)
    else if c == '\\' then
      match cs with
      | [] => .error ⟨.unterminatedText, opening⟩
      | 'u' :: a :: b :: d :: e :: rest =>
        match hexUnit a b d e, rest with
        | some u, _ :: _ => do
          let (units, rest) ← readUnits opening rest
          return (u :: units, rest)
        | _, _ => .error ⟨.unicodeEscape, cs⟩
      | 'u' :: _ => .error ⟨.unicodeEscape, cs⟩
      | e :: rest =>
        match shortEscape e with
        | some u => do
          let (units, rest) ← readUnits opening rest
          return (u :: units, rest)
        | none => .error ⟨.escape, c :: cs⟩
    else if c.toNat < 0x20 then .error ⟨.controlCharacter, c :: cs⟩
    else do
      let (units, rest) ← readUnits opening cs
      return (c.toNat :: units, rest)

/-- A high surrogate and the low one after it are one character. A half alone is no scalar
value: it becomes the replacement character, where a reader of any code points would keep it. -/
def joinUnits : List Nat → List Char
  | [] => []
  | [u] => [single u]
  | high :: low :: rest =>
    if 0xD800 ≤ high && high < 0xDC00 && 0xDC00 ≤ low && low < 0xE000 then
      Char.ofNat (0x10000 + (high - 0xD800) * 0x400 + (low - 0xDC00)) :: joinUnits rest
    else single high :: joinUnits (low :: rest)
where
  single (u : Nat) : Char := if 0xD800 ≤ u && u < 0xE000 then '\ufffd' else Char.ofNat u

def readText (opening : List Char) : Except Halt (String × List Char) := do
  let (units, rest) ← readUnits opening opening.tail
  return (String.ofList (joinUnits units), rest)

def readWord : List Char → Option (Scalar × List Char)
  | 'n' :: 'u' :: 'l' :: 'l' :: rest => some (.null, rest)
  | 't' :: 'r' :: 'u' :: 'e' :: rest => some (.bool true, rest)
  | 'f' :: 'a' :: 'l' :: 's' :: 'e' :: rest => some (.bool false, rest)
  | 'N' :: 'a' :: 'N' :: rest => some (.float .nan, rest)
  | 'I' :: 'n' :: 'f' :: 'i' :: 'n' :: 'i' :: 't' :: 'y' :: rest =>
    some (.float (.infinite false), rest)
  | '-' :: 'I' :: 'n' :: 'f' :: 'i' :: 'n' :: 'i' :: 't' :: 'y' :: rest =>
    some (.float (.infinite true), rest)
  | _ => none

def spanDigits (cs : List Char) : List Char × List Char :=
  (cs.takeWhile Char.isDigit, cs.dropWhile Char.isDigit)

/-- The whole part: a zero stands alone, any other digit takes the digits after it along. -/
def readWhole : List Char → List Char × List Char
  | '0' :: rest => (['0'], rest)
  | cs => spanDigits cs

/-- A point counts only with a digit after it. -/
def readFraction : List Char → List Char × List Char
  | '.' :: rest =>
    match spanDigits rest with
    | ([], _) => ([], '.' :: rest)
    | split => split
  | cs => ([], cs)

/-- An exponent counts only with a digit in it. -/
def readPower (cs : List Char) : Option Int × List Char :=
  match cs with
  | e :: rest =>
    if e == 'e' || e == 'E' then
      let (negative, digits) := match rest with
        | '-' :: rest => (true, rest)
        | '+' :: rest => (false, rest)
        | rest => (false, rest)
      match spanDigits digits with
      | ([], _) => (none, cs)
      | (ds, rest) =>
        let n : Int := Nat.ofDigitChars 10 ds 0
        (some (if negative then -n else n), rest)
    else (none, cs)
  | [] => (none, cs)

/-- Whole numbers have any number of digits here. The interpreter refuses more than 4300 of them unless
it is told otherwise. -/
def readNumber (cs : List Char) : Option (Scalar × List Char) :=
  let (negative, cs) := match cs with
    | '-' :: rest => (true, rest)
    | cs => (false, cs)
  match readWhole cs with
  | ([], _) => none
  | (whole, cs) =>
    let (fraction, cs) := readFraction cs
    let (power, cs) := readPower cs
    if fraction.isEmpty && power.isNone then
      let n : Int := Nat.ofDigitChars 10 whole 0
      some (.int (if negative then -n else n), cs)
    else
      let digits := Nat.ofDigitChars 10 (whole ++ fraction) 0
      some (.float (.ofDecimal negative digits (power.getD 0 - fraction.length)), cs)

mutual
/-- The document in front. Every call goes one deeper or one item further, so twice the length of
the text is fuel enough. -/
def readValue : Nat → List Char → Except Halt (Json × List Char)
  | 0, cs => .error ⟨.value, cs⟩
  | fuel + 1, cs =>
    match cs with
    | '\x22' :: _ => do
      let (s, rest) ← readText cs
      return (.text s, rest)
    | '[' :: rest =>
      match skipBlank rest with
      | ']' :: rest => .ok (.array [], rest)
      | rest => do
        let (items, rest) ← readItems fuel rest
        return (.array items, rest)
    | '\x7b' :: rest =>
      match skipBlank rest with
      | '\x7d' :: rest => .ok (.object [], rest)
      | rest => do
        let (members, rest) ← readMembers fuel rest
        return (.object (Entries.ofPairs (· == ·) members), rest)
    | _ =>
      match readWord cs with
      | some (s, rest) => .ok (.scalar s, rest)
      | none =>
        match readNumber cs with
        | some (s, rest) => .ok (.scalar s, rest)
        | none => .error ⟨.value, cs⟩
/-- The items of an array from the first one on, its closing bracket included. -/
def readItems : Nat → List Char → Except Halt (List Json × List Char)
  | 0, cs => .error ⟨.value, cs⟩
  | fuel + 1, cs => do
    let (item, rest) ← readValue fuel cs
    match skipBlank rest with
    | ']' :: rest => return ([item], rest)
    | ',' :: rest =>
      let (items, rest) ← readItems fuel (skipBlank rest)
      return (item :: items, rest)
    | rest => .error ⟨.comma, rest⟩
/-- The members of an object from the first key on, its closing brace included. -/
def readMembers : Nat → List Char → Except Halt (List (String × Json) × List Char)
  | 0, cs => .error ⟨.value, cs⟩
  | fuel + 1, cs =>
    match cs with
    | '\x22' :: _ => do
      let (key, rest) ← readText cs
      match skipBlank rest with
      | ':' :: rest =>
        let (value, rest) ← readValue fuel (skipBlank rest)
        match skipBlank rest with
        | '\x7d' :: rest => return ([(key, value)], rest)
        | ',' :: rest =>
          let (members, rest) ← readMembers fuel (skipBlank rest)
          return ((key, value) :: members, rest)
        | rest => .error ⟨.comma, rest⟩
      | rest => .error ⟨.colon, rest⟩
    | _ => .error ⟨.propertyName, cs⟩
end

def read (text : String) : Except Fault Json :=
  let cs := text.toList
  let outcome : Except Halt (Json × List Char) :=
    if cs.head? == some '\ufeff' then .error ⟨.byteOrderMark, cs⟩
    else readValue (2 * cs.length + 2) (skipBlank cs)
  match outcome with
  | .error h => .error (h.locate cs)
  | .ok (j, rest) =>
    match skipBlank rest with
    | [] => .ok j
    | rest => .error (Halt.locate ⟨.trailing, rest⟩ cs)

/-- After a comma an item has to follow, and its place is the fault. -/
example : read "[\"\",]" = .error ⟨.value, 4, 1, 5⟩ := by rfl

/-- A text has to go on after the digits of an escape. -/
example : (match read "\"\\u0041" with
    | .error fault => some fault
    | .ok _ => none) = some ⟨.unicodeEscape, 2, 1, 3⟩ := by decide +kernel

end AstSchema.Json
