import AstSchema.Number.Shortest
import AstSchema.Text.Quoted

/-! Indivisible values. Numbers of every kind compare by the point of the line they stand for, so
`1`, `1.0` and `true` are equal; a text never equals a number. -/
namespace AstSchema

/-- Texts are rows of Unicode scalar values: half of a surrogate pair is in none of them. -/
inductive Scalar where
  | null
  | bool (b : Bool)
  | int (n : Int)
  | float (x : Binary64)
  | text (s : String)
deriving DecidableEq, Inhabited

/-- What a scalar stands for. Two scalars are the same exactly if they stand for the same thing. -/
inductive Meaning where
  | nothing
  | number (p : LinePoint)
  | noNumber
  | text (s : String)
deriving DecidableEq

namespace Scalar

def meaning : Scalar → Meaning
  | .null => .nothing
  | .bool b => .number (.ofInt (if b then 1 else 0))
  | .int n => .number (.ofInt n)
  | .float x => match x.point? with
    | some p => .number p
    | none => .noNumber
  | .text s => .text s

def isNaN (s : Scalar) : Bool := s.meaning == .noNumber

/-- Sameness inside a container: there is one NaN, and it is the same as itself. -/
def same (a b : Scalar) : Bool := a.meaning == b.meaning

/-- Equality as a question on its own: a NaN equals nothing. -/
def equal (a b : Scalar) : Bool := a.same b && !a.isNaN

theorem same_iff {a b : Scalar} : a.same b ↔ a.meaning = b.meaning := by
  simp [same]

@[simp] theorem same_refl (a : Scalar) : a.same a := same_iff.2 rfl

theorem same_comm (a b : Scalar) : a.same b = b.same a := by
  simp [same, BEq.comm]

theorem same_trans {a b c : Scalar} (hab : a.same b) (hbc : b.same c) : a.same c :=
  same_iff.2 ((same_iff.1 hab).trans (same_iff.1 hbc))

/-- Texts come in the order of their code points and numbers in that of the line; any other two
scalars have no order. A NaN is below nothing. -/
def lt? (a b : Scalar) : Option Bool :=
  match a.meaning, b.meaning with
  | .text s, .text t => some (s < t)
  | .number p, .number q => some (p.lt q)
  | .number _, .noNumber | .noNumber, .number _ | .noNumber, .noNumber => some false
  | _, _ => none

/-- All digits, however many. The interpreter refuses to write more than 4300 of them unless it is told
otherwise; like its limit on recursion, that is left out. -/
def writeInt (n : Int) : List Char :=
  if n < 0 then '-' :: Nat.toDigits 10 n.natAbs else Nat.toDigits 10 n.natAbs

/-- Positional from `0.0001` up to sixteen digits before the point. -/
def literalFloat : FloatLayout := ⟨-4, 15, 2, "inf", "nan"⟩

/-- The text of a scalar inside a larger value: texts are quoted. -/
def literal : Scalar → String
  | .null => "None"
  | .bool true => "True"
  | .bool false => "False"
  | .int n => String.ofList (writeInt n)
  | .float x => String.ofList (literalFloat.write x)
  | .text s => quoted s

/-- The text of a scalar by itself: a text is its own. -/
def display : Scalar → String
  | .text s => s
  | s => s.literal

def isTrue : Scalar → Bool
  | .null => false
  | .bool b => b
  | .int n => n != 0
  | .float x => !x.isZero
  | .text s => s != ""

/-- Sixteen digits before the point are the most: the next power of ten has an exponent. -/
example : (Scalar.float (.ofDecimal false 1 15)).literal = "1000000000000000.0" ∧
    (Scalar.float (.ofDecimal false 1 16)).literal = "1e+16" := by decide +kernel

end Scalar

end AstSchema
