import AstSchema.Proofs.Codec
import AstSchema.Proofs.Equality

/-! Well-formed types and nodes come back from their text, whatever its layout and whatever Unicode
scalar values their names are made of. -/
namespace AstSchema

/-! ## Documents of trees -/

section

variable {p : Scalar → Prop} (hp : ∀ s, p (.text s))
include hp

theorem TypeTree.all_toJson (t : TypeTree) : t.toJson.All p := by
  induction t with
  | name cls text => exact .object (by simp) (by simpa using Json.All.scalar (hp text))
  | wrap cls inner ih => exact .object (by simp) (by simpa using ih)
  | punctuated element punct ih =>
    have hpayload : (Json.object [("element", element.toJson), ("punct", .text punct)]).All p :=
      .object (by simp) (by simpa using ⟨ih, Json.All.scalar (hp punct)⟩)
    exact .object (by simp) (by simpa using hpayload)
  | tuple elements ih =>
    rw [toJson, toJsons_eq_map]
    exact .object (by simp) (by simpa using Json.All.array (by simpa using ih))

variable {ι φ π : Type} {ident : ι → Json} {flag : φ → Json} {pub : π → Json}

theorem FieldTree.all_toJson (hident : ∀ i, (ident i).All p) (f : FieldTree ι) :
    (f.toJson ident).All p :=
  .object (by simp) (by simpa using ⟨hident f.ident, f.type.all_toJson hp⟩)

theorem VariantTree.all_toJson (hident : ∀ i, (ident i).All p) (v : VariantTree ι) :
    (v.toJson ident).All p := by
  have htypes : (Json.array (v.types.map TypeTree.toJson)).All p :=
    .array (by simpa using fun t _ => t.all_toJson hp)
  exact .object (by simp) (by simpa using ⟨hident v.ident, htypes⟩)

theorem NodeTree.all_toJson (hident : ∀ i, (ident i).All p) (hflag : ∀ f, (flag f).All p)
    (hpub : ∀ b, (pub b).All p) (n : NodeTree ι φ π) : (n.toJson ident flag pub).All p := by
  have hflags : ∀ flags : List φ, (Json.array (flags.map flag)).All p := fun flags =>
    .array (by simpa using fun f _ => hflag f)
  have hgates : ∀ flags : List φ, (Json.object [("any", .array (flags.map flag))]).All p :=
    fun flags => .object (by simp) (by simpa using hflags flags)
  cases n with
  | struct i flags fields b =>
    have hfields : (Json.array (fields.map (FieldTree.toJson ident))).All p :=
      .array (by simpa using fun f _ => f.all_toJson hp hident)
    exact .object (by simp) (by
      simpa using ⟨Json.All.scalar (hp "struct"), hident i, hgates flags, hfields, hpub b⟩)
  | enum i flags variants =>
    have hvariants : (Json.array (variants.map (VariantTree.toJson ident))).All p :=
      .array (by simpa using fun v _ => v.all_toJson hp hident)
    exact .object (by simp) (by
      simpa using ⟨Json.All.scalar (hp "enum"), hident i, hgates flags, hvariants⟩)

end

/-! ## Trees as values -/

namespace Value

theorem keyed_array {js : List Json} (h : ∀ j ∈ js, (ofJson j).Keyed) :
    (ofJson (.array js)).Keyed := by
  rw [ofJson, ofJsonItems_eq_map]
  exact .list (List.forall_mem_map.2 h)

theorem keyed_object {members : List (String × Json)} (hkeys : (members.map (·.1)).Nodup)
    (h : ∀ m ∈ members, (ofJson m.2).Keyed) : (ofJson (.object members)).Keyed := by
  rw [ofJson, ofJsonMembers_eq_map]
  refine .mapping ?_ (List.forall_mem_map.2 h)
  rw [List.pairwise_map]
  refine (List.pairwise_map.1 hkeys).imp fun hne => ?_
  simpa [Scalar.same, Scalar.meaning] using hne

theorem keyed_ofJson {p : Scalar → Prop} {j : Json} (hj : j.All p) : (ofJson j).Keyed := by
  induction hj with
  | @scalar s _ => exact .scalar s
  | array _ ih => exact keyed_array ih
  | object hkeys _ ih => exact keyed_object hkeys ih

theorem keyed_type (t : TypeTree) : t.toValue.Keyed := by
  induction t with
  | name cls text => exact .object (by simpa using Keyed.scalar _)
  | wrap cls inner ih => exact .object (by simpa using ih)
  | punctuated element punct ih => exact .object (by simpa using ⟨ih, Keyed.scalar _⟩)
  | tuple elements ih =>
    rw [TypeTree.toValue, TypeTree.toValues_eq_map]
    exact .object (by simpa using Keyed.tuple (List.forall_mem_map.2 ih))

section

variable {ι φ π : Type} {ident : ι → Value} {flag : φ → Value} {pub : π → Value}
  (hident : ∀ i, (ident i).Keyed)
include hident

theorem keyed_field (f : FieldTree ι) : (f.toValue ident).Keyed :=
  .object (by simpa using ⟨hident f.ident, keyed_type f.type⟩)

theorem keyed_variant (v : VariantTree ι) : (v.toValue ident).Keyed :=
  .object (by simpa using ⟨hident v.ident,
    Keyed.tuple (List.forall_mem_map.2 fun t _ => keyed_type t)⟩)

theorem keyed_node (hflag : ∀ f, (flag f).Keyed) (hpub : ∀ b, (pub b).Keyed)
    (n : NodeTree ι φ π) : (n.toValue ident flag pub).Keyed := by
  have hgates : ∀ flags : List φ, (Features.toValue (flags.map flag)).Keyed := fun flags =>
    .object (by simpa using Keyed.list (List.forall_mem_map.2 fun f _ => hflag f))
  cases n with
  | struct i flags fields b =>
    have hfields : (tuple (fields.map (FieldTree.toValue ident))).Keyed :=
      .tuple (List.forall_mem_map.2 fun f _ => keyed_field hident f)
    exact .object (by simpa using ⟨hident i, hgates flags, hfields, hpub b⟩)
  | enum i flags variants =>
    have hvariants : (tuple (variants.map (VariantTree.toValue ident))).Keyed :=
      .tuple (List.forall_mem_map.2 fun v _ => keyed_variant hident v)
    exact .object (by simpa using ⟨hident i, hgates flags, hvariants⟩)

end

end Value

/-! ## Round trip -/

abbrev PlainDocument : Type := { j : Json // j.FloatFree }

/-- A node with any plain document for its idents, its flags and its visibility. -/
abbrev PlainNode : Type := NodeTree PlainDocument PlainDocument PlainDocument

inductive Tree where
  | type (t : TypeTree)
  | node (n : PlainNode)

namespace Tree

def toValue : Tree → Value
  | .type t => t.toValue
  | .node n => n.toValue (fun i => .ofJson i.1) (fun f => .ofJson f.1) (fun p => .ofJson p.1)

def toJson : Tree → Json
  | .type t => t.toJson
  | .node n => n.toJson (·.1) (·.1) (·.1)

theorem floatFree_text (s : String) : ∀ x, Scalar.text s ≠ .float x := by simp

theorem floatFree_toJson (x : Tree) : x.toJson.FloatFree := by
  cases x with
  | type t => exact t.all_toJson floatFree_text
  | node n => exact n.all_toJson floatFree_text (·.2) (·.2) (·.2)

theorem encode_toValue (x : Tree) : x.toValue.encode = .ok (.ofJson x.toJson) := by
  cases x with
  | type t => exact t.encode_toValue
  | node n => exact n.encode_toValue (·.1) (·.1) (·.1)

theorem decode_toJson (x : Tree) : Registry.builtin.decode x.toJson = .ok x.toValue := by
  cases x with
  | type t => exact t.decode_toJson
  | node n => exact n.decode_toJson (·.1) (·.1) (·.1)

theorem keyed (x : Tree) : x.toValue.Keyed := by
  have hdocument : ∀ j : PlainDocument, (Value.ofJson j.1).Keyed := fun j => Value.keyed_ofJson j.2
  cases x with
  | type t => exact Value.keyed_type t
  | node n => exact Value.keyed_node hdocument hdocument hdocument n

theorem equal_refl (x : Tree) : x.toValue.equal x.toValue := by
  refine Value.equal_refl x.keyed ?_
  cases x with
  | type t => cases t <;> rfl
  | node n => cases n <;> rfl

theorem decodeText_render {layout : Json.Layout} (hl : layout.IsBlank) (x : Tree) :
    Registry.builtin.decodeText (Json.render layout x.toJson) = .ok x.toValue := by
  obtain ⟨members, hmembers⟩ : ∃ members, x.toJson = .object members := by
    cases x with
    | type t => cases t <;> exact ⟨_, rfl⟩
    | node n => cases n <;> exact ⟨_, rfl⟩
  have hdecode := x.decode_toJson
  rw [Registry.decodeText, Json.read_render hl x.floatFree_toJson, hmembers]
  rwa [hmembers] at hdecode

end Tree

/-- Types and nodes have a text in every layout, and decoding it gives the object back: the very
same, in its class as in all its fields, and so an equal one. -/
theorem decodeText_encodeText (x : Tree) (indent : Option Int) :
    ∃ text v, x.toValue.encodeText (.ofIndent indent) = .ok text ∧
      Registry.builtin.decodeText text = .ok v ∧ v = x.toValue ∧ v.equal x.toValue :=
  ⟨Json.render (.ofIndent indent) x.toJson, x.toValue,
    Value.encodeText_of_encode x.encode_toValue (.ofIndent indent),
    x.decodeText_render (Json.Layout.isBlank_ofIndent indent), rfl, x.equal_refl⟩

end AstSchema
