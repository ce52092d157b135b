import AstSchema.Proofs.DefinitionsCodec
import Mathlib.Data.List.Nodup
import Mathlib.Data.List.Perm.Subperm

/-! One text for equal definitions. A well-formed node has a single spelling, and the table is put
in the only order that ascends, so equal definitions have the same text and others never share one.
The generic text keeps the table as it is, and agrees just when that is in order already. -/
namespace AstSchema

/-! ## Values with a single spelling -/

namespace Value

/-- Its only scalars are texts and truth values, and there is no mapping in it. A text is the same
as no other scalar, and a truth value as no other than numbers. -/
inductive Textual : Value → Prop
  | text (s : String) : Textual (.text s)
  | bool (b : Bool) : Textual (.bool b)
  | list {items : List Value} (hitems : ∀ v ∈ items, Textual v) : Textual (.list items)
  | tuple {items : List Value} (hitems : ∀ v ∈ items, Textual v) : Textual (.tuple items)
  | object {cls : Class} {fields : List Value} (hfields : ∀ v ∈ fields, Textual v) :
      Textual (.object cls fields)

@[simp] theorem same_bool (b c : Bool) : (bool b).same (bool c) = (b == c) := by
  cases b <;> cases c <;> rfl

theorem eq_of_sameItems {vs ws : List Value}
    (h : ∀ v ∈ vs, ∀ {w : Value}, w.Textual → v.same w → v = w) (hws : ∀ w ∈ ws, w.Textual)
    (hsame : sameItems vs ws) : vs = ws := by
  induction vs generalizing ws with
  | nil =>
    cases ws with
    | nil => rfl
    | cons w ws => contradiction
  | cons v vs ih =>
    cases ws with
    | nil => contradiction
    | cons w ws =>
      obtain ⟨hv, hvs⟩ := List.forall_mem_cons.1 h
      obtain ⟨hw, hws⟩ := List.forall_mem_cons.1 hws
      rw [sameItems, Bool.and_eq_true] at hsame
      rw [hv hw hsame.1, ih hvs hws hsame.2]

theorem Textual.eq_of_same {v w : Value} (hv : v.Textual) (hw : w.Textual) (h : v.same w) :
    v = w := by
  induction hv generalizing w with
  | text s =>
    cases hw with
    | text t =>
      rw [same_text, beq_iff_eq] at h
      rw [h]
    | _ => contradiction
  | bool b =>
    cases hw with
    | bool c =>
      rw [same_bool, beq_iff_eq] at h
      rw [h]
    | _ => contradiction
  | list hitems ih =>
    cases hw with
    | list hws => rw [eq_of_sameItems ih hws h]
    | _ => contradiction
  | tuple hitems ih =>
    cases hw with
    | tuple hws => rw [eq_of_sameItems ih hws h]
    | _ => contradiction
  | object hfields ih =>
    cases hw with
    | object hws =>
      rw [same, Bool.and_eq_true, beq_iff_eq] at h
      rw [h.1, eq_of_sameItems ih hws h.2]
    | _ => contradiction

theorem textual_type (t : TypeTree) : t.toValue.Textual := by
  induction t with
  | name cls text => exact .object (by simpa using Textual.text text)
  | wrap cls inner ih => exact .object (by simpa using ih)
  | punctuated element punct ih => exact .object (by simpa using ⟨ih, Textual.text punct⟩)
  | tuple elements ih =>
    rw [TypeTree.toValue, TypeTree.toValues_eq_map]
    exact .object (by simpa using Textual.tuple (List.forall_mem_map.2 ih))

theorem textual_node (n : NodeTree String String Bool) :
    (n.toValue .text .text .bool).Textual := by
  have hgates : ∀ flags : List String, (Features.toValue (flags.map .text)).Textual := fun flags =>
    .object (by simpa using Textual.list (List.forall_mem_map.2 fun f _ => .text f))
  cases n with
  | struct i flags fields b =>
    have hfields : (tuple (fields.map (FieldTree.toValue .text))).Textual :=
      .tuple (List.forall_mem_map.2 fun f _ =>
        .object (by simpa using ⟨Textual.text f.ident, textual_type f.type⟩))
    exact .object (by simpa using ⟨Textual.text i, hgates flags, hfields, Textual.bool b⟩)
  | enum i flags variants =>
    have hvariants : (tuple (variants.map (VariantTree.toValue .text))).Textual :=
      .tuple (List.forall_mem_map.2 fun v _ => .object (by
        simpa using ⟨Textual.text v.ident,
          Textual.tuple (List.forall_mem_map.2 fun t _ => textual_type t)⟩))
    exact .object (by simpa using ⟨Textual.text i, hgates flags, hvariants⟩)

end Value

/-! ## Definitions in texts -/

section

variable {ι ι' φ φ' π π' : Type}

def FieldTree.map (f : ι → ι') (x : FieldTree ι) : FieldTree ι' := ⟨f x.ident, x.type⟩

def VariantTree.map (f : ι → ι') (v : VariantTree ι) : VariantTree ι' := ⟨f v.ident, v.types⟩

def NodeTree.map (f : ι → ι') (g : φ → φ') (h : π → π') : NodeTree ι φ π → NodeTree ι' φ' π'
  | .struct i flags fields p => .struct (f i) (flags.map g) (fields.map (FieldTree.map f)) (h p)
  | .enum i flags variants => .enum (f i) (flags.map g) (variants.map (VariantTree.map f))

theorem NodeTree.toValue_map (f : ι → ι') (g : φ → φ') (h : π → π') (ident : ι' → Value)
    (flag : φ' → Value) (pub : π' → Value) (n : NodeTree ι φ π) :
    (n.map f g h).toValue ident flag pub =
      n.toValue (ident ∘ f) (flag ∘ g) (pub ∘ h) := by
  cases n with
  | struct i flags fields p =>
    rw [map, toValue, List.map_map, List.map_map]
    rfl
  | enum i flags variants =>
    rw [map, toValue, List.map_map, List.map_map]
    rfl

end

/-- Definitions with texts for idents and flags and truth values for visibility. -/
structure TextDefinitions where
  nodes : List (NodeTree String String Bool)
  tokens : List (String × String)
  nodup : (tokens.map (·.1)).Nodup

namespace TextDefinitions

def toDefinitions (d : TextDefinitions) : Definitions :=
  ⟨.list (d.nodes.map (NodeTree.toValue .text .text .bool)),
    .mapping (d.tokens.map fun (spelling, name) => (.text spelling, .text name))⟩

def ofText (s : String) : PlainDocument := ⟨.text s, .scalar (by simp)⟩

def ofBool (b : Bool) : PlainDocument := ⟨.scalar (.bool b), .scalar (by simp)⟩

def toTree (d : TextDefinitions) : DefinitionsTree where
  nodes := d.nodes.map (NodeTree.map ofText ofText ofBool)
  tokens := d.tokens
  nodup := d.nodup

theorem toDefinitions_toTree (d : TextDefinitions) : d.toTree.toDefinitions = d.toDefinitions := by
  have hnodes : (d.nodes.map (NodeTree.map ofText ofText ofBool)).map
      (fun n => (Tree.node n).toValue) = d.nodes.map (NodeTree.toValue .text .text .bool) := by
    rw [List.map_map]
    exact List.map_congr_left fun n _ => n.toValue_map ofText ofText ofBool _ _ _
  rw [DefinitionsTree.toDefinitions, toTree, hnodes]
  rfl

end TextDefinitions

/-! ## The order of tokens -/

namespace DefinitionsTree

variable {d e : DefinitionsTree}

/-- No spelling comes twice, so two tokens that are neither below the other are one. -/
theorem eq_of_not_lt {a b : String × String} (ha : a ∈ d.tokens) (hb : b ∈ d.tokens)
    (hab : ¬ b.1 < a.1) (hba : ¬ a.1 < b.1) : a = b := by
  have hkey : a.1 = b.1 := String.le_antisymm (String.not_lt.1 hab) (String.not_lt.1 hba)
  exact List.inj_on_of_nodup_map d.nodup ha hb hkey

theorem pairwise_sorted (d : DefinitionsTree) :
    d.sorted.tokens.Pairwise fun a b => ¬ b.1 < a.1 := by
  have htrans : ∀ a b c : String × String,
      !decide (b.1 < a.1) → !decide (c.1 < b.1) → !decide (c.1 < a.1) := by
    intro a b c hab hbc
    simp only [Bool.not_eq_true', decide_eq_false_iff_not, String.not_lt] at hab hbc ⊢
    exact String.le_trans hab hbc
  have htotal : ∀ a b : String × String, !decide (b.1 < a.1) || !decide (a.1 < b.1) := by
    intro a b
    simp only [Bool.or_eq_true, Bool.not_eq_true', decide_eq_false_iff_not, String.not_lt]
    exact String.le_total a.1 b.1
  exact (List.pairwise_mergeSort htrans htotal d.tokens).imp fun hab => by simpa using hab

theorem sorted_tokens_eq_of_perm (h : d.tokens.Perm e.tokens) :
    d.sorted.tokens = e.sorted.tokens := by
  have hperm : d.sorted.tokens.Perm e.sorted.tokens :=
    d.tokens_sorted_perm.trans (h.trans e.tokens_sorted_perm.symm)
  refine hperm.eq_of_pairwise ?_ d.pairwise_sorted e.pairwise_sorted
  intro a b ha hb hab hba
  exact eq_of_not_lt (d := d.sorted) ha (hperm.mem_iff.2 hb) hab hba

theorem sorted_tokens_eq_iff :
    d.sorted.tokens = d.tokens ↔ (d.tokens.map (·.1)).Pairwise (· < ·) := by
  constructor
  · intro h
    have hsorted := d.pairwise_sorted
    rw [h] at hsorted
    have hne := d.nodup
    rw [List.Nodup, List.pairwise_map] at hne
    rw [List.pairwise_map]
    refine (hsorted.and hne).imp ?_
    intro a b ⟨hle, hne⟩
    by_contra hlt
    exact hne (String.le_antisymm (String.not_lt.1 hle) (String.not_lt.1 hlt))
  · intro h
    apply List.mergeSort_of_pairwise
    refine (List.pairwise_map.1 h).imp ?_
    intro a b hlt
    have hnot : ¬ b.1 < a.1 := fun hgt => String.lt_irrefl _ (String.lt_trans hlt hgt)
    simpa using hnot

/-- Tables that are the same have the same tokens in some order. -/
theorem perm_of_same (h : (Value.mapping d.table).same (.mapping e.table)) :
    d.tokens.Perm e.tokens := by
  rw [Value.same, Bool.and_eq_true, beq_iff_eq, Value.sameEntries_iff] at h
  obtain ⟨hlength, hentries⟩ := h
  have hsub : d.tokens ⊆ e.tokens := by
    rintro ⟨spelling, name⟩ hmem
    obtain ⟨v, hv, hsame⟩ := hentries _ (List.mem_map_of_mem hmem)
    obtain ⟨k, hk, hkey⟩ := Entries.exists_of_find? hv
    obtain ⟨⟨spelling', name'⟩, hmem', heq⟩ := List.mem_map.1 hk
    obtain ⟨rfl, rfl⟩ := Prod.mk.inj heq
    obtain rfl : spelling' = spelling := by simpa [Scalar.same, Scalar.meaning] using hkey
    obtain rfl : name = name' := by simpa using hsame
    exact hmem'
  have hnodup : d.tokens.Nodup := List.Nodup.of_map _ d.nodup
  refine (List.subperm_of_subset hnodup hsub).perm_of_length_le ?_
  simp only [table, List.length_map] at hlength
  omega

/-! ## Texts -/

theorem tokens_eq_of_toJson_eq (h : d.toJson = e.toJson) : d.tokens = e.tokens := by
  simp only [toJson, Json.object.injEq, List.cons.injEq, Prod.mk.injEq, true_and, and_true] at h
  refine List.map_injective_iff.2 ?_ h.2
  rintro ⟨a, b⟩ ⟨a', b'⟩ heq
  simpa using heq

end DefinitionsTree

theorem Json.render_injective {layout : Layout} (hl : layout.IsBlank) {j j' : Json}
    (hj : j.FloatFree) (hj' : j'.FloatFree) (h : render layout j = render layout j') : j = j' := by
  have hread := read_render hl hj
  rw [h, read_render hl hj'] at hread
  exact (Except.ok.inj hread).symm

namespace TextDefinitions

variable {d e : TextDefinitions}

theorem textual_types (d : TextDefinitions) : d.toDefinitions.types.Textual :=
  .list (List.forall_mem_map.2 fun n _ => Value.textual_node n)

/-- Equal definitions have the same document: the nodes are the same, and the tokens come in the
same order. -/
theorem toDocument_eq_of_equal (h : d.toDefinitions.toValue.equal e.toDefinitions.toValue) :
    d.toDefinitions.toDocument = e.toDefinitions.toDocument := by
  simp only [Value.equal, Definitions.toValue, Value.same, Value.sameItems, Bool.and_eq_true,
    and_true, beq_self_eq_true, true_and] at h
  obtain ⟨⟨htypes, htokens⟩, -⟩ := h
  have hnodes := d.textual_types.eq_of_same e.textual_types htypes
  have hsorted := DefinitionsTree.sorted_tokens_eq_of_perm
    (DefinitionsTree.perm_of_same (d := d.toTree) (e := e.toTree) htokens)
  have htable : Tokens.sort d.toTree.table = Tokens.sort e.toTree.table := by
    rw [DefinitionsTree.sort_table, DefinitionsTree.sort_table, DefinitionsTree.table, hsorted]
    rfl
  have hdocument : ∀ d : TextDefinitions, d.toDefinitions.toDocument = (do
      let types ← (← d.toDefinitions.types.items).mapM Value.encode
      return .mapping [(.text "types", .list types),
        (.text "tokens", .mapping (← Tokens.sort d.toTree.table))]) := fun _ => rfl
  rw [hdocument, hdocument, htable, hnodes]

theorem equal_of_sorted_eq (h : d.toTree.sorted.toJson = e.toTree.sorted.toJson) :
    d.toDefinitions.toValue.equal e.toDefinitions.toValue := by
  have hsorted : d.toTree.sorted.toDefinitions = e.toTree.sorted.toDefinitions := by
    have hdecode := d.toTree.sorted.decode_toJson
    rw [h, e.toTree.sorted.decode_toJson] at hdecode
    exact (Except.ok.inj hdecode).symm
  have hd : d.toTree.toDefinitions.Agree d.toTree.sorted.toDefinitions :=
    DefinitionsTree.agree_of_perm rfl d.toTree.tokens_sorted_perm.symm
  have he : e.toTree.sorted.toDefinitions.Agree e.toTree.toDefinitions :=
    DefinitionsTree.agree_of_perm rfl e.toTree.tokens_sorted_perm
  rw [← toDefinitions_toTree d, ← toDefinitions_toTree e]
  rw [hsorted] at hd
  exact Value.equal_trans hd.equal he.equal

end TextDefinitions

/-- Definitions have one text in each layout: equal ones share it, whatever the order of their
tables, and only they do. As a value among others they have that same text exactly if their table
ascends. -/
theorem toText_canonical (d e : TextDefinitions) (indent : Option Int) :
    ∃ text text' generic, d.toDefinitions.toText (.ofIndent indent) = .ok text ∧
      e.toDefinitions.toText (.ofIndent indent) = .ok text' ∧
      d.toDefinitions.toValue.encodeText (.ofIndent indent) = .ok generic ∧
      (d.toDefinitions.toValue.equal e.toDefinitions.toValue ↔ text = text') ∧
      (generic = text ↔ (d.tokens.map (·.1)).Pairwise (· < ·)) := by
  have hblank := Json.Layout.isBlank_ofIndent indent
  have htext : ∀ d : TextDefinitions, d.toDefinitions.toText (.ofIndent indent) =
      .ok (Json.render (.ofIndent indent) d.toTree.sorted.toJson) := by
    intro d
    rw [← d.toDefinitions_toTree]
    exact d.toTree.toText_toDefinitions (.ofIndent indent)
  have hgeneric : d.toDefinitions.toValue.encodeText (.ofIndent indent) =
      .ok (Json.render (.ofIndent indent) d.toTree.toJson) := by
    rw [← d.toDefinitions_toTree]
    exact Value.encodeText_of_encode d.toTree.encode_toDefinitions (.ofIndent indent)
  refine ⟨_, _, _, htext d, htext e, hgeneric, ⟨?_, ?_⟩, ?_⟩
  · intro hequal
    have hsame : d.toDefinitions.toText (.ofIndent indent) =
        e.toDefinitions.toText (.ofIndent indent) := by
      rw [Definitions.toText, TextDefinitions.toDocument_eq_of_equal hequal, Definitions.toText]
    rw [htext, htext] at hsame
    exact Except.ok.inj hsame
  · intro h
    exact TextDefinitions.equal_of_sorted_eq (Json.render_injective hblank
      d.toTree.sorted.floatFree_toJson e.toTree.sorted.floatFree_toJson h)
  · refine Iff.trans ?_ (DefinitionsTree.sorted_tokens_eq_iff (d := d.toTree))
    constructor
    · intro h
      exact (DefinitionsTree.tokens_eq_of_toJson_eq (Json.render_injective hblank
        d.toTree.floatFree_toJson d.toTree.sorted.floatFree_toJson h)).symm
    · intro h
      rw [DefinitionsTree.toJson, DefinitionsTree.toJson, h]
      rfl

end AstSchema
