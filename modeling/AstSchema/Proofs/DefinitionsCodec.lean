import AstSchema.Definitions
import AstSchema.Proofs.TextCodec

/-! Definitions come back from their document and from their text. The document has the tokens in
order, the generic text has them as they are, and a table is the same in any order. -/
namespace AstSchema

/-- Well-formed definitions: any nodes, repeated ones included, and texts for tokens, with no
spelling twice. -/
structure DefinitionsTree where
  nodes : List PlainNode
  tokens : List (String × String)
  nodup : (tokens.map (·.1)).Nodup

namespace DefinitionsTree

def table (d : DefinitionsTree) : List (Scalar × Value) :=
  d.tokens.map fun (spelling, name) => (.text spelling, .text name)

def toDefinitions (d : DefinitionsTree) : Definitions :=
  ⟨.list (d.nodes.map fun n => (Tree.node n).toValue), .mapping d.table⟩

def toJson (d : DefinitionsTree) : Json :=
  .object [("types", .array (d.nodes.map fun n => (Tree.node n).toJson)),
    ("tokens", .object (d.tokens.map fun (spelling, name) => (spelling, .text name)))]

def sorted (d : DefinitionsTree) : DefinitionsTree where
  nodes := d.nodes
  tokens := d.tokens.mergeSort fun a b => !decide (b.1 < a.1)
  nodup := ((List.mergeSort_perm d.tokens _).map _).nodup_iff.2 d.nodup

theorem tokens_sorted_perm (d : DefinitionsTree) : d.sorted.tokens.Perm d.tokens :=
  List.mergeSort_perm d.tokens _

theorem ofJson_tokens (d : DefinitionsTree) :
    Value.ofJson (.object (d.tokens.map fun (spelling, name) => (spelling, .text name))) =
      .mapping d.table := by
  rw [Value.ofJson, Value.ofJsonMembers_eq_map, List.map_map]
  rfl

/-! ## Encoding -/

/-- Texts have an order, and no text is a number, so the table is put in the order of its texts. -/
theorem sort_table (d : DefinitionsTree) : Tokens.sort d.table = .ok d.sorted.table := by
  have horder : Tokens.haveOrder d.table = true := by
    unfold table
    cases d.tokens with
    | nil => rfl
    | cons first rest => simp [Tokens.haveOrder, Scalar.lt?, Scalar.meaning]
  have hnumber : d.table.any (·.1.isNaN) = false := by
    simp [table, Scalar.isNaN, Scalar.meaning]
  have hmap : d.sorted.table = d.table.mergeSort fun a b => !Tokens.isBelow b a := by
    apply List.map_mergeSort
    intro a _ b _
    simp [Tokens.isBelow, Scalar.lt?, Scalar.meaning]
  rw [Tokens.sort, horder, hnumber, hmap]
  rfl

theorem mapM_encode_nodes (d : DefinitionsTree) :
    (d.nodes.map fun n => (Tree.node n).toValue).mapM Value.encode =
      .ok (d.nodes.map fun n => .ofJson (Tree.node n).toJson) :=
  mapM_map_eq_ok fun n _ => (Tree.node n).encode_toValue

theorem toDocument_toDefinitions (d : DefinitionsTree) :
    d.toDefinitions.toDocument = .ok (.ofJson d.sorted.toJson) := by
  rw [toJson, Value.ofJson, Value.ofJsonMembers, Value.ofJsonMembers, Value.ofJsonMembers,
    ofJson_tokens, Value.ofJson, Value.ofJsonItems_eq_map, List.map_map]
  change ((d.nodes.map fun n => (Tree.node n).toValue).mapM Value.encode >>= fun types =>
    Tokens.sort d.table >>= fun table => Except.ok (Value.mapping
      [(.text "types", .list types), (.text "tokens", .mapping table)])) = _
  rw [mapM_encode_nodes, sort_table]
  rfl

theorem toText_toDefinitions (d : DefinitionsTree) (layout : Json.Layout) :
    d.toDefinitions.toText layout = .ok (Json.render layout d.sorted.toJson) := by
  rw [Definitions.toText, d.toDocument_toDefinitions]
  change (do return Json.render layout (← (Value.ofJson d.sorted.toJson).toJson)) = _
  rw [Value.toJson_ofJson]
  rfl

/-- As a value among others, definitions keep their tokens as they are. -/
theorem encode_toDefinitions (d : DefinitionsTree) :
    d.toDefinitions.toValue.encode = .ok (.ofJson d.toJson) := by
  have htypes : Value.encode (.list (d.nodes.map fun n => (Tree.node n).toValue)) =
      .ok (.list (d.nodes.map fun n => .ofJson (Tree.node n).toJson)) := by
    rw [Value.encode, Value.encodeItems_eq_mapM, mapM_encode_nodes]
    rfl
  have htokens : Value.encode (.mapping d.table) = .ok (.mapping d.table) := by
    rw [← ofJson_tokens, Value.encode_ofJson]
  rw [toJson, Value.ofJson, Value.ofJsonMembers, Value.ofJsonMembers, Value.ofJsonMembers,
    ofJson_tokens, Value.ofJson, Value.ofJsonItems_eq_map, List.map_map, Definitions.toValue,
    toDefinitions, Value.encode.eq_def]
  simp only [Class.family, Class.definitions, Role.family, Value.encodeFields, htypes, htokens]
  rfl

/-! ## Decoding -/

theorem decodeEntry_toJson (n : PlainNode) :
    Definitions.decodeEntry .builtin (Tree.node n).toJson = .ok (Tree.node n).toValue := by
  rw [Definitions.decodeEntry, (Tree.node n).decode_toJson]
  cases n <;> rfl

theorem decode_toJson (d : DefinitionsTree) :
    Definitions.decode .builtin d.toJson = .ok d.toDefinitions := by
  have htypes : (d.nodes.map fun n => (Tree.node n).toJson).mapM
      (Definitions.decodeEntry .builtin) = .ok (d.nodes.map fun n => (Tree.node n).toValue) :=
    mapM_map_eq_ok fun n _ => decodeEntry_toJson n
  have htokens : Tokens.decode (.object (d.tokens.map fun (spelling, name) =>
      (spelling, .text name))) = .ok d.table := by
    have htable := d.ofJson_tokens
    rw [Value.ofJson] at htable
    exact congrArg Except.ok (Value.mapping.inj htable)
  change ((d.nodes.map fun n => (Tree.node n).toJson).mapM (Definitions.decodeEntry .builtin) >>=
    fun types => Tokens.decode (.object (d.tokens.map fun (spelling, name) =>
      (spelling, .text name))) >>= fun tokens =>
        Except.ok (Definitions.mk (.list types) (.mapping tokens))) = _
  rw [htypes, htokens]
  rfl

theorem floatFree_toJson (d : DefinitionsTree) : d.toJson.FloatFree := by
  have htypes : (Json.array (d.nodes.map fun n => (Tree.node n).toJson)).FloatFree :=
    .array (List.forall_mem_map.2 fun n _ => (Tree.node n).floatFree_toJson)
  have htokens : (Json.object (d.tokens.map fun (spelling, name) =>
      (spelling, .text name))).FloatFree :=
    .object (by rw [List.map_map]; exact d.nodup)
      (List.forall_mem_map.2 fun e _ => .scalar (Tree.floatFree_text e.2))
  exact .object (by simp) (by simpa using ⟨htypes, htokens⟩)

theorem decodeText_render (d : DefinitionsTree) {layout : Json.Layout} (hl : layout.IsBlank) :
    Definitions.decodeText .builtin (Json.render layout d.toJson) = .ok d.toDefinitions := by
  rw [Definitions.decodeText, Json.read_render hl d.floatFree_toJson]
  exact d.decode_toJson

/-! ## Round trip -/

end DefinitionsTree

namespace Definitions

/-- The same declarations, to the last flag and in the same order, and the same tokens in some
order. -/
structure Agree (d e : Definitions) : Prop where
  types_eq : d.types = e.types
  tokens_perm : ∃ ds es, d.tokens = .mapping ds ∧ e.tokens = .mapping es ∧ ds.Perm es
  equal : d.toValue.equal e.toValue

end Definitions

namespace DefinitionsTree

theorem pairwise_table (d : DefinitionsTree) :
    d.table.Pairwise fun a b => a.1.same b.1 = false := by
  rw [table, List.pairwise_map]
  refine (List.pairwise_map.1 d.nodup).imp fun hne => ?_
  simpa [Scalar.same, Scalar.meaning] using hne

/-- Definitions agree with any that have the same nodes and the same tokens in some order. -/
theorem agree_of_perm {d e : DefinitionsTree} (hnodes : d.nodes = e.nodes)
    (htokens : d.tokens.Perm e.tokens) : d.toDefinitions.Agree e.toDefinitions := by
  have hperm : d.table.Perm e.table := htokens.map _
  have htypes : (Value.list (d.nodes.map fun n => (Tree.node n).toValue)).same
      (.list (d.nodes.map fun n => (Tree.node n).toValue)) :=
    Value.same_refl (.list (List.forall_mem_map.2 fun n _ => (Tree.node n).keyed))
  have htable : (Value.mapping d.table).same (.mapping e.table) := by
    have hentries : Value.sameEntries d.table e.table :=
      Value.sameEntries_of_subset e.pairwise_table (fun _ he => hperm.mem_iff.1 he)
        (List.forall_mem_map.2 fun e _ => Value.same_refl (.scalar (.text e.2)))
    rw [Value.same, hperm.length_eq, hentries, beq_self_eq_true]
    rfl
  refine ⟨by rw [toDefinitions, toDefinitions, hnodes], ⟨_, _, rfl, rfl, hperm⟩, ?_⟩
  rw [Value.equal, Definitions.toValue, Definitions.toValue, Value.same, toDefinitions,
    toDefinitions, ← hnodes, Value.sameItems, Value.sameItems, Value.sameItems, htypes, htable]
  rfl

end DefinitionsTree

/-- Definitions have a document, a text of their own and the text of a value among others, in every
layout; each of the three decodes to definitions that agree with them. -/
theorem definitions_roundtrip (d : DefinitionsTree) (indent : Option Int) :
    (∃ j e, d.toDefinitions.toDocument = .ok (.ofJson j) ∧
      Definitions.decode .builtin j = .ok e ∧ e.Agree d.toDefinitions) ∧
    (∃ text e, d.toDefinitions.toText (.ofIndent indent) = .ok text ∧
      Definitions.decodeText .builtin text = .ok e ∧ e.Agree d.toDefinitions) ∧
    (∃ text e, d.toDefinitions.toValue.encodeText (.ofIndent indent) = .ok text ∧
      Definitions.decodeText .builtin text = .ok e ∧ e.Agree d.toDefinitions) := by
  have hblank := Json.Layout.isBlank_ofIndent indent
  have hsorted : d.sorted.toDefinitions.Agree d.toDefinitions :=
    DefinitionsTree.agree_of_perm rfl d.tokens_sorted_perm
  have htext : d.toDefinitions.toText (.ofIndent indent) =
      .ok (Json.render (.ofIndent indent) d.sorted.toJson) := by
    rw [Definitions.toText, d.toDocument_toDefinitions]
    change (do return Json.render _ (← (Value.ofJson d.sorted.toJson).toJson)) = _
    rw [Value.toJson_ofJson]
    rfl
  exact ⟨⟨d.sorted.toJson, _, d.toDocument_toDefinitions, d.sorted.decode_toJson, hsorted⟩,
    ⟨_, _, htext, d.sorted.decodeText_render hblank, hsorted⟩,
    ⟨_, _, Value.encodeText_of_encode d.encode_toDefinitions (.ofIndent indent),
      d.decodeText_render hblank, DefinitionsTree.agree_of_perm rfl (.refl _)⟩⟩

end AstSchema
