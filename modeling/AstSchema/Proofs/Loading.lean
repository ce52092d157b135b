import AstSchema.Proofs.Normalization
import AstSchema.Proofs.ReportText
import AstSchema.Proofs.Resolution
import AstSchema.Proofs.Validation

/-! Definitions from documents, and what validation makes of them. Any document is taken for an
ident, but validation looks idents up and a report may have to tell them: a collection cannot be
looked up, and of the idents that are told each has to be a text. -/
namespace AstSchema

/-! ## What a document holds -/

theorem Json.All.items {p : Scalar → Prop} (hp : ∀ s, p (.text s)) {d : Json} {items : List Json}
    (hd : d.All p) (h : d.items = .ok items) : ∀ j ∈ items, j.All p := by
  cases d with
  | array js =>
    obtain rfl : js = items := Except.ok.inj h
    exact hd.item
  | object ms =>
    obtain rfl := Except.ok.inj h
    exact List.forall_mem_map.2 fun m _ => .scalar (hp m.1)
  | scalar s =>
    cases s with
    | text s =>
      obtain rfl := Except.ok.inj h
      exact List.forall_mem_map.2 fun c _ => .scalar (hp c)
    | _ => contradiction

theorem Value.isHashable_ofJson_iff (j : Json) :
    (ofJson j).isHashable ↔ ∃ s, ofJson j = .scalar s := by
  cases j with
  | scalar s => exact ⟨fun _ => ⟨s, rfl⟩, fun _ => rfl⟩
  | array items => simp [ofJson, isHashable, fingerprint?]
  | object ms => simp [ofJson, isHashable, fingerprint?]

/-- A look-up of a text finds that text and nothing else. -/
theorem Value.isFoundBy_text_iff {v : Value} {s : String} :
    v.isFoundBy (.text s) ↔ v = .text s := by
  rw [isFoundBy_eq_same]
  constructor
  · intro h
    cases v with
    | scalar a =>
      rw [same, Scalar.same_comm] at h
      rw [Scalar.eq_text_of_same h]
    | _ => contradiction
  · rintro rfl
    exact (Scalar.text s).same_refl

namespace RawNode

/-- The ident of the node and those of its members. -/
def idents (n : RawNode) : List Value := n.ident :: n.members.map (·.1)

/-- A node whose idents are documents and whose items are named by texts. -/
structure Loaded (n : RawNode) : Prop where
  idents : ∀ i ∈ n.idents, ∃ j, i = .ofJson j
  itemNames : ∀ name ∈ n.itemNames, ∃ s, name = .text s

end RawNode

variable {p : Scalar → Prop}

theorem NodeTree.loaded_toRaw {φ π : Type} (flag : φ → Value) (pub : π → Value)
    (n : NodeTree (DocumentOf p) φ π) :
    (n.toRaw (fun i => .ofJson i.1) flag pub).Loaded where
  idents := by
    rw [RawNode.idents, ident_toRaw, members_toRaw, List.map_map]
    exact List.forall_mem_cons.2
      ⟨⟨n.ident.1, rfl⟩, List.forall_mem_map.2 fun m _ => ⟨m.1.1, rfl⟩⟩
  itemNames := by
    rw [itemNames_toRaw]
    exact List.forall_mem_map.2 fun s _ => ⟨s, rfl⟩

namespace RawNode.Loaded

variable {n : RawNode}

/-- Names of items can always be looked up, and an ident can be if it is no collection. -/
theorem isHashable_iff (h : n.Loaded) :
    (n.ident.isHashable ∧ n.sought.all Value.isHashable) ↔ ∀ i ∈ n.idents, ∃ s, i = .scalar s := by
  have hnames : n.itemNames.all Value.isHashable := by
    rw [List.all_eq_true]
    intro name hname
    obtain ⟨s, rfl⟩ := h.itemNames name hname
    rfl
  have hidents : ∀ i ∈ n.idents, (i.isHashable ↔ ∃ s, i = .scalar s) := by
    intro i hi
    obtain ⟨j, rfl⟩ := h.idents i hi
    exact Value.isHashable_ofJson_iff j
  rw [sought, List.all_append, hnames, Bool.and_true, List.all_eq_true, ← forall₂_congr hidents,
    RawNode.idents, List.forall_mem_cons]

end RawNode.Loaded

/-! ## Definitions -/

namespace Definitions

/-- Both sections are there, and each entry of the first is read as a node. -/
theorem sections_of_decode {r : Registry} {j : Json} {d : Definitions} (h : decode r j = .ok d) :
    ∃ entries items types table tokens, j.member "types" = .ok entries ∧
      entries.items = .ok items ∧ items.mapM (decodeEntry r) = .ok types ∧
      j.member "tokens" = .ok table ∧ Tokens.decode table = .ok tokens ∧
      d = ⟨.list types, .mapping tokens⟩ := by
  simp only [decode, bind_eq_ok_iff] at h
  obtain ⟨hasTypes, -, h⟩ := h
  split at h
  next => contradiction
  next =>
    obtain ⟨hasTokens, -, h⟩ := bind_eq_ok_iff.1 h
    split at h
    next => contradiction
    next =>
      simp only [bind_eq_ok_iff] at h
      obtain ⟨entries, hentries, items, hitems, types, htypes, table, htable, tokens, htokens,
        hmake⟩ := h
      exact ⟨entries, items, types, table, tokens, hentries, hitems, htypes, htable, htokens,
        (Except.ok.inj hmake).symm⟩

theorem exists_node_of_decodeEntry (hp : ∀ s, p (.text s)) {j : Json} {v : Value} (hj : j.All p)
    (h : decodeEntry .builtin j = .ok v) :
    ∃ n : RawNode, v = n.toValue ∧ n.Loaded := by
  obtain ⟨x, hx, h⟩ := bind_eq_ok_iff.1 h
  obtain ⟨t, rfl, -⟩ | ⟨n, rfl, -⟩ := Json.exists_tree_of_decode hp hj hx
  · cases t with
    | name cls text => cases cls <;> contradiction
    | wrap cls inner => cases cls <;> contradiction
    | punctuated element punct => contradiction
    | tuple elements => contradiction
  · refine ⟨n.toRaw (fun i => .ofJson i.1) (fun f => .ofJson f.1) fun b => .ofJson b.1, ?_,
      n.loaded_toRaw _ _⟩
    rw [n.toValue_toRaw]
    cases n <;> exact (Except.ok.inj h).symm

theorem exists_nodes_of_decode (hp : ∀ s, p (.text s)) {j : Json} {d : Definitions} (hj : j.All p)
    (h : decode .builtin j = .ok d) :
    ∃ nodes : List RawNode, d = ofRaw d.tokens nodes ∧ ∀ n ∈ nodes, n.Loaded := by
  obtain ⟨entries, items, types, table, tokens, hentries, hitems, htypes, -, -, rfl⟩ :=
    sections_of_decode h
  obtain ⟨ms, rfl, hlookup⟩ := Json.member_eq_ok_iff.1 hentries
  have hall := (hj.member hlookup).items hp hitems
  obtain ⟨nodes, rfl, hnodes⟩ := exists_map_of_mapM_eq_ok
    (fun i hi v hv => exists_node_of_decodeEntry hp (hall i hi) hv) htypes
  exact ⟨nodes, rfl, hnodes⟩

/-- Definitions that were loaded can be validated exactly if no ident in them is a collection, and
the report has a text exactly if every item names a declared node or the first declared idents,
which the text then shows, are texts. -/
theorem validate_decoded {j : Json} {d : Definitions} (hj : j.All fun _ => True)
    (h : decode .builtin j = .ok d) :
    ∃ nodes : List RawNode, d = ofRaw d.tokens nodes ∧
      ((∃ report event, validate d.toValue = .ok (report, event)) ↔
        ∀ n ∈ nodes, ∀ i ∈ n.idents, ∃ s, i = .scalar s) ∧
      ∀ report event, validate d.toValue = .ok (report, event) →
        ((∃ text, Report.text report = .ok text) ↔
          (∀ n ∈ nodes, ∀ name ∈ n.itemNames, name ∈ nodes.map (·.ident)) ∨
            ∀ i ∈ (nodes.map (·.ident)).take Problem.shownLimit, i.isText) := by
  obtain ⟨nodes, hd, hloaded⟩ := exists_nodes_of_decode (fun _ => trivial) hj h
  have hvalidate : validate d.toValue =
      if (nodes.map (·.ident) ++ nodes.flatMap RawNode.sought).all Value.isHashable then
        .ok (Report.ofProblems (Problem.ofRaws nodes),
          .validated nodes.length (Problem.ofRaws nodes).length)
      else .error .wrongType := by
    rw [← validate_rawNodes d.tokens]
    exact congrArg (fun e => validate (toValue e)) hd
  have hhashable : (nodes.map (·.ident) ++ nodes.flatMap RawNode.sought).all Value.isHashable ↔
      ∀ n ∈ nodes, ∀ i ∈ n.idents, ∃ s, i = .scalar s := by
    rw [List.all_append, List.all_map, List.all_flatMap, Bool.and_eq_true, List.all_eq_true,
      List.all_eq_true, ← forall₂_and]
    exact forall₂_congr fun n hn => (hloaded n hn).isHashable_iff
  refine ⟨nodes, hd, ?_, ?_⟩
  · rw [← hhashable, hvalidate]
    cases (nodes.map (·.ident) ++ nodes.flatMap RawNode.sought).all Value.isHashable with
    | false => simp
    | true => exact ⟨fun _ => rfl, fun _ => ⟨_, _, rfl⟩⟩
  · intro report event hreport
    rw [hvalidate] at hreport
    split at hreport
    next =>
      obtain ⟨rfl, -⟩ := Prod.mk.inj (Except.ok.inj hreport)
      rw [Report.exists_text_ofRaws_iff]
      refine or_congr_left (forall₂_congr fun n hn => forall₂_congr fun name hname => ?_)
      obtain ⟨s, rfl⟩ := (hloaded n hn).itemNames name hname
      simp only [Value.isFoundBy_text_iff, exists_eq_right]
    next => contradiction

/-! ### One struct -/

/-- A struct with an item that names nothing. -/
def lonelyStruct (ident : Json) : Json := .object
  [("types", .array [.object
      [("node", .text "struct"), ("ident", ident), ("features", .object [("any", .array [])]),
        ("fields", .array [.object
          [("ident", .text "next"), ("type", .object [("item", .text "Leaf")])]]),
        ("all_fields_pub", .scalar (.bool true))]]),
    ("tokens", .object [])]

theorem all_lonelyStruct (ident : String) : (lonelyStruct (.text ident)).All fun _ => True := by
  have hscalar (s : Scalar) : (Json.scalar s).All fun _ => True := .scalar trivial
  have hitem : (Json.object [("item", .text "Leaf")]).All fun _ => True :=
    .object (by simp) (by simpa using hscalar _)
  have hfield : (Json.object [("ident", .text "next"),
      ("type", .object [("item", .text "Leaf")])]).All fun _ => True :=
    .object (by simp) (by simpa using ⟨hscalar _, hitem⟩)
  have hfields := Json.All.array (p := fun _ => True) (List.forall_mem_singleton.2 hfield)
  have hflags : (Json.array []).All fun _ => True := .array (by simp)
  have hgates : (Json.object [("any", .array [])]).All fun _ => True :=
    .object (by simp) (by simpa using hflags)
  refine .object (by simp) (List.forall_mem_cons.2 ⟨.array (List.forall_mem_singleton.2 ?_), ?_⟩)
  · exact .object (by simp) (by simpa using ⟨hscalar _, hscalar _, hgates, hfields, hscalar _⟩)
  · exact List.forall_mem_singleton.2 (.object (by simp) (by simp))

theorem validate_decoded_lonelyStruct :
    ∃ d, decode .builtin (lonelyStruct (.text "Path")) = .ok d ∧
      ∃ nodes : List RawNode, d = ofRaw d.tokens nodes ∧
        ((∃ report event, validate d.toValue = .ok (report, event)) ↔
          ∀ n ∈ nodes, ∀ i ∈ n.idents, ∃ s, i = .scalar s) := by
  obtain ⟨nodes, hd, hvalidate, -⟩ := validate_decoded (all_lonelyStruct "Path") rfl
  exact ⟨_, rfl, nodes, hd, hvalidate⟩

/-- An ident that is an array cannot be looked up, and one that is a number cannot be told. -/
theorem not_reported_lonelyStruct :
    (∃ d, decode .builtin (lonelyStruct (.array [.text "Path"])) = .ok d ∧
      validate d.toValue = .error .wrongType) ∧
    ∃ d report event, decode .builtin (lonelyStruct (.scalar (.int 5))) = .ok d ∧
      validate d.toValue = .ok (report, event) ∧ Report.text report = .error .wrongType :=
  ⟨⟨_, rfl, rfl⟩, _, _, _, rfl, rfl, rfl⟩

end Definitions

end AstSchema
