import AstSchema.Definitions
import AstSchema.Proofs.Equality
import AstSchema.Proofs.NodeObject

/-! Nodes with any value for an ident, and what adding one of them does: it is joined with the first
stored node of an equal ident, or comes last if there is none. Idents may be stored repeatedly. -/
namespace AstSchema

/-- An object of a class of nodes that has an ident, whatever it is, and gates of its own. -/
structure GatedNode where
  cls : Class
  fields : List Value
  ident : Value
  flags : List Value
  isNode : cls.family = .node
  hasFields : fields.length = cls.fields.length
  hasIdent : (Value.object cls fields).field? "ident" = some ident
  hasFlags : (Value.object cls fields).field? "features" = some (Features.toValue flags)

def NodeObject.toGated (n : NodeObject) : GatedNode :=
  ⟨n.cls, n.fields, .text n.ident, n.flags, n.isNode, n.hasFields, n.hasIdent, n.hasFlags⟩

namespace GatedNode

def toValue (n : GatedNode) : Value := .object n.cls n.fields

theorem toValue_injective {m n : GatedNode} (h : m.toValue = n.toValue) : m = n := by
  obtain ⟨cls, fields, ident, flags, _, _, hident, hflags⟩ := m
  obtain ⟨cls', fields', ident', flags', _, _, hident', hflags'⟩ := n
  obtain ⟨rfl, rfl⟩ := Value.object.inj h
  obtain rfl := Option.some.inj (hident.symm.trans hident')
  obtain heq := (Value.object.inj (Option.some.inj (hflags.symm.trans hflags'))).2
  obtain rfl := Value.list.inj (List.cons.inj heq).1
  rfl

@[simp] theorem field_ident (n : GatedNode) : n.toValue.field "ident" = .ok n.ident := by
  unfold Value.field toValue
  rw [n.hasIdent]

@[simp] theorem field_features (n : GatedNode) :
    n.toValue.field "features" = .ok (Features.toValue n.flags) := by
  unfold Value.field toValue
  rw [n.hasFlags]

def withFlags (n : GatedNode) (flags : List Value) : GatedNode where
  cls := n.cls
  fields := (n.cls.fieldNames.zip n.fields).map fun (name, old) =>
    if name == "features" then Features.toValue flags else old
  ident := n.ident
  flags := flags
  isNode := n.isNode
  hasFields := by simp [Class.fieldNames, n.hasFields]
  hasIdent := by
    have h := n.toValue.field?_withField "features" "ident" (Features.toValue flags)
    unfold toValue at h
    rwa [n.hasIdent] at h
  hasFlags := by
    have h := n.toValue.field?_withField "features" "features" (Features.toValue flags)
    unfold toValue at h
    rwa [n.hasFlags] at h

theorem toValue_withFlags (n : GatedNode) (flags : List Value) :
    (n.withFlags flags).toValue = n.toValue.withField "features" (Features.toValue flags) := rfl

theorem locate_of_forall {nodes : List GatedNode} {ident : Value}
    (h : ∀ n ∈ nodes, n.ident.equal ident = false) :
    Value.locate ident (nodes.map toValue) = .ok none := by
  induction nodes with
  | nil => rfl
  | cons n nodes ih =>
    obtain ⟨hn, hnodes⟩ := List.forall_mem_cons.1 h
    simp [Value.locate, hn, ih hnodes, bind, Except.bind, pure, Except.pure]

theorem locate_append {before after : List GatedNode} {found : GatedNode} {ident : Value}
    (h : ∀ n ∈ before, n.ident.equal ident = false) (hfound : found.ident.equal ident) :
    Value.locate ident ((before ++ found :: after).map toValue) =
      .ok (some (before.length, found.toValue)) := by
  induction before with
  | nil => simp [Value.locate, hfound, bind, Except.bind, pure, Except.pure]
  | cons n before ih =>
    obtain ⟨hn, hbefore⟩ := List.forall_mem_cons.1 h
    have hrest := ih hbefore
    simp only [List.map_append, List.map_cons] at hrest
    simp [Value.locate, hn, hrest, bind, Except.bind, pure, Except.pure]

end GatedNode

theorem NodeObject.map_toValue_toGated (nodes : List NodeObject) :
    (nodes.map toGated).map GatedNode.toValue = nodes.map toValue := by
  rw [List.map_map]
  rfl

/-! ## One addition -/

namespace Definitions

def ofGated (tokens : Value) (nodes : List GatedNode) : Definitions :=
  ⟨.list (nodes.map GatedNode.toValue), tokens⟩

@[simp] theorem nodes_ofGated (tokens : Value) (nodes : List GatedNode) :
    (ofGated tokens nodes).nodes = .ok (nodes.map GatedNode.toValue) := rfl

@[simp] theorem items_toValue (flags : List Value) : (Features.toValue flags).items = .ok flags :=
  rfl

theorem resolve_gated_of_forall (tokens : Value) {nodes : List GatedNode} {ident : Value}
    (h : ∀ n ∈ nodes, n.ident.equal ident = false) :
    (ofGated tokens nodes).resolve ident = .error (.undeclared ident (nodes.map (·.ident))) := by
  have hidents : (nodes.map GatedNode.toValue).mapM (·.field "ident") =
      .ok (nodes.map (·.ident)) :=
    mapM_map_eq_ok fun n _ => n.field_ident
  simp only [resolve, nodes_ofGated, GatedNode.locate_of_forall h, hidents, bind, Except.bind]

theorem resolve_gated_append (tokens : Value) {before : List GatedNode} (after : List GatedNode)
    {stored : GatedNode} {ident : Value} (hbefore : ∀ n ∈ before, n.ident.equal ident = false)
    (hident : stored.ident.equal ident) :
    (ofGated tokens (before ++ stored :: after)).resolve ident =
      .ok (before.length, stored.toValue) := by
  simp only [resolve, nodes_ofGated, GatedNode.locate_append hbefore hident, bind, Except.bind]
  rfl

theorem joinGates_toValue (mine theirs : List Value) :
    joinGates (Features.toValue mine) (Features.toValue theirs) =
      (Features.join mine theirs).map Features.toValue := by
  change (do return (Features.toValue mine).withItems (← Features.join mine theirs)) = _
  cases Features.join mine theirs with
  | error e => rfl
  | ok flags => rfl

section

variable (tokens : Value) {before : List GatedNode} (after : List GatedNode)
  {stored node : GatedNode}

/-- What joining a stored node comes to. -/
def joiningOf (before : List GatedNode) (stored : GatedNode) (flags : List Value) : Joining :=
  ⟨before.length, stored.toValue, Features.toValue flags⟩

theorem withGates_joiningOf (flags : List Value) :
    (ofGated tokens (before ++ stored :: after)).withGates
        ((before ++ stored :: after).map GatedNode.toValue) (joiningOf before stored flags) =
      ofGated tokens (before ++ stored.withFlags flags :: after) := by
  simp [ofGated, joiningOf, withGates, withNodes, Value.withItems, GatedNode.toValue_withFlags]

/-- A node of a new ident comes last. -/
theorem receive_gated_of_forall {nodes : List GatedNode}
    (h : ∀ n ∈ nodes, n.ident.equal node.ident = false) :
    (ofGated tokens nodes).receive node.toValue = .ok .appended := by
  simp only [receive, GatedNode.field_ident, nodes_ofGated, GatedNode.locate_of_forall h, bind,
    Except.bind]
  rfl

/-- Any other is joined with the first stored node of an equal ident, unless their gates cannot
be. -/
theorem receive_gated_of_cls_eq (hbefore : ∀ n ∈ before, n.ident.equal node.ident = false)
    (hident : stored.ident.equal node.ident) (hcls : stored.cls = node.cls) :
    (ofGated tokens (before ++ stored :: after)).receive node.toValue =
      (Features.join stored.flags node.flags).map fun flags =>
        .joined (joiningOf before stored flags)
          (.ok (some (.consolidated node.ident stored.flags node.flags flags))) := by
  have hkind : sameKind stored.toValue node.toValue = true := by
    simp [sameKind, GatedNode.toValue, hcls]
  have hgates : canJoin (Features.toValue stored.flags) = true := rfl
  simp only [receive, GatedNode.field_ident, nodes_ofGated, GatedNode.locate_append hbefore hident,
    hkind, GatedNode.field_features, items_toValue, hgates, joinGates_toValue, bind, Except.bind]
  cases Features.join stored.flags node.flags with
  | error e => rfl
  | ok flags => rfl

/-- Another kind of node is refused, by the tags of both. -/
theorem receive_gated_of_cls_ne (hbefore : ∀ n ∈ before, n.ident.equal node.ident = false)
    (hident : stored.ident.equal node.ident) (hcls : stored.cls ≠ node.cls) :
    (ofGated tokens (before ++ stored :: after)).receive node.toValue = (do
      .error (.kindsDiffer node.ident (← tagOf stored.toValue) (← tagOf node.toValue))) := by
  have hkind : sameKind stored.toValue node.toValue = false := by
    simp [sameKind, GatedNode.toValue, hcls]
  simp only [receive, GatedNode.field_ident, nodes_ofGated, GatedNode.locate_append hbefore hident,
    hkind, bind, Except.bind]
  rfl

theorem add_gated_of_forall {nodes : List GatedNode}
    (h : ∀ n ∈ nodes, n.ident.equal node.ident = false) :
    (ofGated tokens nodes).add node.toValue =
      .ok ⟨ofGated tokens (nodes ++ [node]), nodes.length, .ok none⟩ := by
  rw [add, receive_gated_of_forall tokens h]
  simp only [nodes_ofGated, bind, Except.bind]
  simp [ofGated, withNodes, Value.withItems, pure, Except.pure]

theorem add_gated_of_cls_eq (hbefore : ∀ n ∈ before, n.ident.equal node.ident = false)
    (hident : stored.ident.equal node.ident) (hcls : stored.cls = node.cls) :
    (ofGated tokens (before ++ stored :: after)).add node.toValue =
      (Features.join stored.flags node.flags).map fun flags =>
        ⟨ofGated tokens (before ++ stored.withFlags flags :: after), before.length,
          .ok (some (.consolidated node.ident stored.flags node.flags flags))⟩ := by
  rw [add, receive_gated_of_cls_eq tokens after hbefore hident hcls]
  cases Features.join stored.flags node.flags with
  | error e => rfl
  | ok flags =>
    have hnext := @withGates_joiningOf tokens before after stored flags
    simp only [Except.map, nodes_ofGated, hnext, bind, Except.bind]
    rfl

theorem add_gated_of_cls_ne (hbefore : ∀ n ∈ before, n.ident.equal node.ident = false)
    (hident : stored.ident.equal node.ident) (hcls : stored.cls ≠ node.cls) :
    (ofGated tokens (before ++ stored :: after)).add node.toValue = (do
      .error (.kindsDiffer node.ident (← tagOf stored.toValue) (← tagOf node.toValue))) := by
  rw [add, receive_gated_of_cls_ne tokens after hbefore hident hcls]
  cases tagOf stored.toValue with
  | error e => rfl
  | ok mine => cases tagOf node.toValue <;> rfl

end

/-! ## Declarations -/

/-- An addition as a step that may be refused, by the log as well. -/
def declare (d : Definitions) (node : Value) : Except Error Definitions := do
  let addition ← d.add node
  let _ ← addition.event?
  return addition.definitions

/-- The definitions after a run of additions that all succeed. -/
def declareAll (d : Definitions) (nodes : List Value) : Except Error Definitions :=
  nodes.foldlM declare d

end Definitions

/-- What a declaration that succeeds makes of a row of nodes. -/
inductive GatedNode.Declares (node : GatedNode) : List GatedNode → List GatedNode → Prop
  | append : Declares node [] [node]
  | join {stored : GatedNode} {rest : List GatedNode} {flags : List Value}
      (hident : stored.ident.equal node.ident) (hcls : stored.cls = node.cls)
      (hjoin : Features.join stored.flags node.flags = .ok flags) :
      Declares node (stored :: rest) (stored.withFlags flags :: rest)
  | skip {stored : GatedNode} {rest next : List GatedNode}
      (hident : stored.ident.equal node.ident = false) (h : Declares node rest next) :
      Declares node (stored :: rest) (stored :: next)

namespace GatedNode

variable {node stored : GatedNode} {nodes before after next : List GatedNode}

theorem declares_iff_of_forall (h : ∀ n ∈ nodes, n.ident.equal node.ident = false) :
    node.Declares nodes next ↔ next = nodes ++ [node] := by
  induction nodes generalizing next with
  | nil =>
    refine ⟨?_, fun h => h ▸ .append⟩
    rintro ⟨⟩
    rfl
  | cons n nodes ih =>
    obtain ⟨hn, hnodes⟩ := List.forall_mem_cons.1 h
    constructor
    · rintro (_ | ⟨hident, -, -⟩ | ⟨-, hrest⟩)
      · simp [hn] at hident
      · rw [(ih hnodes).1 hrest]
        rfl
    · rintro rfl
      exact .skip hn ((ih hnodes).2 rfl)

theorem declares_append_iff (h : ∀ n ∈ before, n.ident.equal node.ident = false)
    (hident : stored.ident.equal node.ident) :
    node.Declares (before ++ stored :: after) next ↔
      stored.cls = node.cls ∧ ∃ flags, Features.join stored.flags node.flags = .ok flags ∧
        next = before ++ stored.withFlags flags :: after := by
  induction before generalizing next with
  | nil =>
    constructor
    · rintro (_ | ⟨-, hcls, hjoin⟩ | ⟨hne, -⟩)
      · exact ⟨hcls, _, hjoin, rfl⟩
      · simp [hident] at hne
    · rintro ⟨hcls, flags, hjoin, rfl⟩
      exact .join hident hcls hjoin
  | cons n before ih =>
    obtain ⟨hn, hbefore⟩ := List.forall_mem_cons.1 h
    constructor
    · rintro (_ | ⟨hne, -, -⟩ | ⟨-, hrest⟩)
      · simp [hn] at hne
      · obtain ⟨hcls, flags, hjoin, rfl⟩ := (ih hbefore).1 hrest
        exact ⟨hcls, flags, hjoin, rfl⟩
    · rintro ⟨hcls, flags, hjoin, rfl⟩
      exact .skip hn ((ih hbefore).2 ⟨hcls, flags, hjoin, rfl⟩)

end GatedNode

namespace Definitions

theorem declare_eq_ok_iff {tokens : Value} {nodes : List GatedNode} {node : GatedNode}
    {d : Definitions} :
    (ofGated tokens nodes).declare node.toValue = .ok d ↔
      ∃ next, node.Declares nodes next ∧ d = ofGated tokens next := by
  cases hfind : nodes.find? (·.ident.equal node.ident) with
  | none =>
    have h : ∀ n ∈ nodes, n.ident.equal node.ident = false := by simpa using hfind
    simp only [declare, add_gated_of_forall tokens h, GatedNode.declares_iff_of_forall h,
      exists_eq_left]
    exact ⟨fun h => (Except.ok.inj h).symm, fun h => h ▸ rfl⟩
  | some stored =>
    obtain ⟨hident, before, after, rfl, hbefore⟩ := List.find?_eq_some_iff_append.1 hfind
    have hbefore : ∀ n ∈ before, n.ident.equal node.ident = false := by simpa using hbefore
    simp only [GatedNode.declares_append_iff hbefore hident]
    by_cases hcls : stored.cls = node.cls
    · simp only [declare, add_gated_of_cls_eq tokens after hbefore hident hcls]
      cases Features.join stored.flags node.flags with
      | error e => simp [Except.map, bind, Except.bind]
      | ok flags => simp [Except.map, bind, Except.bind, pure, Except.pure, hcls, eq_comm]
    · simp only [declare, add_gated_of_cls_ne tokens after hbefore hident hcls, bind_eq_ok_iff]
      simp [hcls]

theorem declareAll_cons_eq_ok_iff {tokens : Value} {nodes calls : List GatedNode}
    {node : GatedNode} {d : Definitions} :
    (ofGated tokens nodes).declareAll ((node :: calls).map GatedNode.toValue) = .ok d ↔
      ∃ next, node.Declares nodes next ∧
        (ofGated tokens next).declareAll (calls.map GatedNode.toValue) = .ok d := by
  unfold declareAll
  rw [List.map_cons, List.foldlM_cons, bind_eq_ok_iff]
  simp only [declare_eq_ok_iff]
  constructor
  · rintro ⟨_, ⟨next, hdeclares, rfl⟩, hrest⟩
    exact ⟨next, hdeclares, hrest⟩
  · rintro ⟨next, hdeclares, hrest⟩
    exact ⟨_, ⟨next, hdeclares, rfl⟩, hrest⟩

end Definitions

end AstSchema
