import AstSchema.Proofs.Consolidation
import AstSchema.Proofs.Gates
import AstSchema.Proofs.Validation

/-! Validation after one more declaration. A repeated declaration changes flags at most, which
nothing is checked against; a new one resolves the items that name it and adds the problems of its
own. -/
namespace AstSchema

/-! ## Problems -/

namespace Problem

/-- Whether it is about an item with this name. -/
def names (ident : String) : Value → Bool
  | .object cls fields => cls.role == .unresolvedItem &&
    ((Value.object cls fields).field? "name").any (·.equal (.text ident))
  | _ => false

/-- The problem, whatever idents were declared when it was found. -/
def withoutAvailable (problem : Value) : Value := problem.withField "available" (.tuple [])

@[simp] theorem names_duplicate (ident : String) (location v : Value) (count : Nat) :
    names ident (duplicate location v count) = false := rfl

@[simp] theorem names_unresolved (ident location name : String) (available : List Value) :
    names ident (unresolved location (.text name) available) = (name == ident) :=
  Value.equal_text name ident

@[simp] theorem withoutAvailable_duplicate (location v : Value) (count : Nat) :
    withoutAvailable (duplicate location v count) = duplicate location v count := rfl

@[simp] theorem withoutAvailable_unresolved (location : String) (name : Value)
    (available : List Value) :
    withoutAvailable (unresolved location name available) = unresolved location name [] := rfl

/-- What is left of these problems once an ident is declared, whatever was declared before. -/
def cured (ident : String) (problems : List Value) : List Value :=
  (problems.filter fun p => !names ident p).map withoutAvailable

theorem cured_append (ident : String) (ps qs : List Value) :
    cured ident (ps ++ qs) = cured ident ps ++ cured ident qs := by
  rw [cured, List.filter_append, List.map_append, cured, cured]

theorem cured_flatMap {α : Type} (ident : String) (f : α → List Value) (xs : List α) :
    cured ident (xs.flatMap f) = xs.flatMap fun x => cured ident (f x) := by
  rw [cured, List.filter_flatMap, List.map_flatMap]
  rfl

theorem map_withoutAvailable_repeated (location : String) (idents : List String) :
    (repeated location idents).map withoutAvailable = repeated location idents := by
  simp only [repeated, List.map_map, Function.comp_def, withoutAvailable_duplicate]

theorem cured_repeated (ident location : String) (idents : List String) :
    cured ident (repeated location idents) = repeated location idents := by
  have hnames : (repeated location idents).filter (fun p => !names ident p) =
      repeated location idents := by
    rw [List.filter_eq_self, repeated]
    exact List.forall_mem_map.2 fun _ _ => by rw [names_duplicate, Bool.not_false]
  rw [cured, hnames, map_withoutAvailable_repeated]

/-- An ident that is new comes up once. -/
theorem repeated_concat {idents : List String} {ident : String} (h : ident ∉ idents)
    (location : String) : repeated location (idents ++ [ident]) = repeated location idents := by
  have hcount : ∀ i ∈ idents.eraseDups, (idents ++ [ident]).count i = idents.count i := by
    intro i hi
    have hne : ident ≠ i := fun heq => h (heq ▸ List.mem_eraseDups.1 hi)
    rw [List.count_append, List.count_singleton, beq_false_of_ne hne]
    rfl
  have honce : [ident].filter (fun i => 2 ≤ (idents ++ [ident]).count i) = [] := by
    rw [List.filter_singleton, List.count_append, List.count_eq_zero_of_not_mem h,
      List.count_singleton_self]
    rfl
  have hfilter : idents.eraseDups.filter (fun i => 2 ≤ (idents ++ [ident]).count i) =
      idents.eraseDups.filter fun i => 2 ≤ idents.count i :=
    List.filter_congr fun i hi => by rw [hcount i hi]
  rw [repeated, eraseDups_concat_of_not_mem h, List.filter_append, hfilter, honce,
    List.append_nil, repeated]
  exact List.map_congr_left fun i hi => by rw [hcount i (List.mem_of_mem_filter hi)]

/-- Declaring an ident cures the items that name it, and no others. -/
theorem cured_undeclared (declared : List String) (ident location : String)
    (items : List String) :
    cured ident (undeclared declared location items) =
      (undeclared (declared ++ [ident]) location items).map withoutAvailable := by
  have hnames : items.filter (fun name => name ∉ declared ++ [ident]) =
      (items.filter fun name => name ∉ declared).filter fun name => !(name == ident) := by
    rw [List.filter_filter]
    refine List.filter_congr fun name _ => ?_
    by_cases hmem : name ∈ declared <;> by_cases heq : name = ident <;> simp [hmem, heq]
  rw [cured, undeclared, undeclared, List.filter_map, List.map_map, List.map_map, hnames]
  simp only [Function.comp_def, names_unresolved, withoutAvailable_unresolved]

variable {φ π : Type}

theorem cured_ofNode (declared : List String) (ident : String) (n : NodeTree String φ π) :
    cured ident (ofNode declared n) =
      (ofNode (declared ++ [ident]) n).map withoutAvailable := by
  rw [ofNode, ofNode, cured_append, cured_repeated, cured_flatMap, List.map_append,
    map_withoutAvailable_repeated, List.map_flatMap]
  simp only [cured_undeclared]

/-- With one more node the problems are those before it that it does not cure, then its own. -/
theorem ofNodes_concat {nodes : List (NodeTree String φ π)} {node : NodeTree String φ π}
    (h : node.ident ∉ nodes.map (·.ident)) :
    (ofNodes (nodes ++ [node])).map withoutAvailable =
      cured node.ident (ofNodes nodes) ++
        (ofNode (nodes.map (·.ident) ++ [node.ident]) node).map withoutAvailable := by
  have hidents : (nodes ++ [node]).map (·.ident) = nodes.map (·.ident) ++ [node.ident] := by simp
  rw [ofNodes, ofNodes, hidents, repeated_concat h, List.flatMap_append, List.flatMap_singleton,
    List.map_append, List.map_append, cured_append, cured_repeated, cured_flatMap,
    map_withoutAvailable_repeated, List.map_flatMap, List.append_assoc]
  simp only [cured_ofNode]

/-! ### Equality -/

theorem keyed_repeated (location : String) (idents : List String) :
    ∀ p ∈ repeated location idents, p.Keyed := by
  refine List.forall_mem_map.2 fun ident _ => .object ?_
  simpa using ⟨.scalar _, .scalar _, .scalar _, .scalar _⟩

theorem keyed_undeclared (declared : List String) (location : String) (items : List String) :
    ∀ p ∈ undeclared declared location items, p.Keyed := by
  refine List.forall_mem_map.2 fun name _ => .object ?_
  simpa using ⟨.scalar _, .scalar _, .scalar _,
    Value.Keyed.tuple (List.forall_mem_map.2 fun d _ => .scalar (.text d))⟩

theorem keyed_ofNodes (nodes : List (NodeTree String φ π)) : ∀ p ∈ ofNodes nodes, p.Keyed := by
  refine List.forall_mem_append.2 ⟨keyed_repeated _ _, ?_⟩
  refine List.forall_mem_flatMap.2 fun n _ => ?_
  refine List.forall_mem_append.2 ⟨keyed_repeated _ _, ?_⟩
  exact List.forall_mem_flatMap.2 fun m _ => keyed_undeclared _ _ _

theorem equal_refl_report (nodes : List (NodeTree String φ π)) :
    (Report.ofProblems (ofNodes nodes)).equal (Report.ofProblems (ofNodes nodes)) := by
  refine Value.equal_refl (.object ?_) rfl
  simpa using ⟨.scalar _, Value.Keyed.list (keyed_ofNodes nodes)⟩

end Problem

/-! ## One more declaration -/

namespace NodeTree

section

variable {ι φ π : Type}

def flags : NodeTree ι φ π → List φ
  | .struct _ flags .. => flags
  | .enum _ flags _ => flags

def withFlags (flags : List φ) : NodeTree ι φ π → NodeTree ι φ π
  | .struct ident _ fields p => .struct ident flags fields p
  | .enum ident _ variants => .enum ident flags variants

end

variable {φ π : Type} (flag : φ → Value) (pub : π → Value)

def cls : NodeTree String φ π → Class
  | .struct .. => .struct
  | .enum .. => .enum

def fieldValues : NodeTree String φ π → List Value
  | .struct ident flags fields p => [.text ident, Features.toValue (flags.map flag),
      .tuple (fields.map (FieldTree.toValue .text)), pub p]
  | .enum ident flags variants => [.text ident, Features.toValue (flags.map flag),
      .tuple (variants.map (VariantTree.toValue .text))]

theorem family_cls (n : NodeTree String φ π) : n.cls.family = .node := by
  cases n <;> rfl

theorem length_fieldValues (n : NodeTree String φ π) :
    (n.fieldValues flag pub).length = n.cls.fields.length := by
  cases n <;> rfl

theorem field?_ident (n : NodeTree String φ π) :
    (Value.object n.cls (n.fieldValues flag pub)).field? "ident" = some (.text n.ident) := by
  cases n <;> rfl

theorem field?_features (n : NodeTree String φ π) :
    (Value.object n.cls (n.fieldValues flag pub)).field? "features" =
      some (Features.toValue (n.flags.map flag)) := by
  cases n <;> rfl

def toGated (n : NodeTree String φ π) : GatedNode :=
  ⟨n.cls, n.fieldValues flag pub, .text n.ident, n.flags.map flag, n.family_cls,
    n.length_fieldValues flag pub, n.field?_ident flag pub, n.field?_features flag pub⟩

@[simp] theorem toValue_toGated (n : NodeTree String φ π) :
    (n.toGated flag pub).toValue = n.toValue .text flag pub := by
  cases n <;> rfl

@[simp] theorem ident_toGated (n : NodeTree String φ π) :
    (n.toGated flag pub).ident = .text n.ident := rfl

@[simp] theorem flags_toGated (n : NodeTree String φ π) :
    (n.toGated flag pub).flags = n.flags.map flag := rfl

theorem withFlags_toGated (n : NodeTree String φ π) (flags : List φ) :
    (n.toGated flag pub).withFlags (flags.map flag) = (n.withFlags flags).toGated flag pub := by
  cases n <;> rfl

theorem withFlags_flags (n : NodeTree String φ π) : n.withFlags n.flags = n := by
  cases n <;> rfl

end NodeTree

namespace Problem

variable {φ π : Type}

theorem ofNode_withFlags (declared : List String) (flags : List φ) (n : NodeTree String φ π) :
    ofNode declared (n.withFlags flags) = ofNode declared n := by
  cases n <;> rfl

/-- The flags of a node do not matter. -/
theorem ofNodes_replace (before after : List (NodeTree String φ π)) (n : NodeTree String φ π)
    (flags : List φ) :
    ofNodes (before ++ n.withFlags flags :: after) = ofNodes (before ++ n :: after) := by
  have hident : (n.withFlags flags).ident = n.ident := by cases n <;> rfl
  simp only [ofNodes, List.map_append, List.map_cons, hident, List.flatMap_append,
    List.flatMap_cons, ofNode_withFlags]

end Problem

namespace Definitions

variable {φ π : Type} (flag : φ → Value) (pub : π → Value) (tokens : Value)

def ofTrees (nodes : List (NodeTree String φ π)) : Definitions :=
  ⟨.list (nodes.map (NodeTree.toValue .text flag pub)), tokens⟩

theorem ofGated_toGated (nodes : List (NodeTree String φ π)) :
    ofGated tokens (nodes.map (NodeTree.toGated flag pub)) = ofTrees flag pub tokens nodes := by
  rw [ofGated, ofTrees, List.map_map]
  congr 2
  exact List.map_congr_left fun n _ => n.toValue_toGated flag pub

theorem validate_ofTrees (nodes : List (NodeTree String φ π)) :
    validate (ofTrees flag pub tokens nodes).toValue =
      .ok (Report.ofProblems (Problem.ofNodes nodes),
        .validated nodes.length (Problem.ofNodes nodes).length) := by
  change (Validate.problems (nodes.map (NodeTree.toValue .text flag pub)) >>= fun problems =>
    Except.ok (Report.ofProblems problems,
      Event.validated (nodes.map (NodeTree.toValue .text flag pub)).length problems.length)) = _
  rw [Validate.problems_toValue, List.length_map]
  rfl

theorem attempt_of_not_mem {nodes : List (NodeTree String φ π)} {node : NodeTree String φ π}
    (h : node.ident ∉ nodes.map (·.ident)) :
    (ofTrees flag pub tokens nodes).attempt (node.toValue .text flag pub) =
      ofTrees flag pub tokens (nodes ++ [node]) := by
  have hnew : ∀ n ∈ nodes.map (NodeTree.toGated flag pub),
      n.ident.equal (node.toGated flag pub).ident = false := by
    refine List.forall_mem_map.2 fun n hn => ?_
    have hne : n.ident ≠ node.ident := fun heq => h (heq ▸ List.mem_map_of_mem hn)
    simpa using hne
  rw [← ofGated_toGated, ← node.toValue_toGated flag pub, attempt,
    add_gated_of_forall tokens hnew, ← ofGated_toGated, List.map_append]
  rfl

/-- A node that is there already stays as it is, or has its own flags or those declared now. -/
theorem attempt_gated_cases {before after : List GatedNode} {stored node : GatedNode}
    (hbefore : ∀ n ∈ before, n.ident.equal node.ident = false)
    (hident : stored.ident.equal node.ident) :
    (ofGated tokens (before ++ stored :: after)).attempt node.toValue =
        ofGated tokens (before ++ stored :: after) ∨
      ∃ flags, (flags = stored.flags ∨ flags = node.flags) ∧
        (ofGated tokens (before ++ stored :: after)).attempt node.toValue =
          ofGated tokens (before ++ stored.withFlags flags :: after) := by
  by_cases hcls : stored.cls = node.cls
  · rw [attempt, add_gated_of_cls_eq tokens after hbefore hident hcls]
    cases hjoin : Features.join stored.flags node.flags with
    | error e => exact .inl rfl
    | ok flags =>
      obtain ⟨-, rfl⟩ | ⟨-, -, rfl⟩ := Features.join_eq_ok_iff.1 hjoin
      · exact .inr ⟨node.flags, .inr rfl, rfl⟩
      · exact .inr ⟨stored.flags, .inl rfl, rfl⟩
  · rw [attempt, add_gated_of_cls_ne tokens after hbefore hident hcls]
    cases tagOf stored.toValue with
    | error e => exact .inl rfl
    | ok theirs =>
      cases tagOf node.toValue with
      | error e => exact .inl rfl
      | ok mine => exact .inl rfl

/-- A repeated declaration, taken or refused, leaves everything but the flags of one node. -/
theorem attempt_of_mem {nodes : List (NodeTree String φ π)} {node : NodeTree String φ π}
    (h : node.ident ∈ nodes.map (·.ident)) :
    ∃ before stored after flags, nodes = before ++ stored :: after ∧
      (ofTrees flag pub tokens nodes).attempt (node.toValue .text flag pub) =
        ofTrees flag pub tokens (before ++ stored.withFlags flags :: after) := by
  cases hfind : nodes.find? (·.ident == node.ident) with
  | none =>
    obtain ⟨n, hn, hident⟩ := List.mem_map.1 h
    exact absurd hident (by simpa using List.find?_eq_none.1 hfind n hn)
  | some stored =>
    obtain ⟨hident, before, after, rfl, hbefore⟩ := List.find?_eq_some_iff_append.1 hfind
    have hfirst : ∀ n ∈ before.map (NodeTree.toGated flag pub),
        n.ident.equal (node.toGated flag pub).ident = false :=
      List.forall_mem_map.2 fun n hn => by simpa using hbefore n hn
    have hstored : (stored.toGated flag pub).ident.equal (node.toGated flag pub).ident := by
      simpa using hident
    have hcases := @attempt_gated_cases tokens _ (after.map (NodeTree.toGated flag pub)) _ _ hfirst
      hstored
    refine ⟨before, stored, after, ?_⟩
    simp only [← ofGated_toGated, ← NodeTree.toValue_toGated, ← NodeTree.withFlags_toGated,
      List.map_append, List.map_cons, true_and]
    obtain hkept | ⟨_, rfl | rfl, hjoined⟩ := hcases
    · refine ⟨stored.flags, ?_⟩
      rw [NodeTree.withFlags_toGated, NodeTree.withFlags_flags]
      exact hkept
    · exact ⟨stored.flags, hjoined⟩
    · exact ⟨node.flags, hjoined⟩

/-- One more declaration, taken or refused, and validation before and after. If its ident is
declared already, the result is the same. Otherwise, apart from the idents shown as available, the
problems are those before it without the items that name it, then those of the new node itself. -/
theorem validate_attempt (nodes : List (NodeTree String φ π)) (node : NodeTree String φ π) :
    ∃ before after,
      (validate (ofTrees flag pub tokens nodes).toValue).map Prod.fst =
        .ok (Report.ofProblems before) ∧
      (validate ((ofTrees flag pub tokens nodes).attempt
        (node.toValue .text flag pub)).toValue).map Prod.fst = .ok (Report.ofProblems after) ∧
      (node.ident ∈ nodes.map (·.ident) →
        after = before ∧ (Report.ofProblems after).equal (Report.ofProblems before)) ∧
      (node.ident ∉ nodes.map (·.ident) →
        after.map Problem.withoutAvailable = Problem.cured node.ident before ++
          (Problem.ofNode (nodes.map (·.ident) ++ [node.ident]) node).map
            Problem.withoutAvailable) := by
  by_cases h : node.ident ∈ nodes.map (·.ident)
  · obtain ⟨before, stored, after, flags, rfl, hnext⟩ := attempt_of_mem flag pub tokens h
    rw [hnext, validate_ofTrees, validate_ofTrees, Problem.ofNodes_replace]
    exact ⟨_, _, rfl, rfl, fun _ => ⟨rfl, Problem.equal_refl_report _⟩, fun hnew => absurd h hnew⟩
  · rw [attempt_of_not_mem flag pub tokens h, validate_ofTrees, validate_ofTrees]
    exact ⟨_, _, rfl, rfl, fun hold => absurd hold h, fun _ => Problem.ofNodes_concat h⟩

end Definitions

end AstSchema
