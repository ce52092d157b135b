import AstSchema.Proofs.Occurrences
import AstSchema.Proofs.RawNode
import AstSchema.Proofs.Walk

/-! What validation finds in well-formed definitions: every repeated ident, and every item that
names no declared node. -/
namespace AstSchema

/-! ## What there is to find -/

namespace TypeTree

def itemName? : TypeTree → Option String
  | .name .item text => some text
  | _ => none

def itemNames (t : TypeTree) : List String := t.preorder.filterMap itemName?

end TypeTree

namespace NodeTree

variable {ι φ π : Type}

/-- Fields with their type, or variants with their types. -/
def members : NodeTree ι φ π → List (ι × List TypeTree)
  | .struct _ _ fields _ => fields.map fun f => (f.ident, [f.type])
  | .enum _ _ variants => variants.map fun v => (v.ident, v.types)

/-- What stands between the idents of a node and of one of its members. -/
def separator : NodeTree ι φ π → String
  | .struct .. => "."
  | .enum .. => "::"

end NodeTree

namespace Problem

/-- A problem for each ident that occurs at least twice, at its first occurrence. -/
def repeated (location : String) (idents : List String) : List Value :=
  (idents.eraseDups.filter fun ident => 2 ≤ idents.count ident).map fun ident =>
    duplicate (.text location) (.text ident) (idents.count ident)

def undeclared (declared : List String) (location : String) (names : List String) : List Value :=
  (names.filter fun name => name ∉ declared).map fun name =>
    unresolved location (.text name) (declared.map .text)

variable {φ π : Type}

def ofNode (declared : List String) (n : NodeTree String φ π) : List Value :=
  repeated n.ident (n.members.map (·.1)) ++
    n.members.flatMap fun (ident, types) =>
      undeclared declared (n.ident ++ n.separator ++ ident) (types.flatMap TypeTree.itemNames)

/-- All problems in the order in which they are reported. -/
def ofNodes (nodes : List (NodeTree String φ π)) : List Value :=
  let idents := nodes.map (·.ident)
  repeated "definitions" idents ++ nodes.flatMap (ofNode idents)

end Problem

/-! ## Idents -/

private theorem map_filter_eq_filterMap {α β : Type} (p : α → Bool) (f : α → β) (xs : List α) :
    (xs.filter p).map f = xs.filterMap fun x => if p x then some (f x) else none := by
  induction xs with
  | nil => rfl
  | cons x xs ih => by_cases h : p x <;> simp [h, ih]

namespace Validate

theorem duplicates_texts (location : String) (idents : List String) :
    duplicates (.text location) (idents.map .text) = Problem.repeated location idents := by
  rw [duplicates, Value.tally_texts, Value.occurrences, List.filterMap_map, Problem.repeated,
    map_filter_eq_filterMap]
  refine List.filterMap_congr fun ident _ => ?_
  simp [Nat.succ_le_iff]

theorem any_isFoundBy (declared : List String) (name : String) :
    (declared.map Value.text).any (·.isFoundBy (.text name)) = decide (name ∈ declared) := by
  induction declared with
  | nil => rfl
  | cons d ds ih =>
    rw [List.map_cons, List.any_cons, ih, Value.isFoundBy_text, Bool.eq_iff_iff]
    simp only [Bool.or_eq_true, beq_iff_eq, decide_eq_true_eq, List.mem_cons]
    exact or_congr_left eq_comm

/-! ## Items -/

theorem itemName?_toValue (t : TypeTree) : itemName? t.toValue = t.itemName?.map .text := by
  cases t with
  | name cls text => cases cls <;> rfl
  | wrap cls inner => cases cls <;> rfl
  | punctuated element punct => rfl
  | tuple elements => rfl

end Validate

theorem Value.itemNames_toValue (t : TypeTree) : t.toValue.itemNames = t.itemNames.map .text := by
  rw [itemNames, TypeTree.itemNames, walk_toValue, List.filterMap_map, List.map_filterMap]
  exact List.filterMap_congr fun t _ => Validate.itemName?_toValue t

theorem Value.flatMap_itemNames_toValue (ts : List TypeTree) :
    (ts.map TypeTree.toValue).flatMap itemNames = (ts.flatMap TypeTree.itemNames).map .text := by
  rw [List.flatMap_map, List.map_flatMap]
  exact List.flatMap_congr fun t _ => itemNames_toValue t

theorem Problem.unfound_texts (declared : List String) (location : String) (names : List String) :
    unfound (declared.map .text) location (names.map .text) =
      undeclared declared location names := by
  rw [unfound, undeclared, map_filter_eq_filterMap, List.filterMap_map]
  refine List.filterMap_congr fun name _ => ?_
  rw [Function.comp_apply, Validate.any_isFoundBy]
  by_cases h : name ∈ declared <;> simp [h]

/-! ## Nodes -/

namespace NodeTree

section

variable {ι φ π : Type} (ident : ι → Value) (flag : φ → Value) (pub : π → Value)

def toRaw : NodeTree ι φ π → RawNode
  | .struct i flags fields p =>
    .struct (ident i) (flags.map flag) (fields.map fun f => (ident f.ident, f.type.toValue)) (pub p)
  | .enum i flags variants =>
    .enum (ident i) (flags.map flag)
      (variants.map fun v => (ident v.ident, v.types.map TypeTree.toValue))

theorem toValue_toRaw (n : NodeTree ι φ π) :
    (n.toRaw ident flag pub).toValue = n.toValue ident flag pub := by
  cases n with
  | struct i flags fields p =>
    rw [toRaw, RawNode.toValue, RawNode.values, List.map_map]
    rfl
  | enum i flags variants =>
    rw [toRaw, RawNode.toValue, RawNode.values, List.map_map]
    rfl

theorem ident_toRaw (n : NodeTree ι φ π) : (n.toRaw ident flag pub).ident = ident n.ident := by
  cases n <;> rfl

theorem separator_toRaw (n : NodeTree ι φ π) :
    (n.toRaw ident flag pub).separator = n.separator := by
  cases n <;> rfl

theorem members_toRaw (n : NodeTree ι φ π) :
    (n.toRaw ident flag pub).members =
      n.members.map fun m => (ident m.1, m.2.map TypeTree.toValue) := by
  cases n with
  | struct i flags fields p =>
    rw [toRaw, RawNode.members, members, List.map_map, List.map_map]
    rfl
  | enum i flags variants =>
    rw [toRaw, RawNode.members, members, List.map_map]
    rfl

theorem itemNames_toRaw (n : NodeTree ι φ π) : (n.toRaw ident flag pub).itemNames =
    (n.members.flatMap fun m => m.2.flatMap TypeTree.itemNames).map .text := by
  rw [RawNode.itemNames, members_toRaw, List.flatMap_map, List.map_flatMap]
  exact List.flatMap_congr fun m _ => Value.flatMap_itemNames_toValue m.2

end

variable {φ π : Type} (flag : φ → Value) (pub : π → Value)

/-- Texts can always be looked up. -/
theorem isHashable_sought_toRaw (n : NodeTree String φ π) :
    (n.toRaw .text flag pub).sought.all Value.isHashable := by
  rw [RawNode.sought, members_toRaw, itemNames_toRaw, List.map_map, List.all_append, List.all_map,
    List.all_map, Bool.and_eq_true, List.all_eq_true, List.all_eq_true]
  exact ⟨fun _ _ => rfl, fun _ _ => rfl⟩

end NodeTree

section

variable {φ π : Type} (flag : φ → Value) (pub : π → Value)

theorem Problem.ofRaw_toRaw (declared : List String) (n : NodeTree String φ π) :
    ofRaw (declared.map .text) (n.toRaw .text flag pub) = ofNode declared n := by
  rw [ofRaw, ofNode, n.members_toRaw, n.ident_toRaw, List.map_map, List.flatMap_map,
    ← Validate.duplicates_texts, List.map_map]
  refine congrArg _ (List.flatMap_congr fun m _ => ?_)
  change unfound _ (location (n.toRaw .text flag pub) (.text m.1))
    ((m.2.map TypeTree.toValue).flatMap Value.itemNames) = _
  rw [Value.flatMap_itemNames_toValue, unfound_texts, location, n.separator_toRaw, n.ident_toRaw]
  rfl

theorem Problem.ofRaws_toRaw (nodes : List (NodeTree String φ π)) :
    ofRaws (nodes.map (NodeTree.toRaw .text flag pub)) = ofNodes nodes := by
  have hidents : (nodes.map (NodeTree.toRaw .text flag pub)).map (·.ident) =
      (nodes.map (·.ident)).map .text := by
    rw [List.map_map, List.map_map]
    exact List.map_congr_left fun n _ => n.ident_toRaw .text flag pub
  rw [ofRaws, ofNodes, hidents, Validate.duplicates_texts, List.flatMap_map]
  exact congrArg _ (List.flatMap_congr fun n _ => ofRaw_toRaw flag pub _ n)

theorem Validate.problems_toValue (nodes : List (NodeTree String φ π)) :
    problems (nodes.map (NodeTree.toValue .text flag pub)) = .ok (Problem.ofNodes nodes) := by
  have hvalues : nodes.map (NodeTree.toValue .text flag pub) =
      (nodes.map (NodeTree.toRaw .text flag pub)).map RawNode.toValue := by
    rw [List.map_map]
    exact List.map_congr_left fun n _ => (n.toValue_toRaw .text flag pub).symm
  rw [hvalues, problems_eq, Problem.ofRaws_toRaw, if_pos]
  rw [List.map_map, List.flatMap_map, List.all_append, List.all_map, List.all_flatMap,
    Bool.and_eq_true, List.all_eq_true, List.all_eq_true]
  refine ⟨fun n _ => ?_, fun n _ => n.isHashable_sought_toRaw flag pub⟩
  simp only [Function.comp_apply, n.ident_toRaw]
  rfl

end

/-- Validation reports exactly the problems that there are, in their order, and succeeds if there
are none. Its one event counts the nodes and the problems. Flags, visibility and tokens do not
matter. -/
theorem validate_toValue {φ π : Type} (flag : φ → Value) (pub : π → Value)
    (nodes : List (NodeTree String φ π)) (tokens : Value) :
    ∃ success, validate
        (Definitions.toValue ⟨.list (nodes.map (NodeTree.toValue .text flag pub)), tokens⟩) =
      .ok (.object .report [.bool success, .list (Problem.ofNodes nodes)],
        .validated nodes.length (Problem.ofNodes nodes).length) ∧
      (success = true ↔ Problem.ofNodes nodes = []) := by
  refine ⟨(Problem.ofNodes nodes).isEmpty, ?_, List.isEmpty_iff⟩
  change (Validate.problems (nodes.map (NodeTree.toValue .text flag pub)) >>= fun problems =>
    Except.ok (Report.ofProblems problems,
      Event.validated (nodes.map (NodeTree.toValue .text flag pub)).length problems.length)) = _
  rw [Validate.problems_toValue, List.length_map]
  rfl

end AstSchema
