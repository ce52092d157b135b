import AstSchema.Proofs.GatedNode
import AstSchema.Proofs.Outcome
import AstSchema.Validate

/-! Structs and enums in whose fields any values stand, and what validation makes of them. It looks
up idents and the names of items; if all of these can be looked up it reports what there is to
report, and it fails otherwise. -/
namespace AstSchema

/-- Nothing is asked of idents, flags, visibility or types. -/
inductive RawNode where
  | struct (ident : Value) (flags : List Value) (fields : List (Value × Value)) (allPublic : Value)
  | enum (ident : Value) (flags : List Value) (variants : List (Value × List Value))

/-- The names of all items that stand in a type. -/
def Value.itemNames (t : Value) : List Value := t.walk.filterMap Validate.itemName?

namespace RawNode

def ident : RawNode → Value
  | .struct ident .. => ident
  | .enum ident .. => ident

def flags : RawNode → List Value
  | .struct _ flags .. => flags
  | .enum _ flags _ => flags

def withFlags (flags : List Value) : RawNode → RawNode
  | .struct ident _ fields p => .struct ident flags fields p
  | .enum ident _ variants => .enum ident flags variants

/-- Fields with their type, or variants with their types. -/
def members : RawNode → List (Value × List Value)
  | .struct _ _ fields _ => fields.map fun f => (f.1, [f.2])
  | .enum _ _ variants => variants

def separator : RawNode → String
  | .struct .. => "."
  | .enum .. => "::"

def cls : RawNode → Class
  | .struct .. => .struct
  | .enum .. => .enum

def fieldValue (f : Value × Value) : Value := .object .field [f.1, f.2]

def variantValue (v : Value × List Value) : Value := .object .variant [v.1, .tuple v.2]

def values : RawNode → List Value
  | .struct ident flags fields p =>
    [ident, Features.toValue flags, .tuple (fields.map fieldValue), p]
  | .enum ident flags variants =>
    [ident, Features.toValue flags, .tuple (variants.map variantValue)]

def toValue (n : RawNode) : Value := .object n.cls n.values

def toGated (n : RawNode) : GatedNode where
  cls := n.cls
  fields := n.values
  ident := n.ident
  flags := n.flags
  isNode := by cases n <;> rfl
  hasFields := by cases n <;> rfl
  hasIdent := by cases n <;> rfl
  hasFlags := by cases n <;> rfl

@[simp] theorem toValue_toGated (n : RawNode) : n.toGated.toValue = n.toValue := rfl

@[simp] theorem ident_toGated (n : RawNode) : n.toGated.ident = n.ident := rfl

@[simp] theorem ident_withFlags (n : RawNode) (flags : List Value) :
    (n.withFlags flags).ident = n.ident := by
  cases n <;> rfl

@[simp] theorem members_withFlags (n : RawNode) (flags : List Value) :
    (n.withFlags flags).members = n.members := by
  cases n <;> rfl

theorem withFlags_toGated (n : RawNode) (flags : List Value) :
    n.toGated.withFlags flags = (n.withFlags flags).toGated := by
  cases n <;> rfl

/-- The names of all items that stand in types of the node. -/
def itemNames (n : RawNode) : List Value := n.members.flatMap fun m => m.2.flatMap Value.itemNames

/-- What validation looks up within a node: the idents of its members and the names of items. -/
def sought (n : RawNode) : List Value := n.members.map (·.1) ++ n.itemNames

end RawNode

namespace Problem

/-- A problem for each of these names that no declared ident is found by. -/
def unfound (declared : List Value) (location : String) (names : List Value) : List Value :=
  names.filterMap fun name =>
    if declared.any (·.isFoundBy name) then none else some (unresolved location name declared)

def location (n : RawNode) (member : Value) : String :=
  n.ident.display ++ n.separator ++ member.display

/-- The problems of a node: repeated idents of members, then the items of each member. -/
def ofRaw (declared : List Value) (n : RawNode) : List Value :=
  Validate.duplicates n.ident (n.members.map (·.1)) ++
    n.members.flatMap fun (member, types) =>
      unfound declared (location n member) (types.flatMap Value.itemNames)

def ofRaws (nodes : List RawNode) : List Value :=
  let idents := nodes.map (·.ident)
  Validate.duplicates (.text "definitions") idents ++ nodes.flatMap (ofRaw idents)

theorem exists_of_mem_duplicates {location problem : Value} {idents : List Value}
    (h : problem ∈ Validate.duplicates location idents) :
    ∃ ident count, problem = duplicate location ident count := by
  obtain ⟨⟨ident, count⟩, -, hproblem⟩ := List.mem_filterMap.1 h
  simp only [Option.ite_none_right_eq_some, Option.some.injEq] at hproblem
  exact ⟨ident, count, hproblem.2.symm⟩

theorem mem_unfound_iff {declared names : List Value} {location : String} {problem : Value} :
    problem ∈ unfound declared location names ↔
      ∃ name ∈ names, (∀ d ∈ declared, d.isFoundBy name = false) ∧
        unresolved location name declared = problem := by
  rw [unfound, List.mem_filterMap]
  refine exists_congr fun name => and_congr_right fun _ => ?_
  rw [Option.ite_none_left_eq_some, List.any_eq_true, Option.some.injEq]
  simp only [not_exists, not_and, Bool.not_eq_true]

theorem mem_ofRaw_iff {declared : List Value} {n : RawNode} {problem : Value} :
    problem ∈ ofRaw declared n ↔
      problem ∈ Validate.duplicates n.ident (n.members.map (·.1)) ∨
      ∃ m ∈ n.members, ∃ name ∈ m.2.flatMap Value.itemNames,
        (∀ d ∈ declared, d.isFoundBy name = false) ∧
          unresolved (location n m.1) name declared = problem := by
  simp only [ofRaw, List.mem_append, List.mem_flatMap, mem_unfound_iff]

end Problem

/-! ## Validation -/

namespace Validate

theorem hashable_eq (v : Value) :
    v.hashable = if v.isHashable then .ok v else .error .wrongType := rfl

/-- What validation does with one of the types that the walk meets. -/
def checkItem (location : String) (declared : List Value) (v : Value) :
    Except Error (Option Value) :=
  match itemName? v with
  | none => .ok none
  | some name => do
    let name ← name.hashable
    if declared.any (·.isFoundBy name) then return none
    else return some (Problem.unresolved location name declared)

theorem checkItem_eq (location : String) (declared : List Value) (v : Value) :
    checkItem location declared v =
      if (itemName? v).all Value.isHashable then
        .ok ((itemName? v).bind fun name =>
          if declared.any (·.isFoundBy name) then none
          else some (Problem.unresolved location name declared))
      else .error .wrongType := by
  rw [checkItem]
  cases itemName? v with
  | none => rfl
  | some name =>
    simp only [hashable_eq, ite_bind, Option.all_some, Option.bind_some]
    cases declared.any (·.isFoundBy name) <;> rfl

theorem unresolved_eq (location : String) (declared : List Value) (t : Value) :
    unresolved location declared t =
      if t.itemNames.all Value.isHashable then
        .ok (Problem.unfound declared location t.itemNames)
      else .error .wrongType := by
  have hitems := mapM_map_eq_ite (g := id) fun v (_ : v ∈ t.walk) =>
    checkItem_eq location declared v
  have hall : t.itemNames.all Value.isHashable =
      t.walk.all fun v => (itemName? v).all Value.isHashable := by
    rw [Value.itemNames, List.all_filterMap]
    rfl
  rw [List.map_id] at hitems
  change (t.walk.mapM (checkItem location declared) >>= fun found =>
    Except.ok (found.filterMap id)) = _
  rw [hitems, ite_bind, hall, Problem.unfound, Value.itemNames, List.filterMap_filterMap,
    List.filterMap_map]
  rfl

/-- Members with these idents and types are looked up by their idents, then by the items of their
types. -/
theorem memberProblems_eq {α : Type} (declared : List Value) (owner : Value) (separator : String)
    {members : List α} {toValue : α → Value} {types : Value → Except Error (List Value)}
    (ident : α → Value) (trees : α → List Value)
    (hident : ∀ m, (toValue m).field "ident" = .ok (ident m))
    (htypes : ∀ m, types (toValue m) = .ok (trees m)) :
    memberProblems declared owner separator (members.map toValue) types =
      if (members.map ident ++ members.flatMap fun m => (trees m).flatMap Value.itemNames).all
          Value.isHashable then
        .ok (duplicates owner (members.map ident) ++ members.flatMap fun m =>
          Problem.unfound declared (owner.display ++ separator ++ (ident m).display)
            ((trees m).flatMap Value.itemNames))
      else .error .wrongType := by
  have hidents : (members.map toValue).mapM (fun m => do (← m.field "ident").hashable) =
      if members.all (fun m => (ident m).isHashable) then .ok (members.map ident)
      else .error .wrongType := by
    refine mapM_map_eq_ite fun m _ => ?_
    rw [hident]
    exact hashable_eq (ident m)
  have hitems : (members.map toValue).mapM (fun m => do
        let location := owner.display ++ separator ++ (← m.field "ident").display
        return (← (← types m).mapM (unresolved location declared)).flatten) =
      if members.all (fun m => ((trees m).flatMap Value.itemNames).all Value.isHashable) then
        .ok (members.map fun m =>
          Problem.unfound declared (owner.display ++ separator ++ (ident m).display)
            ((trees m).flatMap Value.itemNames))
      else .error .wrongType := by
    refine mapM_map_eq_ite fun m _ => ?_
    have htrees := mapM_map_eq_ite (g := id) fun t (_ : t ∈ trees m) =>
      unresolved_eq (owner.display ++ separator ++ (ident m).display) declared t
    rw [List.map_id] at htrees
    rw [hident, htypes]
    change ((trees m).mapM (unresolved _ declared) >>= fun found => Except.ok found.flatten) = _
    rw [htrees, ite_bind, List.all_flatMap, Problem.unfound, List.filterMap_flatMap,
      List.flatMap_def]
    rfl
  change ((members.map toValue).mapM (fun m => do (← m.field "ident").hashable) >>= fun idents =>
    (members.map toValue).mapM (fun m => do
        let location := owner.display ++ separator ++ (← m.field "ident").display
        return (← (← types m).mapM (unresolved location declared)).flatten) >>=
      fun found => Except.ok (duplicates owner idents ++ found.flatten)) = _
  rw [hidents, hitems, ite_bind, ite_bind, List.all_append, List.all_map, List.all_flatMap,
    List.flatMap_def]
  simp only [Bool.and_eq_true, ite_and]
  rfl

theorem nodeProblems_eq (declared : List Value) (n : RawNode) :
    nodeProblems declared n.toValue =
      if n.sought.all Value.isHashable then .ok (Problem.ofRaw declared n)
      else .error .wrongType := by
  cases n with
  | struct ident flags fields p =>
    change memberProblems declared ident "." (fields.map RawNode.fieldValue) fieldTypes = _
    rw [memberProblems_eq declared ident "." (·.1) (fun f => [f.2]) (fun _ => rfl) fun _ => rfl,
      RawNode.sought, RawNode.itemNames, Problem.ofRaw, RawNode.members, List.map_map,
      List.flatMap_map, List.flatMap_map]
    rfl
  | enum ident flags variants =>
    change memberProblems declared ident "::" (variants.map RawNode.variantValue) variantTypes = _
    rw [memberProblems_eq declared ident "::" (·.1) (·.2) (fun _ => rfl) fun _ => rfl]
    rfl

theorem problems_eq (nodes : List RawNode) :
    problems (nodes.map RawNode.toValue) =
      if (nodes.map (·.ident) ++ nodes.flatMap RawNode.sought).all Value.isHashable then
        .ok (Problem.ofRaws nodes)
      else .error .wrongType := by
  have hidents : (nodes.map RawNode.toValue).mapM (·.field "ident") =
      .ok (nodes.map (·.ident)) :=
    mapM_map_eq_ok fun n _ => n.toGated.field_ident
  have hhashable : (nodes.map (·.ident)).mapM Value.hashable =
      if nodes.all (fun n => n.ident.isHashable) then .ok (nodes.map (·.ident))
      else .error .wrongType :=
    mapM_map_eq_ite fun n _ => hashable_eq n.ident
  have hwithin : (nodes.map RawNode.toValue).mapM (nodeProblems (nodes.map (·.ident))) =
      if nodes.all (fun n => n.sought.all Value.isHashable) then
        .ok (nodes.map (Problem.ofRaw (nodes.map (·.ident))))
      else .error .wrongType :=
    mapM_map_eq_ite fun n _ => nodeProblems_eq _ n
  rw [problems, hidents]
  change ((nodes.map (·.ident)).mapM Value.hashable >>= fun _ =>
    (nodes.map RawNode.toValue).mapM (nodeProblems (nodes.map (·.ident))) >>= fun within =>
      Except.ok (duplicates (.text "definitions") (nodes.map (·.ident)) ++ within.flatten)) = _
  rw [hhashable, hwithin, ite_bind, ite_bind, List.all_append, List.all_map, List.all_flatMap,
    Problem.ofRaws, List.flatMap_def]
  simp only [Bool.and_eq_true, ite_and]
  rfl

end Validate

/-- Validation either reports all problems there are or, if it has to look up what cannot be looked
up, none at all. -/
theorem validate_rawNodes (tokens : Value) (nodes : List RawNode) :
    validate (Definitions.toValue ⟨.list (nodes.map RawNode.toValue), tokens⟩) =
      if (nodes.map (·.ident) ++ nodes.flatMap RawNode.sought).all Value.isHashable then
        .ok (Report.ofProblems (Problem.ofRaws nodes),
          .validated nodes.length (Problem.ofRaws nodes).length)
      else .error .wrongType := by
  change (Validate.problems (nodes.map RawNode.toValue) >>= fun problems =>
    Except.ok (Report.ofProblems problems,
      Event.validated (nodes.map RawNode.toValue).length problems.length)) = _
  rw [Validate.problems_eq, ite_bind, List.length_map]

end AstSchema
