import AstSchema.Object
import AstSchema.Proofs.Outcome
import AstSchema.Registry
import AstSchema.Value.Update
import Mathlib.Data.List.Nodup
import Mathlib.Data.List.TakeDrop

/-! Objects of tagged node classes, built in or declared, and what it means for one of them to get
other gates. -/
namespace AstSchema

namespace Value

private theorem lookup_replace (names : List String) (vs : List Value) (name key : String)
    (value : Value) :
    (names.zip ((names.zip vs).map fun (n, old) => if n == name then value else old)).lookup key =
      ((names.zip vs).lookup key).map fun old => if key == name then value else old := by
  induction names generalizing vs with
  | nil => rfl
  | cons n names ih =>
    cases vs with
    | nil => rfl
    | cons v vs =>
      simp only [List.zip_cons_cons, List.map_cons, List.lookup_cons]
      by_cases hkey : key = n
      · subst hkey
        simp
      · simp only [beq_false_of_ne hkey, ih]

theorem field?_withField (v : Value) (name key : String) (value : Value) :
    (v.withField name value).field? key =
      (v.field? key).map fun old => if key == name then value else old := by
  cases v with
  | object cls fields => exact lookup_replace cls.fieldNames fields name key value
  | _ => rfl

end Value

/-- An object of a tagged node class that has a text for its ident and gates of its own. -/
structure NodeObject where
  cls : Class
  fields : List Value
  ident : String
  flags : List Value
  isNode : cls.family = .node
  isTagged : cls.tag?.isSome
  hasFields : fields.length = cls.fields.length
  hasIdent : (Value.object cls fields).field? "ident" = some (.text ident)
  hasFlags : (Value.object cls fields).field? "features" = some (Features.toValue flags)

namespace NodeObject

def toValue (n : NodeObject) : Value := .object n.cls n.fields

/-- A struct without fields. -/
def bare (ident : String) (flags : List Value) : NodeObject where
  cls := .struct
  fields := [.text ident, Features.toValue flags, .tuple [], .bool true]
  ident := ident
  flags := flags
  isNode := rfl
  isTagged := rfl
  hasFields := rfl
  hasIdent := rfl
  hasFlags := rfl

@[simp] theorem field?_ident (n : NodeObject) : n.toValue.field? "ident" = some (.text n.ident) :=
  n.hasIdent

@[simp] theorem field?_features (n : NodeObject) :
    n.toValue.field? "features" = some (Features.toValue n.flags) :=
  n.hasFlags

def fieldsWithFlags (n : NodeObject) (flags : List Value) : List Value :=
  (n.cls.fieldNames.zip n.fields).map fun (name, old) =>
    if name == "features" then Features.toValue flags else old

def withFlags (n : NodeObject) (flags : List Value) : NodeObject where
  cls := n.cls
  fields := n.fieldsWithFlags flags
  ident := n.ident
  flags := flags
  isNode := n.isNode
  isTagged := n.isTagged
  hasFields := by simp [fieldsWithFlags, Class.fieldNames, n.hasFields]
  hasIdent := by
    have h := n.toValue.field?_withField "features" "ident" (Features.toValue flags)
    rw [n.field?_ident] at h
    exact h
  hasFlags := by
    have h := n.toValue.field?_withField "features" "features" (Features.toValue flags)
    rw [n.field?_features] at h
    exact h

theorem toValue_withFlags (n : NodeObject) (flags : List Value) :
    (n.withFlags flags).toValue = n.toValue.withField "features" (Features.toValue flags) := rfl

theorem field?_withFlags_of_ne (n : NodeObject) (flags : List Value) {name : String}
    (h : name ≠ "features") : (n.withFlags flags).toValue.field? name = n.toValue.field? name := by
  rw [toValue_withFlags, Value.field?_withField, beq_false_of_ne h]
  simp

end NodeObject

/-! ## Where such objects come from -/

namespace Declaration

private theorem mem_merge {inherited : List FieldSpec} {name : String} (spec : FieldSpec)
    (h : name ∈ inherited.map (·.name)) : name ∈ (merge inherited spec).map (·.name) := by
  unfold merge
  split
  · rw [List.map_map]
    refine (List.map_congr_left fun old _ => ?_).symm ▸ h
    by_cases heq : old.name = spec.name <;> simp [heq]
  · rw [List.span_eq_takeWhile_dropWhile, List.map_append, List.map_cons, List.mem_append,
      List.mem_cons]
    rw [← List.takeWhile_append_dropWhile
      (p := fun old : FieldSpec => decide (rank old.name ≤ rank spec.name)) (l := inherited),
      List.map_append, List.mem_append] at h
    exact h.imp_right .inr

private theorem mem_foldl_merge {inherited : List FieldSpec} {name : String} (own : List FieldSpec)
    (h : name ∈ inherited.map (·.name)) :
    name ∈ (own.foldl merge inherited).map (·.name) := by
  induction own generalizing inherited with
  | nil => exact h
  | cons spec own ih => exact ih (mem_merge spec h)

private theorem nodup_merge {inherited : List FieldSpec} (spec : FieldSpec)
    (h : (inherited.map (·.name)).Nodup) : ((merge inherited spec).map (·.name)).Nodup := by
  unfold merge
  split
  · rw [List.map_map]
    refine (List.map_congr_left fun old _ => ?_).symm ▸ h
    by_cases heq : old.name = spec.name <;> simp [heq]
  next hnew =>
    have hnew : spec.name ∉ inherited.map (·.name) := by simpa using hnew
    rw [List.span_eq_takeWhile_dropWhile, List.map_append, List.map_cons, List.nodup_middle,
      ← List.map_append, List.takeWhile_append_dropWhile]
    exact List.nodup_cons.2 ⟨hnew, h⟩

private theorem nodup_foldl_merge {inherited : List FieldSpec} (own : List FieldSpec)
    (h : (inherited.map (·.name)).Nodup) : ((own.foldl merge inherited).map (·.name)).Nodup := by
  induction own generalizing inherited with
  | nil => exact h
  | cons spec own ih => exact ih (nodup_merge spec h)

/-- A declared class has a tag, the role of the class it extends, and fields merged with those of
that. -/
theorem exists_own_of_toClass {d : Declaration} {cls : Class} (h : d.toClass = .ok cls) :
    ∃ own : List FieldSpec, cls.role = d.base.role ∧ cls.tag?.isSome ∧
      cls.fields = own.foldl merge d.base.fields := by
  obtain ⟨fields, hfields, h⟩ := bind_eq_ok_iff.1 h
  obtain ⟨tag, -, h⟩ := bind_eq_ok_iff.1 h
  obtain ⟨own, -, hfields⟩ := bind_eq_ok_iff.1 hfields
  obtain rfl := Except.ok.inj h
  refine ⟨own, rfl, rfl, ?_⟩
  dsimp only at hfields
  split at hfields
  · exact (Except.ok.inj hfields).symm
  · contradiction

/-- All fields of the class that it extends are there. -/
theorem toClass_eq_ok {d : Declaration} {cls : Class} (h : d.toClass = .ok cls) :
    cls.role = d.base.role ∧ cls.tag?.isSome ∧
      ∀ name ∈ d.base.fieldNames, name ∈ cls.fieldNames := by
  obtain ⟨own, hrole, htag, hfields⟩ := exists_own_of_toClass h
  refine ⟨hrole, htag, fun name hname => ?_⟩
  rw [Class.fieldNames, hfields]
  exact mem_foldl_merge own hname

/-- No field comes twice. -/
theorem nodup_of_toClass {d : Declaration} {cls : Class} (h : d.toClass = .ok cls)
    (hbase : d.base.fieldNames.Nodup) : cls.fieldNames.Nodup := by
  obtain ⟨own, -, -, hfields⟩ := exists_own_of_toClass h
  rw [Class.fieldNames, hfields]
  exact nodup_foldl_merge own hbase

end Declaration

namespace Class

/-- A class that extends the class of nodes, in any number of declarations. -/
inductive IsNode : Class → Prop
  | node : IsNode .node
  | struct : IsNode .struct
  | enum : IsNode .enum
  | declared {d : Declaration} {cls : Class} (hbase : IsNode d.base) (hcls : d.toClass = .ok cls) :
      IsNode cls

theorem IsNode.family_eq {cls : Class} (h : cls.IsNode) : cls.family = .node := by
  induction h with
  | declared _ hcls ih =>
    rw [family, (Declaration.toClass_eq_ok hcls).1]
    exact ih
  | _ => rfl

theorem IsNode.hasFeatures {cls : Class} (h : cls.IsNode) : "features" ∈ cls.fieldNames := by
  induction h with
  | declared _ hcls ih => exact (Declaration.toClass_eq_ok hcls).2.2 _ ih
  | _ => decide

theorem IsNode.nodup {cls : Class} (h : cls.IsNode) : cls.fieldNames.Nodup := by
  induction h with
  | declared _ hcls ih => exact Declaration.nodup_of_toClass hcls ih
  | _ => decide

theorem IsNode.isTagged {cls : Class} (h : cls.IsNode) (hne : cls ≠ .node) : cls.tag?.isSome := by
  cases h with
  | node => contradiction
  | struct => rfl
  | enum => rfl
  | declared _ hcls => exact (Declaration.toClass_eq_ok hcls).2.1

/-- The first field of a name gets another value. -/
def replaceFirst (name : String) (value : Value) : List FieldSpec → List Value → List Value
  | spec :: specs, v :: vs =>
    if spec.name == name then value :: vs else v :: replaceFirst name value specs vs
  | _, vs => vs

@[simp] theorem length_replaceFirst (name : String) (value : Value) (specs : List FieldSpec)
    (vs : List Value) : (replaceFirst name value specs vs).length = vs.length := by
  induction specs generalizing vs with
  | nil => rfl
  | cons spec specs ih =>
    cases vs with
    | nil => rfl
    | cons v vs =>
      rw [replaceFirst]
      split
      · rfl
      · rw [List.length_cons, ih, List.length_cons]

theorem lookup_replaceFirst (name : String) (value : Value) (specs : List FieldSpec)
    (vs : List Value) (key : String) :
    ((specs.map (·.name)).zip (replaceFirst name value specs vs)).lookup key =
      (((specs.map (·.name)).zip vs).lookup key).map fun old =>
        if key == name then value else old := by
  induction specs generalizing vs with
  | nil => rfl
  | cons spec specs ih =>
    cases vs with
    | nil => rfl
    | cons v vs =>
      rw [replaceFirst]
      by_cases hspec : spec.name = name
      · subst hspec
        by_cases hkey : key = spec.name
        · simp [hkey]
        · simp [List.lookup_cons, beq_false_of_ne hkey]
      · simp only [beq_false_of_ne hspec, Bool.false_eq_true, if_false, List.map_cons,
          List.zip_cons_cons, List.lookup_cons, ih]
        by_cases hkey : key = spec.name
        · simp [hkey, beq_false_of_ne hspec]
        · simp [beq_false_of_ne hkey]

section

variable {m : Type → Type} [Monad m] [LawfulMonad m] {name : String} {change : Value → m Value}
  {specs : List FieldSpec} {vs : List Value}

theorem revise_of_lookup {old : Value}
    (h : ((specs.map (·.name)).zip vs).lookup name = some old) :
    revise name change specs vs = (fun new => replaceFirst name new specs vs) <$> change old := by
  induction specs generalizing vs with
  | nil => simp at h
  | cons spec specs ih =>
    cases vs with
    | nil => simp at h
    | cons v vs =>
      rw [List.map_cons, List.zip_cons_cons, List.lookup_cons] at h
      by_cases hspec : spec.name = name
      · rw [hspec, beq_self_eq_true] at h
        obtain rfl := Option.some.inj h
        simp [revise, replaceFirst, hspec]
      · rw [beq_false_of_ne (Ne.symm hspec)] at h
        simp [revise, replaceFirst, hspec, ih h]

theorem revise_of_lookup_none (h : ((specs.map (·.name)).zip vs).lookup name = none) :
    revise name change specs vs = pure vs := by
  induction specs generalizing vs with
  | nil => rfl
  | cons spec specs ih =>
    cases vs with
    | nil => rfl
    | cons v vs =>
      rw [List.map_cons, List.zip_cons_cons, List.lookup_cons] at h
      by_cases hspec : spec.name = name
      · simp [hspec] at h
      · rw [beq_false_of_ne (Ne.symm hspec)] at h
        simp [revise, hspec, ih h]

end

theorem revise_eq_ok {name : String} {change : Value → Except Error Value}
    {specs : List FieldSpec} {vs ws : List Value} (h : revise name change specs vs = .ok ws) :
    ws.length = vs.length ∧
      (∀ key, key ≠ name → ((specs.map (·.name)).zip ws).lookup key =
        ((specs.map (·.name)).zip vs).lookup key) ∧
      ∀ old, ((specs.map (·.name)).zip vs).lookup name = some old →
        ∃ new, change old = .ok new ∧ ((specs.map (·.name)).zip ws).lookup name = some new := by
  cases hlookup : ((specs.map (·.name)).zip vs).lookup name with
  | none =>
    rw [revise_of_lookup_none hlookup] at h
    obtain rfl := Except.ok.inj h
    exact ⟨rfl, fun _ _ => rfl, by simp [hlookup]⟩
  | some old =>
    rw [revise_of_lookup hlookup, map_eq_pure_bind] at h
    obtain ⟨new, hnew, h⟩ := bind_eq_ok_iff.1 h
    obtain rfl := Except.ok.inj h
    refine ⟨length_replaceFirst .., fun key hkey => ?_, fun old' hold => ⟨new, ?_, ?_⟩⟩
    · simp [lookup_replaceFirst, beq_false_of_ne hkey]
    · obtain rfl := Option.some.inj hold
      exact hnew
    · rw [lookup_replaceFirst, hlookup]
      simp

theorem exists_lookup_zip {names : List String} {vs : List Value} {name : String}
    (hmem : name ∈ names) (hlen : vs.length = names.length) :
    ∃ v, (names.zip vs).lookup name = some v := by
  induction names generalizing vs with
  | nil => contradiction
  | cons n names ih =>
    cases vs with
    | nil => contradiction
    | cons v vs =>
      rw [List.zip_cons_cons, List.lookup_cons]
      by_cases hname : name = n
      · exact ⟨v, by simp [hname]⟩
      · simp only [beq_false_of_ne hname]
        exact ih ((List.mem_cons.1 hmem).resolve_left hname) (Nat.succ.inj hlen)

theorem ownGates_eq_ok {v gates : Value} (h : ownGates v = .ok gates) :
    ∃ flags, gates = Features.toValue flags := by
  obtain ⟨_, -, h⟩ := bind_eq_ok_iff.1 h
  obtain ⟨flags, -, h⟩ := bind_eq_ok_iff.1 h
  exact ⟨flags, (Except.ok.inj h).symm⟩

/-- Whatever a node is made of, it comes to own its gates. -/
theorem make_eq_ok {cls : Class} {fields : List Value} {v : Value} (hnode : cls.IsNode)
    (hlen : fields.length = cls.fields.length) (h : cls.make fields = .ok v) :
    ∃ settled flags, v = .object cls settled ∧ settled.length = cls.fields.length ∧
      v.field? "features" = some (Features.toValue flags) := by
  obtain ⟨settled, hsettle, h⟩ := bind_eq_ok_iff.1 h
  obtain rfl := Except.ok.inj h
  have hnames : fields.length = cls.fieldNames.length := by rw [hlen, fieldNames, List.length_map]
  obtain ⟨given, hgiven⟩ := exists_lookup_zip hnode.hasFeatures hnames
  -- The gates are settled first, and what is settled after them is another field.
  have hgates : ∀ ws, revise "features" ownGates cls.fields fields = .ok ws →
      ws.length = cls.fields.length ∧
        ∃ flags, (cls.fieldNames.zip ws).lookup "features" = some (Features.toValue flags) := by
    intro ws hws
    obtain ⟨hlength, -, hself⟩ := revise_eq_ok hws
    obtain ⟨gates, hown, hlookup⟩ := hself given hgiven
    obtain ⟨flags, rfl⟩ := ownGates_eq_ok hown
    exact ⟨hlength.trans hlen, flags, hlookup⟩
  have hlater : ∀ name, "features" ≠ name →
      (do revise name asTuple cls.fields (← revise "features" ownGates cls.fields fields)) =
        .ok settled →
      settled.length = cls.fields.length ∧ ∃ flags,
        (cls.fieldNames.zip settled).lookup "features" = some (Features.toValue flags) := by
    intro name hne hsteps
    obtain ⟨ws, hws, hlast⟩ := bind_eq_ok_iff.1 hsteps
    obtain ⟨hlength, flags, hlookup⟩ := hgates ws hws
    obtain ⟨hlast, hothers, -⟩ := revise_eq_ok hlast
    exact ⟨hlast.trans hlength, flags, (hothers _ hne).trans hlookup⟩
  have hrole := hnode.family_eq
  rw [settle, settleBy] at hsettle
  obtain ⟨hlength, flags, hlookup⟩ : settled.length = cls.fields.length ∧
      ∃ flags, (cls.fieldNames.zip settled).lookup "features" = some (Features.toValue flags) := by
    cases hcls : cls.role with
    | node =>
      rw [hcls] at hsettle
      exact hgates settled hsettle
    | struct =>
      rw [hcls] at hsettle
      exact hlater "fields" (by decide) hsettle
    | enum =>
      rw [hcls] at hsettle
      exact hlater "variants" (by decide) hsettle
    | _ =>
      rw [family, hcls] at hrole
      contradiction
  exact ⟨settled, flags, rfl, hlength, hlookup⟩

end Class

theorem Class.length_of_matchArguments {cls : Class} {args fields : List Value}
    {named : List (String × Value)} (h : cls.matchArguments args named = .ok fields) :
    fields.length = cls.fields.length := by
  unfold matchArguments at h
  dsimp only at h
  split at h
  · contradiction
  split at h
  · contradiction
  obtain ⟨others, hothers, h⟩ := bind_eq_ok_iff.1 h
  obtain rfl := Except.ok.inj h
  have hlength := (mapM_eq_ok_iff.1 hothers).length_eq
  rw [List.length_drop] at hlength
  rw [List.length_append, ← hlength]
  omega

/-- Every object that a tagged class of nodes makes of arguments is such a node, if its ident is a
text. -/
theorem NodeObject.exists_of_apply {cls : Class} {args : List Value} {named : List (String × Value)}
    {v : Value} {ident : String} (hnode : cls.IsNode) (hne : cls ≠ .node)
    (h : cls.apply args named = .ok v) (hident : v.field? "ident" = some (.text ident)) :
    ∃ n : NodeObject, n.toValue = v ∧ n.ident = ident := by
  obtain ⟨fields, hfields, hmake⟩ := bind_eq_ok_iff.1 h
  obtain ⟨settled, flags, rfl, hlength, hflags⟩ :=
    Class.make_eq_ok hnode (Class.length_of_matchArguments hfields) hmake
  exact ⟨⟨cls, settled, ident, flags, hnode.family_eq, hnode.isTagged hne, hlength, hident, hflags⟩,
    rfl, rfl⟩

end AstSchema
