import AstSchema.Proofs.TypeGrammar

/-! The normal form of a document: what the decoder reads of it and nothing else, in the order of
the classes. A form is put together from the forms of the members of a document; that documents
which are alike have one normal form is a law of every form. -/
namespace AstSchema

/-! ## Forms -/

theorem map_eq_map_of_forall₂ {α β : Type} {f : α → β} {as bs : List α}
    (h : List.Forall₂ (fun a b => f a = f b) as bs) : as.map f = bs.map f := by
  rwa [← List.forall₂_eq_eq_eq, List.forall₂_map_left_iff, List.forall₂_map_right_iff]

/-- What is read of a document: its normal form keeps that, and documents that are alike differ in
nothing of it. -/
structure Form where
  normal : Json → Json
  Alike : Json → Json → Prop
  normal_eq : ∀ {d e : Json}, Alike d e → normal d = normal e

namespace Form

/-- Any document, taken as it is. -/
def raw : Form where
  normal j := j
  Alike := Eq
  normal_eq h := h

/-- Flags come in an array or as the keys of an object. -/
def flags : Form where
  normal
    | .object members => .array (members.map fun m => .text m.1)
    | j => j
  Alike := Eq
  normal_eq := by
    rintro d _ rfl
    rfl

/-- An array of documents of one form. An empty text and an empty object stand for an empty one. -/
def row (item : Form) : Form where
  normal
    | .array items => .array (items.map item.normal)
    | .object [] => .array []
    | .scalar (.text "") => .array []
    | j => j
  Alike d e := d = e ∨
    ∃ js ks, d = .array js ∧ e = .array ks ∧ List.Forall₂ item.Alike js ks
  normal_eq := by
    rintro d e (rfl | ⟨js, ks, rfl, rfl, h⟩)
    · rfl
    · have hitems : List.Forall₂ (fun j k => item.normal j = item.normal k) js ks :=
        h.imp fun _ _ => item.normal_eq
      exact congrArg Json.array (map_eq_map_of_forall₂ hitems)

/-- An object with a member of some form for each known key. Members come in any order, and there
may be others. -/
def record (parts : List (String × Form)) : Form where
  normal
    | .object members => .object (parts.filterMap fun (key, form) =>
        (members.lookup key).map fun j => (key, form.normal j))
    | j => j
  Alike d e := d = e ∨ ∃ ms ns, d = .object ms ∧ e = .object ns ∧
    ∀ p ∈ parts, Option.Rel p.2.Alike (ms.lookup p.1) (ns.lookup p.1)
  normal_eq := by
    rintro d e (rfl | ⟨ms, ns, rfl, rfl, h⟩)
    · rfl
    · refine congrArg Json.object (List.filterMap_congr ?_)
      rintro ⟨key, form⟩ hp
      have hmember : Option.Rel form.Alike (ms.lookup key) (ns.lookup key) := h (key, form) hp
      change Option.map _ (ms.lookup key) = Option.map _ (ns.lookup key)
      generalize ms.lookup key = j?, ns.lookup key = k? at hmember ⊢
      cases hmember with
      | none => rfl
      | some h => rw [Option.map_some, Option.map_some, form.normal_eq h]

end Form

/-! ## Types -/

namespace Json

/-- Documents of types that differ in nothing but the order of the members of punctuated types, and
in members of them that are no fields. -/
inductive TypesAlike : Json → Json → Prop
  | refl (j : Json) : TypesAlike j j
  | wrap (cls : WrapClass) {j k : Json} (h : TypesAlike j k) :
      TypesAlike (.object [(cls.tag, j)]) (.object [(cls.tag, k)])
  | punctuated {ms ns : List (String × Json)} {j k : Json}
      (hj : ms.lookup "element" = some j) (hk : ns.lookup "element" = some k)
      (h : TypesAlike j k) (hpunct : ms.lookup "punct" = ns.lookup "punct") :
      TypesAlike (.object [("punctuated", .object ms)]) (.object [("punctuated", .object ns)])
  | tuple {js ks : List Json} (hlength : js.length = ks.length)
      (h : ∀ p ∈ js.zip ks, TypesAlike p.1 p.2) :
      TypesAlike (.object [("tuple", .array js)]) (.object [("tuple", .array ks)])

theorem TypesAlike.normalType_eq {d e : Json} (h : d.TypesAlike e) :
    d.normalType = e.normalType := by
  induction h with
  | refl j => rfl
  | wrap cls _ ih => rw [normalType_wrap, normalType_wrap, ih]
  | punctuated hj hk _ hpunct ih =>
    rw [normalType_punctuated, normalType_punctuated, hj, hk, hpunct]
    simp [ih]
  | @tuple js ks hlength _ ih =>
    have hitems : List.Forall₂ (fun j k => normalType j = normalType k) js ks :=
      List.forall₂_iff_zip.2 ⟨hlength, fun {j k} hp => ih (j, k) hp⟩
    rw [normalType_tuple, normalType_tuple, map_eq_map_of_forall₂ hitems]

end Json

/-! ## Nodes and documents -/

namespace Form

def type : Form where
  normal := Json.normalType
  Alike := Json.TypesAlike
  normal_eq := Json.TypesAlike.normalType_eq

def field : Form := record [("ident", raw), ("type", type)]

def variant : Form := record [("ident", raw), ("fields", row type)]

def gates : Form := record [("any", flags)]

def struct : Form := record
  [("node", raw), ("ident", raw), ("features", gates), ("fields", row field),
    ("all_fields_pub", raw)]

def enum : Form := record
  [("node", raw), ("ident", raw), ("features", gates), ("variants", row variant)]

end Form

namespace Json

/-- The member for the tag of a node tells the form of a document. -/
def form : Json → Form
  | .object members =>
    match members.lookup nodeKey with
    | some (.scalar (.text "struct")) => .struct
    | some (.scalar (.text "enum")) => .enum
    | _ => .type
  | _ => .type

def normal (d : Json) : Json := d.form.normal d

/-- Documents of one form that differ in nothing that is read of them. -/
def Alike (d e : Json) : Prop := d.form = e.form ∧ d.form.Alike d e

theorem Alike.normal_eq {d e : Json} (h : d.Alike e) : d.normal = e.normal := by
  rw [normal, normal, ← h.1]
  exact d.form.normal_eq h.2

end Json

end AstSchema
