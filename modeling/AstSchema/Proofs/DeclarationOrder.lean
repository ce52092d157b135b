import AstSchema.Proofs.Consolidation
import AstSchema.Proofs.Gates

/-! Declarations in any order. If those of one ident are of one class and their flags nested, each
is accepted wherever it comes, and the widest flags are left; if not, two that disagree are refused
where they come first. -/
namespace AstSchema

/-! ## Flags in any order -/

namespace Features

/-- Flags that come up once each; none of them is a mapping with a key twice. -/
structure Plain (flags : List Value) : Prop where
  keyed : ∀ f ∈ flags, f.Keyed
  distinct : Distinct flags

theorem plain_texts {flags : List String} (h : flags.Nodup) : Plain (flags.map .text) where
  keyed := List.forall_mem_map.2 fun _ _ => .scalar _
  distinct := List.pairwise_map.2 (h.imp fun hne => by simpa using hne)

theorem Nested.symm {mine theirs : List Value} (h : Nested mine theirs) : Nested theirs mine :=
  Or.symm h

/-- Nested flags join to the wider ones. -/
theorem exists_join_of_nested {mine theirs : List Value} (hmine : Plain mine)
    (htheirs : Plain theirs) (h : Nested mine theirs) :
    ∃ flags, join mine theirs = .ok flags ∧ (flags = mine ∨ flags = theirs) ∧
      ∀ flag, contains mine flag ∨ contains theirs flag → contains flags flag := by
  obtain ⟨flags, hjoin⟩ := (exists_join_iff_nested hmine.keyed htheirs.keyed hmine.distinct
    htheirs.distinct).2 h
  refine ⟨flags, hjoin, ?_⟩
  obtain ⟨hcovers, rfl⟩ | ⟨-, hcovers, rfl⟩ := join_eq_ok_iff.1 hjoin
  · exact ⟨.inr rfl, fun flag hflag => hflag.elim hcovers.contains id⟩
  · exact ⟨.inl rfl, fun flag hflag => hflag.elim id hcovers.contains⟩

/-- Joined one after the other, pairwise nested flags come to the widest of them. -/
theorem foldl_join_of_nested {mine : List Value} {later : List (List Value)}
    (hplain : ∀ flags ∈ mine :: later, Plain flags) (hnested : (mine :: later).Pairwise Nested) :
    later.foldl Definitions.joinOrKeep mine ∈ mine :: later ∧
      ∀ flags ∈ mine :: later, ∀ flag, contains flags flag →
        contains (later.foldl Definitions.joinOrKeep mine) flag := by
  induction later generalizing mine with
  | nil => simp
  | cons theirs later ih =>
    obtain ⟨hmine, htheirs, hlater⟩ : Plain mine ∧ Plain theirs ∧ ∀ flags ∈ later, Plain flags := by
      simpa using hplain
    obtain ⟨⟨hfirst, hmines⟩, htheirss, hrest⟩ : (Nested mine theirs ∧
        ∀ flags ∈ later, Nested mine flags) ∧ (∀ flags ∈ later, Nested theirs flags) ∧
        later.Pairwise Nested := by
      simpa using hnested
    obtain ⟨joined, hjoin, hside, hcontains⟩ := exists_join_of_nested hmine htheirs hfirst
    -- What is joined is one of the two, so it is nested with the rest as they are.
    obtain ⟨hmem, hwidest⟩ : later.foldl Definitions.joinOrKeep joined ∈ joined :: later ∧
        ∀ flags ∈ joined :: later, ∀ flag, contains flags flag →
          contains (later.foldl Definitions.joinOrKeep joined) flag := by
      apply ih
      · obtain rfl | rfl := hside
        · exact List.forall_mem_cons.2 ⟨hmine, hlater⟩
        · exact List.forall_mem_cons.2 ⟨htheirs, hlater⟩
      · obtain rfl | rfl := hside
        · exact .cons hmines hrest
        · exact .cons htheirss hrest
    have hstep : Definitions.joinOrKeep mine theirs = joined := by
      simp only [Definitions.joinOrKeep, hjoin]
    simp only [List.foldl_cons, hstep]
    obtain ⟨hwide, hothers⟩ := List.forall_mem_cons.1 hwidest
    constructor
    · obtain heq | hmem := List.mem_cons.1 hmem
      · obtain rfl | rfl := hside <;> simp [heq]
      · simp [hmem]
    · intro flags hflags flag hflag
      obtain rfl | rfl | hflags : flags = mine ∨ flags = theirs ∨ flags ∈ later := by
        simpa using hflags
      · exact hwide flag (hcontains flag (.inl hflag))
      · exact hwide flag (hcontains flag (.inr hflag))
      · exact hothers flags hflags flag hflag

end Features

namespace Definitions

/-! ## Declarations of one ident -/

/-- Any two declarations of one ident are of one class, and one has all the flags of the other. -/
def Compatible (calls : List NodeObject) : Prop :=
  calls.Pairwise fun m n => m.ident = n.ident → m.cls = n.cls ∧ Features.Nested m.flags n.flags

theorem Compatible.perm {calls order : List NodeObject} (h : Compatible calls)
    (hperm : order.Perm calls) : Compatible order := by
  refine (hperm.pairwise_iff ?_).2 h
  intro m n hmn hident
  obtain ⟨hcls, hnested⟩ := hmn hident.symm
  exact ⟨hcls.symm, hnested.symm⟩

/-- What is declared first of an ident, and then of its class, are all declarations of the ident. -/
theorem Compatible.declared? {calls : List NodeObject} {ident : String} {first : NodeObject}
    {later : List (List Value)} (h : Compatible calls)
    (hdeclared : declared? calls ident = some (first, later)) :
    (∀ n ∈ calls, n.ident = ident → n.cls = first.cls) ∧
      first.flags :: later = (calls.filter (·.ident = ident)).map (·.flags) := by
  unfold Definitions.declared? at hdeclared
  split at hdeclared
  next => contradiction
  next head tail hcons =>
    obtain ⟨rfl, rfl⟩ := Prod.mk.inj (Option.some.inj hdeclared)
    have hmem : ∀ n, n ∈ head :: tail ↔ n ∈ calls ∧ n.ident = ident := by
      intro n
      rw [← hcons]
      simp
    have hpairs := h.sublist (List.filter_sublist (p := fun n => n.ident = ident))
    rw [hcons] at hpairs
    have hcls : ∀ n ∈ head :: tail, n.cls = head.cls := by
      rw [List.forall_mem_cons]
      refine ⟨rfl, ?_⟩
      intro n hn
      have hident : head.ident = n.ident :=
        ((hmem head).1 List.mem_cons_self).2.trans ((hmem n).1 (List.mem_cons_of_mem _ hn)).2.symm
      exact (List.rel_of_pairwise_cons hpairs hn hident).1.symm
    refine ⟨fun n hn hident => hcls n ((hmem n).2 ⟨hn, hident⟩), ?_⟩
    have htail : tail.filter (fun n => n.cls = head.cls) = tail := by
      rw [List.filter_eq_self]
      intro n hn
      simp [hcls n (List.mem_cons_of_mem _ hn)]
    rw [hcons, htail, List.map_cons]

/-- The flags that compatible declarations of an ident come to are those of one of them, and hold
the flags of all. -/
theorem Compatible.flagsAfter {calls : List NodeObject} {ident : String} {first : NodeObject}
    {later : List (List Value)} (h : Compatible calls)
    (hplain : ∀ n ∈ calls, Features.Plain n.flags)
    (hdeclared : Definitions.declared? calls ident = some (first, later)) :
    ∃ m ∈ calls, m.ident = ident ∧ m.flags = flagsAfter first later ∧
      ∀ k ∈ calls, k.ident = ident → ∀ flag, Features.contains k.flags flag →
        Features.contains m.flags flag := by
  obtain ⟨-, hall⟩ := h.declared? hdeclared
  have hplains : ∀ flags ∈ first.flags :: later, Features.Plain flags := by
    rw [hall]
    simp only [List.mem_map, List.mem_filter]
    rintro _ ⟨n, ⟨hn, -⟩, rfl⟩
    exact hplain n hn
  have hnested : (first.flags :: later).Pairwise Features.Nested := by
    rw [hall, List.pairwise_map, List.pairwise_filter]
    refine h.imp ?_
    intro m n hmn hm hn
    exact (hmn ((of_decide_eq_true hm).trans (of_decide_eq_true hn).symm)).2
  obtain ⟨hmem, hwidest⟩ := Features.foldl_join_of_nested hplains hnested
  rw [hall] at hmem hwidest
  obtain ⟨m, hm, hflags⟩ := List.mem_map.1 hmem
  obtain ⟨hm, hident⟩ := List.mem_filter.1 hm
  refine ⟨m, hm, of_decide_eq_true hident, hflags, ?_⟩
  intro k hk hkident flag hflag
  rw [hflags]
  exact hwidest k.flags (List.mem_map_of_mem (List.mem_filter.2 ⟨hk, by simp [hkident]⟩)) flag hflag

/-! ## Compatible runs -/

theorem declare_of_failure?_eq_none {d : Definitions} {node : Value}
    (h : d.failure? node = none) : d.declare node = .ok (d.attempt node) := by
  unfold failure? at h
  unfold declare attempt
  split at h
  next hadd =>
    rw [hadd]
    rfl
  next => contradiction
  next => contradiction

/-- A declaration that is compatible with all before it is accepted. -/
theorem verdict?_of_compatible {calls : List NodeObject} {node : NodeObject}
    (hplain : ∀ n ∈ calls ++ [node], Features.Plain n.flags)
    (h : Compatible (calls ++ [node])) : verdict? calls node = none := by
  obtain ⟨hcalls, -, hcross⟩ := List.pairwise_append.1 h
  have hnode : ∀ n ∈ calls, n.ident = node.ident →
      n.cls = node.cls ∧ Features.Nested n.flags node.flags :=
    fun n hn => hcross n hn node List.mem_cons_self
  have hplains : ∀ n ∈ calls, Features.Plain n.flags := fun n hn =>
    hplain n (List.mem_append_left _ hn)
  cases hdeclared : Definitions.declared? calls node.ident with
  | none =>
    unfold verdict?
    rw [hdeclared]
  | some found =>
    obtain ⟨first, later⟩ := found
    obtain ⟨m, hm, hident, hflags, -⟩ := Compatible.flagsAfter hcalls hplains hdeclared
    have hcls : node.cls = first.cls :=
      (hnode m hm hident).1.symm.trans ((Compatible.declared? hcalls hdeclared).1 m hm hident)
    obtain ⟨joined, hjoin, -⟩ := Features.exists_join_of_nested (hplains m hm)
      (hplain node (by simp)) (hnode m hm hident).2
    rw [verdict?_of_cls_eq hdeclared hcls, ← hflags, hjoin]

theorem Refines.exists_declareAll {calls stored : List NodeObject} (h : Refines calls stored)
    (tokens : Value) {more : List NodeObject}
    (hplain : ∀ n ∈ calls ++ more, Features.Plain n.flags) (hcompat : Compatible (calls ++ more)) :
    ∃ next, (ofNodes tokens stored).declareAll (more.map NodeObject.toValue) =
      .ok (ofNodes tokens next) ∧ Refines (calls ++ more) next := by
  induction more generalizing calls stored with
  | nil => exact ⟨stored, rfl, by simpa using h⟩
  | cons node more ih =>
    rw [List.append_cons] at hplain hcompat ⊢
    obtain ⟨⟨mid, hmid, hrefines⟩, hverdict, -⟩ := h.step tokens node
    have haccepted : (ofNodes tokens stored).failure? node.toValue = none := by
      have hnone := verdict?_of_compatible (fun n hn => hplain n (List.mem_append_left _ hn))
        (hcompat.sublist (List.sublist_append_left _ _))
      rw [hnone] at hverdict
      simpa using hverdict
    obtain ⟨next, hrun, hnext⟩ := ih hrefines hplain hcompat
    refine ⟨next, ?_, hnext⟩
    rw [← hrun, ← hmid]
    unfold declareAll
    rw [List.map_cons, List.foldlM_cons, declare_of_failure?_eq_none haccepted]
    rfl

/-- One node for each declared ident, with the flags of a declaration of it that has the flags of
all. -/
structure Widest (calls stored : List NodeObject) : Prop where
  nodup : (stored.map (·.ident)).Nodup
  mem_iff : ∀ ident, ident ∈ stored.map (·.ident) ↔ ident ∈ calls.map (·.ident)
  widest : ∀ n ∈ stored, ∃ m ∈ calls, m.ident = n.ident ∧ m.cls = n.cls ∧ m.flags = n.flags ∧
    ∀ k ∈ calls, k.ident = n.ident → ∀ flag, Features.contains k.flags flag →
      Features.contains n.flags flag

theorem Refines.widest {calls stored : List NodeObject} (h : Refines calls stored)
    (hplain : ∀ n ∈ calls, Features.Plain n.flags) (hcompat : Compatible calls) :
    Widest calls stored where
  nodup := h.nodup
  mem_iff _ := h.mem_iff
  widest n hn := by
    obtain ⟨first, later, hdeclared, hsettled⟩ := h.settled n hn
    obtain ⟨m, hm, hident, hflags, hwidest⟩ := hcompat.flagsAfter hplain hdeclared
    have hcls : m.cls = n.cls :=
      ((hcompat.declared? hdeclared).1 m hm hident).trans hsettled.cls_eq.symm
    have hsame : m.flags = n.flags := hflags.trans hsettled.flags_eq.symm
    exact ⟨m, hm, hident, hcls, hsame, hsame ▸ hwidest⟩

theorem Widest.perm {calls order stored : List NodeObject} (h : Widest order stored)
    (hperm : order.Perm calls) : Widest calls stored where
  nodup := h.nodup
  mem_iff ident := (h.mem_iff ident).trans (hperm.map _).mem_iff
  widest n hn := by
    obtain ⟨m, hm, hident, hcls, hflags, hwidest⟩ := h.widest n hn
    exact ⟨m, hperm.mem_iff.1 hm, hident, hcls, hflags,
      fun k hk => hwidest k (hperm.mem_iff.2 hk)⟩

/-- Whatever the order of the declarations, the widest flags of an ident are the same. -/
theorem Widest.contains_iff {calls stored stored' : List NodeObject} (h : Widest calls stored)
    (h' : Widest calls stored') {n n' : NodeObject} (hn : n ∈ stored) (hn' : n' ∈ stored')
    (hident : n.ident = n'.ident) (flag : Value) :
    Features.contains n.flags flag ↔ Features.contains n'.flags flag := by
  obtain ⟨m, hm, hmident, -, hmflags, hwidest⟩ := h.widest n hn
  obtain ⟨m', hm', hmident', -, hmflags', hwidest'⟩ := h'.widest n' hn'
  constructor
  · rw [← hmflags]
    exact hwidest' m hm (hmident.trans hident) flag
  · rw [← hmflags']
    exact hwidest m' hm' (hmident'.trans hident.symm) flag

/-! ## Runs that fail -/

/-- Where two declarations are accepted one right after the other, they are compatible. -/
theorem compatible_of_declareAll {tokens : Value} {m n : NodeObject} {rest : List NodeObject}
    {d : Definitions}
    (h : (ofNodes tokens []).declareAll ((m :: n :: rest).map NodeObject.toValue) = .ok d)
    (hident : m.ident = n.ident) : m.cls = n.cls ∧ Features.Nested m.flags n.flags := by
  rw [← NodeObject.map_toValue_toGated, ofNodes_eq_ofGated] at h
  obtain ⟨_, ⟨⟩, hrest⟩ := declareAll_cons_eq_ok_iff.1 h
  obtain ⟨next, hdeclares, -⟩ := declareAll_cons_eq_ok_iff.1 hrest
  cases hdeclares with
  | join _ hcls hjoin =>
    refine ⟨hcls, ?_⟩
    obtain hcovers | hcovers := Features.exists_join_iff.1 ⟨_, hjoin⟩
    · exact .inl hcovers.isSubset
    · exact .inr hcovers.isSubset
  | skip hne =>
    simp [NodeObject.toGated, hident] at hne

/-- Declarations can be added in every order exactly if they are compatible. Then every order leaves
the same idents, each with the widest flags that are declared for it. -/
theorem declareAll_perm (tokens : Value) {calls : List NodeObject}
    (hplain : ∀ n ∈ calls, Features.Plain n.flags) :
    ((∀ order : List NodeObject, order.Perm calls →
        ∃ d, (ofNodes tokens []).declareAll (order.map NodeObject.toValue) = .ok d) ↔
      Compatible calls) ∧
    (Compatible calls → ∀ order order' : List NodeObject, order.Perm calls → order'.Perm calls →
      ∃ stored stored',
        (ofNodes tokens []).declareAll (order.map NodeObject.toValue) =
          .ok (ofNodes tokens stored) ∧
        (ofNodes tokens []).declareAll (order'.map NodeObject.toValue) =
          .ok (ofNodes tokens stored') ∧
        Widest calls stored ∧ Widest calls stored' ∧
        (∀ ident, ident ∈ stored.map (·.ident) ↔ ident ∈ stored'.map (·.ident)) ∧
        ∀ n ∈ stored, ∀ n' ∈ stored', n.ident = n'.ident →
          ∀ flag, Features.contains n.flags flag ↔ Features.contains n'.flags flag) := by
  have hruns : Compatible calls → ∀ order : List NodeObject, order.Perm calls → ∃ stored,
      (ofNodes tokens []).declareAll (order.map NodeObject.toValue) = .ok (ofNodes tokens stored) ∧
        Widest calls stored := by
    intro hcompat order hperm
    have horder : ∀ n ∈ [] ++ order, Features.Plain n.flags := fun n hn =>
      hplain n (hperm.mem_iff.1 hn)
    obtain ⟨stored, hrun, hrefines⟩ :=
      Refines.nil.exists_declareAll tokens horder (hcompat.perm hperm)
    exact ⟨stored, hrun, (hrefines.widest horder (hcompat.perm hperm)).perm hperm⟩
  refine ⟨⟨?_, ?_⟩, ?_⟩
  · intro hall
    unfold Compatible
    rw [List.pairwise_iff_forall_sublist]
    intro m n hsub hident
    -- An order that begins with the two of them.
    obtain ⟨rest, hrest⟩ := hsub.exists_perm_append
    obtain ⟨d, hd⟩ := hall _ hrest.symm
    exact compatible_of_declareAll hd hident
  · intro hcompat order hperm
    obtain ⟨stored, hrun, -⟩ := hruns hcompat order hperm
    exact ⟨_, hrun⟩
  · intro hcompat order order' hperm hperm'
    obtain ⟨stored, hrun, hwidest⟩ := hruns hcompat order hperm
    obtain ⟨stored', hrun', hwidest'⟩ := hruns hcompat order' hperm'
    refine ⟨stored, stored', hrun, hrun', hwidest, hwidest', ?_, ?_⟩
    · intro ident
      rw [hwidest.mem_iff, hwidest'.mem_iff]
    · intro n hn n' hn' hident flag
      exact hwidest.contains_iff hwidest' hn hn' hident flag

/-- Where two of three flag sets are not nested, the order decides whether all are accepted. -/
theorem declareAll_perm_of_unnested :
    let calls := [["a"], ["a", "b"], ["b"]].map fun flags =>
      NodeObject.bare "A" (flags.map .text)
    (∀ n ∈ calls, Features.Plain n.flags) ∧
      (ofNodes (.mapping []) []).declareAll (calls.map NodeObject.toValue) =
        .ok (ofNodes (.mapping []) [.bare "A" [.text "a", .text "b"]]) ∧
      ¬ ∀ order : List NodeObject, order.Perm calls →
        ∃ d, (ofNodes (.mapping []) []).declareAll (order.map NodeObject.toValue) = .ok d := by
  intro calls
  have hnodup : ∀ flags ∈ [["a"], ["a", "b"], ["b"]], flags.Nodup := by decide
  have hplain : ∀ n ∈ calls, Features.Plain n.flags :=
    List.forall_mem_map.2 fun flags hflags => Features.plain_texts (hnodup flags hflags)
  refine ⟨hplain, rfl, ?_⟩
  rw [(declareAll_perm (.mapping []) hplain).1]
  intro hcompat
  have hlast : NodeObject.bare "A" [.text "b"] ∈ calls.tail := by simp [calls]
  obtain ⟨-, h | h⟩ := List.rel_of_pairwise_cons hcompat hlast rfl
  · exact absurd h (by decide)
  · exact absurd h (by decide)

end Definitions

end AstSchema
