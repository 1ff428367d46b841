import MetadataLabels.Proofs.AttributeNames
import MetadataLabels.Proofs.ConstantHierarchy
import MetadataLabels.Proofs.TypeChains
import MetadataLabels.Proofs.Warnings

/-!
# Warnings about attribute hierarchies

The search for a constant attribute warns when it has looked at two hundred types in
vain, and does not look whether there is one more.  So it says of a hierarchy that ends
with its two-hundredth type that it goes on; everywhere else the warning is given
exactly if a type was left out.
-/

namespace MetadataLabels
namespace Resolver

def level? (r : Resolver) (g : Graph) (a : Attribute) (n : Nat) : Option TypeId :=
  walk (r.parent? g) (a.type.bind g.live?) n

/-- None of the first two hundred types is called like a constant attribute. -/
def Unanswered (r : Resolver) (g : Graph) (a : Attribute) : Prop :=
  forall t, t ∈ r.hierarchyWithin g a 200 -> ¬ g.HasConstantName t

def Warns (r : Resolver) (g : Graph) (a : Attribute) : Prop :=
  (r.isConstantAttribute g a).warnings = [.attributeHierarchy a.fullName 200]

/-- The attributes that are checked: none if the parameter has a constant, and else all up to
the first that stands for one. -/
def checked (r : Resolver) (g : Graph) (p : ParamId) : List Attribute :=
  if (g.read .paramDefault p).isSome then []
  else Logged.asked (r.isConstantAttribute g) (g.attributes p)

/-- The hierarchy ends with its two-hundredth type, and none of them is called like a constant
attribute. -/
def EndsAtLimit (r : Resolver) (g : Graph) (a : Attribute) : Prop :=
  r.Unanswered g a ∧ (r.level? g a 199).isSome = true ∧ r.level? g a 200 = none

/-- When a parameter's attributes warn: each that is checked gives at most one warning, which is
right about a type beyond the two-hundredth unless the hierarchy ends there. -/
structure WarnsAtLimit (r : Resolver) (g : Graph) (p : ParamId) : Prop where
  query : (r.isOptional g p).warnings =
    (r.checked g p).flatMap fun a => (r.isConstantAttribute g a).warnings
  silent : forall a, ¬ r.Warns g a -> (r.isConstantAttribute g a).warnings = []
  warns_iff : forall a, a ∈ g.attributes p ->
    (r.Warns g a <-> r.Unanswered g a ∧ (r.level? g a 199).isSome = true)
  shorter : forall a, a ∈ g.attributes p -> r.level? g a 199 = none -> ¬ r.Warns g a
  beyond_iff : forall a, a ∈ g.attributes p ->
    ((r.Warns g a <-> r.Unanswered g a ∧ (r.level? g a 200).isSome = true) <->
      ¬ r.EndsAtLimit g a)

variable {r : Resolver} {g : Graph} {a : Attribute} {p : ParamId}

/-!
## A search with a budget

The induction is on the number of types that may still be looked at.  The search is in
vain if it comes to that many types and none of them has a constant name.
-/

def InVain (r : Resolver) (g : Graph) (start : Option TypeId) (n : Nat) : Prop :=
  forall k, k < n -> exists t, walk (r.parent? g) start k = some t ∧ ¬ g.HasConstantName t

theorem inVain_succ_iff {t : TypeId} {n : Nat} :
    r.InVain g (some t) (n + 1) <-> ¬ g.HasConstantName t ∧ r.InVain g (r.parent? g t) n := by
  constructor
  · intro h
    rcases h 0 (Nat.zero_lt_succ n) with ⟨u, hu, hname⟩
    cases hu
    refine ⟨hname, ?_⟩
    intro k hk
    rcases h (k + 1) (Nat.succ_lt_succ hk) with ⟨u, hu, hname⟩
    rw [walk_succ] at hu
    exact ⟨u, hu, hname⟩
  · intro h
    rcases h with ⟨hname, hrest⟩
    intro k hk
    cases k with
    | zero =>
        exact ⟨t, rfl, hname⟩
    | succ k =>
        rcases hrest k (Nat.lt_of_succ_lt_succ hk) with ⟨u, hu, hname⟩
        refine ⟨u, ?_, hname⟩
        rw [walk_succ]
        exact hu

theorem warnings_derivesFromConstant_succ (name : String) (fuel : Nat) (t : TypeId) :
    (r.derivesFromConstant g name (fuel + 1) (some t)).warnings =
      if g.isConstantAttributeType t then []
      else (r.derivesFromConstant g name fuel (r.parent? g t)).warnings := by
  rw [derivesFromConstant]
  split
  · rfl
  · rw [Logged.warnings_bind, warnings_resolveType]
    rfl

theorem warnings_derivesFromConstant (name : String) (fuel : Nat) (start : Option TypeId) :
    (r.InVain g start fuel ->
      (r.derivesFromConstant g name fuel start).warnings = [.attributeHierarchy name 200]) ∧
    (¬ r.InVain g start fuel ->
      (r.derivesFromConstant g name fuel start).warnings = []) := by
  induction fuel generalizing start with
  | zero =>
      constructor
      · intro _
        rfl
      · intro h
        exact absurd (fun k hk => absurd hk (Nat.not_lt_zero k)) h
  | succ fuel ih =>
      cases start with
      | none =>
          constructor
          · intro h
            rcases h 0 (Nat.zero_lt_succ fuel) with ⟨t, ht, _⟩
            cases ht
          · intro _
            rfl
      | some t =>
          rw [warnings_derivesFromConstant_succ, inVain_succ_iff,
            <- Graph.isConstantAttributeType_iff]
          split
          next h =>
              constructor
              · intro hvain
                exact absurd h hvain.left
              · intro _
                rfl
          next h =>
              rw [and_iff_right h]
              exact ih (r.parent? g t)

/-!
## One attribute

An attribute that is itself called like a constant attribute is settled by its name,
and no type is looked at.  Any other starts the search at its own type.
-/

theorem inVain_iff_unanswered :
    r.InVain g (a.type.bind g.live?) 200 <->
      r.Unanswered g a ∧ (r.level? g a 199).isSome = true := by
  constructor
  · intro h
    constructor
    · intro t ht
      rcases ht with ⟨k, hk, ht⟩
      rcases h k hk with ⟨u, hu, hname⟩
      rw [hu] at ht
      cases ht
      exact hname
    · rcases h 199 (by decide) with ⟨t, ht, _⟩
      rw [level?, ht]
      rfl
  · intro h
    rcases h with ⟨hnames, hlast⟩
    intro k hk
    rcases Option.isSome_iff_exists.mp (isSome_walk_of_le (Nat.le_of_lt_succ hk) hlast) with
      ⟨t, ht⟩
    exact ⟨t, ht, hnames t ⟨k, hk, ht⟩⟩

theorem warnings_isConstantAttribute_of_name (h : ConstantName a.fullName) :
    (r.isConstantAttribute g a).warnings = [] := by
  rw [isConstantAttribute, if_pos (isConstantAttributeName_iff.mpr h)]
  rfl

theorem isConstantAttribute_of_not_name (h : ¬ ConstantName a.fullName) :
    r.isConstantAttribute g a =
      r.derivesFromConstant g a.fullName Limit.levels (a.type.bind g.live?) := by
  rw [isConstantAttribute, if_neg]
  rw [isConstantAttributeName_iff]
  exact h

theorem warns_iff_of_not_name (h : ¬ ConstantName a.fullName) :
    r.Warns g a <-> r.Unanswered g a ∧ (r.level? g a 199).isSome = true := by
  have hwarnings := warnings_derivesFromConstant (r := r) (g := g) a.fullName Limit.levels
    (a.type.bind g.live?)
  rw [Warns, isConstantAttribute_of_not_name h, <- inVain_iff_unanswered]
  constructor
  · intro hwarns
    by_contra hvain
    rw [hwarnings.right hvain] at hwarns
    cases hwarns
  · exact hwarnings.left

theorem warnings_of_not_warns (h : ¬ r.Warns g a) :
    (r.isConstantAttribute g a).warnings = [] := by
  by_cases hname : ConstantName a.fullName
  · exact warnings_isConstantAttribute_of_name hname
  · rw [warns_iff_of_not_name hname, <- inVain_iff_unanswered] at h
    rw [isConstantAttribute_of_not_name hname]
    exact (warnings_derivesFromConstant a.fullName Limit.levels _).right h

theorem not_unanswered_of_name (hname : ConstantName a.fullName)
    (htype : forall t row, a.type = some t -> g.type? t = some row -> row.fullName = a.fullName)
    {n : Nat} (hlevel : (r.level? g a n).isSome = true) : ¬ r.Unanswered g a := by
  have hfirst : (a.type.bind g.live?).isSome = true := isSome_walk_of_le (Nat.zero_le n) hlevel
  rcases Option.isSome_iff_exists.mp hfirst with ⟨t, ht⟩
  rcases Option.bind_eq_some_iff.mp ht with ⟨u, hu, hlive⟩
  rcases (g.live?_eq_some_iff).mp hlive with ⟨rfl, hlive⟩
  rcases Graph.exists_row_of_isLive hlive with ⟨row, hrow⟩
  intro h
  apply h t ⟨0, by decide, ht⟩
  refine ⟨row, hrow, ?_⟩
  rw [htype t row hu hrow]
  exact hname

theorem warns_iff
    (htype : forall t row, a.type = some t -> g.type? t = some row -> row.fullName = a.fullName) :
    r.Warns g a <-> r.Unanswered g a ∧ (r.level? g a 199).isSome = true := by
  by_cases hname : ConstantName a.fullName
  · constructor
    · intro hwarns
      rw [Warns, warnings_isConstantAttribute_of_name hname] at hwarns
      cases hwarns
    · intro h
      exact absurd h.left (not_unanswered_of_name hname htype h.right)
  · exact warns_iff_of_not_name hname

theorem warns_iff_beyond_iff
    (h : r.Warns g a <-> r.Unanswered g a ∧ (r.level? g a 199).isSome = true) :
    (r.Warns g a <-> r.Unanswered g a ∧ (r.level? g a 200).isSome = true) <->
      ¬ r.EndsAtLimit g a := by
  rw [h, EndsAtLimit]
  constructor
  · intro hbeyond hends
    rcases hends with ⟨hnames, hlast, hnone⟩
    have hmore := (hbeyond.mp ⟨hnames, hlast⟩).right
    rw [hnone] at hmore
    cases hmore
  · intro hends
    constructor
    · intro hvain
      refine ⟨hvain.left, ?_⟩
      rw [Option.isSome_iff_ne_none]
      intro hnone
      exact hends ⟨hvain.left, hvain.right, hnone⟩
    · intro hbeyond
      exact ⟨hbeyond.left, isSome_walk_of_le (Nat.le_succ 199) hbeyond.right⟩

/-!
## One parameter
-/

theorem warnings_isOptional :
    (r.isOptional g p).warnings =
      (r.checked g p).flatMap fun a => (r.isConstantAttribute g a).warnings := by
  rw [isOptional, checked]
  split
  · rfl
  · exact Logged.warnings_anyM _ _

theorem warnsAtLimit
    (h : forall a, a ∈ g.attributes p -> forall t row, a.type = some t ->
      g.type? t = some row -> row.fullName = a.fullName) : r.WarnsAtLimit g p where
  query := warnings_isOptional
  silent _ := warnings_of_not_warns
  warns_iff a ha := warns_iff (h a ha)
  shorter a ha hnone hwarns := by
    have hsome := ((warns_iff (h a ha)).mp hwarns).right
    rw [hnone] at hsome
    cases hsome
  beyond_iff a ha := warns_iff_beyond_iff (warns_iff (h a ha))

end Resolver

namespace Workspace

theorem hierarchies_warn_at_limit (edits : List Edit) (r : Resolver) (p : ParamId) :
    r.WarnsAtLimit (run {} edits).graph p := by
  apply Resolver.warnsAtLimit
  intro a ha t row ht hrow
  have hnamed := attributesNamed_empty.run edits a ⟨.param, p, ha⟩ t ht
  apply hnamed.right
  exact congrArg (Option.map (Row.decl .type)) hrow

/-!
## A hierarchy of exactly two hundred types

A chain of definitions with a parameter whose one attribute has the lowest of them as
its type.  With two hundred types nothing is left out, and the warning is given.
-/

def chainAttribute : Attribute :=
  ⟨⟨0x0C000001⟩, "App.Link", some ⟨0⟩⟩

def annotatedChain (n : Nat) : List Edit :=
  chain n ++ [.create .param ⟨⟨0x08000001⟩, 1, some "value"⟩,
    .annotate (⟨0⟩ : ParamId) ⟨0x0C000001⟩ (.type ⟨0⟩)]

theorem params_run_chain (n : Nat) : (run {} (chain n)).graph.params = {} := by
  induction n with
  | zero =>
      rfl
  | succ n ih =>
      rw [chain, run_append]
      change (((run {} (chain n)).apply (.create .type Graph.chainDecl)).apply
        (.link .base ⟨n⟩ ⟨n + 1⟩)).graph.params = {}
      rw [(isChain_run n).apply_link_create]
      exact ih

theorem param?_annotatedChain (n : Nat) :
    (run {} (annotatedChain n)).graph.types = (run {} (chain n)).graph.types ∧
      (run {} (annotatedChain n)).graph.param? ⟨0⟩ =
        some (Row.annotate chainAttribute .param
          (Row.ofDecl .param ⟨⟨0x08000001⟩, 1, some "value"⟩)) := by
  let w := (run {} (chain n)).apply (.create .param ⟨⟨0x08000001⟩, 1, some "value"⟩)
  have hnext : (run {} (chain n)).graph.next .param = ⟨0⟩ :=
    congrArg (fun params : Table ParamRow => (⟨params.size⟩ : ParamId)) (params_run_chain n)
  have hrow : w.graph.find? (⟨0⟩ : ParamId) =
      some (Row.ofDecl .param ⟨⟨0x08000001⟩, 1, some "value"⟩) := by
    rw [<- hnext]
    exact Graph.find?_create_next _ _ _
  have hsource : w.attributeOf? ⟨0x0C000001⟩ (.type ⟨0⟩) = some chainAttribute := by
    rcases (isChain_run n).decl (Nat.zero_le n) with ⟨row, htype, hdecl⟩
    refine Option.map_eq_some_iff.mpr ⟨row, htype, ?_⟩
    rw [hdecl]
    rfl
  have hcarrier : w.graph.isLive (⟨0⟩ : ParamId).node = true := by
    rw [Graph.isLive_node, hrow]
    rfl
  have hgraph := graph_apply_annotate hsource hcarrier (by decide)
  rw [annotatedChain, run_append]
  change (w.apply (.annotate (⟨0⟩ : ParamId) ⟨0x0C000001⟩ (.type ⟨0⟩))).graph.types = _ ∧
    (w.apply (.annotate (⟨0⟩ : ParamId) ⟨0x0C000001⟩ (.type ⟨0⟩))).graph.param? ⟨0⟩ = _
  rw [hgraph]
  refine ⟨rfl, ?_⟩
  rw [Graph.param?, Graph.find?_modify_self, hrow]
  rfl

theorem isChain_annotatedChain (n : Nat) : (run {} (annotatedChain n)).graph.IsChain n :=
  (isChain_run n).of_types (param?_annotatedChain n).left

theorem level?_annotatedChain (n k : Nat) :
    Resolver.links.level? (run {} (annotatedChain n)).graph chainAttribute k =
      if k ≤ n then some ⟨k⟩ else none := by
  have hchain := isChain_annotatedChain n
  have hparent : forall i, i ≤ n ->
      Resolver.links.parent? (run {} (annotatedChain n)).graph ⟨i⟩ =
        (run {} (annotatedChain n)).graph.base? ⟨i⟩ := by
    intro i hi
    rw [Resolver.parent?, hchain.resolveType hi, Option.bind_some]
  have hstart : chainAttribute.type.bind (run {} (annotatedChain n)).graph.live? = some ⟨0⟩ := by
    rw [chainAttribute, Option.bind_some, Graph.live?_eq_some_iff]
    exact ⟨rfl, hchain.isLive (Nat.zero_le n)⟩
  rw [Resolver.level?, hstart]
  apply Graph.walk_of_steps
  · intro i hi
    rw [hparent i (Nat.le_of_lt hi), hchain.base? hi]
  · rw [hparent n (Nat.le_refl n), hchain.base?_top]

theorem unanswered_annotatedChain (n : Nat) :
    Resolver.links.Unanswered (run {} (annotatedChain n)).graph chainAttribute := by
  intro t ht hname
  rcases ht with ⟨k, _, hk⟩
  rw [<- Resolver.level?, level?_annotatedChain] at hk
  split at hk
  next hle =>
      cases hk
      rcases (isChain_annotatedChain n).decl hle with ⟨row, hrow, hdecl⟩
      rcases hname with ⟨row', hrow', hname⟩
      rw [hrow] at hrow'
      cases hrow'
      rw [hdecl] at hname
      revert hname
      rw [<- isConstantAttributeName_iff]
      decide +kernel
  next =>
      cases hk

theorem twoHundredTypes_warned :
    (run {} (annotatedChain 199)).graph.attributes (⟨0⟩ : ParamId) = [chainAttribute] ∧
    Resolver.links.Unanswered (run {} (annotatedChain 199)).graph chainAttribute ∧
    Resolver.links.level? (run {} (annotatedChain 199)).graph chainAttribute 199 = some ⟨199⟩ ∧
    Resolver.links.level? (run {} (annotatedChain 199)).graph chainAttribute 200 = none ∧
    (Resolver.links.isOptional (run {} (annotatedChain 199)).graph ⟨0⟩).warnings =
      [.attributeHierarchy "App.Link" 200] ∧
    ¬ (Resolver.links.Warns (run {} (annotatedChain 199)).graph chainAttribute <->
      Resolver.links.Unanswered (run {} (annotatedChain 199)).graph chainAttribute ∧
        (Resolver.links.level? (run {} (annotatedChain 199)).graph chainAttribute 200).isSome =
          true) := by
  have hrow := (param?_annotatedChain 199).right
  have hlast : Resolver.links.level? (run {} (annotatedChain 199)).graph chainAttribute 199 =
      some ⟨199⟩ :=
    level?_annotatedChain 199 199
  have hbeyond : Resolver.links.level? (run {} (annotatedChain 199)).graph chainAttribute 200 =
      none :=
    level?_annotatedChain 199 200
  have hattributes : (run {} (annotatedChain 199)).graph.attributes (⟨0⟩ : ParamId) =
      [chainAttribute] := by
    change (run {} (annotatedChain 199)).graph.find? (⟨0⟩ : ParamId) = some _ at hrow
    rw [Graph.attributes, hrow]
    rfl
  have hdefault : (run {} (annotatedChain 199)).graph.read .paramDefault ⟨0⟩ = none := by
    apply Graph.read_of_recorded_none
    exact (congrArg (Option.bind · (Slot.get .paramDefault)) hrow).trans rfl
  have hname : ¬ ConstantName chainAttribute.fullName := by
    rw [<- isConstantAttributeName_iff]
    decide +kernel
  have hwarns : Resolver.links.Warns (run {} (annotatedChain 199)).graph chainAttribute := by
    rw [Resolver.warns_iff_of_not_name hname, hlast]
    exact ⟨unanswered_annotatedChain 199, rfl⟩
  refine ⟨hattributes, unanswered_annotatedChain 199, hlast, hbeyond, ?_, ?_⟩
  · rw [Resolver.warnings_isOptional, Resolver.checked, hdefault, hattributes]
    have hasked : forall p : Attribute -> Logged Bool,
        Logged.asked p [chainAttribute] = [chainAttribute] := by
      intro p
      rw [Logged.asked]
      cases (p chainAttribute).value <;> rfl
    rw [Option.isSome_none, if_neg Bool.false_ne_true, hasked, List.flatMap_singleton]
    exact hwarns
  · intro h
    have hmore := (h.mp hwarns).right
    rw [hbeyond] at hmore
    cases hmore

end Workspace
end MetadataLabels
