import MetadataLabels.Proofs.PartialWalk
import MetadataLabels.Proofs.SameTypes

/-!
# Optional parameters by the hierarchies of their attributes

A parameter is optional for its constant, or for an attribute that is called like one
of the two constant attributes or has such a type among the first two hundred of its
hierarchy.  A hierarchy that comes to no more types than that, on a cycle or not, is
asked in full.
-/

namespace MetadataLabels

def ConstantName (fullName : String) : Prop :=
  fullName = "System.Runtime.CompilerServices.CustomConstantAttribute" ∨
    fullName = "System.Runtime.CompilerServices.DecimalConstantAttribute"

theorem isConstantAttributeName_iff {fullName : String} :
    isConstantAttributeName fullName = true <-> ConstantName fullName := by
  simp only [isConstantAttributeName, Bool.or_eq_true, beq_iff_eq]
  exact Iff.rfl

namespace Graph

def HasConstantName (g : Graph) (t : TypeId) : Prop :=
  exists row, g.type? t = some row ∧ ConstantName row.fullName

theorem isConstantAttributeType_iff {g : Graph} {t : TypeId} :
    g.isConstantAttributeType t = true <-> g.HasConstantName t := by
  rw [isConstantAttributeType, Option.any_eq_true]
  simp only [isConstantAttributeName_iff]
  exact Iff.rfl

def listAttributes (g : Graph) (p : ParamId) (attributes : List Attribute) : Graph :=
  g.modify p fun row : ParamRow => { row with attributes := attributes }

/-- The parameter has a constant, or an attribute that is called like a constant attribute or one
of whose types is. -/
def OptionalBy (g : Graph) (p : ParamId) (types : Attribute -> Set TypeId) : Prop :=
  (exists constant, g.recorded .paramDefault p = some constant) ∨
    exists a, a ∈ g.attributes p ∧
      (ConstantName a.fullName ∨ exists t, t ∈ types a ∧ g.HasConstantName t)

theorem OptionalBy.congr {g : Graph} {p : ParamId} {types types' : Attribute -> Set TypeId}
    (h : forall a, a ∈ g.attributes p -> types a = types' a) :
    g.OptionalBy p types <-> g.OptionalBy p types' := by
  apply or_congr_right
  apply exists_congr
  intro a
  apply and_congr_right
  intro ha
  rw [h a ha]

end Graph

namespace Resolver

def parent? (r : Resolver) (g : Graph) (t : TypeId) : Option TypeId :=
  (r.resolveType g t).value.bind g.base?

/-- The types of the hierarchy of an attribute: its own, while that lives, and from each type
the next. -/
def hierarchy (r : Resolver) (g : Graph) (a : Attribute) : Set TypeId :=
  visited (r.parent? g) (a.type.bind g.live?)

def hierarchyWithin (r : Resolver) (g : Graph) (a : Attribute) (n : Nat) : Set TypeId :=
  visitedWithin (r.parent? g) (a.type.bind g.live?) n

/-- How the attributes of a parameter decide: by the first two hundred types of each hierarchy,
whatever the order of the attributes, and by whole hierarchies where these are no larger. -/
structure DecidedByHierarchies (r : Resolver) (g : Graph) (p : ParamId) : Prop where
  bounded : (r.isOptional g p).value = true <-> g.OptionalBy p fun a => r.hierarchyWithin g a 200
  reordered : forall attributes, attributes.Perm (g.attributes p) ->
    (r.isOptional (g.listAttributes p attributes) p).value = (r.isOptional g p).value
  small : forall a, (r.hierarchy g a).encard ≤ 200 -> r.hierarchyWithin g a 200 = r.hierarchy g a
  unbounded : (forall a, a ∈ g.attributes p -> (r.hierarchy g a).encard ≤ 200) ->
    ((r.isOptional g p).value = true <-> g.OptionalBy p (r.hierarchy g))

variable {r : Resolver} {g : Graph} {p : ParamId}

/-!
## The levels that are looked at
-/

theorem derivesFromConstant_iff {name : String} {fuel : Nat} {start : Option TypeId} :
    (r.derivesFromConstant g name fuel start).value = true <->
      exists t, t ∈ visitedWithin (r.parent? g) start fuel ∧ g.HasConstantName t := by
  induction fuel generalizing start with
  | zero =>
      simp
  | succ fuel ih =>
      cases start with
      | none =>
          simp
      | some t =>
          rw [value_derivesFromConstant_succ, Bool.or_eq_true, ih,
            Graph.isConstantAttributeType_iff, visitedWithin_succ, Set.exists_mem_insert]
          exact Iff.rfl

theorem isConstantAttribute_iff {a : Attribute} :
    (r.isConstantAttribute g a).value = true <->
      ConstantName a.fullName ∨
        exists t, t ∈ r.hierarchyWithin g a 200 ∧ g.HasConstantName t := by
  rw [value_isConstantAttribute, Bool.or_eq_true, isConstantAttributeName_iff,
    derivesFromConstant_iff]
  exact Iff.rfl

theorem isSome_read_default_iff :
    (g.read .paramDefault p).isSome = true <->
      exists constant, g.recorded .paramDefault p = some constant := by
  rw [Option.isSome_iff_exists]
  -- A constant links to nothing that could be gone.
  apply exists_congr
  intro constant
  rw [Graph.read_eq_some_iff]
  exact and_iff_left rfl

theorem isOptional_iff :
    (r.isOptional g p).value = true <-> g.OptionalBy p fun a => r.hierarchyWithin g a 200 := by
  rw [value_isOptional, Bool.or_eq_true, isSome_read_default_iff, List.any_eq_true]
  simp only [isConstantAttribute_iff]
  exact Iff.rfl

end Resolver

/-!
## The order of the attributes
-/

namespace Graph

variable {g : Graph} {p : ParamId} {attributes : List Attribute}

theorem sameTypes_listAttributes (g : Graph) (p : ParamId) (attributes : List Attribute) :
    g.SameTypes (g.listAttributes p attributes) :=
  sameTypes_modify g p (fun _ => rfl) (fun h _ => nomatch h) (fun h _ => nomatch h)

theorem recorded_default_listAttributes :
    (g.listAttributes p attributes).recorded .paramDefault p = g.recorded .paramDefault p := by
  rw [recorded, recorded, listAttributes, find?_modify_self]
  cases g.find? p with
  | none =>
      rfl
  | some row =>
      rfl

theorem mem_attributes_listAttributes (h : attributes.Perm (g.attributes p)) {a : Attribute} :
    a ∈ (g.listAttributes p attributes).attributes p <-> a ∈ g.attributes p := by
  rw [Graph.attributes] at h
  rw [Graph.attributes, Graph.attributes, listAttributes, find?_modify_self]
  cases hrow : g.find? p with
  | none =>
      rfl
  | some row =>
      rw [hrow] at h
      exact h.mem_iff

theorem SameTypes.hierarchyWithin {g' : Graph} (h : g.SameTypes g') (r : Resolver)
    (a : Attribute) (n : Nat) : r.hierarchyWithin g' a n = r.hierarchyWithin g a n := by
  have hparent : r.parent? g' = r.parent? g := by
    funext t
    rw [Resolver.parent?, Resolver.parent?, h.resolveType, funext h.base]
  rw [Resolver.hierarchyWithin, Resolver.hierarchyWithin, hparent, funext h.live?]

theorem SameTypes.hasConstantName_iff {g' : Graph} (h : g.SameTypes g') (t : TypeId) :
    g'.HasConstantName t <-> g.HasConstantName t := by
  rw [<- isConstantAttributeType_iff, h.isConstantAttributeType, isConstantAttributeType_iff]

end Graph

namespace Resolver

theorem isOptional_reordered {r : Resolver} {g : Graph} {p : ParamId}
    {attributes : List Attribute} (h : attributes.Perm (g.attributes p)) :
    (r.isOptional (g.listAttributes p attributes) p).value = (r.isOptional g p).value := by
  have htypes := g.sameTypes_listAttributes p attributes
  rw [Bool.eq_iff_iff, isOptional_iff, isOptional_iff, Graph.OptionalBy, Graph.OptionalBy,
    Graph.recorded_default_listAttributes]
  simp only [Graph.mem_attributes_listAttributes h, htypes.hierarchyWithin,
    htypes.hasConstantName_iff]

theorem isOptional_decided_by_hierarchies (r : Resolver) (g : Graph) (p : ParamId) :
    r.DecidedByHierarchies g p where
  bounded := isOptional_iff
  reordered _ := isOptional_reordered
  small _ := visitedWithin_eq_visited
  unbounded hsmall :=
    isOptional_iff.trans (Graph.OptionalBy.congr fun a ha => visitedWithin_eq_visited (hsmall a ha))

end Resolver

namespace Workspace

/-!
## A hierarchy without an end

Two attribute types, each the base of the other, and a parameter with an attribute of the
first.  The hierarchy has two types, so the search decides by all of it, however often it
goes round.
-/

def mutualBases : List Edit :=
  [.create .type ⟨⟨0x02000001⟩, .classType, ⟨"App", "LeftAttribute"⟩, none⟩,
    .create .type ⟨⟨0x02000002⟩, .classType, ⟨"App", "RightAttribute"⟩, none⟩,
    .link .base ⟨0⟩ ⟨1⟩, .link .base ⟨1⟩ ⟨0⟩,
    .create .param ⟨⟨0x08000001⟩, 1, some "value"⟩,
    .annotate (⟨0⟩ : ParamId) ⟨0x0C000001⟩ (.type ⟨0⟩)]

theorem small_hierarchy_mutualBases {a : Attribute}
    (ha : a ∈ (run {} mutualBases).graph.attributes (⟨0⟩ : ParamId)) :
    (Resolver.links.hierarchy (run {} mutualBases).graph a).encard ≤ 200 := by
  have hown : ((run {} mutualBases).graph.attributes (⟨0⟩ : ParamId)).all
      fun a => a.type == some ⟨0⟩ := by
    decide +kernel
  have hleft : Resolver.links.parent? (run {} mutualBases).graph ⟨0⟩ = some ⟨1⟩ := by
    decide +kernel
  have hright : Resolver.links.parent? (run {} mutualBases).graph ⟨1⟩ = some ⟨0⟩ := by
    decide +kernel
  have hsub : Resolver.links.hierarchy (run {} mutualBases).graph a ⊆ {⟨0⟩, ⟨1⟩} := by
    apply visited_subset
    · intro t ht
      rw [eq_of_beq (List.all_eq_true.mp hown a ha), Option.bind_some,
        Graph.live?_eq_some_iff] at ht
      exact Or.inl ht.left
    · intro t u ht hu
      rcases ht with rfl | rfl
      · rw [hleft] at hu
        exact Or.inr (Option.some.inj hu).symm
      · rw [hright] at hu
        exact Or.inl (Option.some.inj hu).symm
  have htwo : ({⟨0⟩, ⟨1⟩} : Set TypeId).encard = 2 := Set.encard_pair (by decide)
  apply (Set.encard_le_encard hsub).trans
  rw [htwo]
  decide

theorem mutualBases_not_optional :
    (Resolver.links.isOptional (run {} mutualBases).graph ⟨0⟩).value = false ∧
    (forall a, a ∈ (run {} mutualBases).graph.attributes (⟨0⟩ : ParamId) ->
      (Resolver.links.hierarchy (run {} mutualBases).graph a).encard ≤ 200) ∧
    ¬ (run {} mutualBases).graph.OptionalBy ⟨0⟩
      (Resolver.links.hierarchy (run {} mutualBases).graph) := by
  have hfalse : (Resolver.links.isOptional (run {} mutualBases).graph ⟨0⟩).value = false := by
    decide +kernel
  have hdecided :=
    Resolver.isOptional_decided_by_hierarchies .links (run {} mutualBases).graph ⟨0⟩
  refine ⟨hfalse, fun _ => small_hierarchy_mutualBases, ?_⟩
  rw [<- hdecided.unbounded fun _ => small_hierarchy_mutualBases, hfalse]
  exact Bool.false_ne_true

end Workspace
end MetadataLabels
