import MetadataLabels.Proofs.BaseChain

/-!
# Overloads of a derived type

Where a base chain ends in time, the types above a derived type are the types above
its base, and the derived type itself.  So deriving adds at most the classes of the
methods that the derived type lists, and adds none where each of these overrides a
method of the base.
-/

namespace MetadataLabels

namespace EquivalenceTest

variable {α : Type} {same : α -> α -> Bool}

theorem classes_union (h : EquivalenceTest same) (s t : Set α) :
    h.classes (s ∪ t) = h.classes s ∪ h.classes t :=
  Set.image_union _ s t

theorem ncard_classes_le (h : EquivalenceTest same) (l : List α) :
    (h.classes {a | a ∈ l}).ncard ≤ l.length := by
  have hencard : (h.classes {a | a ∈ l}).encard ≤ l.length :=
    (Set.encard_image_le _ _).trans (encard_setOf_mem_le l)
  rw [<- (h.finite_classes l).cast_ncard_eq] at hencard
  exact ENat.natCast_le_natCast.mp hencard

theorem classes_union_of_same (h : EquivalenceTest same) {s t : Set α}
    (hsame : forall a, a ∈ s -> exists b, b ∈ t ∧ same a b = true) :
    h.classes (s ∪ t) = h.classes t := by
  apply h.classes_eq
  · intro a ha
    rcases ha with ha | ha
    · exact hsame a ha
    · exact ⟨a, ha, h.refl a⟩
  · intro b hb
    exact ⟨b, Or.inr hb, h.refl b⟩

end EquivalenceTest

namespace Resolver

/-- A type that resolves to itself, with a definition as its resolved base, on a chain that ends
within two hundred types. -/
structure Derives (r : Resolver) (g : Graph) (d b : TypeId) : Prop where
  self : (r.resolveType g d).value = some d
  base : (r.baseType g d).value = some b
  definition : exists row, g.type? b = some row ∧ row.isDefinition = true
  ends : r.nthBase? g d 200 = none

structure InheritsOverloads (r : Resolver) (g : Graph) (d b : TypeId) (name : String) :
    Prop where
  base_le : (r.otherOverloads g b name).value ≤ (r.otherOverloads g d name).value
  le_base_add : (r.otherOverloads g d name).value ≤
    (r.otherOverloads g b name).value + (g.signaturesNamed name d).length
  overriding : (forall s, s ∈ g.signaturesNamed name d ->
      exists s', s' ∈ r.signaturesUp g b name ∧ g.sameMethodSig s s' = true) ->
    (r.otherOverloads g d name).value = (r.otherOverloads g b name).value

variable {r : Resolver} {g : Graph} {d b : TypeId} {name : String}

namespace Derives

/-!
## The types above
-/

theorem resolveType_base (h : r.Derives g d b) : (r.resolveType g b).value = some b := by
  rcases h.definition with ⟨row, hrow, hdef⟩
  exact value_resolveType_eq_some_iff.mpr ⟨row, hrow, Or.inl ⟨hdef, rfl⟩⟩

theorem nthBase?_succ (h : r.Derives g d b) (n : Nat) :
    r.nthBase? g d (n + 1) = r.nthBase? g b n := by
  rw [nthBase?, nthBase?, h.self, h.resolveType_base, walk_succ, Option.bind_some, h.base]

theorem mem_ancestors_iff (h : r.Derives g d b) {u : TypeId} :
    u ∈ r.ancestors g d 200 <-> u = d ∨ u ∈ r.ancestors g b 200 := by
  -- The base may visit one type more than are left to the derived type, but there is none.
  constructor
  · intro hu
    rcases hu with ⟨n, hn, hu⟩
    cases n with
    | zero =>
        rw [walk, h.self] at hu
        cases hu
        exact Or.inl rfl
    | succ n =>
        change r.nthBase? g d (n + 1) = some u at hu
        rw [h.nthBase?_succ] at hu
        exact Or.inr ⟨n, Nat.lt_of_succ_lt hn, hu⟩
  · intro hu
    rcases hu with rfl | ⟨n, hn, hu⟩
    · exact ⟨0, by decide, h.self⟩
    · change r.nthBase? g b n = some u at hu
      rw [<- h.nthBase?_succ] at hu
      have hlt : n + 1 < 200 := by
        by_contra hge
        have hsome : (r.nthBase? g d 200).isSome = true :=
          isSome_walk_of_le (Nat.not_lt.mp hge) (by rw [<- nthBase?, hu]; rfl)
        rw [h.ends] at hsome
        cases hsome
      exact ⟨n + 1, hlt, hu⟩

theorem signaturesUp_eq (h : r.Derives g d b) :
    r.signaturesUp g d name =
      {s | s ∈ g.signaturesNamed name d} ∪ r.signaturesUp g b name := by
  ext s
  rw [Set.mem_union, Set.mem_ofPred_eq, Graph.mem_signaturesNamed_iff]
  constructor
  · intro hs
    rcases hs with ⟨u, m, row, hu, hs⟩
    rcases h.mem_ancestors_iff.mp hu with rfl | hu
    · exact Or.inl ⟨m, row, hs⟩
    · exact Or.inr ⟨u, m, row, hu, hs⟩
  · intro hs
    rcases hs with ⟨m, row, hs⟩ | ⟨u, m, row, hu, hs⟩
    · exact ⟨d, m, row, h.mem_ancestors_iff.mpr (Or.inl rfl), hs⟩
    · exact ⟨u, m, row, h.mem_ancestors_iff.mpr (Or.inr hu), hs⟩

/-!
## The classes above
-/

theorem signatureClasses_eq (h : r.Derives g d b) (name : String) :
    g.signatureClasses (r.signaturesUp g d name) =
      g.signatureClasses {s | s ∈ g.signaturesNamed name d} ∪
        g.signatureClasses (r.signaturesUp g b name) := by
  rw [h.signaturesUp_eq]
  exact (Graph.sameMethodSig_test g).classes_union _ _

theorem ncard_base_le (h : r.Derives g d b) (name : String) :
    (g.signatureClasses (r.signaturesUp g b name)).ncard ≤
      (g.signatureClasses (r.signaturesUp g d name)).ncard := by
  apply Set.ncard_le_ncard _ finite_signatureClasses
  rw [h.signatureClasses_eq]
  exact Set.subset_union_right

theorem ncard_le_base_add (h : r.Derives g d b) (name : String) :
    (g.signatureClasses (r.signaturesUp g d name)).ncard ≤
      (g.signaturesNamed name d).length +
        (g.signatureClasses (r.signaturesUp g b name)).ncard := by
  rw [h.signatureClasses_eq]
  calc
    _ ≤ (g.signatureClasses {s | s ∈ g.signaturesNamed name d}).ncard +
        (g.signatureClasses (r.signaturesUp g b name)).ncard := Set.ncard_union_le _ _
    _ ≤ _ := Nat.add_le_add_right ((Graph.sameMethodSig_test g).ncard_classes_le _) _

theorem signatureClasses_of_overriding (h : r.Derives g d b)
    (hsame : forall s, s ∈ g.signaturesNamed name d ->
      exists s', s' ∈ r.signaturesUp g b name ∧ g.sameMethodSig s s' = true) :
    g.signatureClasses (r.signaturesUp g d name) =
      g.signatureClasses (r.signaturesUp g b name) := by
  rw [h.signaturesUp_eq]
  exact (Graph.sameMethodSig_test g).classes_union_of_same hsame

end Derives

/-- Over every graph and with both resolvers, a derived type has the overloads of its base, and at
most one more for each method that it lists itself. -/
theorem otherOverloads_inherited (h : r.Derives g d b) (name : String) :
    r.InheritsOverloads g d b name := by
  have hcount : forall t, (r.otherOverloads g t name).value =
      (g.signatureClasses (r.signaturesUp g t name)).ncard - 1 :=
    fun _ => otherOverloads_eq_ncard (.refl g)
  constructor
  case base_le =>
    rw [hcount, hcount]
    exact Nat.sub_le_sub_right (h.ncard_base_le name) 1
  case le_base_add =>
    have hle := h.ncard_le_base_add name
    rw [hcount, hcount]
    omega
  case overriding =>
    intro hsame
    rw [hcount, hcount, h.signatureClasses_of_overriding hsame]

end Resolver

namespace Workspace

def circleAndShape : List Edit :=
  [.create .type ⟨⟨0x02000001⟩, .classType, ⟨"App", "Circle"⟩, none⟩,
    .create .type ⟨⟨0x02000002⟩, .classType, ⟨"App", "Shape"⟩, none⟩,
    .link .base ⟨0⟩ ⟨1⟩,
    .create .method ⟨⟨0x06000001⟩, "Draw", {}⟩,
    .create .method ⟨⟨0x06000002⟩, "Draw", { params := [⟨false, .basic .int32⟩] }⟩,
    .create .method ⟨⟨0x06000003⟩, "Draw", {}⟩,
    .create .method ⟨⟨0x06000004⟩, "Draw", { params := [⟨false, .basic .string⟩] }⟩,
    .append .methods ⟨0⟩ ⟨0⟩, .append .methods ⟨0⟩ ⟨1⟩,
    .append .methods ⟨1⟩ ⟨2⟩, .append .methods ⟨1⟩ ⟨3⟩]

theorem derives_circleAndShape :
    Resolver.links.Derives (run {} circleAndShape).graph ⟨0⟩ ⟨1⟩ where
  self := by decide +kernel
  base := by decide +kernel
  definition := ⟨_, rfl, by decide +kernel⟩
  ends := by decide +kernel

/-- The circle shows one overload more than the shape, though it lists two methods: one of them
overrides a method of the shape. -/
theorem circleAndShape_inherits :
    Resolver.links.Derives (run {} circleAndShape).graph ⟨0⟩ ⟨1⟩ ∧
    Resolver.links.InheritsOverloads (run {} circleAndShape).graph ⟨0⟩ ⟨1⟩ "Draw" ∧
    (Resolver.links.otherOverloads (run {} circleAndShape).graph ⟨1⟩ "Draw").value = 1 ∧
    (Resolver.links.otherOverloads (run {} circleAndShape).graph ⟨0⟩ "Draw").value = 2 := by
  refine ⟨derives_circleAndShape, ?_, ?_, ?_⟩
  · exact Resolver.otherOverloads_inherited derives_circleAndShape "Draw"
  · decide +kernel
  · decide +kernel

end Workspace
end MetadataLabels
