import MetadataLabels.Proofs.Classification
import MetadataLabels.Proofs.SignatureDecay
import MetadataLabels.Proofs.SlotHistory

/-!
# Graphs with the same types

Resolution, the comparison of signatures and the walks over base types read no more
of a type than its declaration and its two links.  Graphs that agree on these give
the same answers, whatever members and attributes they list.
-/

namespace MetadataLabels
namespace Graph

/-- The types of the two graphs have the same declarations and show the same links. -/
structure SameTypes (g g' : Graph) : Prop where
  decl : forall t : TypeId, g'.decl? t = g.decl? t
  base : forall t : TypeId, g'.base? t = g.base? t
  definition : forall t : TypeId, g'.definition? t = g.definition? t

/-!
## Changes of other parts of a row
-/

theorem isCurrent_modify (g : Graph) {k : Kind} (id : RowId k) (f : Row k -> Row k) (s : Slot)
    (value : s.Value) : (g.modify id f).isCurrent s value = g.isCurrent s value := by
  rw [isCurrent, isCurrent, funext (isLive_modify g id f)]

theorem read_modify_of_keptBy {g : Graph} {s : Slot} {k : Kind} {f : Row k -> Row k}
    (hf : s.KeptBy f) (id : RowId k) (carrier : RowId s.carrier) :
    (g.modify id f).read s carrier = g.read s carrier := by
  rw [read, read, recorded_modify_of_keptBy hf]
  congr 1
  funext value
  exact isCurrent_modify g id f s value

theorem sameTypes_modify (g : Graph) {k : Kind} (id : RowId k) {f : Row k -> Row k}
    (hdecl : forall row, Row.decl k (f row) = Row.decl k row) (hbase : Slot.base.KeptBy f)
    (hdefinition : Slot.definition.KeptBy f) : g.SameTypes (g.modify id f) where
  decl t := decl?_modify g id f hdecl t
  base t := read_modify_of_keptBy hbase id t
  definition t := read_modify_of_keptBy hdefinition id t

namespace SameTypes

variable {g g' : Graph}

theorem refl (g : Graph) : g.SameTypes g :=
  ⟨fun _ => rfl, fun _ => rfl, fun _ => rfl⟩

theorem symm (h : g.SameTypes g') : g'.SameTypes g :=
  ⟨fun t => (h.decl t).symm, fun t => (h.base t).symm, fun t => (h.definition t).symm⟩

/-!
## Types
-/

theorem isLive (h : g.SameTypes g') (t : TypeId) : g'.isLive t.node = g.isLive t.node := by
  rw [Bool.eq_iff_iff, isLive_iff_decl?, isLive_iff_decl?]
  change (exists decl, g'.decl? t = some decl) <-> exists decl, g.decl? t = some decl
  rw [h.decl]

theorem live? (h : g.SameTypes g') (t : TypeId) : g'.live? t = g.live? t := by
  rw [Graph.live?, Graph.live?, h.isLive]

theorem sameType (h : g.SameTypes g') (a b : TypeId) : g'.sameType a b = g.sameType a b := by
  rw [Bool.eq_iff_iff, sameType_iff_decl?, sameType_iff_decl?, h.decl, h.decl]

theorem sameMethodSig (h : g.SameTypes g') : g'.sameMethodSig = g.sameMethodSig := by
  have hlinks : forall l l', g.LinksStaySame g' l l' ∧ g'.LinksStaySame g l l' := by
    intro l l'
    constructor
    · intro t _ t' _ htt'
      rw [h.sameType, htt']
    · intro t _ t' _ htt'
      rw [<- h.sameType, htt']
  funext a b
  rw [Bool.eq_iff_iff]
  exact ⟨sameMethodSig_linkTest.stays (hlinks _ _).right,
    sameMethodSig_linkTest.stays (hlinks _ _).left⟩

/-!
## Resolution
-/

theorem resolveType (h : g.SameTypes g') (r : Resolver) (t : TypeId) :
    (r.resolveType g' t).value = (r.resolveType g t).value := by
  have hdecl : forall g : Graph, (r.resolveType g t).value =
      (g.decl? t).bind fun d : TypeDecl =>
        if d.isDefinition then some t
        else (g.definition? t).or (r.byName d.fullName).value := by
    intro g
    rw [Resolver.value_resolveType, decl?, Option.bind_map]
    rfl
  rw [hdecl, hdecl, h.decl, h.definition]

theorem baseType (h : g.SameTypes g') (r : Resolver) (t : TypeId) :
    (r.baseType g' t).value = (r.baseType g t).value := by
  rw [Resolver.value_baseType, Resolver.value_baseType, h.base]
  simp only [h.resolveType]

theorem resolveSignature (h : g.SameTypes g') (r : Resolver) (s : TypeSig) :
    (r.resolveSignature g' s).value = (r.resolveSignature g s).value := by
  rw [Resolver.value_resolveSignature, Resolver.value_resolveSignature]
  simp only [h.resolveType]

/-!
## Full names
-/

theorem any_fullName (h : g.SameTypes g') (p : String -> Bool) (t : TypeId) :
    ((g'.type? t).any fun row => p row.fullName) = (g.type? t).any fun row => p row.fullName := by
  have hdecl : forall g : Graph, ((g.type? t).any fun row => p row.fullName) =
      (g.decl? t).any fun d : TypeDecl => p d.fullName := by
    intro g
    rw [decl?, Option.any_map]
    rfl
  rw [hdecl, hdecl, h.decl]

theorem isConstantAttributeType (h : g.SameTypes g') (t : TypeId) :
    g'.isConstantAttributeType t = g.isConstantAttributeType t :=
  h.any_fullName isConstantAttributeName t

theorem isAwaitable (h : g.SameTypes g') (r : Resolver) (returns : TypeSig) :
    (r.isAwaitable g' returns).value = (r.isAwaitable g returns).value := by
  rw [Resolver.value_isAwaitable, Resolver.value_isAwaitable, h.resolveSignature]
  congr 1
  funext t
  exact h.any_fullName isAwaitableName t

end SameTypes
end Graph
end MetadataLabels
