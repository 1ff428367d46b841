import MetadataLabels.Resolver

/-!
# Answers of the resolvers

What each way of resolving answers, apart from the notices it gives.  Both
resolvers agree on all that the graph records; they differ in what a name
stands for.
-/

namespace MetadataLabels

/-- The type that a signature names, itself or as the type that it instantiates. -/
def TypeSig.named? : TypeSig -> Option TypeId
  | .named _ t => some t
  | .inst base _ => base.named?
  | .basic _ => none
  | .modified _ _ => none
  | .param _ _ => none

namespace Registry

theorem findDefinition?_eq_some_iff {reg : Registry} {name : String} {t : TypeId} :
    reg.findDefinition? name = some t <->
      exists r, reg.findByName? name = some r ∧ r.token.isTypeDef = true ∧ r.type = t := by
  unfold findDefinition?
  cases reg.findByName? name with
  | none =>
      simp
  | some r =>
      by_cases h : r.token.isTypeDef = true <;> simp [h]

end Registry

namespace Resolver

@[simp]
theorem value_byName_links (name : String) : (byName .links name).value = none :=
  rfl

@[simp]
theorem value_byName_registry (reg : Registry) (name : String) :
    (byName (.registry reg) name).value = reg.findDefinition? name := by
  simp only [byName]
  cases reg.findDefinition? name <;> rfl

/-- A definition stands for itself; a reference for what it is linked to, and without a live
link for what its name stands for. -/
theorem value_resolveType (r : Resolver) (g : Graph) (t : TypeId) :
    (r.resolveType g t).value =
      (g.type? t).bind fun row =>
        if row.isDefinition then some t
        else (g.definition? t).or (r.byName row.fullName).value := by
  unfold resolveType
  cases g.type? t with
  | none =>
      rfl
  | some row =>
      simp only [Option.bind_some]
      split
      · rfl
      · cases g.definition? t <;> rfl

theorem value_resolveType_eq_some_iff {r : Resolver} {g : Graph} {t d : TypeId} :
    (r.resolveType g t).value = some d <->
      exists row, g.type? t = some row ∧
        ((row.isDefinition = true ∧ t = d) ∨
          (row.isDefinition = false ∧ g.definition? t = some d) ∨
          (row.isDefinition = false ∧ g.definition? t = none ∧
            (r.byName row.fullName).value = some d)) := by
  rw [value_resolveType, Option.bind_eq_some_iff]
  apply exists_congr
  intro row
  apply and_congr_right
  intro _
  cases row.isDefinition with
  | true =>
      simp
  | false =>
      cases g.definition? t <;> simp

theorem value_resolveType_unlinked {g : Graph} {t : TypeId} {row : TypeRow}
    (hrow : g.type? t = some row) (href : row.isDefinition = false)
    (hlink : g.definition? t = none) (r : Resolver) :
    (r.resolveType g t).value = (r.byName row.fullName).value := by
  rw [value_resolveType, hrow, Option.bind_some, href, hlink]
  rfl

theorem value_baseType (r : Resolver) (g : Graph) (t : TypeId) :
    (r.baseType g t).value = (g.base? t).bind fun b => (r.resolveType g b).value := by
  unfold baseType
  cases g.base? t <;> rfl

theorem value_resolveSignature (r : Resolver) (g : Graph) : forall s : TypeSig,
    (r.resolveSignature g s).value = s.named?.bind fun t => (r.resolveType g t).value
  | .named _ _ => rfl
  | .inst base _ => value_resolveSignature r g base
  | .basic _ => rfl
  | .modified _ _ => rfl
  | .param _ _ => rfl

end Resolver
end MetadataLabels
