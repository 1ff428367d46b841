import MetadataLabels.OptionalParameter
import MetadataLabels.Overload
import MetadataLabels.Proofs.Resolution

/-!
# Values of the classification queries

Every query that resolves references answers a value and gives notices.  These
equations state the value alone, the bounded walks one step at a time.
-/

namespace MetadataLabels
namespace Resolver

variable (r : Resolver) (g : Graph)

/-!
## Attributes and badges
-/

theorem value_isDeprecated (target : AttributeTarget) :
    (r.isDeprecated g target).value =
      (r.attributesOf? g target).value.any (hasAttribute · AttributeName.obsolete) :=
  rfl

theorem value_isAwaitable (returns : TypeSig) :
    (r.isAwaitable g returns).value =
      (r.resolveSignature g returns).value.any g.isAwaitableType :=
  rfl

theorem value_methodBadges (m : MethodReference) :
    (r.methodBadges g m).value =
      ⟨r.isExtension g m,
        (m.signature? g).any fun s => (r.isAwaitable g s.returns.type).value⟩ := by
  unfold methodBadges
  cases m.signature? g <;> rfl

/-!
## Attribute hierarchies
-/

@[simp]
theorem value_derivesFromConstant_zero (name : String) (start : Option TypeId) :
    (r.derivesFromConstant g name 0 start).value = false :=
  rfl

@[simp]
theorem value_derivesFromConstant_none (name : String) (fuel : Nat) :
    (r.derivesFromConstant g name fuel none).value = false := by
  cases fuel <;> rfl

theorem value_derivesFromConstant_succ (name : String) (fuel : Nat) (t : TypeId) :
    (r.derivesFromConstant g name (fuel + 1) (some t)).value =
      (g.isConstantAttributeType t ||
        (r.derivesFromConstant g name fuel ((r.resolveType g t).value.bind g.base?)).value) := by
  rw [derivesFromConstant]
  cases g.isConstantAttributeType t <;> rfl

theorem value_isConstantAttribute (a : Attribute) :
    (r.isConstantAttribute g a).value =
      (isConstantAttributeName a.fullName ||
        (r.derivesFromConstant g a.fullName Limit.levels (a.type.bind g.live?)).value) := by
  unfold isConstantAttribute
  cases isConstantAttributeName a.fullName <;> rfl

theorem value_isOptional (p : ParamId) :
    (r.isOptional g p).value =
      ((g.read .paramDefault p).isSome ||
        (g.attributes p).any fun a => (r.isConstantAttribute g a).value) := by
  unfold isOptional
  cases (g.read .paramDefault p).isSome with
  | true =>
      rfl
  | false =>
      exact Logged.value_anyM _ _

/-!
## Base chains
-/

@[simp]
theorem value_climb_none (fuel : Nat) : (r.climb g fuel none).value = [] := by
  cases fuel <;> rfl

@[simp]
theorem value_climb_zero (start : Option TypeId) : (r.climb g 0 start).value = [] := by
  cases start <;> rfl

theorem value_climb_succ (fuel : Nat) (t : TypeId) :
    (r.climb g (fuel + 1) (some t)).value =
      t :: (r.climb g fuel (r.baseType g t).value).value :=
  rfl

theorem value_lineage (t : TypeId) :
    (r.lineage g t).value = (r.climb g Limit.levels (r.resolveType g t).value).value :=
  rfl

theorem value_otherOverloads (t : TypeId) (name : String) :
    (r.otherOverloads g t name).value =
      (g.distinctSignatures name (r.lineage g t).value).length - 1 :=
  rfl

end Resolver
end MetadataLabels
