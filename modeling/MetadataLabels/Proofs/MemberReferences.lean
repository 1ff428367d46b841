import MetadataLabels.Proofs.SameTypes
import MetadataLabels.Proofs.SlotHistory

/-!
# Member references

A member reference stands for its target where attributes are asked for, and for
itself where a signature is.  As it owns its target, the target is there for as long
as the reference is; and as nothing relates the kind of the target to the kind of the
signature, each is asked for by itself.
-/

namespace MetadataLabels

variable {g : Graph} {m : MemberRefId}

/-!
## Definitions behind a reference
-/

theorem MethodReference.definition?_member_eq_some_iff {d : MethodId} :
    (MethodReference.member m).definition? g = some d <-> g.target? m = some (.method d) := by
  rw [definition?]
  cases g.target? m with
  | none =>
      simp
  | some target =>
      cases target <;> simp

theorem FieldReference.definition?_member_eq_some_iff {d : FieldId} :
    (FieldReference.member m).definition? g = some d <-> g.target? m = some (.field d) := by
  rw [definition?]
  cases g.target? m with
  | none =>
      simp
  | some target =>
      cases target <;> simp

theorem definition?_member_exclusive :
    (MethodReference.member m).definition? g = none ∨
      (FieldReference.member m).definition? g = none := by
  rw [MethodReference.definition?, FieldReference.definition?]
  cases g.target? m with
  | none =>
      exact Or.inl rfl
  | some target =>
      cases target with
      | method d =>
          exact Or.inr rfl
      | field d =>
          exact Or.inl rfl

theorem Graph.signature?_member (g : Graph) (m : MemberRefId) :
    (MethodReference.member m).signature? g =
      (g.decl? m).bind fun d : MemberRefDecl => d.signature.method? := by
  rw [decl?, Option.bind_map]
  rfl

namespace Resolver

variable {r : Resolver}

/-!
## What rests on the definition alone
-/

theorem isDeprecated_of_method {reference reference' : MethodReference}
    (h : r.resolveMethod g reference = r.resolveMethod g reference') :
    r.isDeprecated g (.method reference) = r.isDeprecated g (.method reference') := by
  rw [isDeprecated, isDeprecated, attributesOf?, attributesOf?, h]

theorem isDeprecated_of_field {reference reference' : FieldReference}
    (h : r.resolveField g reference = r.resolveField g reference') :
    r.isDeprecated g (.field reference) = r.isDeprecated g (.field reference') := by
  rw [isDeprecated, isDeprecated, attributesOf?, attributesOf?, h]

theorem isExtension_congr {reference reference' : MethodReference}
    (h : r.resolveMethod g reference = r.resolveMethod g reference') :
    r.isExtension g reference = r.isExtension g reference' := by
  rw [isExtension, isExtension, h]

theorem isDeprecated_of_no_method {reference : MethodReference}
    (h : r.resolveMethod g reference = none) :
    (r.isDeprecated g (.method reference)).value = false := by
  rw [value_isDeprecated, attributesOf?, h]
  rfl

theorem isDeprecated_of_no_field {reference : FieldReference}
    (h : r.resolveField g reference = none) :
    (r.isDeprecated g (.field reference)).value = false := by
  rw [value_isDeprecated, attributesOf?, h]
  rfl

theorem isExtension_of_no_method {reference : MethodReference}
    (h : r.resolveMethod g reference = none) : r.isExtension g reference = false := by
  rw [isExtension, h]
  rfl

theorem extension_methodBadges (reference : MethodReference) :
    (r.methodBadges g reference).value.extension = r.isExtension g reference := by
  rw [value_methodBadges]

theorem awaitable_methodBadges (reference : MethodReference) :
    (r.methodBadges g reference).value.awaitable =
      (reference.signature? g).any fun s => (r.isAwaitable g s.returns.type).value := by
  rw [value_methodBadges]

end Resolver

namespace Workspace

/-- What a member reference shows: the definition that it is bound to, if it is one of the kind that
is asked for, and its own signature. -/
structure ReadsThrough (w : Workspace) (r : Resolver) (m : MemberRefId) : Prop where
  method : forall d, w.graph.recorded .target m = some (.method d) ->
    r.resolveMethod w.graph (.member m) = some d ∧
    r.resolveMethod w.graph (.definition d) = some d ∧
    r.isDeprecated w.graph (.method (.member m)) =
      r.isDeprecated w.graph (.method (.definition d)) ∧
    r.isExtension w.graph (.member m) = r.isExtension w.graph (.definition d) ∧
    (r.methodBadges w.graph (.member m)).value.extension =
      (r.methodBadges w.graph (.definition d)).value.extension
  no_method : (forall d, w.graph.recorded .target m ≠ some (.method d)) ->
    r.resolveMethod w.graph (.member m) = none ∧
    (r.isDeprecated w.graph (.method (.member m))).value = false ∧
    r.isExtension w.graph (.member m) = false ∧
    (r.methodBadges w.graph (.member m)).value.extension = false
  field : forall d, w.graph.recorded .target m = some (.field d) ->
    r.resolveField w.graph (.member m) = some d ∧
    r.resolveField w.graph (.definition d) = some d ∧
    r.isDeprecated w.graph (.field (.member m)) = r.isDeprecated w.graph (.field (.definition d))
  no_field : (forall d, w.graph.recorded .target m ≠ some (.field d)) ->
    r.resolveField w.graph (.member m) = none ∧
    (r.isDeprecated w.graph (.field (.member m))).value = false
  exclusive : r.resolveMethod w.graph (.member m) = none ∨
    r.resolveField w.graph (.member m) = none
  awaitable_method : forall row s, w.graph.memberRef? m = some row -> row.signature = .method s ->
    (r.methodBadges w.graph (.member m)).value.awaitable =
      (r.isAwaitable w.graph s.returns.type).value
  awaitable_field : forall row s, w.graph.memberRef? m = some row -> row.signature = .field s ->
    (r.methodBadges w.graph (.member m)).value.awaitable = false
  binding : forall target,
    (r.methodBadges (w.apply (.link .target m target)).graph (.member m)).value.awaitable =
      (r.methodBadges w.graph (.member m)).value.awaitable

variable {w : Workspace} {r : Resolver}

/-!
## Bound references
-/

theorem WellOwned.target?_eq_some_iff (h : w.WellOwned) {target : MemberTarget} :
    w.graph.target? m = some target <-> w.graph.recorded .target m = some target := by
  rw [Graph.target?, Graph.read_eq_some_iff]
  constructor
  · exact And.left
  · intro hrecorded
    exact ⟨hrecorded, h.isCurrent_of_lasting rfl hrecorded⟩

theorem WellOwned.isLive_of_target (h : w.WellOwned) {target : MemberTarget}
    (htarget : w.graph.recorded .target m = some target) :
    w.graph.isLive target.node = true :=
  h.isCurrent_of_lasting rfl htarget

theorem WellOwned.resolveMethod_member_eq_some_iff (h : w.WellOwned) {d : MethodId} :
    r.resolveMethod w.graph (.member m) = some d <->
      w.graph.recorded .target m = some (.method d) := by
  rw [Resolver.resolveMethod, MethodReference.definition?_member_eq_some_iff,
    h.target?_eq_some_iff]

theorem WellOwned.resolveField_member_eq_some_iff (h : w.WellOwned) {d : FieldId} :
    r.resolveField w.graph (.member m) = some d <->
      w.graph.recorded .target m = some (.field d) := by
  rw [Resolver.resolveField, FieldReference.definition?_member_eq_some_iff,
    h.target?_eq_some_iff]

theorem WellOwned.resolveMethod_member_eq_none_iff (h : w.WellOwned) :
    r.resolveMethod w.graph (.member m) = none <->
      forall d, w.graph.recorded .target m ≠ some (.method d) := by
  simp only [Option.eq_none_iff_forall_ne_some, Ne, h.resolveMethod_member_eq_some_iff]

theorem WellOwned.resolveField_member_eq_none_iff (h : w.WellOwned) :
    r.resolveField w.graph (.member m) = none <->
      forall d, w.graph.recorded .target m ≠ some (.field d) := by
  simp only [Option.eq_none_iff_forall_ne_some, Ne, h.resolveField_member_eq_some_iff]

/-!
## Binding
-/

theorem sameTypes_bind (w : Workspace) (m : MemberRefId) (target : MemberTarget) :
    w.graph.SameTypes (w.apply (.link .target m target)).graph := by
  rw [apply, link]
  split
  · rw [Graph.fill]
    split
    · exact .refl w.graph
    · exact Graph.sameTypes_modify w.graph m (Slot.decl_put .target target)
        (Slot.keptBy_put (s := .base) (t := .target) (by decide) target)
        (Slot.keptBy_put (s := .definition) (t := .target) (by decide) target)
  · exact .refl w.graph

theorem signature?_bind (w : Workspace) (m : MemberRefId) (target : MemberTarget) :
    (MethodReference.member m).signature? (w.apply (.link .target m target)).graph =
      (MethodReference.member m).signature? w.graph := by
  rw [apply, link, Graph.signature?_member, Graph.signature?_member]
  split
  · rw [Graph.decl?_fill]
  · rfl

theorem awaitable_bind (w : Workspace) (r : Resolver) (m : MemberRefId)
    (target : MemberTarget) :
    (r.methodBadges (w.apply (.link .target m target)).graph (.member m)).value.awaitable =
      (r.methodBadges w.graph (.member m)).value.awaitable := by
  rw [Resolver.awaitable_methodBadges, Resolver.awaitable_methodBadges, signature?_bind]
  simp only [(sameTypes_bind w m target).isAwaitable]

/-!
## What a reference shows
-/

theorem WellOwned.readsThrough (h : w.WellOwned) (r : Resolver) (m : MemberRefId) :
    w.ReadsThrough r m := by
  constructor
  case method =>
    intro d hd
    have hmember := (h.resolveMethod_member_eq_some_iff (r := r)).mpr hd
    have hdefinition : r.resolveMethod w.graph (.definition d) = some d :=
      (w.graph.live?_eq_some_iff).mpr ⟨rfl, h.isLive_of_target hd⟩
    have hsame := hmember.trans hdefinition.symm
    refine ⟨hmember, hdefinition, Resolver.isDeprecated_of_method hsame,
      Resolver.isExtension_congr hsame, ?_⟩
    rw [Resolver.extension_methodBadges, Resolver.extension_methodBadges]
    exact Resolver.isExtension_congr hsame
  case no_method =>
    intro hnone
    have hmember := (h.resolveMethod_member_eq_none_iff (r := r)).mpr hnone
    refine ⟨hmember, Resolver.isDeprecated_of_no_method hmember,
      Resolver.isExtension_of_no_method hmember, ?_⟩
    rw [Resolver.extension_methodBadges]
    exact Resolver.isExtension_of_no_method hmember
  case field =>
    intro d hd
    have hmember := (h.resolveField_member_eq_some_iff (r := r)).mpr hd
    have hdefinition : r.resolveField w.graph (.definition d) = some d :=
      (w.graph.live?_eq_some_iff).mpr ⟨rfl, h.isLive_of_target hd⟩
    exact ⟨hmember, hdefinition,
      Resolver.isDeprecated_of_field (hmember.trans hdefinition.symm)⟩
  case no_field =>
    intro hnone
    have hmember := (h.resolveField_member_eq_none_iff (r := r)).mpr hnone
    exact ⟨hmember, Resolver.isDeprecated_of_no_field hmember⟩
  case exclusive =>
    exact definition?_member_exclusive
  case awaitable_method =>
    intro row s hrow hs
    rw [Resolver.awaitable_methodBadges, MethodReference.signature?, hrow, Option.bind_some, hs]
    rfl
  case awaitable_field =>
    intro row s hrow hs
    rw [Resolver.awaitable_methodBadges, MethodReference.signature?, hrow, Option.bind_some, hs]
    rfl
  case binding =>
    exact awaitable_bind w r m

theorem member_references_read_through (edits : List Edit) (r : Resolver) (m : MemberRefId) :
    (run {} edits).ReadsThrough r m :=
  (wellOwned_empty.run edits).readsThrough r m

def fieldBoundToMethod : List Edit :=
  [.create .memberRef ⟨⟨0x0A000001⟩, "Size", .field {}⟩,
    .create .method ⟨⟨0x06000001⟩, "Size", {}⟩,
    .annotate (⟨0⟩ : MethodId) ⟨0x0C000001⟩ (.name AttributeName.extension),
    .link .target ⟨0⟩ (.method ⟨0⟩)]

-- The signature is that of a field, so nothing is awaited; the target is a method all the same.
example : (Resolver.links.methodBadges (run {} fieldBoundToMethod).graph (.member ⟨0⟩)).value =
    ⟨true, false⟩ := by
  decide +kernel

end Workspace
end MetadataLabels
