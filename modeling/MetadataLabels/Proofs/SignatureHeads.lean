import MetadataLabels.Proofs.Classification
import MetadataLabels.Proofs.SettledResolution

/-!
# Heads of signatures

The head of a signature is what remains when every layer of generic arguments is taken
off.  Only the head decides what the signature resolves to and whether it can be awaited:
the arguments do not, and neither does what a pointer, a reference or an array is made of.
-/

namespace MetadataLabels
namespace TypeSig

/-- What is left of a signature without its layers of generic arguments. -/
def head : TypeSig -> TypeSig
  | .inst base _ => base.head
  | s => s

def applied (s : TypeSig) (layers : List (List TypeSig)) : TypeSig :=
  layers.foldl inst s

end TypeSig

namespace Resolver

/-- The head alone decides what the signature resolves to and whether it can be awaited. -/
structure DecidesByHead (r : Resolver) (g : Graph) (s : TypeSig) : Prop where
  head_iff : forall h, s.head = h <->
    h.inst? = none ∧ exists layers, h.applied layers = s
  linked : forall storage t, s.head = .named storage t -> g.isLive t.node = true ->
    r.resolveSignature g s = r.resolveType g t
  unlinked : (forall storage t, s.head = .named storage t -> g.isLive t.node = false) ->
    r.resolveSignature g s = pure none
  arguments : forall other : TypeSig, other.head = s.head ->
    r.isAwaitable g other = r.isAwaitable g s
  modified : forall modifier wrapped, s.head = .modified modifier wrapped ->
    (r.isAwaitable g s).value = false
  basic : forall type, s.head = .basic type -> (r.isAwaitable g s).value = false
  param : forall owner index, s.head = .param owner index ->
    (r.isAwaitable g s).value = false
  definition : forall storage t, s.head = .named storage t -> g.IsDefinition t ->
    ((r.isAwaitable g s).value = true <->
      (g.typeBadges t).bits &&& Badges.awaitableBit = Badges.awaitableBit)

end Resolver

/-!
## Heads and layers
-/

namespace TypeSig

theorem inst?_head (s : TypeSig) : s.head.inst? = none := by
  fun_induction head s with
  | case1 base args ih =>
      exact ih
  | case2 s h =>
      cases s with
      | inst base args => exact absurd rfl (h base args)
      | _ => rfl

theorem head_of_inst?_eq_none {h : TypeSig} (hplain : h.inst? = none) : h.head = h := by
  cases h with
  | inst base args => contradiction
  | _ => rfl

theorem head_applied (s : TypeSig) (layers : List (List TypeSig)) :
    (s.applied layers).head = s.head := by
  induction layers generalizing s with
  | nil =>
      rfl
  | cons args rest ih =>
      exact ih (s.inst args)

theorem applied_append_singleton (s : TypeSig) (layers : List (List TypeSig))
    (args : List TypeSig) : s.applied (layers ++ [args]) = (s.applied layers).inst args :=
  List.foldl_append

theorem exists_applied_head (s : TypeSig) : exists layers, s.head.applied layers = s := by
  fun_induction head s with
  | case1 base args ih =>
      rcases ih with ⟨layers, hlayers⟩
      exact ⟨layers ++ [args], by rw [applied_append_singleton, hlayers]⟩
  | case2 s h =>
      exact ⟨[], rfl⟩

theorem head_eq_iff {s h : TypeSig} :
    s.head = h <-> h.inst? = none ∧ exists layers, h.applied layers = s := by
  constructor
  · rintro rfl
    exact ⟨s.inst?_head, s.exists_applied_head⟩
  · rintro ⟨hplain, layers, rfl⟩
    rw [head_applied, head_of_inst?_eq_none hplain]

end TypeSig

/-!
## Resolution by the head
-/

namespace Resolver

theorem resolveSignature_head (r : Resolver) (g : Graph) (s : TypeSig) :
    r.resolveSignature g s.head = r.resolveSignature g s := by
  fun_induction TypeSig.head s with
  | case1 base args ih =>
      exact ih
  | case2 s h =>
      rfl

theorem isAwaitable_head (r : Resolver) (g : Graph) (s : TypeSig) :
    r.isAwaitable g s.head = r.isAwaitable g s := by
  rw [isAwaitable, isAwaitable, resolveSignature_head]

variable {r : Resolver} {g : Graph} {s : TypeSig}

theorem resolveSignature_of_head {storage : Storage} {t : TypeId}
    (hhead : s.head = .named storage t) : r.resolveSignature g s = r.resolveType g t := by
  rw [<- resolveSignature_head, hhead, resolveSignature]

theorem resolveType_of_not_isLive {t : TypeId} (h : g.isLive t.node = false) :
    r.resolveType g t = pure none := by
  have hrow : g.type? t = none := Graph.find?_of_not_isLive h
  rw [resolveType, hrow]

theorem resolveSignature_of_unlinked
    (h : forall storage t, s.head = .named storage t -> g.isLive t.node = false) :
    r.resolveSignature g s = pure none := by
  rw [<- resolveSignature_head]
  have hplain := s.inst?_head
  cases hhead : s.head with
  | named storage t =>
      exact resolveType_of_not_isLive (h storage t hhead)
  | inst base args =>
      rw [hhead] at hplain
      contradiction
  | basic type => rfl
  | modified modifier wrapped => rfl
  | param owner index => rfl

/-!
## Awaitable signatures
-/

theorem isAwaitable_of_unlinked
    (h : forall storage t, s.head = .named storage t -> g.isLive t.node = false) :
    (r.isAwaitable g s).value = false := by
  rw [value_isAwaitable, resolveSignature_of_unlinked h]
  rfl

theorem isAwaitable_of_isDefinition {storage : Storage} {t : TypeId}
    (hhead : s.head = .named storage t) (hdef : g.IsDefinition t) :
    (r.isAwaitable g s).value = (g.typeBadges t).awaitable := by
  rw [value_isAwaitable, resolveSignature_of_head hhead, resolveType_of_isDefinition hdef]
  rfl

end Resolver

theorem Badges.bits_and_awaitableBit_iff {b : Badges} :
    b.bits &&& awaitableBit = awaitableBit <-> b.awaitable = true := by
  rcases b with ⟨extension, awaitable⟩
  cases extension <;> cases awaitable <;> decide

namespace Resolver

theorem resolveSignature_decided_by_head (r : Resolver) (g : Graph) (s : TypeSig) :
    r.DecidesByHead g s where
  head_iff _ := TypeSig.head_eq_iff
  linked _ _ hhead _ := resolveSignature_of_head hhead
  unlinked := resolveSignature_of_unlinked
  arguments other hhead := by
    rw [<- isAwaitable_head r g other, hhead, isAwaitable_head]
  modified _ _ hhead := isAwaitable_of_unlinked (by simp [hhead])
  basic _ hhead := isAwaitable_of_unlinked (by simp [hhead])
  param _ _ hhead := isAwaitable_of_unlinked (by simp [hhead])
  definition _ _ hhead hdef := by
    rw [isAwaitable_of_isDefinition hhead hdef, Badges.bits_and_awaitableBit_iff]

end Resolver
end MetadataLabels
