import MetadataLabels.Resolver

/-!
# Badges

What is shown beside a member: that it is deprecated, that it is an extension
method, that it can be awaited.  A member that cannot be resolved has no badge.
-/

namespace MetadataLabels

/-! ## Attributes that matter -/

namespace AttributeName

def obsolete : String := "System.ObsoleteAttribute"
def extension : String := "System.Runtime.CompilerServices.ExtensionAttribute"
def customConstant : String := "System.Runtime.CompilerServices.CustomConstantAttribute"
def decimalConstant : String := "System.Runtime.CompilerServices.DecimalConstantAttribute"

end AttributeName

def hasAttribute (attributes : List Attribute) (fullName : String) : Bool :=
  attributes.any fun a => a.fullName == fullName

/-! ## Deprecation -/

inductive AttributeTarget
  | type (id : TypeId)
  | method (reference : MethodReference)
  | field (reference : FieldReference)
  | property (id : PropertyId)
  | event (id : EventId)

namespace Resolver

def attributesOf? (r : Resolver) (g : Graph) :
    AttributeTarget -> Logged (Option (List Attribute))
  | .type t => do
      let definition <- r.resolveType g t
      pure (definition.map g.attributes)
  | .method m => pure ((r.resolveMethod g m).map g.attributes)
  | .field f => pure ((r.resolveField g f).map g.attributes)
  | .property p => pure (some (g.attributes p))
  | .event e => pure (some (g.attributes e))

/-- Only the attribute itself counts, not one that derives from it. -/
def isDeprecated (r : Resolver) (g : Graph) (target : AttributeTarget) : Logged Bool := do
  let attributes <- r.attributesOf? g target
  pure (attributes.any (hasAttribute · AttributeName.obsolete))

/-! ## Extension methods -/

def isExtension (r : Resolver) (g : Graph) (m : MethodReference) : Bool :=
  (r.resolveMethod g m).any fun d => hasAttribute (g.attributes d) AttributeName.extension

end Resolver

/-! ## Awaitable types -/

/-- The value task without a result is not among them. -/
def awaitableNames : List String :=
  ["System.Threading.Tasks.Task", "System.Threading.Tasks.Task`1",
    "System.Threading.Tasks.ValueTask`1"]

def isAwaitableName (fullName : String) : Bool :=
  awaitableNames.contains fullName

namespace Graph

def isAwaitableType (g : Graph) (t : TypeId) : Bool :=
  (g.type? t).any fun row => isAwaitableName row.fullName

end Graph

namespace Resolver

def isAwaitable (r : Resolver) (g : Graph) (returns : TypeSig) : Logged Bool := do
  let t <- r.resolveSignature g returns
  pure (t.any g.isAwaitableType)

end Resolver

/-! ## Badges of a member -/

structure Badges where
  extension : Bool := false
  awaitable : Bool := false
deriving DecidableEq

namespace Badges

def extensionBit : Nat := 1
def awaitableBit : Nat := 2

def bits (b : Badges) : Nat :=
  (if b.extension then extensionBit else 0) + (if b.awaitable then awaitableBit else 0)

end Badges

namespace Resolver

/-- The return type is the one of the reference, the attributes are those of the definition. -/
def methodBadges (r : Resolver) (g : Graph) (m : MethodReference) : Logged Badges := do
  let awaitable <- 
    match m.signature? g with
    | some signature => r.isAwaitable g signature.returns.type
    | none => pure false
  pure ⟨r.isExtension g m, awaitable⟩

end Resolver

namespace Graph

def typeBadges (g : Graph) (t : TypeId) : Badges :=
  ⟨false, g.isAwaitableType t⟩

/-! ## Delegates -/

def delegateBase : TypeName :=
  ⟨"System", "MulticastDelegate"⟩

def isDelegate (g : Graph) (t : TypeId) : Bool :=
  ((g.base? t).bind g.type?).any fun row => row.name == delegateBase && row.inCoreLibrary

end Graph
end MetadataLabels
