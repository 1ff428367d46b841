import MetadataLabels.Limit
import MetadataLabels.Resolver
import MetadataLabels.Resource
import MetadataLabels.Signature.Equality

/-!
# Overloads

How many other methods of the same name a type shows, its own and those of its
base types.  Methods of equal signature count once: an override is no overload.
-/

namespace MetadataLabels

/-! ## Base types -/

namespace Resolver

/-- The types met on the way up from `current`, at most `fuel` of them.  If there is one more, a
warning names it. -/
def climb (r : Resolver) (g : Graph) : Nat -> Option TypeId -> Logged (List TypeId)
  | _, none => pure []
  | 0, some t => do
      Logged.note (.baseChain ((g.type? t).elim "" fun row => row.fullName) Limit.levels)
      pure []
  | fuel + 1, some t => do
      let base <- r.baseType g t
      let rest <- r.climb g fuel base
      pure (t :: rest)

def lineage (r : Resolver) (g : Graph) (t : TypeId) : Logged (List TypeId) := do
  let start <- r.resolveType g t
  r.climb g Limit.levels start

end Resolver

/-! ## Counting -/

namespace Graph

def signaturesNamed (g : Graph) (name : String) (t : TypeId) : List MethodSig :=
  ((g.methodsOf t).filterMap g.method?).filterMap fun row =>
    if row.name = name then some row.signature else none

def distinctSignatures (g : Graph) (name : String) (types : List TypeId) : List MethodSig :=
  (types.flatMap (g.signaturesNamed name)).eraseDupsBy g.sameMethodSig

end Graph

namespace Resolver

/-- One method is the overload that is looked at, so the others are one fewer. -/
def otherOverloads (r : Resolver) (g : Graph) (t : TypeId) (name : String) : Logged Nat := do
  let types <- r.lineage g t
  pure ((g.distinctSignatures name types).length - 1)

end Resolver

/-! ## Summaries -/

inductive OverloadSummary
  | one
  | many (n : Nat)
deriving DecidableEq

namespace OverloadSummary

def ofCount : Nat -> Option OverloadSummary
  | 0 => none
  | 1 => some .one
  | n => some (.many n)

def count : OverloadSummary -> Nat
  | .one => 1
  | .many n => n

def text : OverloadSummary -> String
  | .one => "1 overload"
  | .many n => Numeral.decimal n ++ " overloads"

def render (resources : Resources) : OverloadSummary -> Logged String
  | .one => resources.lookup .oneMethodOverload
  | .many n => do
      let template <- resources.lookup .nMethodOverloads
      pure (fillTemplate template n)

end OverloadSummary

namespace Resolver

def overloadSummary (r : Resolver) (g : Graph) (t : TypeId) (name : String) :
    Logged (Option OverloadSummary) := do
  let n <- r.otherOverloads g t name
  pure (OverloadSummary.ofCount n)

def overloadTooltip (r : Resolver) (g : Graph) (resources : Resources) (t : TypeId)
    (name : String) : Logged (Option String) := do
  match <- r.overloadSummary g t name with
  | none => pure none
  | some summary =>
      let text <- summary.render resources
      pure (some (" (+ " ++ text ++ ")"))

end Resolver
end MetadataLabels
