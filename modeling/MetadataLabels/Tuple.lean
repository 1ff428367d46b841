import MetadataLabels.Error
import MetadataLabels.Graph.Basic
import MetadataLabels.Limit
import MetadataLabels.Logged

/-!
# Tuples and nullables

A tuple of up to seven elements instantiates the value tuple of its arity.  A
longer one instantiates the value tuple of arity eight with its first seven
elements and, in the eighth place, the tuple of the rest.  The rank of a tuple
is the number of its elements.
-/

namespace MetadataLabels

namespace Tuple

/-! ## Names -/

def restArity : Nat := 8

def typeName (arity : Nat) : TypeName :=
  ⟨"System", "ValueTuple`" ++ Numeral.decimal arity⟩

def arities : List Nat :=
  [1, 2, 3, 4, 5, 6, 7, 8]

def arity? (name : TypeName) : Option Nat :=
  arities.find? fun n => name == typeName n

def nullableName : TypeName :=
  ⟨"System", "Nullable`1"⟩

end Tuple

namespace Graph

def valueTypeName? (g : Graph) : TypeSig -> Option TypeName
  | .named .valueType t => (g.type? t).map fun row => row.name
  | _ => none

/-! ## One level -/

def tupleArity? (g : Graph) (i : Instantiation) : Option Nat :=
  match (g.valueTypeName? i.base).bind Tuple.arity? with
  | some n => if i.args.length = n then some n else none
  | none => none

/-! ## All levels -/

/-- Counts on from `count` through at most `fuel` levels. -/
def tupleRankFrom (g : Graph) : Nat -> Nat -> Instantiation -> Except Error Nat
  | 0, _, _ => .error (.recursionLimit Limit.tupleNesting)
  | fuel + 1, count, i =>
      match g.tupleArity? i with
      | none => .error .notATuple
      | some n =>
          if n < Tuple.restArity then
            .ok (count + n)
          else
            match i.args[n - 1]?.bind TypeSig.inst? with
            | some rest => g.tupleRankFrom fuel (count + (n - 1)) rest
            | none => .error .notATuple

def checkedTupleRank (g : Graph) (i : Instantiation) : Except Error Nat :=
  g.tupleRankFrom Limit.tupleNesting 0 i

/-- Nesting beyond the limit is no tuple, and is worth a warning. -/
def tupleRank? (g : Graph) (i : Instantiation) : Logged (Option Nat) :=
  match g.checkedTupleRank i with
  | .ok n => pure (some n)
  | .error (.recursionLimit limit) => do
      Logged.note (.tupleNesting limit)
      pure none
  | .error _ => pure none

def isTuple (g : Graph) (i : Instantiation) : Logged Bool := do
  let rank <- g.tupleRank? i
  pure rank.isSome

def isNullable (g : Graph) (i : Instantiation) : Bool :=
  i.args.length == 1 && g.valueTypeName? i.base == some Tuple.nullableName

end Graph
end MetadataLabels
