import MetadataLabels.Proofs.OverloadClasses
import MetadataLabels.Proofs.TypeChains
import MetadataLabels.Proofs.Warnings

/-!
# Every type of a base chain counts once

The way up does not remember where it was: on a cycle it goes round until it has made
two hundred looks.  Among at most two hundred types it has then met each, and meeting
one again adds no overload.  So nothing but the warning tells a cycle from an end.
-/

namespace MetadataLabels
namespace Graph

def overloadsAmong (g : Graph) (name : String) (types : List TypeId) : Nat :=
  (g.distinctSignatures name types).length - 1

def longChain (g : Graph) (t : TypeId) : Notice :=
  .baseChain ((g.type? t).elim "" fun row => row.fullName) 200

theorem overloadsAmong_congr {g : Graph} {name : String} {types types' : List TypeId}
    (h : forall t, t ∈ types <-> t ∈ types') :
    g.overloadsAmong name types = g.overloadsAmong name types' := by
  have hset : {s | s ∈ types.flatMap (g.signaturesNamed name)} =
      {s | s ∈ types'.flatMap (g.signaturesNamed name)} := by
    ext s
    simp only [Set.mem_ofPred_eq, List.mem_flatMap, h]
  rw [overloadsAmong, overloadsAmong, distinctSignatures, distinctSignatures,
    (sameMethodSig_test g).length_eraseDupsBy, (sameMethodSig_test g).length_eraseDupsBy, hset]

end Graph

namespace Resolver

/-!
## Base chains

The chain of a type starts with what the type resolves to and goes on from each type
to the base that it resolves to.  It comes to an end, or comes back to a type that it
has met, perhaps after a lead-in.
-/

section Chain

variable (r : Resolver) (g : Graph) (t : TypeId)

def baseChain : Set TypeId :=
  visited (fun u => (r.baseType g u).value) (r.resolveType g t).value

def nthBase? (n : Nat) : Option TypeId :=
  walk (fun u => (r.baseType g u).value) (r.resolveType g t).value n

def firstBases (n : Nat) : List TypeId :=
  path (fun u => (r.baseType g u).value) (r.resolveType g t).value n

def ChainCycles : Prop :=
  Cyclic (fun u => (r.baseType g u).value) (r.resolveType g t).value

def ChainEnds : Prop :=
  Ends (fun u => (r.baseType g u).value) (r.resolveType g t).value

def WarnsOnce (name : String) : Prop :=
  exists u, r.nthBase? g t 200 = some u ∧
    (r.otherOverloads g t name).warnings = [g.longChain u]

end Chain

/-- How the types of a base chain are counted and when counting them warns. -/
structure CountsTypesOnce (r : Resolver) (g : Graph) (t : TypeId) (name : String) : Prop where
  listed : (r.baseChain g t).encard ≤ 200 -> exists types, Enumerates types (r.baseChain g t)
  counted : (r.baseChain g t).encard ≤ 200 -> forall types, Enumerates types (r.baseChain g t) ->
    (r.otherOverloads g t name).value = g.overloadsAmong name types
  cycles : (r.baseChain g t).encard ≤ 200 -> (r.ChainCycles g t <-> ¬ r.ChainEnds g t)
  cyclic : r.ChainCycles g t -> r.WarnsOnce g t name
  ends : (r.baseChain g t).encard ≤ 200 -> r.ChainEnds g t ->
    (r.otherOverloads g t name).warnings = []
  long : ¬ r.ChainCycles g t -> 200 < (r.baseChain g t).encard ->
    (r.firstBases g t 200).length = 200 ∧ (r.firstBases g t 200).Nodup ∧
      (r.otherOverloads g t name).value = g.overloadsAmong name (r.firstBases g t 200) ∧
      r.WarnsOnce g t name

variable {r : Resolver} {g : Graph} {t : TypeId} {name : String}

/-!
## The way up
-/

theorem warnings_climb (fuel : Nat) (start : Option TypeId) :
    (r.climb g fuel start).warnings =
      (walk (fun u => (r.baseType g u).value) start fuel).toList.map g.longChain := by
  induction fuel generalizing start with
  | zero =>
      cases start <;> rfl
  | succ fuel ih =>
      cases start with
      | none =>
          rw [walk_none]
          rfl
      | some t =>
          rw [climb, Logged.warnings_bind, Logged.warnings_bind, warnings_baseType, ih,
            Logged.warnings_pure, List.nil_append, List.append_nil, walk_succ]
          rfl

theorem otherOverloads_firstBases :
    (r.otherOverloads g t name).value = g.overloadsAmong name (r.firstBases g t 200) := by
  rw [value_otherOverloads, value_lineage, value_climb]
  rfl

theorem warnings_otherOverloads :
    (r.otherOverloads g t name).warnings = (r.nthBase? g t 200).toList.map g.longChain := by
  rw [otherOverloads, Logged.warnings_bind, Logged.warnings_pure, List.append_nil, lineage,
    Logged.warnings_bind, warnings_resolveType, List.nil_append, warnings_climb]
  rfl

theorem warnsOnce_of_isSome (h : (r.nthBase? g t 200).isSome = true) : r.WarnsOnce g t name := by
  rcases Option.isSome_iff_exists.mp h with ⟨u, hu⟩
  refine ⟨u, hu, ?_⟩
  rw [warnings_otherOverloads, hu]
  rfl

theorem otherOverloads_of_enumerates (hcard : (r.baseChain g t).encard ≤ 200)
    {types : List TypeId} (h : Enumerates types (r.baseChain g t)) :
    (r.otherOverloads g t name).value = g.overloadsAmong name types := by
  rw [otherOverloads_firstBases]
  apply Graph.overloadsAmong_congr
  intro u
  rw [h.mem_iff, firstBases, mem_path_iff, visitedWithin_eq_visited hcard]
  rfl

theorem otherOverloads_counts_types_once (r : Resolver) (g : Graph) (t : TypeId)
    (name : String) : r.CountsTypesOnce g t name where
  listed hcard := exists_enumerates (Set.finite_of_encard_le_coe hcard)
  counted hcard _ := otherOverloads_of_enumerates hcard
  cycles hcard := cyclic_iff_not_ends hcard
  cyclic h := warnsOnce_of_isSome (isSome_walk_of_cyclic h 200)
  ends hcard h := by
    have hnone : r.nthBase? g t 200 = none := walk_eq_none_of_ends hcard h
    rw [warnings_otherOverloads, hnone]
    rfl
  long hcycles hcard := by
    have hsome : (r.nthBase? g t 200).isSome = true := isSome_walk_of_lt_encard hcard
    exact ⟨length_path hsome, nodup_path hcycles 200, otherOverloads_firstBases,
      warnsOnce_of_isSome hsome⟩

end Resolver

namespace Workspace

/-!
## A chain that does not end

A type leads into a cycle of two others, and each of the three lists a method of one
name.  With different signatures these are two overloads beside the one looked at.
-/

def leadIntoCycle : List Edit :=
  [.create .type ⟨⟨0x02000001⟩, .classType, ⟨"App", "Circle"⟩, none⟩,
    .create .type ⟨⟨0x02000002⟩, .classType, ⟨"App", "Shape"⟩, none⟩,
    .create .type ⟨⟨0x02000003⟩, .classType, ⟨"App", "Figure"⟩, none⟩,
    .link .base ⟨0⟩ ⟨1⟩, .link .base ⟨1⟩ ⟨2⟩, .link .base ⟨2⟩ ⟨1⟩,
    .create .method ⟨⟨0x06000001⟩, "Draw", {}⟩,
    .create .method ⟨⟨0x06000002⟩, "Draw", { params := [⟨false, .basic .int32⟩] }⟩,
    .create .method ⟨⟨0x06000003⟩, "Draw", { params := [⟨false, .basic .string⟩] }⟩,
    .append .methods ⟨0⟩ ⟨0⟩, .append .methods ⟨1⟩ ⟨1⟩, .append .methods ⟨2⟩ ⟨2⟩]

theorem enumerates_leadIntoCycle :
    Enumerates [⟨0⟩, ⟨1⟩, ⟨2⟩]
      (Resolver.links.baseChain (run {} leadIntoCycle).graph ⟨0⟩) := by
  have hfirst : Resolver.links.firstBases (run {} leadIntoCycle).graph ⟨0⟩ 3 =
      [⟨0⟩, ⟨1⟩, ⟨2⟩] := by
    decide +kernel
  have hclosed : ([⟨0⟩, ⟨1⟩, ⟨2⟩] : List TypeId).all (fun u =>
      (Resolver.links.baseType (run {} leadIntoCycle).graph u).value.all fun b =>
        decide (b ∈ ([⟨0⟩, ⟨1⟩, ⟨2⟩] : List TypeId))) = true := by
    decide +kernel
  rw [<- hfirst]
  apply enumerates_path
  · rw [<- Resolver.firstBases, hfirst]
    decide
  · intro u b hu hb
    rw [<- Resolver.firstBases, hfirst] at hu ⊢
    have hbase := List.all_eq_true.mp hclosed u hu
    rw [hb] at hbase
    exact of_decide_eq_true hbase

theorem leadIntoCycle_counted_once :
    Resolver.links.ChainCycles (run {} leadIntoCycle).graph ⟨0⟩ ∧
    (Resolver.links.otherOverloads (run {} leadIntoCycle).graph ⟨0⟩ "Draw").value = 2 ∧
    (Resolver.links.otherOverloads (run {} leadIntoCycle).graph ⟨0⟩ "Draw").warnings.length =
      1 := by
  have hcounts := Resolver.otherOverloads_counts_types_once .links (run {} leadIntoCycle).graph
    ⟨0⟩ "Draw"
  have hcard : (Resolver.links.baseChain (run {} leadIntoCycle).graph ⟨0⟩).encard ≤ 200 := by
    rw [enumerates_leadIntoCycle.encard_eq]
    decide
  have hcycles : Resolver.links.ChainCycles (run {} leadIntoCycle).graph ⟨0⟩ :=
    ⟨1, 3, by decide, by decide +kernel, by decide +kernel⟩
  rcases hcounts.cyclic hcycles with ⟨u, _, hwarnings⟩
  refine ⟨hcycles, ?_, ?_⟩
  · rw [hcounts.counted hcard _ enumerates_leadIntoCycle]
    decide +kernel
  · rw [hwarnings]
    rfl

/-!
## Chains that end
-/

theorem nthBase?_chain (r : Resolver) (n k : Nat) :
    r.nthBase? (run {} (chain n)).graph ⟨0⟩ k = if k ≤ n then some ⟨k⟩ else none := by
  have hchain := isChain_run n
  rw [Resolver.nthBase?, hchain.resolveType (Nat.zero_le n)]
  apply Graph.walk_of_steps
  · intro i hi
    rw [Resolver.value_baseType, hchain.base? hi, Option.bind_some, hchain.resolveType hi]
  · rw [Resolver.value_baseType, hchain.base?_top, Option.bind_none]

end Workspace
end MetadataLabels
