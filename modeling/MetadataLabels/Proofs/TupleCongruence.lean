import MetadataLabels.Proofs.SignatureEquivalence
import MetadataLabels.Proofs.TupleReference
import MetadataLabels.Workspace

/-!
# Equal instantiations are the same tuples

Equal instantiations have equal rests, so counting goes through the two in parallel.
A level is known by the name of its type, and there both links live; where one
dangles the other is the same link, and both are refused.
-/

namespace MetadataLabels

theorem rel_bind {α β γ δ : Type} {R : α -> β -> Prop} {S : γ -> δ -> Prop} {x : Option α}
    {y : Option β} {f : α -> Option γ} {f' : β -> Option δ} (h : Option.Rel R x y)
    (hf : forall a b, R a b -> Option.Rel S (f a) (f' b)) :
    Option.Rel S (x.bind f) (y.bind f') := by
  cases h with
  | none =>
      exact .none
  | some hab =>
      exact hf _ _ hab

namespace Graph

/-- Tuples and nullables are recognized alike, with the same refusals and the same notices, and
the levels below are equal as well. -/
structure SameTuples (g : Graph) (i j : Instantiation) : Prop where
  arity : g.tupleArity? i = g.tupleArity? j
  levels : forall k,
    Option.Rel (fun rest rest' => g.sameInst rest rest' = true) (i.level? k) (j.level? k)
  checkedRank : g.checkedTupleRank i = g.checkedTupleRank j
  rank : g.tupleRank? i = g.tupleRank? j
  tuple : g.isTuple i = g.isTuple j
  nullable : g.isNullable i = g.isNullable j

variable {g : Graph}

/-!
## One level
-/

theorem name_eq_of_sameType {a b : TypeId} (h : g.sameType a b = true) :
    (g.type? a).map (fun row => row.name) = (g.type? b).map fun row => row.name := by
  -- Different links are equal only while both live; the same link has the same name or none.
  rcases sameType_iff.mp h with rfl | ⟨x, y, hx, hy, hname⟩
  · rfl
  · rw [hx, hy]
    exact congrArg some hname

theorem valueTypeName?_congr :
    forall {s t : TypeSig}, g.sameSig s t = true -> g.valueTypeName? s = g.valueTypeName? t
  | .basic _, .basic _, _ => rfl
  | .modified _ _, .modified _ _, _ => rfl
  | .named s a, .named t b, h => by
      rcases Bool.and_eq_true_iff.mp h with ⟨hstorage, htype⟩
      rw [eq_of_beq hstorage]
      cases t with
      | valueType =>
          exact name_eq_of_sameType htype
      | _ =>
          rfl
  | .param _ _, .param _ _, _ => rfl
  | .inst _ _, .inst _ _, _ => rfl

theorem tupleArity?_congr {i j : Instantiation} (h : g.sameInst i j = true) :
    g.tupleArity? i = g.tupleArity? j := by
  rcases Bool.and_eq_true_iff.mp h with ⟨hbase, hargs⟩
  rw [tupleArity?, tupleArity?, valueTypeName?_congr hbase, length_eq_of_sameSigs hargs]

theorem isNullable_congr {i j : Instantiation} (h : g.sameInst i j = true) :
    g.isNullable i = g.isNullable j := by
  rcases Bool.and_eq_true_iff.mp h with ⟨hbase, hargs⟩
  rw [isNullable, isNullable, valueTypeName?_congr hbase, length_eq_of_sameSigs hargs]

/-!
## The next level
-/

theorem getElem?_of_sameSigs :
    forall {l m : List TypeSig}, g.sameSigs l m = true -> forall n : Nat,
      Option.Rel (fun s t => g.sameSig s t = true) l[n]? m[n]?
  | [], [], _, _ => .none
  | s :: l, t :: m, h, n => by
      rcases Bool.and_eq_true_iff.mp h with ⟨hst, hrest⟩
      cases n with
      | zero =>
          exact .some hst
      | succ n =>
          exact getElem?_of_sameSigs hrest n

theorem inst?_of_sameSig :
    forall {s t : TypeSig}, g.sameSig s t = true ->
      Option.Rel (fun i j => g.sameInst i j = true) s.inst? t.inst?
  | .basic _, .basic _, _ => .none
  | .modified _ _, .modified _ _, _ => .none
  | .named _ _, .named _ _, _ => .none
  | .param _ _, .param _ _, _ => .none
  | .inst _ _, .inst _ _, h => .some h

theorem tupleRest?_of_sameInst {i j : Instantiation} (h : g.sameInst i j = true) :
    Option.Rel (fun rest rest' => g.sameInst rest rest' = true) i.tupleRest? j.tupleRest? := by
  rcases Bool.and_eq_true_iff.mp h with ⟨_, hargs⟩
  exact rel_bind (getElem?_of_sameSigs hargs 7) fun _ _ => inst?_of_sameSig

theorem level?_of_sameInst {i j : Instantiation} (h : g.sameInst i j = true) (k : Nat) :
    Option.Rel (fun rest rest' => g.sameInst rest rest' = true) (i.level? k) (j.level? k) := by
  induction k generalizing i j with
  | zero =>
      exact .some h
  | succ k ih =>
      rw [Instantiation.level?_succ, Instantiation.level?_succ]
      exact rel_bind (tupleRest?_of_sameInst h) fun _ _ => ih

/-!
## All levels
-/

theorem isTupleLevel_congr {i j : Instantiation} (h : g.sameInst i j = true) (n : Nat) :
    g.IsTupleLevel i n <-> g.IsTupleLevel j n := by
  rw [<- tupleArity?_eq_some_iff_isTupleLevel, tupleArity?_congr h,
    tupleArity?_eq_some_iff_isTupleLevel]

theorem rankByLevels_congr (fuel : Nat) {i j : Instantiation} (h : g.sameInst i j = true) :
    g.rankByLevels fuel i = g.rankByLevels fuel j := by
  induction fuel generalizing i j with
  | zero =>
      rfl
  | succ fuel ih =>
      have hlevel := isTupleLevel_congr h
      have hrests := tupleRest?_of_sameInst h
      rcases level_cases g i with hnone | ⟨n, hlt, hn⟩ | ⟨hn, hrest⟩ | ⟨rest, hn, hrest⟩
      · have hnone' : forall n, ¬ g.IsTupleLevel j n := fun n hn => hnone n ((hlevel n).mpr hn)
        rw [rankByLevels_of_not_level fuel hnone, rankByLevels_of_not_level fuel hnone']
      · rw [rankByLevels_of_last fuel hn hlt, rankByLevels_of_last fuel ((hlevel n).mp hn) hlt]
      · -- What is related to no rest is no rest.
        rw [hrest] at hrests
        generalize hrest' : j.tupleRest? = last at hrests
        cases hrests
        rw [rankByLevels_of_no_rest fuel hn hrest,
          rankByLevels_of_no_rest fuel ((hlevel 8).mp hn) hrest']
      · rw [hrest] at hrests
        generalize hrest' : j.tupleRest? = last at hrests
        cases hrests with
        | some hsame =>
            rw [rankByLevels_of_rest fuel hn hrest,
              rankByLevels_of_rest fuel ((hlevel 8).mp hn) hrest', ih hsame]

theorem checkedTupleRank_congr {i j : Instantiation} (h : g.sameInst i j = true) :
    g.checkedTupleRank i = g.checkedTupleRank j := by
  rw [checkedTupleRank_eq_rankByLevels, checkedTupleRank_eq_rankByLevels,
    rankByLevels_congr 1000 h]

theorem tupleRank?_congr {i j : Instantiation} (h : g.sameInst i j = true) :
    g.tupleRank? i = g.tupleRank? j := by
  rw [tupleRank?, tupleRank?, checkedTupleRank_congr h]

theorem tuples_respect_equality {i j : Instantiation} (h : g.sameInst i j = true) :
    g.SameTuples i j where
  arity := tupleArity?_congr h
  levels := level?_of_sameInst h
  checkedRank := checkedTupleRank_congr h
  rank := tupleRank?_congr h
  tuple := by
    rw [isTuple, isTuple, tupleRank?_congr h]
  nullable := isNullable_congr h

end Graph

namespace Workspace

def tupleReferences : List Edit :=
  [.create .type ⟨⟨0x01000001⟩, .valueType, Tuple.typeName 8, some "System.Runtime"⟩,
    .create .type ⟨⟨0x02000001⟩, .valueType, Tuple.typeName 8, none⟩,
    .create .type ⟨⟨0x01000002⟩, .valueType, Tuple.typeName 2, some "System.Runtime"⟩,
    .create .type ⟨⟨0x02000002⟩, .valueType, Tuple.typeName 2, none⟩,
    .create .type ⟨⟨0x02000003⟩, .classType, ⟨"App", "Gone"⟩, none⟩,
    .release ⟨.type, 4⟩]

def nineTuple (first second : TypeId) : Instantiation :=
  ⟨.named .valueType first,
    .named .reference ⟨4⟩ :: List.replicate 6 (.basic .int32) ++
      [.inst (.named .valueType second) [.basic .int32, .basic .string]]⟩

/-- Named through references or through definitions, the tuple has nine elements. -/
theorem nine_through_references :
    (run {} tupleReferences).graph.isLive (⟨4⟩ : TypeId).node = false ∧
    (run {} tupleReferences).graph.sameInst (nineTuple ⟨0⟩ ⟨2⟩) (nineTuple ⟨1⟩ ⟨3⟩) = true ∧
    (run {} tupleReferences).graph.checkedTupleRank (nineTuple ⟨0⟩ ⟨2⟩) = .ok 9 ∧
    (run {} tupleReferences).graph.checkedTupleRank (nineTuple ⟨1⟩ ⟨3⟩) = .ok 9 := by
  have hsame : (run {} tupleReferences).graph.sameInst (nineTuple ⟨0⟩ ⟨2⟩)
      (nineTuple ⟨1⟩ ⟨3⟩) = true := by
    decide +kernel
  have hrank : (run {} tupleReferences).graph.checkedTupleRank (nineTuple ⟨0⟩ ⟨2⟩) = .ok 9 := by
    rfl
  refine ⟨by decide +kernel, hsame, hrank, ?_⟩
  rw [<- (Graph.tuples_respect_equality hsame).checkedRank]
  exact hrank

end Workspace
end MetadataLabels
