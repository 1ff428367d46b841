import MetadataLabels.Proofs.SignatureEquivalence
import MetadataLabels.Proofs.TupleLevel

/-!
# Encoding tuples

A tuple of any number of elements is written as nested value tuples.  Counting
the elements of what was written gives their number back, unless the nesting
is too deep to be counted; and whatever can be counted is, up to equality of
signatures, what exactly one list of elements is written as.
-/

namespace MetadataLabels

structure TupleTypes (g : Graph) where
  type : Nat -> TypeId
  named : forall n, n ∈ Tuple.arities ->
    g.valueTypeName? (.named .valueType (type n)) = some (Tuple.typeName n)

namespace TupleTypes

variable {g : Graph} (types : TupleTypes g)

def instantiate (args : List TypeSig) : Instantiation :=
  ⟨.named .valueType (types.type args.length), args⟩

/-- Up to seven elements fill one value tuple.  More fill one of arity eight, with the tuple of
those after the seventh in its eighth place. -/
def encode (elements : List TypeSig) : Instantiation :=
  if elements.length ≤ 7 then
    types.instantiate elements
  else
    types.instantiate (elements.take 7 ++ [.ofInst (encode (elements.drop 7))])
termination_by elements.length
decreasing_by
  rw [List.length_drop]
  omega

/-!
## One value tuple
-/

theorem tupleArity?_instantiate {args : List TypeSig} (h : args.length ∈ Tuple.arities) :
    g.tupleArity? (types.instantiate args) = some args.length :=
  Graph.tupleArity?_eq_some_iff.mpr ⟨types.named args.length h, h, rfl⟩

theorem sameInst_instantiate {i : Instantiation} {n : Nat} {args : List TypeSig}
    (harity : g.tupleArity? i = some n) (hargs : g.sameSigs i.args args = true) :
    g.sameInst i (types.instantiate args) = true := by
  rcases Graph.tupleArity?_eq_some_iff.mp harity with ⟨hname, hmem, hlength⟩
  have hargsLength : args.length = n := by
    rw [<- hlength, Graph.length_eq_of_sameSigs hargs]
  rcases Graph.valueTypeName?_eq_some_iff.mp hname with ⟨t, row, hbase, hrow, hrowName⟩
  rcases Graph.valueTypeName?_eq_some_iff.mp (types.named n hmem) with
    ⟨u, other, hnamed, hother, hotherName⟩
  have htype : g.sameType t u = true :=
    Graph.sameType_iff.mpr (Or.inr ⟨row, other, hrow, hother, hrowName.trans hotherName.symm⟩)
  have hbaseSame : g.sameSig i.base (.named .valueType (types.type n)) = true := by
    rw [hbase, hnamed, Graph.sameSig, htype]
    rfl
  rw [Graph.sameInst, instantiate, hargsLength]
  exact Bool.and_eq_true_iff.mpr ⟨hbaseSame, hargs⟩

/-!
## One step of the encoding
-/

variable {types} {elements : List TypeSig}

theorem encode_short (h : elements.length ≤ 7) :
    types.encode elements = types.instantiate elements := by
  rw [encode, if_pos h]

theorem encode_long (h : 7 < elements.length) :
    types.encode elements =
      types.instantiate (elements.take 7 ++ [.ofInst (types.encode (elements.drop 7))]) := by
  rw [encode, if_neg (Nat.not_le.mpr h)]

theorem length_front (h : 7 < elements.length) : (elements.take 7).length = 7 := by
  rw [List.length_take, Nat.min_eq_left (Nat.le_of_lt h)]

theorem tupleArity?_encode_short (hne : elements ≠ []) (h : elements.length ≤ 7) :
    g.tupleArity? (types.encode elements) = some elements.length := by
  rw [encode_short h]
  apply tupleArity?_instantiate
  have hpos : 0 < elements.length := List.length_pos_iff.mpr hne
  exact Tuple.mem_arities.mpr ⟨hpos, Nat.le_succ_of_le h⟩

theorem tupleArity?_encode_long (h : 7 < elements.length) :
    g.tupleArity? (types.encode elements) = some Tuple.restArity := by
  have hlength : (elements.take 7 ++ [TypeSig.ofInst (types.encode (elements.drop 7))]).length =
      Tuple.restArity := by
    rw [List.length_append, length_front h]
    rfl
  rw [encode_long h, <- hlength]
  apply tupleArity?_instantiate
  rw [hlength]
  decide

theorem tupleRest?_encode_long (h : 7 < elements.length) :
    (types.encode elements).tupleRest? = some (types.encode (elements.drop 7)) := by
  have hlast : (elements.take 7 ++ [.ofInst (types.encode (elements.drop 7))])[7]? =
      some (.ofInst (types.encode (elements.drop 7))) := by
    rw [List.getElem?_append_right (Nat.le_of_eq (length_front h)), length_front h]
    rfl
  rw [encode_long h, Instantiation.tupleRest?, instantiate, hlast]
  rfl

/-!
## Counting what was encoded

The induction is on the number of levels that may still be looked at, each of which
accounts for seven elements.
-/

theorem tupleRankFrom_encode (fuel count : Nat) (hne : elements ≠ []) :
    g.tupleRankFrom fuel count (types.encode elements) =
      if elements.length ≤ 7 * fuel then .ok (count + elements.length)
      else .error (.recursionLimit Limit.tupleNesting) := by
  induction fuel generalizing count elements with
  | zero =>
      have hpos : 0 < elements.length := List.length_pos_iff.mpr hne
      rw [Graph.tupleRankFrom_zero, if_neg (Nat.not_le.mpr hpos)]
  | succ fuel ih =>
      by_cases hshort : elements.length ≤ 7
      · have hlt : elements.length < Tuple.restArity := Nat.lt_succ_of_le hshort
        have hfits : elements.length ≤ 7 * (fuel + 1) := by omega
        rw [Graph.tupleRankFrom_of_lt fuel count (tupleArity?_encode_short hne hshort) hlt,
          if_pos hfits]
      · have hlong : 7 < elements.length := Nat.not_le.mp hshort
        have hrest : elements.drop 7 ≠ [] := by
          rw [Ne, List.drop_eq_nil_iff]
          exact hshort
        have hcount : count + 7 + (elements.drop 7).length = count + elements.length := by
          rw [List.length_drop]
          omega
        have hfits : (elements.drop 7).length ≤ 7 * fuel <->
            elements.length ≤ 7 * (fuel + 1) := by
          rw [List.length_drop]
          omega
        rw [Graph.tupleRankFrom_of_rest fuel count (tupleArity?_encode_long hlong),
          tupleRest?_encode_long hlong]
        simp only [ih (count + 7) hrest, hcount, hfits]

/-!
## Reading the elements back
-/

theorem sameInst_encode_of_last (types : TupleTypes g) {i : Instantiation} {n : Nat}
    (harity : g.tupleArity? i = some n) (hlt : n < Tuple.restArity) :
    g.sameInst i (types.encode i.args) = true := by
  have hshort : i.args.length ≤ 7 := by
    rw [(Graph.tupleArity?_eq_some_iff.mp harity).right.right]
    exact Nat.le_of_lt_succ hlt
  rw [encode_short hshort]
  exact types.sameInst_instantiate harity (Graph.sameSigs_refl g i.args)

theorem sameInst_encode_of_rest (types : TupleTypes g) {i rest : Instantiation}
    {others : List TypeSig} (harity : g.tupleArity? i = some Tuple.restArity)
    (hrest : i.tupleRest? = some rest) (hne : others ≠ [])
    (hsame : g.sameInst rest (types.encode others) = true) :
    g.sameInst i (types.encode (i.args.take 7 ++ others)) = true := by
  have hfront := Graph.length_front_of_tupleArity? harity
  have hlong : 7 < (i.args.take 7 ++ others).length := by
    have hpos : 0 < others.length := List.length_pos_iff.mpr hne
    rw [List.length_append, hfront]
    omega
  have hargs : g.sameSigs (i.args.take 7 ++ [.ofInst rest])
      (i.args.take 7 ++ [.ofInst (types.encode others)]) = true := by
    rw [Graph.sameSigs_append g _ _ rfl, Graph.sameSigs_refl, Bool.true_and]
    exact Bool.and_eq_true_iff.mpr ⟨hsame, rfl⟩
  rw [<- Graph.args_eq_of_tupleRest? harity hrest] at hargs
  rw [encode_long hlong, List.take_left' hfront, List.drop_left' hfront]
  exact types.sameInst_instantiate harity hargs

theorem exists_encode_of_tupleRankFrom (types : TupleTypes g) {i : Instantiation}
    {fuel count rank : Nat} (h : g.tupleRankFrom fuel count i = .ok rank) :
    exists elements, elements ≠ [] ∧ count + elements.length = rank ∧
      g.sameInst i (types.encode elements) = true := by
  induction fuel generalizing count i with
  | zero =>
      cases h
  | succ fuel ih =>
      rcases Graph.tupleRankFrom_succ_eq_ok h with
        ⟨n, harity, hlt, hrank⟩ | ⟨rest, harity, hrest, hcounts⟩
      · rcases Graph.tupleArity?_eq_some_iff.mp harity with ⟨_, hmem, hlength⟩
        have hpos : 0 < i.args.length := by
          rw [hlength]
          exact (Tuple.mem_arities.mp hmem).left
        refine ⟨i.args, List.length_pos_iff.mp hpos, ?_, types.sameInst_encode_of_last harity hlt⟩
        rw [hlength, hrank]
      · rcases ih hcounts with ⟨others, hne, hrank, hsame⟩
        refine ⟨i.args.take 7 ++ others, List.append_ne_nil_of_right_ne_nil _ hne, ?_,
          types.sameInst_encode_of_rest harity hrest hne hsame⟩
        rw [List.length_append, Graph.length_front_of_tupleArity? harity, <- hrank, Nat.add_assoc]

/-!
## Different elements are written differently
-/

theorem length_args_encode_le_iff (types : TupleTypes g) (elements : List TypeSig) :
    (types.encode elements).args.length ≤ 7 <-> elements.length ≤ 7 := by
  by_cases h : elements.length ≤ 7
  · rw [encode_short h, instantiate]
  · have hlong : 7 < elements.length := Nat.not_le.mp h
    have harity : g.tupleArity? (types.encode elements) = some Tuple.restArity :=
      tupleArity?_encode_long hlong
    constructor
    · intro hle
      rw [(Graph.tupleArity?_eq_some_iff.mp harity).right.right] at hle
      exact absurd hle (by decide)
    · intro hle
      exact absurd hle h

theorem sameSigs_of_sameInst_encode {elements others : List TypeSig}
    (h : g.sameInst (types.encode elements) (types.encode others) = true) :
    g.sameSigs elements others = true := by
  rcases Bool.and_eq_true_iff.mp h with ⟨_, hargs⟩
  have hboth : elements.length ≤ 7 <-> others.length ≤ 7 := by
    rw [<- length_args_encode_le_iff types, Graph.length_eq_of_sameSigs hargs,
      length_args_encode_le_iff]
  by_cases hshort : elements.length ≤ 7
  · rw [encode_short hshort, encode_short (hboth.mp hshort)] at hargs
    exact hargs
  · have hlong : 7 < elements.length := Nat.not_le.mp hshort
    have hothers : 7 < others.length := Nat.not_le.mp fun hle => hshort (hboth.mpr hle)
    have hfront : (elements.take 7).length = (others.take 7).length := by
      rw [length_front hlong, length_front hothers]
    rw [encode_long hlong, encode_long hothers, instantiate, instantiate,
      Graph.sameSigs_append g _ _ hfront] at hargs
    rcases Bool.and_eq_true_iff.mp hargs with ⟨hfrontSame, hlast⟩
    have hrest : g.sameInst (types.encode (elements.drop 7)) (types.encode (others.drop 7)) =
        true :=
      (Bool.and_eq_true_iff.mp hlast).left
    have hrestSame := sameSigs_of_sameInst_encode hrest
    rw [<- List.take_append_drop 7 elements, <- List.take_append_drop 7 others,
      Graph.sameSigs_append g _ _ hfront, hfrontSame, hrestSame]
    rfl
termination_by elements.length
decreasing_by
  rw [List.length_drop]
  omega

/-!
## The two directions together
-/

/-- Counting inverts the encoding: all that is encoded is counted, with a refusal exactly beyond
seven thousand elements; all that is counted is, up to equality, the encoding of one list. -/
theorem checkedTupleRank_inverts_encode (g : Graph) (types : TupleTypes g) :
    (forall elements, elements ≠ [] -> elements.length ≤ 7000 ->
      g.checkedTupleRank (types.encode elements) = .ok elements.length) ∧
    (forall elements, 7000 < elements.length ->
      g.checkedTupleRank (types.encode elements) = .error (.recursionLimit 1000)) ∧
    (forall i rank, g.checkedTupleRank i = .ok rank ->
      exists elements, elements ≠ [] ∧ elements.length = rank ∧
        g.sameInst i (types.encode elements) = true ∧
        forall others, g.sameInst i (types.encode others) = true ->
          g.sameSigs elements others = true) := by
  refine ⟨?counted, ?refused, ?readBack⟩
  case counted =>
    intro elements hne hle
    rw [Graph.checkedTupleRank, tupleRankFrom_encode _ 0 hne, Nat.zero_add]
    exact if_pos hle
  case refused =>
    intro elements hlt
    have hne : elements ≠ [] := List.length_pos_iff.mp (Nat.zero_lt_of_lt hlt)
    rw [Graph.checkedTupleRank, tupleRankFrom_encode _ 0 hne]
    exact if_neg (Nat.not_le.mpr hlt)
  case readBack =>
    intro i rank h
    rcases exists_encode_of_tupleRankFrom types h with ⟨elements, hne, hrank, hsame⟩
    refine ⟨elements, hne, by rw [<- hrank, Nat.zero_add], hsame, ?_⟩
    intro others hothers
    have hsymm := (Graph.sameInst_test g).symm hsame
    exact sameSigs_of_sameInst_encode ((Graph.sameInst_test g).trans hsymm hothers)

end TupleTypes

def valueTupleGraph : Graph :=
  Tuple.arities.foldl (fun g n =>
    g.create .type ⟨⟨0x02000000 + n.toUInt32⟩, .valueType, Tuple.typeName n, none⟩) {}

def valueTuples : TupleTypes valueTupleGraph where
  type n := ⟨n - 1⟩
  named := by
    decide +kernel

/-- Eight elements, of which the last is a tuple itself and yet no part of the nesting. -/
def endingInPair : List TypeSig :=
  List.replicate 7 (.basic .int32) ++
    [.ofInst (valueTuples.encode [.basic .int32, .basic .string])]

theorem checkedTupleRank_endingInPair :
    valueTupleGraph.checkedTupleRank (valueTuples.encode endingInPair) = .ok 8 ∧
    valueTupleGraph.checkedTupleRank (valueTuples.encode (List.replicate 7001 .unknown)) =
      .error (.recursionLimit 1000) ∧
    exists elements, elements ≠ [] ∧ elements.length = 8 ∧
      valueTupleGraph.sameInst (valueTuples.encode endingInPair)
        (valueTuples.encode elements) = true ∧
      forall others, valueTupleGraph.sameInst (valueTuples.encode endingInPair)
        (valueTuples.encode others) = true ->
          valueTupleGraph.sameSigs elements others = true := by
  rcases TupleTypes.checkedTupleRank_inverts_encode valueTupleGraph valueTuples with
    ⟨hcounted, hrefused, hreadBack⟩
  have height := hcounted endingInPair (List.cons_ne_nil _ _) (by decide)
  refine ⟨height, hrefused _ ?_, hreadBack _ 8 height⟩
  rw [List.length_replicate]
  decide

end MetadataLabels
