import MetadataLabels.Tuple

/-!
# One level of a tuple

Which instantiations are one level of a tuple, and how a rank is counted from one
level to the next.  A level of arity eight keeps seven elements; its eighth
argument has to be the instantiation that is the next level.
-/

namespace MetadataLabels

namespace Tuple

theorem mem_arities {n : Nat} : n ∈ arities <-> 1 ≤ n ∧ n ≤ restArity := by
  simp only [arities, restArity, List.mem_cons, List.not_mem_nil, or_false]
  omega

theorem arity?_typeName : forall n, n ∈ arities -> arity? (typeName n) = some n := by
  decide +kernel

theorem arity?_eq_some_iff {name : TypeName} {n : Nat} :
    arity? name = some n <-> n ∈ arities ∧ name = typeName n := by
  constructor
  · intro h
    have hname : (name == typeName n) = true :=
      List.find?_some (p := fun m => name == typeName m) h
    exact ⟨List.mem_of_find?_eq_some h, eq_of_beq hname⟩
  · rintro ⟨hn, rfl⟩
    exact arity?_typeName n hn

end Tuple

def Instantiation.tupleRest? (i : Instantiation) : Option Instantiation :=
  i.args[7]?.bind TypeSig.inst?

namespace Graph

variable {g : Graph} {i : Instantiation}

theorem valueTypeName?_eq_some_iff {s : TypeSig} {name : TypeName} :
    g.valueTypeName? s = some name <->
      exists t row, s = .named .valueType t ∧ g.type? t = some row ∧ row.name = name := by
  constructor
  · intro h
    unfold valueTypeName? at h
    split at h
    next t =>
        rcases Option.map_eq_some_iff.mp h with ⟨row, hrow, hname⟩
        exact ⟨t, row, rfl, hrow, hname⟩
    next =>
        cases h
  · rintro ⟨t, row, rfl, hrow, hname⟩
    exact Option.map_eq_some_iff.mpr ⟨row, hrow, hname⟩

theorem tupleArity?_eq_some_iff {n : Nat} :
    g.tupleArity? i = some n <->
      g.valueTypeName? i.base = some (Tuple.typeName n) ∧ n ∈ Tuple.arities ∧
        i.args.length = n := by
  have harity : (g.valueTypeName? i.base).bind Tuple.arity? = some n <->
      g.valueTypeName? i.base = some (Tuple.typeName n) ∧ n ∈ Tuple.arities := by
    rw [Option.bind_eq_some_iff]
    constructor
    · rintro ⟨name, hname, hn⟩
      rcases Tuple.arity?_eq_some_iff.mp hn with ⟨hmem, rfl⟩
      exact ⟨hname, hmem⟩
    · rintro ⟨hname, hmem⟩
      exact ⟨Tuple.typeName n, hname, Tuple.arity?_typeName n hmem⟩
  rw [<- and_assoc, <- harity]
  unfold tupleArity?
  cases (g.valueTypeName? i.base).bind Tuple.arity? with
  | none =>
      simp
  | some m =>
      by_cases hlength : i.args.length = m
      · simp only [hlength, if_true, Option.some.injEq]
        constructor
        · intro h
          exact ⟨h, h⟩
        · exact And.left
      · simp only [hlength, if_false, Option.some.injEq]
        constructor
        · intro h
          cases h
        · rintro ⟨rfl, h⟩
          exact absurd h hlength

/-!
## Counting a level
-/

variable (fuel count : Nat)

@[simp]
theorem tupleRankFrom_zero :
    g.tupleRankFrom 0 count i = .error (.recursionLimit Limit.tupleNesting) :=
  rfl

theorem tupleRankFrom_of_arity?_eq_none (h : g.tupleArity? i = none) :
    g.tupleRankFrom (fuel + 1) count i = .error .notATuple := by
  simp only [tupleRankFrom, h]

theorem tupleRankFrom_of_lt {n : Nat} (h : g.tupleArity? i = some n)
    (hlt : n < Tuple.restArity) : g.tupleRankFrom (fuel + 1) count i = .ok (count + n) := by
  simp only [tupleRankFrom, h, if_pos hlt]

theorem tupleRankFrom_of_rest (h : g.tupleArity? i = some Tuple.restArity) :
    g.tupleRankFrom (fuel + 1) count i =
      match i.tupleRest? with
      | some rest => g.tupleRankFrom fuel (count + 7) rest
      | none => .error .notATuple := by
  simp only [tupleRankFrom, h, if_neg (Nat.lt_irrefl _)]
  rfl

variable {fuel count}

/-- How one level counts towards a rank: it is the last one and adds its arity, or it adds seven
and the next level counts on. -/
theorem tupleRankFrom_succ_eq_ok {rank : Nat}
    (h : g.tupleRankFrom (fuel + 1) count i = .ok rank) :
    (exists n, g.tupleArity? i = some n ∧ n < Tuple.restArity ∧ rank = count + n) ∨
      (exists rest, g.tupleArity? i = some Tuple.restArity ∧ i.tupleRest? = some rest ∧
        g.tupleRankFrom fuel (count + 7) rest = .ok rank) := by
  cases harity : g.tupleArity? i with
  | none =>
      rw [tupleRankFrom_of_arity?_eq_none fuel count harity] at h
      cases h
  | some n =>
      by_cases hlt : n < Tuple.restArity
      · rw [tupleRankFrom_of_lt fuel count harity hlt] at h
        cases h
        exact Or.inl ⟨n, rfl, hlt, rfl⟩
      · have hn : n = Tuple.restArity := by
          have hmem := (tupleArity?_eq_some_iff.mp harity).right.left
          have hle := (Tuple.mem_arities.mp hmem).right
          omega
        subst hn
        rw [tupleRankFrom_of_rest fuel count harity] at h
        cases hrest : i.tupleRest? with
        | none =>
            rw [hrest] at h
            cases h
        | some rest =>
            rw [hrest] at h
            exact Or.inr ⟨rest, rfl, rfl, h⟩

theorem length_front_of_tupleArity? (h : g.tupleArity? i = some Tuple.restArity) :
    (i.args.take 7).length = 7 := by
  rw [List.length_take, (tupleArity?_eq_some_iff.mp h).right.right]
  rfl

theorem args_eq_of_tupleRest? {rest : Instantiation}
    (harity : g.tupleArity? i = some Tuple.restArity) (hrest : i.tupleRest? = some rest) :
    i.args = i.args.take 7 ++ [.ofInst rest] := by
  have hlength : i.args.length = 7 + 1 := (tupleArity?_eq_some_iff.mp harity).right.right
  rcases Option.bind_eq_some_iff.mp hrest with ⟨last, hlast, hinst⟩
  rw [TypeSig.inst?_eq_some_iff] at hinst
  subst hinst
  rw [<- Option.toList_some, <- hlast, <- List.take_add_one, <- hlength, List.take_length]

end Graph
end MetadataLabels
