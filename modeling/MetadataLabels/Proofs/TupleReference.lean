import MetadataLabels.Proofs.PartialWalk
import MetadataLabels.Proofs.TupleLevel

/-!
# Ranks by recursion

The rank of a tuple is seven more than the rank of its rest, or its arity if it has
none.  Counting from level to level gives the answer of this recursion, the refusals
included, and follows from it what answers there are and when the limit is met.
-/

namespace MetadataLabels

def Instantiation.level? (i : Instantiation) : Nat -> Option Instantiation :=
  walk Instantiation.tupleRest? (some i)

theorem Instantiation.level?_succ (i : Instantiation) (k : Nat) :
    i.level? (k + 1) = i.tupleRest?.bind fun rest => rest.level? k := by
  rw [level?, walk_succ, Option.bind_some]
  cases i.tupleRest? with
  | none =>
      exact walk_none k
  | some rest =>
      rfl

namespace Graph

/-- A living value type of the namespace `System`, called `ValueTuple` with the arity `n` after
an arity mark, is instantiated with exactly `n` arguments. -/
structure IsTupleLevel (g : Graph) (i : Instantiation) (n : Nat) : Prop where
  arity : 1 ≤ n ∧ n ≤ 8
  type : exists t row, i.base = .named .valueType t ∧ g.type? t = some row ∧
    row.name = ⟨"System", "ValueTuple`" ++ Numeral.decimal n⟩
  args : i.args.length = n

variable {g : Graph} {i : Instantiation} {n : Nat}

theorem tupleArity?_eq_some_iff_isTupleLevel :
    g.tupleArity? i = some n <-> g.IsTupleLevel i n := by
  rw [tupleArity?_eq_some_iff, valueTypeName?_eq_some_iff, Tuple.mem_arities]
  constructor
  · intro h
    rcases h with ⟨htype, harity, hargs⟩
    exact ⟨harity, htype, hargs⟩
  · intro h
    exact ⟨h.type, h.arity, h.args⟩

instance (g : Graph) (i : Instantiation) (n : Nat) : Decidable (g.IsTupleLevel i n) :=
  decidable_of_iff (g.tupleArity? i = some n) tupleArity?_eq_some_iff_isTupleLevel

def rankByLevels (g : Graph) : Nat -> Instantiation -> Except Error Nat
  | 0, _ => .error (.recursionLimit 1000)
  | fuel + 1, i =>
      if g.IsTupleLevel i i.args.length then
        if i.args.length < 8 then
          .ok i.args.length
        else
          match i.tupleRest? with
          | some rest => (g.rankByLevels fuel rest).map (7 + ·)
          | none => .error .notATuple
      else
        .error .notATuple

/-- The first `levels` levels all keep a place for the rest, and the last of these places holds
an instantiation, of whatever type. -/
def NestsBeyond (g : Graph) (levels : Nat) (i : Instantiation) : Prop :=
  (forall k, k < levels -> exists level, i.level? k = some level ∧ g.IsTupleLevel level 8) ∧
    exists rest, i.level? levels = some rest

/-!
## One level of the recursion
-/

variable {rest : Instantiation} (fuel : Nat)

theorem level_cases (g : Graph) (i : Instantiation) :
    (forall n, ¬ g.IsTupleLevel i n) ∨ (exists n, n < 8 ∧ g.IsTupleLevel i n) ∨
      (g.IsTupleLevel i 8 ∧ i.tupleRest? = none) ∨
      (exists rest, g.IsTupleLevel i 8 ∧ i.tupleRest? = some rest) := by
  by_cases h : exists n, g.IsTupleLevel i n
  · rcases h with ⟨n, hn⟩
    rcases Nat.lt_or_eq_of_le hn.arity.right with hlt | rfl
    · exact Or.inr (Or.inl ⟨n, hlt, hn⟩)
    · cases hrest : i.tupleRest? with
      | none =>
          exact Or.inr (Or.inr (Or.inl ⟨hn, rfl⟩))
      | some rest =>
          exact Or.inr (Or.inr (Or.inr ⟨rest, hn, rfl⟩))
  · exact Or.inl (not_exists.mp h)

theorem rankByLevels_of_not_level (h : forall n, ¬ g.IsTupleLevel i n) :
    g.rankByLevels (fuel + 1) i = .error .notATuple := by
  rw [rankByLevels, if_neg (h i.args.length)]

theorem rankByLevels_of_last (h : g.IsTupleLevel i n) (hlt : n < 8) :
    g.rankByLevels (fuel + 1) i = .ok n := by
  have hargs := h.args
  subst hargs
  rw [rankByLevels, if_pos h, if_pos hlt]

theorem rankByLevels_of_no_rest (h : g.IsTupleLevel i 8) (hrest : i.tupleRest? = none) :
    g.rankByLevels (fuel + 1) i = .error .notATuple := by
  rw [rankByLevels, h.args, if_pos h, if_neg (Nat.lt_irrefl 8), hrest]

theorem rankByLevels_of_rest (h : g.IsTupleLevel i 8) (hrest : i.tupleRest? = some rest) :
    g.rankByLevels (fuel + 1) i = (g.rankByLevels fuel rest).map (7 + ·) := by
  rw [rankByLevels, h.args, if_pos h, if_neg (Nat.lt_irrefl 8), hrest]

theorem nestsBeyond_succ_iff :
    g.NestsBeyond (fuel + 1) i <->
      g.IsTupleLevel i 8 ∧ exists rest, i.tupleRest? = some rest ∧ g.NestsBeyond fuel rest := by
  constructor
  · intro h
    rcases h with ⟨hlevels, last, hlast⟩
    rcases hlevels 0 (Nat.zero_lt_succ fuel) with ⟨level, hlevel, height⟩
    cases hlevel
    rw [Instantiation.level?_succ] at hlast
    rcases Option.bind_eq_some_iff.mp hlast with ⟨rest, hrest, hlast⟩
    refine ⟨height, rest, hrest, ?_, last, hlast⟩
    intro k hk
    rcases hlevels (k + 1) (Nat.succ_lt_succ hk) with ⟨level, hlevel, hplaces⟩
    rw [Instantiation.level?_succ, hrest] at hlevel
    exact ⟨level, hlevel, hplaces⟩
  · intro h
    rcases h with ⟨height, rest, hrest, hlevels, last, hlast⟩
    have hsucc : forall k, i.level? (k + 1) = rest.level? k := by
      intro k
      rw [Instantiation.level?_succ, hrest, Option.bind_some]
    refine ⟨?_, last, by rw [hsucc, hlast]⟩
    intro k hk
    cases k with
    | zero =>
        exact ⟨i, rfl, height⟩
    | succ k =>
        rw [hsucc]
        exact hlevels k (Nat.lt_of_succ_lt_succ hk)

/-!
## Counting on and recursion agree
-/

theorem tupleRankFrom_eq_map (count : Nat) (i : Instantiation) :
    g.tupleRankFrom fuel count i = (g.rankByLevels fuel i).map (count + ·) := by
  induction fuel generalizing count i with
  | zero =>
      rfl
  | succ fuel ih =>
      rcases level_cases g i with hnone | ⟨n, hlt, hn⟩ | ⟨hn, hrest⟩ | ⟨rest, hn, hrest⟩
      · have harity : g.tupleArity? i = none := by
          apply Option.eq_none_iff_forall_ne_some.mpr
          intro n hn
          exact hnone n (tupleArity?_eq_some_iff_isTupleLevel.mp hn)
        rw [tupleRankFrom_of_arity?_eq_none fuel count harity, rankByLevels_of_not_level fuel hnone]
        rfl
      · rw [tupleRankFrom_of_lt fuel count (tupleArity?_eq_some_iff_isTupleLevel.mpr hn) hlt,
          rankByLevels_of_last fuel hn hlt]
        rfl
      · rw [tupleRankFrom_of_rest fuel count (tupleArity?_eq_some_iff_isTupleLevel.mpr hn),
          rankByLevels_of_no_rest fuel hn hrest, hrest]
        rfl
      · rw [tupleRankFrom_of_rest fuel count (tupleArity?_eq_some_iff_isTupleLevel.mpr hn),
          rankByLevels_of_rest fuel hn hrest, hrest]
        -- The seven elements of this level are counted before the rest or added after it.
        simp only [ih (count + 7) rest]
        cases g.rankByLevels fuel rest with
        | error e =>
            rfl
        | ok rank =>
            exact congrArg Except.ok (Nat.add_assoc count 7 rank)

theorem checkedTupleRank_eq_rankByLevels (g : Graph) (i : Instantiation) :
    g.checkedTupleRank i = g.rankByLevels 1000 i := by
  rw [checkedTupleRank, tupleRankFrom_eq_map]
  change (g.rankByLevels 1000 i).map (0 + ·) = g.rankByLevels 1000 i
  cases g.rankByLevels 1000 i with
  | error e =>
      rfl
  | ok rank =>
      exact congrArg Except.ok (Nat.zero_add rank)

/-!
## What answers there are
-/

theorem map_eq_ok_iff {answer : Except Error Nat} {f : Nat -> Nat} {m : Nat} :
    answer.map f = .ok m <-> exists k, answer = .ok k ∧ f k = m := by
  cases answer with
  | error e =>
      simp [Except.map]
  | ok k =>
      simp [Except.map]

theorem map_eq_error_iff {answer : Except Error Nat} {f : Nat -> Nat} {e : Error} :
    answer.map f = .error e <-> answer = .error e := by
  cases answer with
  | error e' =>
      simp [Except.map]
  | ok k =>
      simp [Except.map]

theorem rankByLevels_bounds {fuel rank : Nat} (h : g.rankByLevels fuel i = .ok rank) :
    1 ≤ rank ∧ rank ≤ 7 * fuel := by
  induction fuel generalizing i rank with
  | zero =>
      cases h
  | succ fuel ih =>
      rcases level_cases g i with hnone | ⟨n, hlt, hn⟩ | ⟨hn, hrest⟩ | ⟨rest, hn, hrest⟩
      · rw [rankByLevels_of_not_level fuel hnone] at h
        cases h
      · rw [rankByLevels_of_last fuel hn hlt] at h
        cases h
        have harity := hn.arity.left
        omega
      · rw [rankByLevels_of_no_rest fuel hn hrest] at h
        cases h
      · rw [rankByLevels_of_rest fuel hn hrest, map_eq_ok_iff] at h
        rcases h with ⟨k, hk, rfl⟩
        have hbounds := ih hk
        omega

theorem rankByLevels_eq_recursionLimit_iff :
    g.rankByLevels fuel i = .error (.recursionLimit 1000) <-> g.NestsBeyond fuel i := by
  induction fuel generalizing i with
  | zero =>
      constructor
      · intro _
        exact ⟨fun k hk => absurd hk (Nat.not_lt_zero k), i, rfl⟩
      · intro _
        rfl
  | succ fuel ih =>
      rw [nestsBeyond_succ_iff]
      rcases level_cases g i with hnone | ⟨n, hlt, hn⟩ | ⟨hn, hrest⟩ | ⟨rest, hn, hrest⟩
      · simp [rankByLevels_of_not_level fuel hnone, hnone 8]
      · have hnot : ¬ g.IsTupleLevel i 8 := by
          intro height
          rw [hn.args.symm.trans height.args] at hlt
          exact Nat.lt_irrefl 8 hlt
        simp [rankByLevels_of_last fuel hn hlt, hnot]
      · simp [rankByLevels_of_no_rest fuel hn hrest, hrest]
      · rw [rankByLevels_of_rest fuel hn hrest, map_eq_error_iff, ih]
        simp [hn, hrest]

theorem IsTupleLevel.index_lt (h : g.IsTupleLevel i n) : 1 ≤ n ∧ n - 1 < i.args.length := by
  rw [h.args]
  exact ⟨h.arity.left, Nat.sub_lt h.arity.left Nat.one_pos⟩

/-- Counting is the recursion through a thousand levels: every rank is between one and seven
thousand, the limit is met exactly if the nesting goes on beyond it, and the place of the rest
is one of the arguments. -/
theorem checkedTupleRank_by_levels (g : Graph) :
    (forall i, g.checkedTupleRank i = g.rankByLevels 1000 i) ∧
    (forall i rank, g.checkedTupleRank i = .ok rank -> 1 ≤ rank ∧ rank ≤ 7000) ∧
    (forall i, g.checkedTupleRank i = .error (.recursionLimit 1000) <-> g.NestsBeyond 1000 i) ∧
    (forall i n, g.tupleArity? i = some n -> 1 ≤ n ∧ n - 1 < i.args.length) := by
  refine ⟨checkedTupleRank_eq_rankByLevels g, ?bounds, ?limit, ?index⟩
  case bounds =>
    intro i rank h
    rw [checkedTupleRank_eq_rankByLevels] at h
    exact rankByLevels_bounds h
  case limit =>
    intro i
    rw [checkedTupleRank_eq_rankByLevels]
    exact rankByLevels_eq_recursionLimit_iff 1000
  case index =>
    intro i n h
    exact (tupleArity?_eq_some_iff_isTupleLevel.mp h).index_lt

end Graph
end MetadataLabels
