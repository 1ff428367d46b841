import MetadataLabels.Proofs.OwnershipRun

/-!
# Reference counts

A row may be kept by its count alone: how often roots and living rows hold it.  A
row whose count has come to zero is freed, which may bring further counts to zero.
Because ownership has no cycle, this frees what no root leads to and nothing else,
in whatever order rows are freed.
-/

namespace MetadataLabels

/-!
## Taking rows out twice
-/

namespace Table

theorem retain_retain {α : Type} (t : Table α) (first second : Nat -> Bool) :
    (t.retain first).retain second = t.retain fun i => first i && second i := by
  unfold retain
  rw [Array.mapIdx_mapIdx]
  congr 2
  funext i row
  cases hfirst : first i <;> cases hsecond : second i <;> simp [hfirst, hsecond]

theorem retain_eq_self {α : Type} {t : Table α} {keep : Nat -> Bool}
    (h : forall i row, t.get? i = some row -> keep i = true) : t.retain keep = t := by
  have hrows : (t.retain keep).rows = t.rows := by
    apply Array.ext
    · exact size_retain t keep
    · intro i hi hi'
      simp only [retain, Array.getElem_mapIdx]
      cases hrow : t.rows[i] with
      | none =>
          cases keep i <;> rfl
      | some row =>
          have hget : t.get? i = some row := by
            rw [get?, Array.getElem?_eq_getElem hi', hrow]
            rfl
          rw [h i row hget]
          rfl
  exact congrArg Table.mk hrows

end Table

namespace Graph

theorem ext_table {g g' : Graph} (h : forall k, g.table k = g'.table k) : g = g' := by
  rcases g with ⟨types, methods, fields, properties, events, params, memberRefs⟩
  rcases g' with ⟨types', methods', fields', properties', events', params', memberRefs'⟩
  congr
  · exact h .type
  · exact h .method
  · exact h .field
  · exact h .property
  · exact h .event
  · exact h .param
  · exact h .memberRef

theorem table_retain (g : Graph) (keep : Node -> Bool) (k : Kind) :
    (g.retain keep).table k = (g.table k).retain fun i => keep ⟨k, i⟩ := by
  cases k <;> rfl

theorem retain_retain (g : Graph) (first second : Node -> Bool) :
    (g.retain first).retain second = g.retain fun n => first n && second n := by
  apply ext_table
  intro k
  rw [table_retain, table_retain, table_retain, Table.retain_retain]

theorem retain_eq_self {g : Graph} {keep : Node -> Bool}
    (h : forall n, g.isLive n = true -> keep n = true) : g.retain keep = g := by
  apply ext_table
  intro k
  rw [table_retain]
  apply Table.retain_eq_self
  intro i row hrow
  exact h ⟨k, i⟩ (Option.isSome_iff_exists.mpr ⟨row, hrow⟩)

/-!
## Counting
-/

def nodes (g : Graph) : List Node :=
  [Kind.type, .method, .field, .property, .event, .param, .memberRef].flatMap fun k =>
    (List.range (g.table k).size).map (Node.mk k)

/-- How often the row is held, by the roots and by living rows. -/
def strongCount (g : Graph) (roots : List Node) (n : Node) : Nat :=
  roots.count n + (g.nodes.flatMap g.owned).count n

theorem mem_nodes_iff {g : Graph} {n : Node} : n ∈ g.nodes <-> g.Created n := by
  rcases n with ⟨k, index⟩
  cases k <;> simp [nodes, Created]

theorem strongCount_pos_iff {g : Graph} {roots : List Node} {n : Node} :
    0 < g.strongCount roots n <-> n ∈ roots ∨ exists m, n ∈ g.owned m := by
  have howned : n ∈ g.nodes.flatMap g.owned <-> exists m, n ∈ g.owned m := by
    rw [List.mem_flatMap]
    constructor
    · intro h
      rcases h with ⟨m, _, hm⟩
      exact ⟨m, hm⟩
    · intro h
      rcases h with ⟨m, hm⟩
      exact ⟨m, mem_nodes_iff.mpr (created_of_isLive (isLive_of_mem_owned hm)), hm⟩
  rw [strongCount, Nat.add_pos_iff_pos_or_pos, List.count_pos_iff, List.count_pos_iff, howned]

theorem strongCount_pos_of_reachable {g : Graph} {roots : List Node} {n : Node}
    (h : g.Reachable roots n) : 0 < g.strongCount roots n := by
  apply strongCount_pos_iff.mpr
  cases h with
  | root hroot =>
      exact Or.inl hroot
  | step _ hmem =>
      exact Or.inr ⟨_, hmem⟩

theorem reachable_of_counted {g : Graph} {roots : List Node}
    (h : forall n, g.isLive n = true -> 0 < g.strongCount roots n) {n : Node}
    (hn : g.isLive n = true) : g.Reachable roots n := by
  -- Its owners are rows of greater depth, and depth is bounded.
  rcases strongCount_pos_iff.mp (h n hn) with hroot | ⟨m, hm⟩
  · exact .root hroot
  · exact .step (reachable_of_counted h (isLive_of_mem_owned hm)) hm
termination_by 2 - depth n.kind
decreasing_by
  have hlt := depth_lt_of_owned hm
  have hle := depth_le_two m.kind
  omega

/-!
## Freeing
-/

/-- Living rows that nothing holds are freed one after the other, until every living row is
held. -/
inductive Frees (roots : List Node) : Graph -> Graph -> Prop
  | done {g : Graph} : (forall n, g.isLive n = true -> 0 < g.strongCount roots n) ->
      Frees roots g g
  | free {g g' : Graph} {n : Node} : g.isLive n = true -> g.strongCount roots n = 0 ->
      Frees roots (g.retain fun m => m != n) g' -> Frees roots g g'

theorem retain_reach_of_uncounted {g : Graph} {roots : List Node} {n : Node}
    (h : g.strongCount roots n = 0) :
    (g.retain fun m => m != n).retain ((g.retain fun m => m != n).reach roots).contains =
      g.retain (g.reach roots).contains := by
  have hkeep : forall m, g.Reachable roots m -> (m != n) = true := by
    intro m hm
    apply bne_iff_ne.mpr
    intro hmn
    have hpos := strongCount_pos_of_reachable hm
    rw [hmn, h] at hpos
    exact Nat.lt_irrefl 0 hpos
  rw [retain_retain]
  congr 1
  funext m
  rw [Bool.eq_iff_iff, Bool.and_eq_true, List.contains_iff_mem, List.contains_iff_mem,
    mem_reach_iff, mem_reach_iff, reachable_retain hkeep]
  constructor
  · exact And.right
  · intro hm
    exact ⟨hkeep m hm, hm⟩

theorem eq_retain_reach_of_frees {roots : List Node} {g g' : Graph} (h : Frees roots g g') :
    g' = g.retain (g.reach roots).contains := by
  induction h with
  | @done g hcounted =>
      symm
      apply retain_eq_self
      intro n hn
      rw [List.contains_iff_mem, mem_reach_iff]
      exact reachable_of_counted hcounted hn
  | free _ hzero _ ih =>
      rw [ih, retain_reach_of_uncounted hzero]

def liveCount (g : Graph) : Nat :=
  (g.nodes.filter g.isLive).length

theorem nodes_retain (g : Graph) (keep : Node -> Bool) : (g.retain keep).nodes = g.nodes := by
  simp [nodes, retain, table]

theorem liveCount_retain_lt {g : Graph} {n : Node} (hn : g.isLive n = true) :
    (g.retain fun m => m != n).liveCount < g.liveCount := by
  have hfilter : (g.retain fun m => m != n).nodes.filter (g.retain fun m => m != n).isLive =
      (g.nodes.filter g.isLive).filter fun m => m != n := by
    rw [nodes_retain, List.filter_filter]
    congr 1
    funext m
    rw [isLive_retain]
  have hmem : n ∈ g.nodes.filter g.isLive :=
    List.mem_filter.mpr ⟨mem_nodes_iff.mpr (created_of_isLive hn), hn⟩
  unfold liveCount
  rw [hfilter, List.length_filter_lt_length_iff_exists]
  exact ⟨n, hmem, by simp⟩

theorem exists_frees (roots : List Node) (g : Graph) : exists g', Frees roots g g' := by
  -- Every freed row is one living row less.
  by_cases h : forall n, g.isLive n = true -> 0 < g.strongCount roots n
  · exact ⟨g, .done h⟩
  · push Not at h
    rcases h with ⟨n, hn, hzero⟩
    rcases exists_frees roots (g.retain fun m => m != n) with ⟨g', hg'⟩
    exact ⟨g', .free hn (Nat.le_zero.mp hzero) hg'⟩
termination_by g.liveCount
decreasing_by
  exact liveCount_retain_lt hn

/-- Counting frees what is not reachable, in whatever order. -/
theorem frees_iff {roots : List Node} {g g' : Graph} :
    Frees roots g g' <-> g' = g.retain (g.reach roots).contains := by
  constructor
  · exact eq_retain_reach_of_frees
  · intro hretain
    rcases exists_frees roots g with ⟨freed, hfreed⟩
    rw [hretain, <- eq_retain_reach_of_frees hfreed]
    exact hfreed

end Graph
end MetadataLabels
