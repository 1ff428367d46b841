import Mathlib.Data.Set.Card
import Mathlib.Order.Interval.Finset.Nat

/-!
# Walks by partial steps

A walk makes the same step again and again for as long as it can be made.  It may
run into a cycle, or come to an end.  Whatever it visits it visits early, among as many
places as there are different ones on the walk.
-/

namespace MetadataLabels

variable {α : Type} {step : α -> Option α} {start : Option α}

/-- Where `n` steps lead, if that many can be made. -/
def walk (step : α -> Option α) (start : Option α) : Nat -> Option α
  | 0 => start
  | n + 1 => (walk step start n).bind step

def visited (step : α -> Option α) (start : Option α) : Set α :=
  {a | exists k, walk step start k = some a}

def visitedWithin (step : α -> Option α) (start : Option α) (n : Nat) : Set α :=
  {a | exists k, k < n ∧ walk step start k = some a}

def path (step : α -> Option α) (start : Option α) (n : Nat) : List α :=
  (List.range n).filterMap (walk step start)

/-- The list has each element of the set once, and no others. -/
structure Enumerates (l : List α) (s : Set α) : Prop where
  nodup : l.Nodup
  mem_iff : forall a, a ∈ l <-> a ∈ s

/-- The walk comes to some place a second time, perhaps after a lead-in. -/
def Cyclic (step : α -> Option α) (start : Option α) : Prop :=
  exists i j, i < j ∧ (walk step start i).isSome = true ∧ walk step start i = walk step start j

def Ends (step : α -> Option α) (start : Option α) : Prop :=
  exists n, walk step start n = none

/-!
## The first places
-/

theorem walk_add (m n : Nat) :
    walk step start (m + n) = walk step (walk step start m) n := by
  induction n with
  | zero =>
      rfl
  | succ n ih =>
      rw [<- Nat.add_assoc, walk, walk, ih]

theorem walk_succ (n : Nat) : walk step start (n + 1) = walk step (start.bind step) n := by
  rw [Nat.add_comm, walk_add]
  rfl

@[simp]
theorem walk_none (n : Nat) : walk step none n = none := by
  induction n with
  | zero =>
      rfl
  | succ n ih =>
      rw [walk, ih]
      rfl

@[simp]
theorem visitedWithin_zero : visitedWithin step start 0 = ∅ := by
  ext a
  simp [visitedWithin]

@[simp]
theorem visitedWithin_none (n : Nat) : visitedWithin step none n = ∅ := by
  ext a
  simp [visitedWithin]

theorem visitedWithin_succ (a : α) (n : Nat) :
    visitedWithin step (some a) (n + 1) = insert a (visitedWithin step (step a) n) := by
  ext b
  rw [Set.mem_insert_iff]
  constructor
  · intro h
    rcases h with ⟨k, hk, hb⟩
    cases k with
    | zero =>
        exact Or.inl (Option.some.inj hb).symm
    | succ k =>
        rw [walk_succ] at hb
        exact Or.inr ⟨k, Nat.lt_of_succ_lt_succ hk, hb⟩
  · intro h
    rcases h with rfl | ⟨k, hk, hb⟩
    · exact ⟨0, Nat.zero_lt_succ n, rfl⟩
    · refine ⟨k + 1, Nat.succ_lt_succ hk, ?_⟩
      rw [walk_succ]
      exact hb

theorem visited_subset {s : Set α} (hstart : forall a, start = some a -> a ∈ s)
    (hstep : forall a b, a ∈ s -> step a = some b -> b ∈ s) : visited step start ⊆ s := by
  intro a h
  rcases h with ⟨k, hk⟩
  induction k generalizing a with
  | zero =>
      exact hstart a hk
  | succ k ih =>
      rcases Option.bind_eq_some_iff.mp hk with ⟨b, hb, hba⟩
      exact hstep b a (ih hb) hba

/-!
## Walks that visit few places

Up to its first visit to some place a walk has not been anywhere twice, as it would
otherwise go round without coming to that place.  So with `n` places in all, each is
visited within `n` steps.
-/

theorem isSome_walk_of_le {m n : Nat} (hle : m ≤ n)
    (h : (walk step start n).isSome = true) : (walk step start m).isSome = true := by
  cases hm : walk step start m with
  | some a =>
      rfl
  | none =>
      rw [<- Nat.add_sub_cancel' hle, walk_add, hm, walk_none] at h
      cases h

theorem walk_eq_of_eq {i j n : Nat} (heq : walk step start i = walk step start j)
    (hle : j ≤ n) : walk step start n = walk step start (i + (n - j)) := by
  rw [walk_add, heq, <- walk_add, Nat.add_sub_cancel' hle]

theorem injOn_walk_of_first {a : α} {n : Nat} (hat : walk step start n = some a)
    (hfirst : forall m, m < n -> walk step start m ≠ some a) :
    Set.InjOn (walk step start) (Set.Iic n) := by
  have hne : forall i j, i < j -> j ≤ n -> walk step start i ≠ walk step start j := by
    intro i j hij hj heq
    apply hfirst (i + (n - j)) (by omega)
    rw [<- walk_eq_of_eq heq hj, hat]
  intro i hi j hj heq
  rcases Nat.lt_trichotomy i j with hlt | rfl | hgt
  · exact absurd heq (hne i j hlt hj)
  · rfl
  · exact absurd heq.symm (hne j i hgt hi)

theorem lt_encard_visited_of_first {a : α} {n : Nat} (hat : walk step start n = some a)
    (hfirst : forall m, m < n -> walk step start m ≠ some a) :
    (n : ENat) < (visited step start).encard := by
  have hsub : walk step start '' Set.Iic n ⊆ some '' visited step start := by
    intro _ h
    rcases h with ⟨m, hm, rfl⟩
    have hsome : (walk step start m).isSome = true := by
      apply isSome_walk_of_le hm
      rw [hat]
      rfl
    rcases Option.isSome_iff_exists.mp hsome with ⟨b, hb⟩
    exact ⟨b, ⟨m, hb⟩, hb.symm⟩
  have hle := Set.encard_le_encard hsub
  rw [(injOn_walk_of_first hat hfirst).encard_image,
    (Option.some_injective α).encard_image] at hle
  have hcard : (Set.Iic n).encard = (n : ENat) + 1 := by
    rw [<- Finset.coe_Iic, Set.encard_coe_eq_coe_finsetCard, Nat.card_Iic]
    rfl
  rw [hcard] at hle
  exact (ENat.add_one_le_iff (ENat.natCast_ne_top n)).mp hle

/-- A walk that visits at most `n` places visits all of them within its first `n`. -/
theorem visitedWithin_eq_visited {n : Nat} (hcard : (visited step start).encard ≤ n) :
    visitedWithin step start n = visited step start := by
  classical
  ext a
  constructor
  · intro h
    rcases h with ⟨k, _, ha⟩
    exact ⟨k, ha⟩
  · intro ha
    refine ⟨Nat.find ha, ?_, Nat.find_spec ha⟩
    have hlt := lt_encard_visited_of_first (Nat.find_spec ha) fun m hm => Nat.find_min ha hm
    exact ENat.natCast_lt_natCast.mp (lt_of_lt_of_le hlt hcard)

/-!
## Cycles and ends

A walk that visits finitely many places either ends or comes back.
-/

theorem isSome_walk_of_cyclic (h : Cyclic step start) (n : Nat) :
    (walk step start n).isSome = true := by
  rcases h with ⟨i, j, hij, hsome, heq⟩
  induction n using Nat.strongRecOn with
  | ind n ih =>
      rcases Nat.lt_or_ge n j with hlt | hge
      · rw [heq] at hsome
        exact isSome_walk_of_le (Nat.le_of_lt hlt) hsome
      · -- From the second time on the walk is where it was one round before.
        rw [walk_eq_of_eq heq hge]
        exact ih (i + (n - j)) (by omega)

theorem not_ends_of_cyclic (h : Cyclic step start) : ¬ Ends step start := by
  intro hends
  rcases hends with ⟨n, hn⟩
  have hsome := isSome_walk_of_cyclic h n
  rw [hn] at hsome
  cases hsome

theorem cyclic_of_isSome {n : Nat} (hcard : (visited step start).encard ≤ n)
    (h : (walk step start n).isSome = true) : Cyclic step start := by
  rcases Option.isSome_iff_exists.mp h with ⟨a, ha⟩
  by_contra hcyclic
  have hlt := lt_encard_visited_of_first ha fun m hm heq =>
    hcyclic ⟨m, n, hm, by rw [heq]; rfl, heq.trans ha.symm⟩
  exact absurd hlt (not_lt_of_ge hcard)

theorem walk_eq_none_of_ends {n : Nat} (hcard : (visited step start).encard ≤ n)
    (h : Ends step start) : walk step start n = none := by
  by_contra hsome
  exact not_ends_of_cyclic (cyclic_of_isSome hcard (Option.isSome_iff_ne_none.mpr hsome)) h

theorem cyclic_iff_not_ends {n : Nat} (hcard : (visited step start).encard ≤ n) :
    Cyclic step start <-> ¬ Ends step start := by
  constructor
  · exact not_ends_of_cyclic
  · intro hends
    apply cyclic_of_isSome hcard
    rw [Option.isSome_iff_ne_none]
    intro hnone
    exact hends ⟨n, hnone⟩

/-!
## Paths
-/

@[simp]
theorem path_zero : path step start 0 = [] :=
  rfl

@[simp]
theorem path_none (n : Nat) : path step none n = [] := by
  simp [path]

theorem path_succ (a : α) (n : Nat) : path step (some a) (n + 1) = a :: path step (step a) n := by
  have hstep : walk step (some a) ∘ Nat.succ = walk step (step a) := funext walk_succ
  rw [path, List.range_succ_eq_map, List.filterMap_cons, List.filterMap_map, hstep]
  rfl

theorem mem_path_iff {a : α} {n : Nat} :
    a ∈ path step start n <-> a ∈ visitedWithin step start n := by
  simp [path, visitedWithin]

theorem length_path_le (n : Nat) : (path step start n).length ≤ n :=
  (List.length_filterMap_le _ _).trans_eq List.length_range

theorem Enumerates.encard_eq {l : List α} {s : Set α} (h : Enumerates l s) :
    s.encard = l.length := by
  classical
  have hset : s = (l.toFinset : Set α) := by
    ext a
    rw [List.coe_toFinset]
    exact (h.mem_iff a).symm
  rw [hset, Set.encard_coe_eq_coe_finsetCard, List.toFinset_card_of_nodup h.nodup]

theorem exists_enumerates {s : Set α} (h : s.Finite) : exists l, Enumerates l s :=
  ⟨h.toFinset.toList, h.toFinset.nodup_toList, by simp⟩

theorem enumerates_path {n : Nat} (hnodup : (path step start (n + 1)).Nodup)
    (hclosed : forall a b, a ∈ path step start (n + 1) -> step a = some b ->
      b ∈ path step start (n + 1)) :
    Enumerates (path step start (n + 1)) (visited step start) where
  nodup := hnodup
  mem_iff a := by
    constructor
    · intro ha
      rcases mem_path_iff.mp ha with ⟨k, _, hk⟩
      exact ⟨k, hk⟩
    · intro ha
      have hstart : forall b, start = some b -> b ∈ path step start (n + 1) := fun b hb =>
        mem_path_iff.mpr ⟨0, Nat.zero_lt_succ n, hb⟩
      exact visited_subset hstart hclosed ha

theorem encard_setOf_mem_le (l : List α) : {a | a ∈ l}.encard ≤ l.length := by
  classical
  rw [<- List.coe_toFinset, Set.encard_coe_eq_coe_finsetCard]
  exact ENat.natCast_le_natCast.mpr (List.toFinset_card_le l)

theorem isSome_walk_of_lt_encard {n : Nat} (h : (n : ENat) < (visited step start).encard) :
    (walk step start n).isSome = true := by
  by_contra hnone
  have hsub : visited step start ⊆ {a | a ∈ path step start n} := by
    intro a ha
    rcases ha with ⟨k, hk⟩
    have hlt : k < n := by
      by_contra hge
      exact hnone (isSome_walk_of_le (Nat.le_of_not_lt hge) (by rw [hk]; rfl))
    exact mem_path_iff.mpr ⟨k, hlt, hk⟩
  have hle : (visited step start).encard ≤ (n : ENat) := by
    calc
      (visited step start).encard ≤ {a | a ∈ path step start n}.encard :=
        Set.encard_le_encard hsub
      _ ≤ ((path step start n).length : ENat) := encard_setOf_mem_le _
      _ ≤ (n : ENat) := ENat.natCast_le_natCast.mpr (length_path_le n)
  exact absurd hle (not_le_of_gt h)

theorem length_path {n : Nat} (h : (walk step start n).isSome = true) :
    (path step start n).length = n := by
  induction n generalizing start with
  | zero =>
      rfl
  | succ n ih =>
      cases start with
      | none =>
          rw [walk_none] at h
          cases h
      | some a =>
          rw [walk_succ] at h
          rw [path_succ, List.length_cons]
          exact congrArg Nat.succ (ih h)

theorem nodup_path (h : ¬ Cyclic step start) (n : Nat) : (path step start n).Nodup := by
  apply List.Nodup.filterMap _ List.nodup_range
  intro i j a hi hj
  rcases Nat.lt_trichotomy i j with hlt | heq | hgt
  · exact absurd ⟨i, j, hlt, Option.isSome_iff_exists.mpr ⟨a, hi⟩, hi.trans hj.symm⟩ h
  · exact heq
  · exact absurd ⟨j, i, hgt, Option.isSome_iff_exists.mpr ⟨a, hj⟩, hj.trans hi.symm⟩ h

end MetadataLabels
