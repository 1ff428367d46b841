import Mathlib.Logic.Relation
import MetadataLabels.Proofs.ReferenceCount
import MetadataLabels.Proofs.Resolution

/-!
# Strong ownership

What a workspace keeps alive, and by what.  When the map of the registry lets go of
the types that were replaced is not known, so nothing is assumed of it: a run may let
go of any of them at any point, and what is said here holds of every such run.

A row is alive exactly while held handles, the registry or a retired type lead to it by
strong ownership, and this is what counting references achieves without looking for
paths.  Once the map has let go of all that was replaced, handles and registry alone
keep rows alive, and it can always come to that without changing what they keep.
All other links may form cycles: once a row is released they show nothing.
-/

namespace MetadataLabels

/-!
## Owners

Held handles and the registry are outermost: what they lead to is kept.  The retired
types are an owner apart.  A row to which nothing else leads is pending, and goes when
the map lets go of what it has replaced.
-/

inductive Owner
  | registry
  | retired
  | row (n : Node)

namespace Owner

def rank : Owner -> Nat
  | .registry => 3
  | .retired => 3
  | .row n => Graph.depth n.kind

end Owner

namespace Workspace

inductive Owns (w : Workspace) : Owner -> Owner -> Prop
  | registered {r : Registration} : r ∈ w.registry.holders ->
      Owns w .registry (.row r.type.node)
  | retired {t : TypeId} : t ∈ w.retired -> Owns w .retired (.row (RowId.node t))
  | owned {m n : Node} : n ∈ w.graph.owned m -> Owns w (.row m) (.row n)

inductive Outermost (w : Workspace) : Owner -> Prop
  | registry : Outermost w .registry
  | held {n : Node} : n ∈ w.held -> Outermost w (.row n)

/-- Strong ownership leads to the row from a held handle or from the registry. -/
def Kept (w : Workspace) (n : Node) : Prop :=
  exists o, w.Outermost o ∧ Relation.ReflTransGen w.Owns o (.row n)

def Pending (w : Workspace) (n : Node) : Prop :=
  Relation.ReflTransGen w.Owns .retired (.row n)

/-- The map has let go of every type that was replaced. -/
def MapSettled (w : Workspace) : Prop :=
  w.retired = []

variable {w w' : Workspace} {edit : Edit} {n : Node}

theorem rank_lt_of_owns {o p : Owner} (h : w.Owns o p) : p.rank < o.rank := by
  cases h with
  | registered _ =>
      exact Nat.lt_succ_of_le (Graph.depth_le_two .type)
  | retired _ =>
      exact Nat.lt_succ_of_le (Graph.depth_le_two .type)
  | owned hmem =>
      exact Graph.depth_lt_of_owned hmem

theorem rank_lt_of_transGen {o p : Owner} (h : Relation.TransGen w.Owns o p) :
    p.rank < o.rank := by
  induction h with
  | single howns =>
      exact rank_lt_of_owns howns
  | tail _ howns ih =>
      exact (rank_lt_of_owns howns).trans ih

theorem owns_acyclic (w : Workspace) (o : Owner) : ¬ Relation.TransGen w.Owns o o := by
  intro h
  exact Nat.lt_irrefl _ (rank_lt_of_transGen h)

/-!
## Paths of owners and reachable rows
-/

def anchors (w : Workspace) : List Node :=
  w.held ++ w.registry.holders.map fun r => r.type.node

theorem reachable_of_path {roots : List Node} {m : Node} (hm : w.graph.Reachable roots m)
    (hpath : Relation.ReflTransGen w.Owns (.row m) (.row n)) : w.graph.Reachable roots n := by
  generalize hstart : Owner.row m = o at hpath
  induction hpath using Relation.ReflTransGen.head_induction_on generalizing m with
  | refl =>
      cases hstart
      exact hm
  | head howns _ ih =>
      subst hstart
      cases howns with
      | owned hmem =>
          exact ih (.step hm hmem) rfl

theorem path_of_reachable {roots : List Node} (h : w.graph.Reachable roots n) :
    exists m, m ∈ roots ∧ Relation.ReflTransGen w.Owns (.row m) (.row n) := by
  induction h with
  | @root m hroot =>
      exact ⟨m, hroot, .refl⟩
  | step _ hmem ih =>
      rcases ih with ⟨m, hroot, hpath⟩
      exact ⟨m, hroot, hpath.tail (.owned hmem)⟩

theorem kept_iff_reachable : w.Kept n <-> w.graph.Reachable w.anchors n := by
  constructor
  · rintro ⟨o, ho, hpath⟩
    cases ho with
    | held hheld =>
        exact reachable_of_path (.root (List.mem_append_left _ hheld)) hpath
    | registry =>
        rcases hpath.cases_head with heq | ⟨p, howns, hrest⟩
        · cases heq
        · cases howns with
          | registered hr =>
              exact reachable_of_path
                (.root (List.mem_append_right _ (List.mem_map_of_mem hr))) hrest
  · intro h
    rcases path_of_reachable h with ⟨m, hroot, hpath⟩
    rcases List.mem_append.mp hroot with hheld | hstored
    · exact ⟨.row m, .held hheld, hpath⟩
    · rcases List.mem_map.mp hstored with ⟨r, hr, rfl⟩
      exact ⟨.registry, .registry, .head (.registered hr) hpath⟩

theorem pending_iff_reachable :
    w.Pending n <-> w.graph.Reachable (w.retired.map RowId.node) n := by
  constructor
  · intro hpath
    rcases hpath.cases_head with heq | ⟨p, howns, hrest⟩
    · cases heq
    · cases howns with
      | retired ht =>
          exact reachable_of_path (.root (List.mem_map_of_mem ht)) hrest
  · intro h
    rcases path_of_reachable h with ⟨m, hroot, hpath⟩
    rcases List.mem_map.mp hroot with ⟨t, ht, rfl⟩
    exact .head (.retired ht) hpath

theorem kept_or_pending_iff_reachable :
    w.Kept n ∨ w.Pending n <-> w.graph.Reachable w.roots n := by
  rw [kept_iff_reachable, pending_iff_reachable]
  exact Graph.reachable_append.symm

theorem not_pending_of_mapSettled (h : w.MapSettled) : ¬ w.Pending n := by
  intro hpending
  rw [pending_iff_reachable, h] at hpending
  rcases path_of_reachable hpending with ⟨m, hroot, _⟩
  cases hroot

end Workspace

/-!
## Links to a released row
-/

namespace Graph

structure Dangles (g : Graph) (n : Node) : Prop where
  released : g.find? n.id = none
  slots : forall (s : Slot) (carrier : RowId s.carrier) (value : s.Value),
    g.recorded s carrier = some value -> s.referent value = some n -> g.read s carrier = none
  attributeTypes : forall (k : Kind) (carrier : RowId k) (a : Attribute) (t : TypeId),
    a ∈ g.attributes carrier -> a.type = some t -> t.node = n -> a.type.bind g.live? = none
  signatures : forall (r : Resolver) (sig : TypeSig) (t : TypeId),
    sig.named? = some t -> t.node = n -> (r.resolveSignature g sig).value = none

theorem dangles_of_not_isLive {g : Graph} {n : Node} (h : g.isLive n = false) :
    g.Dangles n where
  released := by
    have hid : g.isLive n.id.node = false := h
    exact find?_of_not_isLive hid
  slots s carrier value hrecorded hreferent := read_of_not_isLive hrecorded hreferent h
  attributeTypes k carrier a t _ htype hnode := by
    rw [htype, Option.bind_some, live?, hnode, h]
    rfl
  signatures r sig t hsig hnode := by
    subst hnode
    have htype : g.type? t = none := find?_of_not_isLive h
    rw [Resolver.value_resolveSignature, hsig, Option.bind_some, Resolver.value_resolveType,
      htype]
    rfl

end Graph

namespace Workspace

/-!
## Runs that count
-/

variable {w w' : Workspace} {edit : Edit}

def change (w : Workspace) : Edit -> Workspace
  | .reclaim type => { w with retired := w.retired.erase type }
  | .release n => { w with held := w.held.erase n }
  | edit => w.apply edit

/-- After each change the rows go whose count has come to zero. -/
inductive CountingRun : Workspace -> List Edit -> Workspace -> Prop
  | nil (w : Workspace) : CountingRun w [] w
  | cons {w w' : Workspace} {edit : Edit} {rest : List Edit} {g : Graph} :
      Graph.Frees (w.change edit).roots (w.change edit).graph g ->
        CountingRun { w.change edit with graph := g } rest w' ->
          CountingRun w (edit :: rest) w'

theorem WellOwned.collect_eq_self (h : w.WellOwned) : w.collect = w := by
  have hgraph : w.graph.retain (w.graph.reach w.roots).contains = w.graph := by
    apply Graph.retain_eq_self
    intro n hn
    exact contains_reach_iff.mpr (h.reachable n hn)
  rw [collect, hgraph]

theorem WellOwned.collect_change (h : w.WellOwned) (edit : Edit) :
    (w.change edit).collect = w.apply edit := by
  cases edit with
  | reclaim type =>
      simp only [change, Workspace.apply, Workspace.reclaim]
      by_cases ht : type ∈ w.retired
      · rw [if_pos ht]
      · rw [if_neg ht, List.erase_of_not_mem ht]
        exact h.collect_eq_self
  | release n =>
      simp only [change, Workspace.apply, Workspace.release]
      by_cases hn : n ∈ w.held
      · rw [if_pos hn]
      · rw [if_neg hn, List.erase_of_not_mem hn]
        exact h.collect_eq_self
  | create k decl =>
      exact (h.apply (.create k decl)).collect_eq_self
  | append l owner member =>
      exact (h.apply (.append l owner member)).collect_eq_self
  | annotate carrier token source =>
      exact (h.apply (.annotate carrier token source)).collect_eq_self
  | link s carrier value =>
      exact (h.apply (.link s carrier value)).collect_eq_self
  | register type =>
      exact (h.apply (.register type)).collect_eq_self

theorem WellOwned.countingRun_iff (h : w.WellOwned) {edits : List Edit} :
    CountingRun w edits w' <-> w' = w.run edits := by
  induction edits generalizing w with
  | nil =>
      constructor
      · intro hrun
        cases hrun
        rfl
      · intro hrun
        rw [hrun]
        exact .nil w
  | cons edit rest ih =>
      have hstep := h.collect_change edit
      constructor
      · intro hrun
        cases hrun with
        | cons hfrees hrest =>
            rw [Graph.frees_iff] at hfrees
            subst hfrees
            change CountingRun (w.change edit).collect rest w' at hrest
            rw [hstep, ih (h.apply edit)] at hrest
            exact hrest
      · intro hrun
        apply CountingRun.cons (Graph.frees_iff.mpr rfl)
        change CountingRun (w.change edit).collect rest w'
        rw [hstep, ih (h.apply edit)]
        exact hrun

/-!
## What the map has still to let go of

Reclaiming all retired types, in any order, settles the map.  It takes no handle and
nothing out of the registry, so what these keep stays as it is.
-/

def reclaims (w : Workspace) : List Edit :=
  w.retired.map Edit.reclaim

structure Settles (w w' : Workspace) : Prop where
  settled : w'.MapSettled
  held : w'.held = w.held
  registry : w'.registry = w.registry
  kept : forall n, w'.Kept n <-> w.Kept n

theorem kept_collect_retired {retired : List TypeId} {n : Node} :
    Kept { w with retired := retired }.collect n <-> w.Kept n := by
  rw [kept_iff_reachable, kept_iff_reachable]
  apply Graph.reachable_retain
  intro m hm
  apply contains_reach_iff.mpr
  exact hm.mono (fun _ => List.mem_append_left _) fun _ => List.Subset.refl _

theorem settles_run_reclaims (w : Workspace) : w.Settles (w.run w.reclaims) := by
  unfold reclaims
  generalize htypes : w.retired = types
  induction types generalizing w with
  | nil =>
      exact ⟨htypes, rfl, rfl, fun _ => Iff.rfl⟩
  | cons t rest ih =>
      have hstep : w.apply (.reclaim t) = { w with retired := rest }.collect := by
        simp only [Workspace.apply, reclaim, htypes, List.mem_cons_self, if_true,
          List.erase_cons_head]
      have hrest := ih { w with retired := rest }.collect rfl
      change w.Settles ((w.apply (.reclaim t)).run (rest.map Edit.reclaim))
      rw [hstep]
      exact ⟨hrest.settled, hrest.held, hrest.registry, fun n =>
        (hrest.kept n).trans kept_collect_retired⟩

/-!
## What ownership amounts to

Sound ownership says by what a living row is kept, and that a released row cannot be
reached by any link.  It is exact if handles and registry are all that keeps rows.
-/

structure OwnershipSound (w : Workspace) : Prop where
  acyclic : forall o, ¬ Relation.TransGen w.Owns o o
  live_iff : forall n, w.graph.isLive n = true <-> w.Kept n ∨ w.Pending n
  live_iff_counted : forall n, w.graph.isLive n = true <-> 0 < w.graph.strongCount w.roots n
  dangling : forall n, ¬ w.Kept n -> ¬ w.Pending n -> w.graph.Dangles n

structure OwnershipExact (w : Workspace) : Prop where
  live_iff_kept : forall n, w.graph.isLive n = true <-> w.Kept n
  dangling : forall n, ¬ w.Kept n -> w.graph.Dangles n

theorem WellOwned.live_iff_counted (h : w.WellOwned) (n : Node) :
    w.graph.isLive n = true <-> 0 < w.graph.strongCount w.roots n := by
  rw [h.isLive_iff]
  constructor
  · exact Graph.strongCount_pos_of_reachable
  · intro hcount
    rcases Graph.strongCount_pos_iff.mp hcount with hroot | ⟨m, hmem⟩
    · exact .root hroot
    · exact .step (h.reachable m (Graph.isLive_of_mem_owned hmem)) hmem

theorem WellOwned.ownershipSound (h : w.WellOwned) : w.OwnershipSound where
  acyclic := w.owns_acyclic
  live_iff n := (h.isLive_iff n).trans kept_or_pending_iff_reachable.symm
  live_iff_counted := h.live_iff_counted
  dangling n hkept hpending := by
    apply Graph.dangles_of_not_isLive
    apply Bool.eq_false_iff.mpr
    rw [Ne, h.isLive_iff, <- kept_or_pending_iff_reachable, not_or]
    exact ⟨hkept, hpending⟩

theorem OwnershipSound.exact (h : w.OwnershipSound) (hmap : w.MapSettled) :
    w.OwnershipExact where
  live_iff_kept n := by
    rw [h.live_iff, or_iff_left (not_pending_of_mapSettled hmap)]
  dangling n hn := h.dangling n hn (not_pending_of_mapSettled hmap)

/-- Every run that frees rows by their counts has the outcome of `run`, wherever in it the map lets
go of replaced types.  In it ownership is sound, and exact where the map is settled; and the map can
always go on to be settled, with handles, registry and what they keep as they are. -/
theorem counting_keeps_ownership_sound (edits : List Edit) :
    (forall w, CountingRun {} edits w <-> w = run {} edits) ∧
      (run {} edits).OwnershipSound ∧
        ((run {} edits).MapSettled -> (run {} edits).OwnershipExact) ∧
          (run {} edits).Settles (run {} (edits ++ (run {} edits).reclaims)) := by
  have hsound := (wellOwned_empty.run edits).ownershipSound
  refine ⟨fun _ => wellOwned_empty.countingRun_iff, hsound, hsound.exact, ?_⟩
  rw [run_append]
  exact settles_run_reclaims (run {} edits)

def replacedBase : List Edit :=
  [.create .type ⟨⟨0x02000001⟩, .classType, ⟨"App", "Shape"⟩, none⟩,
    .create .type ⟨⟨0x02000001⟩, .classType, ⟨"App", "Shape"⟩, none⟩,
    .create .type ⟨⟨0x02000002⟩, .classType, ⟨"App", "Circle"⟩, none⟩,
    .link .base ⟨2⟩ ⟨0⟩, .register ⟨0⟩, .register ⟨1⟩, .release ⟨.type, 0⟩]

/-- The link shows the replaced type until the map lets go of it, and nothing afterwards. -/
theorem replacedBase_released :
    (run {} replacedBase).graph.base? ⟨2⟩ = some ⟨0⟩ ∧
    (run {} (replacedBase ++ [.reclaim ⟨0⟩])).MapSettled ∧
    (run {} (replacedBase ++ [.reclaim ⟨0⟩])).graph.Dangles ⟨.type, 0⟩ ∧
    (run {} (replacedBase ++ [.reclaim ⟨0⟩])).graph.base? ⟨2⟩ = none := by
  have hmap : (run {} (replacedBase ++ [.reclaim ⟨0⟩])).MapSettled := by
    rw [MapSettled]
    decide
  rcases counting_keeps_ownership_sound (replacedBase ++ [.reclaim ⟨0⟩]) with
    ⟨_, _, hexact, _⟩
  have hkept : ¬ Kept (run {} (replacedBase ++ [.reclaim ⟨0⟩])) ⟨.type, 0⟩ := by
    rw [<- (hexact hmap).live_iff_kept]
    decide
  exact ⟨by decide, hmap, (hexact hmap).dangling _ hkept, by decide⟩

end Workspace
end MetadataLabels
