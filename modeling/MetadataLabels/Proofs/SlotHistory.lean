import MetadataLabels.Proofs.OwnershipRun

/-!
# The history of a slot

Over a run a slot records the value of the first call that is made for it and no
other.  What it shows is nothing before that call, then this value, and nothing ever
after the target of a link that does not own is gone.  An accessor slot may be called
with a link whose target is gone already: it is filled, and never shows anything.
-/

namespace MetadataLabels

/-!
## Changes that leave a slot alone
-/

namespace Slot

def KeptBy (s : Slot) {k : Kind} (f : Row k -> Row k) : Prop :=
  forall (h : k = s.carrier) (row : Row k), s.get (h ▸ f row) = s.get (h ▸ row)

theorem keptBy_append (s : Slot) (l : MemberList) (member : RowId l.member) :
    s.KeptBy (l.append member) := by
  intro h row
  cases l <;> cases s <;> cases h <;> rfl

theorem keptBy_annotate (s : Slot) (a : Attribute) (k : Kind) :
    s.KeptBy (Row.annotate a k) := by
  intro h row
  subst h
  cases s <;> rfl

theorem keptBy_put {s t : Slot} (hne : s ≠ t) (value : t.Value) : s.KeptBy (t.put value) := by
  intro h row
  cases s <;> cases t <;> cases h <;> first | rfl | exact absurd rfl hne

/-- The slots whose value stays for as long as the row does: the target of a member reference
is owned, and a default is no link. -/
def lasting : Slot -> Bool
  | .target => true
  | .fieldDefault => true
  | .paramDefault => true
  | _ => false

end Slot

namespace Graph

variable {g : Graph} {s : Slot} {carrier : RowId s.carrier}

theorem recorded_of_not_isLive (h : g.isLive carrier.node = false) :
    g.recorded s carrier = none := by
  rw [recorded, find?_of_not_isLive h]
  rfl

theorem isLive_of_recorded {value : s.Value} (h : g.recorded s carrier = some value) :
    g.isLive carrier.node = true := by
  cases hlive : g.isLive carrier.node with
  | true =>
      rfl
  | false =>
      rw [recorded_of_not_isLive hlive] at h
      cases h

theorem recorded_modify_of_ne {k : Kind} {id : RowId k} (h : carrier.node ≠ id.node)
    (f : Row k -> Row k) : (g.modify id f).recorded s carrier = g.recorded s carrier := by
  rw [recorded, find?_modify_of_ne g id f carrier h, recorded]

theorem recorded_modify_of_keptBy {k : Kind} {f : Row k -> Row k} (hf : s.KeptBy f)
    (id : RowId k) : (g.modify id f).recorded s carrier = g.recorded s carrier := by
  by_cases h : carrier.node = id.node
  · have hk : k = s.carrier := (congrArg Node.kind h).symm
    subst hk
    rw [recorded, recorded, RowId.node_inj.mp h, find?_modify_self]
    cases g.find? id with
    | none =>
        rfl
    | some row =>
        exact hf rfl row
  · exact recorded_modify_of_ne h f

theorem recorded_put_self (hlive : g.isLive carrier.node = true) (value : s.Value) :
    (g.modify carrier (s.put value)).recorded s carrier = some value := by
  rcases exists_row_of_isLive hlive with ⟨row, hrow⟩
  rw [recorded, find?_modify_self, hrow]
  exact Slot.get_put s value row

theorem recorded_create {k : Kind} (decl : Decl k) :
    (g.create k decl).recorded s carrier = g.recorded s carrier := by
  by_cases h : carrier.node = (g.next k).node
  · have hk : k = s.carrier := (congrArg Node.kind h).symm
    subst hk
    rw [recorded, recorded, RowId.node_inj.mp h, find?_create_next, find?_next]
    exact Slot.get_ofDecl s decl
  · rw [recorded, find?_create_of_ne g k decl carrier h, recorded]

theorem recorded_retain {keep : Node -> Bool}
    (h : (g.retain keep).isLive carrier.node = true) :
    (g.retain keep).recorded s carrier = g.recorded s carrier := by
  rw [isLive_retain] at h
  rw [recorded, find?_retain, if_pos (Bool.and_eq_true_iff.mp h).left, recorded]

theorem read_eq_some_iff {value : s.Value} :
    g.read s carrier = some value <->
      g.recorded s carrier = some value ∧ g.isCurrent s value = true := by
  rw [read, Option.filter_eq_some_iff]

theorem read_of_recorded_none (h : g.recorded s carrier = none) :
    g.read s carrier = none := by
  rw [read, h]
  rfl

end Graph

/-!
## Calls for a slot
-/

def Edit.fills? (s : Slot) : Edit -> Option (RowId s.carrier × s.Value)
  | .link t carrier value => if h : t = s then some (h ▸ (carrier, value)) else none
  | _ => none

theorem Edit.fills?_eq_some_iff {s : Slot} {edit : Edit} {carrier : RowId s.carrier}
    {value : s.Value} :
    edit.fills? s = some (carrier, value) <-> edit = .link s carrier value := by
  constructor
  · intro h
    cases edit with
    | link t c v =>
        by_cases hts : t = s
        · subst hts
          simp only [fills?, dif_pos, Option.some.injEq, Prod.mk.injEq] at h
          rw [h.left, h.right]
        · simp only [fills?, dif_neg hts] at h
          cases h
    | _ =>
        cases h
  · intro h
    simp [h, fills?]

namespace Workspace

/-- The value with which the edit calls for the slot of this carrier, if the call can be made. -/
def call? (w : Workspace) (s : Slot) (carrier : RowId s.carrier) (edit : Edit) :
    Option s.Value :=
  ((edit.fills? s).filter fun call => call.1 = carrier ∧ w.admits edit = true).map Prod.snd

def calls (w : Workspace) (s : Slot) (carrier : RowId s.carrier) : List Edit -> List s.Value
  | [] => []
  | edit :: rest => (w.call? s carrier edit).toList ++ (w.apply edit).calls s carrier rest

def readings (w : Workspace) (s : Slot) (carrier : RowId s.carrier) :
    List Edit -> List (Option s.Value)
  | [] => [w.graph.read s carrier]
  | edit :: rest => w.graph.read s carrier :: (w.apply edit).readings s carrier rest

variable {w w' : Workspace} {s : Slot} {carrier : RowId s.carrier} {edit : Edit}

theorem call?_eq_some_iff {value : s.Value} :
    w.call? s carrier edit = some value <->
      edit = .link s carrier value ∧ w.admits edit = true := by
  rw [call?, Option.map_eq_some_iff]
  constructor
  · intro h
    rcases h with ⟨⟨c, v⟩, hcall, hv⟩
    rw [Option.filter_eq_some_iff, decide_eq_true_iff, Edit.fills?_eq_some_iff] at hcall
    rcases hcall with ⟨hedit, hc, hadmits⟩
    cases hc
    cases hv
    exact ⟨hedit, hadmits⟩
  · intro h
    rcases h with ⟨hedit, hadmits⟩
    refine ⟨(carrier, value), ?_, rfl⟩
    rw [Option.filter_eq_some_iff, decide_eq_true_iff, Edit.fills?_eq_some_iff]
    exact ⟨hedit, rfl, hadmits⟩

theorem admits_link_iff {value : s.Value} :
    w.admits (.link s carrier value) = true <->
      w.graph.isLive carrier.node = true ∧ w.graph.accepts s value = true :=
  Bool.and_eq_true_iff

theorem call?_eq_none_of_not_isLive (h : w.graph.isLive carrier.node = false) :
    w.call? s carrier edit = none := by
  apply Option.eq_none_iff_forall_not_mem.mpr
  intro value hvalue
  rcases call?_eq_some_iff.mp hvalue with ⟨rfl, hadmits⟩
  rw [(admits_link_iff.mp hadmits).left] at h
  cases h

theorem call?_eq_none_of_ne (h : forall value, edit ≠ .link s carrier value) :
    w.call? s carrier edit = none := by
  apply Option.eq_none_iff_forall_not_mem.mpr
  intro value hvalue
  exact h value (call?_eq_some_iff.mp hvalue).left

/-!
## What a slot records
-/

theorem Step.recorded_eq (h : w.Step edit w')
    (hlive : w'.graph.isLive carrier.node = true) :
    w'.graph.recorded s carrier =
      (w.graph.recorded s carrier).or (w.call? s carrier edit) := by
  have hother : forall g : Graph, g.recorded s carrier = w.graph.recorded s carrier ->
      w.call? s carrier edit = none ->
        g.recorded s carrier = (w.graph.recorded s carrier).or (w.call? s carrier edit) := by
    intro g hg hcall
    rw [hg, hcall, Option.or_none]
  cases h with
  | refused hrefused =>
      apply hother _ rfl
      apply Option.eq_none_iff_forall_not_mem.mpr
      intro value hvalue
      rw [(call?_eq_some_iff.mp hvalue).right] at hrefused
      cases hrefused
  | filled _ _ hold =>
      cases hcall : w.call? s carrier _ with
      | none =>
          rw [Option.or_none]
      | some value =>
          -- The call is for this very slot, which is filled.
          cases (call?_eq_some_iff.mp hcall).left
          rw [hold, Option.some_or]
  | created k decl =>
      exact hother _ (Graph.recorded_create decl) (call?_eq_none_of_ne fun _ => nofun)
  | @appended l owner member _ _ =>
      exact hother _ (Graph.recorded_modify_of_keptBy (s.keptBy_append l member) owner)
        (call?_eq_none_of_ne fun _ => nofun)
  | @annotated k carrier' _ _ a _ _ _ =>
      exact hother _ (Graph.recorded_modify_of_keptBy (s.keptBy_annotate a k) carrier')
        (call?_eq_none_of_ne fun _ => nofun)
  | @linked t carrier' value hcarrier hvalue hfree =>
      cases hcall : w.call? s carrier (.link t carrier' value) with
      | some value' =>
          cases (call?_eq_some_iff.mp hcall).left
          rw [hfree, Option.none_or]
          exact Graph.recorded_put_self hcarrier value'
      | none =>
          rw [Option.or_none]
          by_cases hnode : carrier.node = carrier'.node
          · have hst : s ≠ t := by
              intro hst
              subst hst
              cases RowId.node_inj.mp hnode
              have hadmits := admits_link_iff.mpr ⟨hcarrier, hvalue⟩
              rw [call?_eq_some_iff.mpr ⟨rfl, hadmits⟩] at hcall
              cases hcall
            exact Graph.recorded_modify_of_keptBy (Slot.keptBy_put hst value) carrier'
          · exact Graph.recorded_modify_of_ne hnode _
  | registered _ =>
      exact hother _ rfl (call?_eq_none_of_ne fun _ => nofun)
  | reclaimed _ =>
      exact hother _ (Graph.recorded_retain hlive) (call?_eq_none_of_ne fun _ => nofun)
  | released _ =>
      exact hother _ (Graph.recorded_retain hlive) (call?_eq_none_of_ne fun _ => nofun)

theorem not_isLive_of_later {n : Node} {rest : List Edit} (h : w.Step edit w')
    (hnow : w'.graph.isLive n = false) (hlater : (w'.run rest).graph.isLive n = true) :
    w.graph.isLive n = false := by
  -- Otherwise it was released, and a released row does not come back.
  apply Bool.eq_false_iff.mpr
  intro hbefore
  have hcreated := h.created_node (Graph.created_of_isLive hbefore)
  rw [isLive_of_run hcreated hlater] at hnow
  cases hnow

theorem head?_calls_cons (w : Workspace) (s : Slot) (carrier : RowId s.carrier) (edit : Edit)
    (rest : List Edit) :
    (w.calls s carrier (edit :: rest)).head? =
      (w.call? s carrier edit).or ((w.apply edit).calls s carrier rest).head? := by
  rw [calls, List.head?_append]
  cases w.call? s carrier edit <;> rfl

theorem recorded_run {edits : List Edit}
    (hlive : (w.run edits).graph.isLive carrier.node = true) :
    (w.run edits).graph.recorded s carrier =
      (w.graph.recorded s carrier).or (w.calls s carrier edits).head? := by
  induction edits generalizing w with
  | nil =>
      exact (Option.or_none).symm
  | cons edit rest ih =>
      have hstep := step_apply w edit
      rw [head?_calls_cons, <- Option.or_assoc]
      change ((w.apply edit).run rest).graph.recorded s carrier = _
      rw [ih hlive]
      congr 1
      cases hnow : (w.apply edit).graph.isLive carrier.node with
      | true =>
          exact hstep.recorded_eq hnow
      | false =>
          have hbefore := not_isLive_of_later hstep hnow hlive
          rw [Graph.recorded_of_not_isLive hnow, Graph.recorded_of_not_isLive hbefore,
            call?_eq_none_of_not_isLive hbefore, Option.none_or]

theorem recorded_run_empty {edits : List Edit}
    (hlive : (run {} edits).graph.isLive carrier.node = true) :
    (run {} edits).graph.recorded s carrier = (calls {} s carrier edits).head? := by
  rw [recorded_run hlive, Graph.recorded_of_not_isLive (isLive_empty carrier.node),
    Option.none_or]

/-!
## What a slot shows

Three phases follow each other.  A slot that is spent shows nothing any more; one
that shows its value goes on to do so or is spent; one that records nothing stays so,
shows the value of the first call, or is spent: with its carrier, or by a call with a
link that dangles.
-/

/-- The carrier, or the target of the one value recorded, was released. -/
def Spent (w : Workspace) (s : Slot) (carrier : RowId s.carrier) : Prop :=
  (w.graph.Created carrier.node ∧ w.graph.isLive carrier.node = false) ∨
    exists value n, w.graph.recorded s carrier = some value ∧ s.referent value = some n ∧
      w.graph.Created n ∧ w.graph.isLive n = false

theorem read_of_spent (h : w.Spent s carrier) : w.graph.read s carrier = none := by
  rcases h with ⟨_, hgone⟩ | ⟨value, n, hrecorded, hreferent, _, hgone⟩
  · exact Graph.read_of_recorded_none (Graph.recorded_of_not_isLive hgone)
  · exact Graph.read_of_not_isLive hrecorded hreferent hgone

theorem Spent.of_step (h : w.Spent s carrier) (hstep : w.Step edit w') :
    w'.Spent s carrier := by
  rcases h with ⟨hcreated, hgone⟩ | ⟨value, n, hrecorded, hreferent, hcreated, hgone⟩
  · exact Or.inl ⟨hstep.created_node hcreated, hstep.stays_released hcreated hgone⟩
  · have hcarrier := Graph.created_of_isLive (Graph.isLive_of_recorded hrecorded)
    cases hlive : w'.graph.isLive carrier.node with
    | false =>
        exact Or.inl ⟨hstep.created_node hcarrier, hlive⟩
    | true =>
        refine Or.inr ⟨value, n, ?_, hreferent, hstep.created_node hcreated,
          hstep.stays_released hcreated hgone⟩
        rw [hstep.recorded_eq hlive, hrecorded, Option.some_or]

theorem readings_of_spent (h : w.Spent s carrier) (edits : List Edit) :
    exists after, w.readings s carrier edits = List.replicate after none := by
  induction edits generalizing w with
  | nil =>
      refine ⟨1, ?_⟩
      rw [readings, read_of_spent h]
      rfl
  | cons edit rest ih =>
      rcases ih (h.of_step (step_apply w edit)) with ⟨after, hafter⟩
      refine ⟨after + 1, ?_⟩
      rw [readings, read_of_spent h, hafter]
      rfl

theorem shows_or_spent_of_recorded {value : s.Value}
    (hrecorded : w.graph.recorded s carrier = some value)
    (hcreated : forall n, s.referent value = some n -> w.graph.Created n) :
    w.graph.read s carrier = some value ∨ w.Spent s carrier := by
  rw [Graph.read_eq_some_iff, Graph.isCurrent]
  cases hreferent : s.referent value with
  | none =>
      exact Or.inl ⟨hrecorded, rfl⟩
  | some n =>
      cases htarget : w.graph.isLive n with
      | true =>
          exact Or.inl ⟨hrecorded, htarget⟩
      | false =>
          exact Or.inr (Or.inr ⟨value, n, hrecorded, hreferent, hcreated n hreferent, htarget⟩)

theorem Step.shows_or_spent (h : w.Step edit w') {value : s.Value}
    (hread : w.graph.read s carrier = some value) :
    w'.graph.read s carrier = some value ∨ w'.Spent s carrier := by
  rcases Graph.read_eq_some_iff.mp hread with ⟨hrecorded, hcurrent⟩
  have hcarrier := Graph.created_of_isLive (Graph.isLive_of_recorded hrecorded)
  cases hlive : w'.graph.isLive carrier.node with
  | false =>
      exact Or.inr (Or.inl ⟨h.created_node hcarrier, hlive⟩)
  | true =>
      apply shows_or_spent_of_recorded
      · rw [h.recorded_eq hlive, hrecorded, Option.some_or]
      · intro n hreferent
        rw [Graph.isCurrent, hreferent] at hcurrent
        exact h.created_node (Graph.created_of_isLive hcurrent)

theorem readings_of_read {value : s.Value} (h : w.graph.read s carrier = some value)
    (edits : List Edit) :
    exists during after, w.readings s carrier edits =
      List.replicate during (some value) ++ List.replicate after none := by
  induction edits generalizing w with
  | nil =>
      refine ⟨1, 0, ?_⟩
      rw [readings, h]
      rfl
  | cons edit rest ih =>
      rw [readings, h]
      rcases (step_apply w edit).shows_or_spent h with hshows | hspent
      · rcases ih hshows with ⟨during, after, hrest⟩
        refine ⟨during + 1, after, ?_⟩
        rw [hrest]
        rfl
      · rcases readings_of_spent hspent rest with ⟨after, hrest⟩
        refine ⟨1, after, ?_⟩
        rw [hrest]
        rfl

theorem shows_or_spent_of_call {value : s.Value} (hcall : w.call? s carrier edit = some value)
    (hfree : w.graph.recorded s carrier = none) :
    (w.apply edit).graph.read s carrier = some value ∨ (w.apply edit).Spent s carrier := by
  rcases call?_eq_some_iff.mp hcall with ⟨rfl, hadmits⟩
  rcases admits_link_iff.mp hadmits with ⟨hcarrier, haccepts⟩
  have hgraph : (w.apply (.link s carrier value)).graph =
      w.graph.modify carrier (s.put value) := by
    simp only [apply, link, hcarrier, haccepts, Bool.and_self, if_true, Graph.fill, hfree]
  apply shows_or_spent_of_recorded
  · rw [hgraph]
    exact Graph.recorded_put_self hcarrier value
  · intro n hreferent
    rw [hgraph]
    apply Graph.created_modify
    rcases Graph.accepts_iff.mp haccepts n hreferent with hlive | ⟨_, hcreated⟩
    · exact Graph.created_of_isLive hlive
    · exact hcreated

theorem readings_of_recorded_none (h : w.graph.recorded s carrier = none)
    (edits : List Edit) :
    exists before during after, w.readings s carrier edits =
      List.replicate before none ++
        (List.replicate during (w.calls s carrier edits).head? ++
          List.replicate after none) := by
  induction edits generalizing w with
  | nil =>
      refine ⟨1, 0, 0, ?_⟩
      rw [readings, Graph.read_of_recorded_none h]
      rfl
  | cons edit rest ih =>
      have hstep := step_apply w edit
      rw [readings, Graph.read_of_recorded_none h, head?_calls_cons]
      cases hcall : w.call? s carrier edit with
      | some value =>
          rw [Option.some_or]
          rcases shows_or_spent_of_call hcall h with hshows | hspent
          · rcases readings_of_read hshows rest with ⟨during, after, hrest⟩
            refine ⟨1, during, after, ?_⟩
            rw [hrest]
            rfl
          · rcases readings_of_spent hspent rest with ⟨after, hrest⟩
            refine ⟨1, 0, after, ?_⟩
            rw [hrest]
            rfl
      | none =>
          rw [Option.none_or]
          have hnext : (w.apply edit).graph.recorded s carrier = none := by
            cases hlive : (w.apply edit).graph.isLive carrier.node with
            | false =>
                exact Graph.recorded_of_not_isLive hlive
            | true =>
                rw [hstep.recorded_eq hlive, h, hcall, Option.none_or]
          rcases ih hnext with ⟨before, during, after, hrest⟩
          refine ⟨before + 1, during, after, ?_⟩
          rw [hrest]
          rfl

/-!
## Slots that are written once
-/

theorem link_succeeds_iff {value : s.Value} :
    (w.link s carrier value).1 = true <->
      w.admits (.link s carrier value) = true ∧ w.graph.recorded s carrier = none := by
  rw [admits_link_iff, <- Bool.and_eq_true_iff]
  unfold link
  split
  next h =>
      rw [Option.isNone_iff_eq_none, h, eq_self, true_and]
  next h =>
      constructor
      · intro hfalse
        cases hfalse
      · intro hcall
        exact absurd hcall.left h

theorem WellOwned.isCurrent_of_lasting (h : w.WellOwned) (hlasting : s.lasting = true)
    {value : s.Value} (hrecorded : w.graph.recorded s carrier = some value) :
    w.graph.isCurrent s value = true := by
  cases s with
  | target =>
      rcases Option.bind_eq_some_iff.mp hrecorded with ⟨row, hrow, htarget⟩
      change MemberRefRow.target row = some value at htarget
      apply h.owned_live carrier.node value.node
      rw [Graph.owned_eq hrow, Row.owned, htarget]
      exact List.mem_singleton_self _
  | fieldDefault =>
      rfl
  | paramDefault =>
      rfl
  | _ =>
      cases hlasting

/-- A call can be made for a carrier that lives, with a constant or a row that lives, and for an
accessor slot with a link to any row that was ever made.  Of all calls of a run for a slot only
the first succeeds, its value is all that the slot ever shows, for one stretch of the run,
and a lasting slot shows it for as long as its carrier lives. -/
structure WrittenOnce (edits : List Edit) (s : Slot) (carrier : RowId s.carrier) : Prop where
  callable_iff : forall value, (run {} edits).admits (.link s carrier value) = true <->
    (run {} edits).graph.isLive carrier.node = true ∧
      forall n, s.referent value = some n -> (run {} edits).graph.isLive n = true ∨
        (s.takesLink = true ∧ (run {} edits).graph.Created n)
  succeeds_iff : forall value, ((run {} edits).link s carrier value).1 = true <->
    (run {} edits).admits (.link s carrier value) = true ∧ calls {} s carrier edits = []
  readings : exists before during after, readings {} s carrier edits =
    List.replicate before none ++
      (List.replicate during (calls {} s carrier edits).head? ++ List.replicate after none)
  shows : (run {} edits).graph.isLive carrier.node = true ->
    (run {} edits).graph.read s carrier =
      (calls {} s carrier edits).head?.filter ((run {} edits).graph.isCurrent s)
  lasts : s.lasting = true -> (run {} edits).graph.isLive carrier.node = true ->
    (run {} edits).graph.read s carrier = (calls {} s carrier edits).head?

theorem slots_written_once (edits : List Edit) (s : Slot) (carrier : RowId s.carrier) :
    WrittenOnce edits s carrier where
  callable_iff value := by
    rw [admits_link_iff, Graph.accepts_iff]
  succeeds_iff value := by
    rw [link_succeeds_iff]
    apply and_congr_right
    intro hadmits
    rw [recorded_run_empty (admits_link_iff.mp hadmits).left, List.head?_eq_none_iff]
  readings :=
    readings_of_recorded_none (Graph.recorded_of_not_isLive (isLive_empty carrier.node)) edits
  shows hlive := by
    rw [Graph.read, recorded_run_empty hlive]
  lasts hlasting hlive := by
    rw [<- recorded_run_empty hlive, Graph.read]
    cases hrecorded : (run {} edits).graph.recorded s carrier with
    | none =>
        rfl
    | some value =>
        have hcurrent :=
          (wellOwned_empty.run edits).isCurrent_of_lasting hlasting hrecorded
        rw [Option.filter_some, hcurrent]
        rfl

def lostGetter : List Edit :=
  [.create .property ⟨⟨0x17000001⟩, "Size"⟩, .create .method ⟨⟨0x06000001⟩, "get_Size", {}⟩,
    .create .method ⟨⟨0x06000002⟩, "get_Length", {}⟩, .release ⟨.method, 0⟩]

-- A link to the lost method fills the slot, which shows nothing and takes no other.
example :
    let w := run {} lostGetter
    let filled := w.apply (.link .getter ⟨0⟩ ⟨0⟩)
    (w.link .getter ⟨0⟩ ⟨0⟩).1 = true ∧ filled.graph.read .getter ⟨0⟩ = none ∧
      (filled.link .getter ⟨0⟩ ⟨1⟩).1 = false := by
  decide

end Workspace
end MetadataLabels
