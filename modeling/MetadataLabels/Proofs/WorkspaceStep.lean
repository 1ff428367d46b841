import MetadataLabels.Workspace

/-!
# One edit of a workspace

All that an edit can do, said once: it is refused, it finds its slot filled, it
adds a row, it changes one living row, it stores a type in the registry, or it gives
up a root and releases what the others no longer lead to.  What holds of every step is
proved from these cases.  Here it is the life of a row: an identity is given out once,
a row keeps its declaration, and a released row never comes back.
-/

namespace MetadataLabels

/-!
## Declarations of living rows
-/

namespace Graph

def decl? (g : Graph) {k : Kind} (id : RowId k) : Option (Decl k) :=
  (g.find? id).map (Row.decl k)

theorem decl?_modify (g : Graph) {k k' : Kind} (carrier : RowId k) (f : Row k -> Row k)
    (hf : forall row, Row.decl k (f row) = Row.decl k row) (id : RowId k') :
    (g.modify carrier f).decl? id = g.decl? id := by
  unfold decl?
  by_cases h : id.node = carrier.node
  · have hk : k' = k := congrArg Node.kind h
    subst hk
    rw [RowId.node_inj.mp h, find?_modify_self, Option.map_map]
    congr 1
    funext row
    exact hf row
  · rw [find?_modify_of_ne g carrier f id h]

theorem decl?_fill (g : Graph) (s : Slot) (carrier : RowId s.carrier) (value : s.Value)
    {k : Kind} (id : RowId k) : (g.fill s carrier value).decl? id = g.decl? id := by
  unfold fill
  split
  · rfl
  · exact decl?_modify g carrier (s.put value) (Slot.decl_put s value) id

theorem isLive_of_decl? {g : Graph} {k : Kind} {id : RowId k} {decl : Decl k}
    (h : g.decl? id = some decl) : g.isLive id.node = true := by
  rcases Option.map_eq_some_iff.mp h with ⟨row, hrow, _⟩
  rw [isLive_node, hrow]
  rfl

end Graph

namespace Workspace

/-!
## The cases of a step
-/

/-- The edit can be made: there is what it names, and it can take part in the edit. -/
def admits (w : Workspace) : Edit -> Bool
  | .create _ _ => true
  | .append _ owner member => w.graph.isLive owner.node && w.graph.isLive member.node
  | @Edit.annotate k carrier token source =>
      (w.attributeOf? token source).isSome && (w.graph.isLive carrier.node && k != .memberRef)
  | .link s carrier value => w.graph.isLive carrier.node && w.graph.accepts s value
  | .register type => (w.graph.type? type).isSome
  | .reclaim type => w.retired.contains type
  | .release n => decide (n ∈ w.held)

inductive Step (w : Workspace) : Edit -> Workspace -> Prop
  | refused {edit : Edit} : w.admits edit = false -> Step w edit w
  | filled {s : Slot} {carrier : RowId s.carrier} {value old : s.Value} :
      w.graph.isLive carrier.node = true -> w.graph.accepts s value = true ->
        w.graph.recorded s carrier = some old -> Step w (.link s carrier value) w
  | created (k : Kind) (decl : Decl k) :
      Step w (.create k decl)
        { w with
          graph := w.graph.create k decl
          held := (w.graph.next k).node :: w.held }
  | appended {l : MemberList} {owner : RowId l.owner} {member : RowId l.member} :
      w.graph.isLive owner.node = true -> w.graph.isLive member.node = true ->
        Step w (.append l owner member)
          { w with graph := w.graph.modify owner (l.append member) }
  | annotated {k : Kind} {carrier : RowId k} {token : Token} {source : AttributeSource}
      {a : Attribute} : w.attributeOf? token source = some a ->
        w.graph.isLive carrier.node = true -> k ≠ .memberRef ->
          Step w (.annotate carrier token source)
            { w with graph := w.graph.modify carrier (Row.annotate a k) }
  | linked {s : Slot} {carrier : RowId s.carrier} {value : s.Value} :
      w.graph.isLive carrier.node = true -> w.graph.accepts s value = true ->
        w.graph.recorded s carrier = none ->
          Step w (.link s carrier value)
            { w with graph := w.graph.modify carrier (s.put value) }
  | registered {type : TypeId} {row : TypeRow} : w.graph.type? type = some row ->
      Step w (.register type) (w.store ⟨type, row.token, row.fullName⟩)
  | reclaimed {type : TypeId} : type ∈ w.retired ->
      Step w (.reclaim type) { w with retired := w.retired.erase type }.collect
  | released {n : Node} : n ∈ w.held ->
      Step w (.release n) { w with held := w.held.erase n }.collect

theorem step_append (w : Workspace) (l : MemberList) (owner : RowId l.owner)
    (member : RowId l.member) :
    w.Step (.append l owner member) (w.append l owner member).2 := by
  unfold append
  split
  next h =>
      rcases Bool.and_eq_true_iff.mp h with ⟨howner, hmember⟩
      exact .appended howner hmember
  next h =>
      exact .refused (Bool.eq_false_iff.mpr h)

theorem step_annotate (w : Workspace) {k : Kind} (carrier : RowId k) (token : Token)
    (source : AttributeSource) :
    w.Step (.annotate carrier token source) (w.annotate carrier token source).2 := by
  unfold annotate
  split
  next a hsource =>
      split
      next h =>
          rcases Bool.and_eq_true_iff.mp h with ⟨hcarrier, hkind⟩
          exact .annotated hsource hcarrier (bne_iff_ne.mp hkind)
      next h =>
          apply Step.refused
          rw [admits, hsource, Option.isSome_some, Bool.true_and]
          exact Bool.eq_false_iff.mpr h
  next hsource =>
      apply Step.refused
      rw [admits, hsource]
      rfl

theorem step_link (w : Workspace) (s : Slot) (carrier : RowId s.carrier) (value : s.Value) :
    w.Step (.link s carrier value) (w.link s carrier value).2 := by
  unfold link
  split
  next h =>
      rcases Bool.and_eq_true_iff.mp h with ⟨hcarrier, hvalue⟩
      cases hold : w.graph.recorded s carrier with
      | some old =>
          rw [Graph.fill_of_recorded hold]
          exact .filled hcarrier hvalue hold
      | none =>
          simp only [Graph.fill, hold]
          exact .linked hcarrier hvalue hold
  next h =>
      exact .refused (Bool.eq_false_iff.mpr h)

theorem step_register (w : Workspace) (type : TypeId) :
    w.Step (.register type) (w.register type).2 := by
  unfold register
  split
  next row hrow =>
      exact .registered hrow
  next hrow =>
      apply Step.refused
      rw [admits, hrow]
      rfl

theorem step_reclaim (w : Workspace) (type : TypeId) :
    w.Step (.reclaim type) (w.reclaim type).2 := by
  unfold reclaim
  split
  next h =>
      exact .reclaimed h
  next h =>
      apply Step.refused
      rw [admits, List.contains_eq_mem]
      exact decide_eq_false h

theorem step_release (w : Workspace) (n : Node) :
    w.Step (.release n) (w.release n).2 := by
  unfold release
  split
  next h =>
      exact .released h
  next h =>
      exact .refused (decide_eq_false h)

theorem step_apply (w : Workspace) (edit : Edit) : w.Step edit (w.apply edit) := by
  cases edit with
  | create k decl =>
      exact .created k decl
  | append l owner member =>
      exact step_append w l owner member
  | annotate carrier token source =>
      exact step_annotate w carrier token source
  | link s carrier value =>
      exact step_link w s carrier value
  | register type =>
      exact step_register w type
  | reclaim type =>
      exact step_reclaim w type
  | release n =>
      exact step_release w n

end Workspace

/-!
## Identities that were given out
-/

namespace Graph

theorem exists_row_of_isLive {g : Graph} {k : Kind} {id : RowId k}
    (h : g.isLive id.node = true) : exists row : Row k, g.find? id = some row :=
  Option.isSome_iff_exists.mp h

theorem read_of_not_isLive {g : Graph} {s : Slot} {carrier : RowId s.carrier}
    {value : s.Value} {n : Node} (hrecorded : g.recorded s carrier = some value)
    (hreferent : s.referent value = some n) (h : g.isLive n = false) :
    g.read s carrier = none := by
  have hcurrent : g.isCurrent s value = false := by
    rw [isCurrent, hreferent]
    exact h
  rw [read, hrecorded, Option.filter_some, hcurrent]
  rfl

theorem created_of_isLive {g : Graph} {n : Node} (h : g.isLive n = true) : g.Created n := by
  rcases Option.isSome_iff_exists.mp h with ⟨row, hrow⟩
  exact Table.lt_size_of_get? hrow

/-- What a slot accepts is alive, or the slot takes links and the row was made. -/
theorem accepts_iff {g : Graph} {s : Slot} {value : s.Value} :
    g.accepts s value = true <-> forall n, s.referent value = some n ->
      g.isLive n = true ∨ (s.takesLink = true ∧ g.Created n) := by
  unfold accepts
  cases s.referent value with
  | none =>
      simp
  | some n =>
      cases s.takesLink with
      | true =>
          have hcreated : g.isLive n = true -> g.Created n := created_of_isLive
          simpa using hcreated
      | false =>
          simp

theorem isLive_of_accepts {g : Graph} {s : Slot} {value : s.Value} {n : Node}
    (h : g.accepts s value = true) (htakes : s.takesLink = false)
    (hreferent : s.referent value = some n) : g.isLive n = true := by
  rw [accepts, hreferent, htakes] at h
  exact h

theorem created_create {g : Graph} {n : Node} (h : g.Created n) (k : Kind) (decl : Decl k) :
    (g.create k decl).Created n := by
  unfold Created at h ⊢
  by_cases hk : n.kind = k
  · subst hk
    rw [create, table_setTable, Table.size_push]
    exact Nat.lt_succ_of_lt h
  · rw [create, table_setTable_of_ne g hk]
    exact h

theorem created_modify {g : Graph} {n : Node} (h : g.Created n) {k : Kind} (id : RowId k)
    (f : Row k -> Row k) : (g.modify id f).Created n := by
  unfold Created at h ⊢
  by_cases hk : n.kind = k
  · subst hk
    rw [modify, table_setTable, Table.size_modify]
    exact h
  · rw [modify, table_setTable_of_ne g hk]
    exact h

theorem created_retain {g : Graph} {n : Node} (h : g.Created n) (keep : Node -> Bool) :
    (g.retain keep).Created n := by
  rcases n with ⟨k, index⟩
  unfold Created at h ⊢
  cases k <;> exact Nat.lt_of_lt_of_eq h (Table.size_retain _ _).symm

theorem decl?_retain {g : Graph} {keep : Node -> Bool} {k : Kind} {id : RowId k}
    {decl : Decl k} (h : (g.retain keep).decl? id = some decl) : g.decl? id = some decl := by
  rw [decl?, find?_retain] at h
  split at h
  · exact h
  · cases h

theorem node_ne_next_of_created {g : Graph} {n : Node} (h : g.Created n) (k : Kind) :
    n ≠ (g.next k).node := by
  intro hnode
  subst hnode
  exact Nat.lt_irrefl _ h

theorem decl?_create_of_created (g : Graph) {k : Kind} {id : RowId k} (h : g.Created id.node)
    (k' : Kind) (decl : Decl k') : (g.create k' decl).decl? id = g.decl? id := by
  rw [decl?, find?_create_of_ne g k' decl id (node_ne_next_of_created h k'), decl?]

theorem isLive_iff_decl? {g : Graph} {n : Node} :
    g.isLive n = true <-> exists decl, g.decl? n.id = some decl := by
  rw [<- Option.isSome_iff_exists, decl?, Option.isSome_map]
  rfl

end Graph

namespace Workspace

/-!
## The life of a row
-/

variable {w w' : Workspace} {edit : Edit}

theorem Step.created_node (h : w.Step edit w') {n : Node} (hn : w.graph.Created n) :
    w'.graph.Created n := by
  cases h with
  | refused _ =>
      exact hn
  | filled _ _ _ =>
      exact hn
  | created k decl =>
      exact Graph.created_create hn k decl
  | appended _ _ =>
      exact Graph.created_modify hn _ _
  | annotated _ _ _ =>
      exact Graph.created_modify hn _ _
  | linked _ _ _ =>
      exact Graph.created_modify hn _ _
  | registered _ =>
      exact hn
  | reclaimed _ =>
      exact Graph.created_retain hn _
  | released _ =>
      exact Graph.created_retain hn _

theorem Step.decl?_before (h : w.Step edit w') {k : Kind} {id : RowId k}
    (hid : w.graph.Created id.node) {decl : Decl k} (hdecl : w'.graph.decl? id = some decl) :
    w.graph.decl? id = some decl := by
  cases h with
  | refused _ =>
      exact hdecl
  | filled _ _ _ =>
      exact hdecl
  | created k' decl' =>
      rw [Graph.decl?_create_of_created w.graph hid] at hdecl
      exact hdecl
  | appended _ _ =>
      rw [Graph.decl?_modify w.graph _ _ (MemberList.decl_append _ _)] at hdecl
      exact hdecl
  | annotated _ _ _ =>
      rw [Graph.decl?_modify w.graph _ _ (Row.decl_annotate _ _)] at hdecl
      exact hdecl
  | linked _ _ _ =>
      rw [Graph.decl?_modify w.graph _ _ (Slot.decl_put _ _)] at hdecl
      exact hdecl
  | registered _ =>
      exact hdecl
  | reclaimed _ =>
      exact Graph.decl?_retain hdecl
  | released _ =>
      exact Graph.decl?_retain hdecl

theorem Step.isLive_before (h : w.Step edit w') {n : Node} (hn : w.graph.Created n)
    (hlive : w'.graph.isLive n = true) : w.graph.isLive n = true := by
  have hid : w.graph.Created n.id.node := hn
  rcases Graph.isLive_iff_decl?.mp hlive with ⟨decl, hdecl⟩
  exact Graph.isLive_iff_decl?.mpr ⟨decl, h.decl?_before hid hdecl⟩

theorem Step.stays_released (h : w.Step edit w') {n : Node} (hn : w.graph.Created n)
    (hgone : w.graph.isLive n = false) : w'.graph.isLive n = false := by
  apply Bool.eq_false_iff.mpr
  intro hlive
  rw [h.isLive_before hn hlive] at hgone
  cases hgone

theorem decl?_of_run {k : Kind} {id : RowId k} (hid : w.graph.Created id.node)
    {edits : List Edit} {decl : Decl k} (hdecl : (w.run edits).graph.decl? id = some decl) :
    w.graph.decl? id = some decl := by
  induction edits generalizing w with
  | nil =>
      exact hdecl
  | cons edit rest ih =>
      have hstep := step_apply w edit
      exact hstep.decl?_before hid (ih (hstep.created_node hid) hdecl)

theorem isLive_of_run {n : Node} (hn : w.graph.Created n) {edits : List Edit}
    (hlive : (w.run edits).graph.isLive n = true) : w.graph.isLive n = true := by
  rcases Graph.isLive_iff_decl?.mp hlive with ⟨decl, hdecl⟩
  exact Graph.isLive_iff_decl?.mpr ⟨decl, decl?_of_run hn hdecl⟩

theorem decl?_run_of_isLive {k : Kind} {id : RowId k} (hid : w.graph.Created id.node)
    {edits : List Edit} {decl : Decl k} (hdecl : w.graph.decl? id = some decl)
    (hlive : (w.run edits).graph.isLive id.node = true) :
    (w.run edits).graph.decl? id = some decl := by
  rcases Graph.isLive_iff_decl?.mp hlive with ⟨later, hlater⟩
  have hbefore := decl?_of_run hid hlater
  rw [hdecl] at hbefore
  cases hbefore
  exact hlater

end Workspace
end MetadataLabels
