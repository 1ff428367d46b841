import MetadataLabels.Proofs.RegistryLog
import MetadataLabels.Proofs.WorkspaceStep

/-!
# Runs of a workspace

What a run keeps of the registry.  It is the outcome of the log of the registrations
of the run, and the types it holds are alive under the token and the name they were
registered with.
-/

namespace MetadataLabels
namespace Workspace

variable {w w' : Workspace} {edit : Edit}

/-!
## Roots
-/

theorem mem_roots_iff {n : Node} :
    n ∈ w.roots <-> n ∈ w.held ∨ (exists r, r ∈ w.registry.holders ∧ r.type.node = n) ∨
      exists t, t ∈ w.retired ∧ RowId.node t = n := by
  rw [roots, List.mem_append, List.mem_append, List.mem_map, List.mem_map, or_assoc]

theorem mem_roots_of_holder {r : Registration} (h : r ∈ w.registry.holders) :
    r.type.node ∈ w.roots :=
  mem_roots_iff.mpr (Or.inr (Or.inl ⟨r, h, rfl⟩))

theorem decl?_collect_of_root {k : Kind} {id : RowId k} (h : id.node ∈ w.roots) :
    w.collect.graph.decl? id = w.graph.decl? id := by
  have hreach : (w.graph.reach w.roots).contains id.node = true :=
    List.contains_iff_mem.mpr (Graph.mem_reach_of_root h)
  rw [Graph.decl?, collect, Graph.find?_retain, if_pos hreach, Graph.decl?]

theorem run_append (w : Workspace) (first second : List Edit) :
    w.run (first ++ second) = (w.run first).run second :=
  List.foldl_append

/-!
## The log of a run
-/

def registered (w : Workspace) : Edit -> List Registration
  | .register type =>
      ((w.graph.type? type).map fun row => ⟨type, row.token, row.fullName⟩).toList
  | _ => []

def registrations (w : Workspace) : List Edit -> List Registration
  | [] => []
  | edit :: rest => w.registered edit ++ (w.apply edit).registrations rest

theorem registered_of_refused (h : w.admits edit = false) : w.registered edit = [] := by
  cases edit with
  | register type =>
      have hnone : w.graph.type? type = none :=
        Option.isNone_iff_eq_none.mp (Option.isSome_eq_false_iff.mp h)
      rw [registered, hnone]
      rfl
  | _ =>
      rfl

theorem Step.registry_eq (h : w.Step edit w') :
    w'.registry = (w.registered edit).foldl Registry.insert w.registry := by
  cases h with
  | refused hrefused =>
      rw [registered_of_refused hrefused]
      rfl
  | registered hrow =>
      rw [Workspace.registered, hrow]
      rfl
  | _ =>
      rfl

theorem registry_run (w : Workspace) (edits : List Edit) :
    (w.run edits).registry = (w.registrations edits).foldl Registry.insert w.registry := by
  induction edits generalizing w with
  | nil =>
      rfl
  | cons edit rest ih =>
      rw [registrations, List.foldl_append, <- (step_apply w edit).registry_eq]
      exact ih (w.apply edit)

theorem registry_run_empty (edits : List Edit) :
    (run {} edits).registry = Registry.ofLog (registrations {} edits) :=
  registry_run {} edits

/-!
## Holders are current
-/

/-- A registered type is alive, under the token and the name it was registered with. -/
def RegistryCurrent (w : Workspace) : Prop :=
  forall r, r ∈ w.registry.holders ->
    exists decl, w.graph.decl? r.type = some decl ∧
      decl.token = r.token ∧ decl.fullName = r.fullName

theorem RegistryCurrent.of_decl?_eq (h : w.RegistryCurrent) (hreg : w'.registry = w.registry)
    (hdecl : forall r, r ∈ w.registry.holders ->
      w'.graph.decl? r.type = w.graph.decl? r.type) : w'.RegistryCurrent := by
  intro r hr
  rw [hreg] at hr
  rw [hdecl r hr]
  exact h r hr

theorem RegistryCurrent.modify (h : w.RegistryCurrent) {k : Kind} (id : RowId k)
    {f : Row k -> Row k} (hf : forall row, Row.decl k (f row) = Row.decl k row) :
    RegistryCurrent { w with graph := w.graph.modify id f } :=
  h.of_decl?_eq rfl fun r _ => Graph.decl?_modify w.graph id f hf r.type

theorem RegistryCurrent.collect (h : w.RegistryCurrent) : w.collect.RegistryCurrent :=
  h.of_decl?_eq rfl fun _ hr => decl?_collect_of_root (mem_roots_of_holder hr)

theorem RegistryCurrent.of_step (h : w.RegistryCurrent) (hstep : w.Step edit w') :
    w'.RegistryCurrent := by
  cases hstep with
  | refused _ =>
      exact h
  | filled _ _ _ =>
      exact h
  | created k decl =>
      refine h.of_decl?_eq rfl ?_
      intro r hr
      rcases h r hr with ⟨_, hdecl, _⟩
      have hcreated := Graph.created_of_isLive (Graph.isLive_of_decl? hdecl)
      exact Graph.decl?_create_of_created w.graph hcreated k decl
  | appended _ _ =>
      exact h.modify _ (MemberList.decl_append _ _)
  | annotated _ _ _ =>
      exact h.modify _ (Row.decl_annotate _ _)
  | linked _ _ _ =>
      exact h.modify _ (Slot.decl_put _ _)
  | @registered type row hrow =>
      intro r hr
      rcases List.mem_cons.mp hr with rfl | hold
      · refine ⟨row.toTypeDecl, ?_, rfl, rfl⟩
        exact congrArg (Option.map (Row.decl .type)) hrow
      · exact h r (List.mem_of_mem_filter hold)
  | @reclaimed type _ =>
      exact RegistryCurrent.collect (w := { w with retired := w.retired.erase type }) h
  | @released n _ =>
      exact RegistryCurrent.collect (w := { w with held := w.held.erase n }) h

theorem registryCurrent_run (h : w.RegistryCurrent) (edits : List Edit) :
    (w.run edits).RegistryCurrent := by
  induction edits generalizing w with
  | nil =>
      exact h
  | cons edit rest ih =>
      exact ih (h.of_step (step_apply w edit))

theorem registryCurrent_empty : RegistryCurrent {} := by
  intro r hr
  cases hr

end Workspace
end MetadataLabels
