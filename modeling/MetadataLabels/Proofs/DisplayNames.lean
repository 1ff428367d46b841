import Mathlib.Data.Set.Operations
import MetadataLabels.Proofs.NameCuts

/-!
# Displayed names

Displaying a name is a projection: what it shows are exactly the short texts
without control characters, and those it shows as they are.  Cutting may leave a
part of an escape, but every part of one is made of ordinary characters.
-/

namespace MetadataLabels
namespace Name

structure Displayable (text : String) : Prop where
  length_le : text.length ≤ 256
  visible : forall c, c ∈ text.toList -> 0x20 ≤ c.toNat

/-!
## Escaping
-/

theorem visible_escape {c d : Char} (h : d ∈ escape c) : 0x20 ≤ d.toNat := by
  by_cases hspace : c < ' '
  · exact (ascii_of_mem_escape hspace h).left
  · rw [lt_space_iff] at hspace
    have hvisible : 0x20 ≤ c.toNat := Nat.not_lt.mp hspace
    rw [escape_of_visible hvisible, List.mem_singleton] at h
    rwa [h]

theorem visible_escaped {text : List Char} {c : Char} (h : c ∈ escaped text) :
    0x20 ≤ c.toNat := by
  rcases List.mem_flatMap.mp h with ⟨_, _, hescape⟩
  exact visible_escape hescape

theorem escaped_of_visible {text : List Char} (h : forall c, c ∈ text -> 0x20 ≤ c.toNat) :
    escaped text = text := by
  induction text with
  | nil =>
      rfl
  | cons c rest ih =>
      have hrest : escaped rest = rest := ih fun d hd => h d (List.mem_cons_of_mem c hd)
      rw [escaped] at hrest
      rw [escaped, List.flatMap_cons, hrest, escape_of_visible (h c List.mem_cons_self)]
      rfl

/-!
## The projection
-/

theorem displayable_missing : Displayable missing := by
  have hvisible : missing.toList.all (fun c => decide (0x20 ≤ c.toNat)) = true := by
    decide
  constructor
  case length_le =>
    decide
  case visible =>
    intro c hc
    exact of_decide_eq_true (List.all_eq_true.mp hvisible c hc)

theorem displayable_display : forall name, Displayable (display name)
  | none => displayable_missing
  | some name => by
      rw [display_some]
      constructor
      case length_le =>
        rw [String.length_ofList]
        exact List.length_take_le 256 _
      case visible =>
        intro c hc
        rw [String.toList_ofList] at hc
        exact visible_escaped (List.mem_of_mem_take hc)

theorem display_of_displayable {text : String} (h : Displayable text) :
    display (some text) = text := by
  have hshort : text.toList.length ≤ 256 := by
    rw [String.length_toList]
    exact h.length_le
  rw [display_some, escaped_of_visible h.visible, List.take_of_length_le hshort,
    String.ofList_toList]

theorem display_eq_self_iff {text : String} : display (some text) = text <-> Displayable text := by
  constructor
  · intro h
    rw [<- h]
    exact displayable_display (some text)
  · exact display_of_displayable

/-- Displaying shows exactly the displayable texts, changes none of them, and so changes
nothing that it has shown. -/
theorem display_projects :
    Set.range display = {text | Displayable text} ∧
    (forall text, display (some text) = text <-> Displayable text) ∧
    (forall name, display (some (display name)) = display name) := by
  refine ⟨?_, fun _ => display_eq_self_iff, ?_⟩
  · ext text
    constructor
    · intro h
      rcases h with ⟨name, rfl⟩
      exact displayable_display name
    · intro h
      exact ⟨some text, display_of_displayable h⟩
  · intro name
    exact display_of_displayable (displayable_display name)

end Name
end MetadataLabels
