import Mathlib.Data.List.DropRight
import MetadataLabels.Proofs.DigitReading
import MetadataLabels.Variable

/-!
# Names of variables

Every variable is shown under a name that can be seen.  A name of white space alone counts
for nothing, whatever white space it is: such a variable is named by its kind and its slot,
and the names made of different kinds or slots are different.
-/

namespace MetadataLabels

/-!
## Blank texts

A text is blank if trimming leaves nothing of it, for one and the same class of white
space.
-/

def trimmed (text : String) : String :=
  String.ofList ((text.toList.dropWhile isWhiteSpace).rdropWhile isWhiteSpace)

variable {text : String} {c : Char}

theorem isBlank_iff : isBlank text = true <-> forall c, c ∈ text.toList -> isWhiteSpace c = true :=
  List.all_eq_true

theorem isBlank_iff_trimmed : isBlank text = true <-> trimmed text = "" := by
  rw [isBlank_iff, trimmed, String.ofList_eq_empty_iff, List.rdropWhile_eq_nil_iff]
  constructor
  · intro h c hc
    exact h c ((List.dropWhile_suffix isWhiteSpace).subset hc)
  · intro h c hc
    rw [<- List.takeWhile_append_dropWhile (p := isWhiteSpace) (l := text.toList)] at hc
    rcases List.mem_append.mp hc with hfront | hback
    · exact List.mem_takeWhile_imp hfront
    · exact h c hback

theorem isBlank_of_trimmed (h : trimmed text ≠ "") : isBlank text = false := by
  rw [<- Bool.not_eq_true, isBlank_iff_trimmed]
  exact h

theorem trimmed_of_mem (hc : c ∈ text.toList) (hvisible : isWhiteSpace c = false) :
    trimmed text ≠ "" := by
  rw [Ne, <- isBlank_iff_trimmed, isBlank_iff]
  intro h
  rw [h c hc] at hvisible
  cases hvisible

namespace Variable

/-- Without a name, or with a name of white space alone. -/
def Unnamed (v : Variable) : Prop :=
  forall name, v.name = some name -> trimmed name = ""

/-- How a variable is shown: never as a blank text, by its own name if that is not blank, and
otherwise so that different kinds and slots show. -/
structure ShownApart (v : Variable) : Prop where
  visible : trimmed v.displayName ≠ ""
  named : forall name, v.name = some name -> trimmed name ≠ "" -> v.displayName = name
  slots : v.Unnamed -> v.slot.isSome = true -> forall w : Variable, w.Unnamed ->
    w.slot.isSome = true -> (v.displayName = w.displayName <-> v.kind = w.kind ∧ v.slot = w.slot)
  unknown : v.Unnamed -> v.slot = none -> v.displayName = "???"

variable {v : Variable} {name : String}

/-!
## Names of slots
-/

def letter : VariableKind -> Char
  | .localVariable => 'V'
  | .argument => 'A'

theorem letter_injective : Function.Injective letter := by
  intro kind kind' h
  cases kind <;> cases kind' <;> simp_all [letter]

theorem toList_slotName (kind : VariableKind) (slot : UInt32) :
    (slotName kind slot).toList = letter kind :: '_' :: Numeral.decimalDigits slot.toNat := by
  cases kind <;> simp [slotName, letter, Numeral.decimal]

theorem mem_slotName (kind : VariableKind) (slot : UInt32) : '_' ∈ (slotName kind slot).toList := by
  rw [toList_slotName]
  exact List.mem_cons_of_mem _ List.mem_cons_self

theorem slotName_inj {kind kind' : VariableKind} {slot slot' : UInt32} :
    slotName kind slot = slotName kind' slot' <-> kind = kind' ∧ slot = slot' := by
  constructor
  · intro h
    have hlist := congrArg String.toList h
    rw [toList_slotName, toList_slotName, List.cons.injEq, List.cons.injEq] at hlist
    rcases hlist with ⟨hletter, _, hdigits⟩
    exact ⟨letter_injective hletter,
      UInt32.toNat_inj.mp (Numeral.decimalDigits_injective hdigits)⟩
  · rintro ⟨rfl, rfl⟩
    rfl

/-!
## Displayed names
-/

theorem displayName_of_visible (hname : v.name = some name) (h : trimmed name ≠ "") :
    v.displayName = name := by
  rw [displayName, hname]
  simp only [isBlank_of_trimmed h, Bool.false_eq_true, if_false]

theorem displayName_of_unnamed (h : v.Unnamed) : v.displayName = v.fallbackName := by
  rw [displayName]
  split
  next name hname =>
      rw [if_pos (isBlank_iff_trimmed.mpr (h name hname))]
  next =>
      rfl

theorem unnamed_or_visible (v : Variable) :
    v.Unnamed ∨ exists name, v.name = some name ∧ trimmed name ≠ "" := by
  cases hname : v.name with
  | none =>
      refine Or.inl fun name h => ?_
      rw [hname] at h
      cases h
  | some name =>
      rcases Decidable.em (trimmed name = "") with hblank | hvisible
      · refine Or.inl fun other h => ?_
        rw [hname, Option.some.injEq] at h
        rwa [<- h]
      · exact Or.inr ⟨name, rfl, hvisible⟩

theorem fallbackName_of_slot {slot : UInt32} (h : v.slot = some slot) :
    v.fallbackName = slotName v.kind slot := by
  rw [fallbackName, h]

theorem trimmed_fallbackName (v : Variable) : trimmed v.fallbackName ≠ "" := by
  rw [fallbackName]
  split
  next slot _ =>
      exact trimmed_of_mem (mem_slotName v.kind slot) (by decide)
  next =>
      have hmem : '?' ∈ unknownName.toList := by
        decide
      exact trimmed_of_mem hmem (by decide)

theorem displayName_visible (v : Variable) : trimmed v.displayName ≠ "" := by
  rcases v.unnamed_or_visible with h | ⟨name, hname, h⟩
  · rw [displayName_of_unnamed h]
    exact v.trimmed_fallbackName
  · rw [displayName_of_visible hname h]
    exact h

theorem displayName_inj {w : Variable} (hv : v.Unnamed) (hw : w.Unnamed)
    (hslot : v.slot.isSome = true) (hslot' : w.slot.isSome = true) :
    v.displayName = w.displayName <-> v.kind = w.kind ∧ v.slot = w.slot := by
  rcases Option.isSome_iff_exists.mp hslot with ⟨slot, hslot⟩
  rcases Option.isSome_iff_exists.mp hslot' with ⟨slot', hslot'⟩
  rw [displayName_of_unnamed hv, displayName_of_unnamed hw, fallbackName_of_slot hslot,
    fallbackName_of_slot hslot', slotName_inj, hslot, hslot', Option.some.injEq]

theorem variables_shown_apart (v : Variable) : v.ShownApart where
  visible := displayName_visible v
  named _ hname := displayName_of_visible hname
  slots hv hslot _ hw hslot' := displayName_inj hv hw hslot hslot'
  unknown h hslot := by
    rw [displayName_of_unnamed h, fallbackName, hslot]
    rfl

-- An ideographic space and a line separator are white space outside ASCII.
example : Variable.displayName ⟨some "\u3000\u2028", some 4294967295, .argument⟩ =
    "A_4294967295" := by
  decide +kernel

end Variable
end MetadataLabels
