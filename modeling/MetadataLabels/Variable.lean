import MetadataLabels.Text.Blank
import MetadataLabels.Text.Numeral

/-!
# Variables

The locals and arguments of a decompiled method body, and the names they are
shown under.
-/

namespace MetadataLabels

inductive VariableKind
  | localVariable
  | argument
deriving DecidableEq, Inhabited

structure Variable where
  name : Option String
  slot : Option UInt32
  kind : VariableKind
deriving DecidableEq

namespace Variable

def unknownName : String := "???"

def isLocal (v : Variable) : Bool :=
  v.kind == .localVariable

def slotName (kind : VariableKind) (slot : UInt32) : String :=
  match kind with
  | .localVariable => "V_" ++ Numeral.decimal slot.toNat
  | .argument => "A_" ++ Numeral.decimal slot.toNat

def fallbackName (v : Variable) : String :=
  match v.slot with
  | some slot => slotName v.kind slot
  | none => unknownName

/-- A name that shows something is used as it is, any other variable is named by its slot. -/
def displayName (v : Variable) : String :=
  match v.name with
  | some name => if isBlank name then v.fallbackName else name
  | none => v.fallbackName

end Variable
end MetadataLabels
