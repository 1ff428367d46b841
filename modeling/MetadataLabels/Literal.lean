import MetadataLabels.Text.Numeral

/-!
# Numeric literals

Integer literals in base ten or sixteen, optionally with digit separators.
Digits are grouped from the right, as in `1_000_000` and `0xDEAD_BEEF`; a
separator never stands directly after a minus sign.
-/

namespace MetadataLabels

/-! ## Grouping -/

namespace Digits

def separator : Char := '_'

/-- A separator belongs in front of a character exactly when the characters from there to the
end fill whole groups. -/
def groupAfter (size : Nat) : Char -> List Char -> List Char
  | _, [] => []
  | previous, c :: rest =>
      if (rest.length + 1) % size = 0 ∧ previous ≠ '-' then
        separator :: c :: groupAfter size c rest
      else
        c :: groupAfter size c rest

/-- Groups of `size` characters, counted from the right.  A size of zero, or one that the text
does not exceed, inserts nothing. -/
def group (size : Nat) : List Char -> List Char
  | [] => []
  | c :: rest => c :: groupAfter size c rest

theorem groupAfter_zero (previous : Char) (text : List Char) :
    groupAfter 0 previous text = text := by
  induction text generalizing previous with
  | nil =>
      rfl
  | cons c rest ih =>
      simp [groupAfter, ih]

theorem groupAfter_of_length_lt {size : Nat} {text : List Char} (h : text.length < size)
    (previous : Char) : groupAfter size previous text = text := by
  induction text generalizing previous with
  | nil =>
      rfl
  | cons c rest ih =>
      have hlt : rest.length + 1 < size := by simpa using h
      have hne : (rest.length + 1) % size ≠ 0 := by
        rw [Nat.mod_eq_of_lt hlt]
        omega
      simp [groupAfter, hne, ih (by omega)]

end Digits

def groupedNumber (separators : Bool) (lead number : String) (size : Nat) : String :=
  if separators then
    lead ++ String.ofList (Digits.group size number.toList)
  else
    lead ++ number

/-! ## Styles -/

structure LiteralStyle where
  separators : Bool := false
  hexadecimal : Bool := false
deriving DecidableEq, Inhabited

namespace LiteralStyle

def hexGroup : Nat := 4
def decimalGroup : Nat := 3
def hexLead : String := "0x"

def hexLiteral (style : LiteralStyle) (n : Nat) : String :=
  groupedNumber style.separators hexLead (Numeral.upperHex n) hexGroup

def decimalLiteral (style : LiteralStyle) (n : Int) : String :=
  groupedNumber style.separators "" (Numeral.signed n) decimalGroup

def unsigned (style : LiteralStyle) (value : UInt64) : String :=
  if style.hexadecimal then
    style.hexLiteral value.toNat
  else
    style.decimalLiteral value.toNat

/-- In base sixteen a signed integer shows the bit pattern of its two's complement. -/
def signed (style : LiteralStyle) (value : Int64) : String :=
  if style.hexadecimal then
    style.hexLiteral value.toUInt64.toNat
  else
    style.decimalLiteral value.toInt

end LiteralStyle

/-! ## Special floating point values -/

def nanName : String := "NaN"
def positiveInfinityName : String := "Infinity"
def negativeInfinityName : String := "-Infinity"

def specialFloatName (value : Float) : Option String :=
  if value.isNaN then some nanName
  else if value.isInf then
    some (if value < 0 then negativeInfinityName else positiveInfinityName)
  else none

end MetadataLabels
