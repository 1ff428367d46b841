/-!
# Numerals

Natural numbers and integers written in base ten and base sixteen.  Digits are
produced most significant first; only `padded` writes leading zeros.
-/

namespace MetadataLabels
namespace Numeral

/-! ## Digits -/

def decimalDigits (n : Nat) : List Char :=
  Nat.toDigits 10 n

def hexDigits (n : Nat) : List Char :=
  Nat.toDigits 16 n

/-- The lowest `width` hexadecimal digits of `n`, leading zeros included. -/
def padded : Nat -> Nat -> List Char
  | 0, _ => []
  | width + 1, n => padded width (n / 16) ++ [Nat.digitChar (n % 16)]

def upper (digits : List Char) : List Char :=
  digits.map Char.toUpper

/-! ## Texts -/

def decimal (n : Nat) : String :=
  String.ofList (decimalDigits n)

def signed : Int -> String
  | .ofNat n => decimal n
  | .negSucc n => "-" ++ decimal (n + 1)

def upperHex (n : Nat) : String :=
  String.ofList (upper (hexDigits n))

def paddedHex (width n : Nat) : String :=
  String.ofList (padded width n)

/-! ## Length -/

theorem length_padded (width n : Nat) : (padded width n).length = width := by
  induction width generalizing n with
  | zero =>
      rfl
  | succ width ih =>
      simp [padded, ih]

end Numeral
end MetadataLabels
