import MetadataLabels.Text.Numeral

/-!
# Metadata tokens

A token names one row of one metadata table: the table number is its high byte,
the row number its low three bytes.  Tokens are ordered by value, which is the
order of table first and row second.
-/

namespace MetadataLabels

structure Token where
  value : UInt32
deriving DecidableEq, Inhabited

namespace Token

/-! ## Parts -/

def typeDefTable : UInt8 := 0x02

def table (t : Token) : UInt8 :=
  (t.value / 0x1000000).toUInt8

def row (t : Token) : UInt32 :=
  t.value % 0x1000000

/-- Only the low three bytes of `row` are used, so a large row never reaches the table. -/
def ofParts (table : UInt8) (row : UInt32) : Token :=
  ⟨table.toUInt32 * 0x1000000 + row % 0x1000000⟩

def isNull (t : Token) : Bool :=
  t.value == 0

def isTypeDef (t : Token) : Bool :=
  t.table == typeDefTable

/-! ## Order -/

def le (a b : Token) : Bool :=
  a.value ≤ b.value

def sort (tokens : List Token) : List Token :=
  tokens.mergeSort le

/-! ## Texts -/

def text (t : Token) : String :=
  "0x" ++ Numeral.paddedHex 8 t.value.toNat

def describe (t : Token) : String :=
  "Token(" ++ t.text ++ ", table: 0x" ++ Numeral.paddedHex 2 t.table.toNat ++
    ", row: " ++ Numeral.decimal t.row.toNat ++ ")"

end Token
end MetadataLabels
