import Mathlib.Algebra.Group.Int.Defs
import MetadataLabels.Proofs.DigitGroups
import MetadataLabels.Proofs.DigitReading

/-!
# Reading literals back

An integer literal determines the integer: without its separators it is read back in the
base of its style.  Base ten writes a sign and a magnitude, base sixteen the bit pattern
of the two's complement, and both come down to how a magnitude is written.
-/

namespace MetadataLabels

/-!
## Separators and signs
-/

theorem Digits.group_minus (size : Nat) (text : List Char) :
    group size ('-' :: text) = '-' :: group size text := by
  cases text with
  | nil =>
      rfl
  | cons c rest =>
      rw [group, group, groupAfter, if_neg fun h => h.right rfl]

theorem groupedNumber_minus (separators : Bool) (number : String) (size : Nat) :
    groupedNumber separators "" ("-" ++ number) size =
      "-" ++ groupedNumber separators "" number size := by
  cases separators with
  | false =>
      simp [groupedNumber]
  | true =>
      have hsign : ("-" ++ number).toList = '-' :: number.toList := by
        simp
      apply String.toList_injective
      simp [groupedNumber, hsign, Digits.group_minus]

theorem filter_groupedNumber {number : String} (h : '_' ∉ number.toList) (separators : Bool)
    (lead : String) (size : Nat) :
    (groupedNumber separators lead number size).toList.filter (· ≠ '_') =
      lead.toList.filter (· ≠ '_') ++ number.toList := by
  cases separators with
  | false =>
      rw [groupedNumber, if_neg Bool.false_ne_true, String.toList_append, List.filter_append,
        Digits.filter_of_not_mem h]
  | true =>
      rw [groupedNumber, if_pos rfl, String.toList_append, String.toList_ofList,
        List.filter_append, Digits.filter_group_of_not_mem h]

namespace LiteralStyle

def decimal? : List Char -> Option Int
  | '-' :: magnitude => (Numeral.number? 10 magnitude).map fun n => -(n : Int)
  | magnitude => (Numeral.number? 10 magnitude).map fun n => (n : Int)

def hexadecimal? : List Char -> Option Int
  | '0' :: 'x' :: digits => (Numeral.number? 16 digits).map fun n => (n : Int)
  | _ => none

/-- The integer that a literal of the style writes.  Separators count for nothing. -/
def read? (style : LiteralStyle) (literal : String) : Option Int :=
  let text := literal.toList.filter (· ≠ '_')
  if style.hexadecimal then hexadecimal? text else decimal? text

/-- Every literal is read back, the two renderings of an integer agree, and no two integers are
written alike. -/
structure ReadsBack (style : LiteralStyle) : Prop where
  unsigned : forall u : UInt64, style.read? (style.unsigned u) = some (u.toNat : Int)
  decimal : style.hexadecimal = false -> forall v : Int64,
    style.read? (style.signed v) = some v.toInt
  pattern : style.hexadecimal = true -> forall v : Int64,
    style.read? (style.signed v) = some (v.toInt % 2 ^ 64) ∧
      style.signed v = style.unsigned (UInt64.ofNat (v.toInt % 2 ^ 64).toNat)
  nonnegative : style.hexadecimal = false -> forall v : Int64, 0 ≤ v.toInt ->
    style.signed v = style.unsigned (UInt64.ofNat v.toInt.toNat)
  negative : style.hexadecimal = false -> forall v : Int64, v.toInt < 0 ->
    style.signed v = "-" ++ style.unsigned (UInt64.ofNat v.toInt.natAbs)
  injective_unsigned : Function.Injective style.unsigned
  injective_signed : Function.Injective style.signed

variable {style : LiteralStyle}

/-!
## Base sixteen
-/

theorem filter_hexLiteral (style : LiteralStyle) (n : Nat) :
    (style.hexLiteral n).toList.filter (· ≠ '_') =
      '0' :: 'x' :: Numeral.upper (Numeral.hexDigits n) := by
  have hlead : hexLead.toList.filter (· ≠ '_') = ['0', 'x'] := by
    decide
  rw [hexLiteral, filter_groupedNumber, hlead, Numeral.upperHex, String.toList_ofList]
  · rfl
  · rw [Numeral.upperHex, String.toList_ofList]
    exact Numeral.not_mem_of_number? (Numeral.number?_upper_hexDigits n) (by decide)

theorem read?_hexLiteral (h : style.hexadecimal = true) (n : Nat) :
    style.read? (style.hexLiteral n) = some (n : Int) := by
  rw [read?, filter_hexLiteral, if_pos h, hexadecimal?, Numeral.number?_upper_hexDigits]
  rfl

theorem unsigned_of_hexadecimal (h : style.hexadecimal = true) (u : UInt64) :
    style.unsigned u = style.hexLiteral u.toNat :=
  if_pos h

theorem signed_of_hexadecimal (h : style.hexadecimal = true) (v : Int64) :
    style.signed v = style.hexLiteral v.toUInt64.toNat :=
  if_pos h

theorem toNat_toUInt64 (v : Int64) : (v.toUInt64.toNat : Int) = v.toInt % 2 ^ 64 := by
  have hlt : (v.toBitVec.toNat : Int) < 2 ^ 64 := by
    exact_mod_cast v.toBitVec.isLt
  have hint : v.toInt = Int.bmod v.toBitVec.toNat (2 ^ 64) := BitVec.toInt_eq_toNat_bmod v.toBitVec
  have hmod : v.toInt % 2 ^ 64 = v.toBitVec.toNat % 2 ^ 64 := by
    rw [hint]
    exact Int.bmod_emod
  rw [hmod, Int.emod_eq_of_lt (Int.natCast_nonneg _) hlt]
  rfl

theorem ofNat_toNat_emod (v : Int64) : UInt64.ofNat (v.toInt % 2 ^ 64).toNat = v.toUInt64 := by
  rw [<- toNat_toUInt64, Int.toNat_natCast, UInt64.ofNat_toNat]

/-!
## Base ten
-/

theorem signed_natCast (n : Nat) : Numeral.signed n = Numeral.decimal n :=
  rfl

theorem filter_decimalLiteral (style : LiteralStyle) (n : Nat) :
    (style.decimalLiteral n).toList.filter (· ≠ '_') = Numeral.decimalDigits n := by
  rw [decimalLiteral, signed_natCast, filter_groupedNumber, String.toList_empty, List.filter_nil,
    List.nil_append, Numeral.decimal, String.toList_ofList]
  · rw [Numeral.decimal, String.toList_ofList]
    exact Numeral.not_mem_of_number? (Numeral.number?_decimalDigits n) (by decide)

theorem decimal?_of_number? {text : List Char} {n : Nat} (h : Numeral.number? 10 text = some n) :
    decimal? text = some (n : Int) := by
  unfold decimal?
  split
  next magnitude =>
      exact absurd List.mem_cons_self (Numeral.not_mem_of_number? h (by decide))
  next =>
      rw [h]
      rfl

theorem read?_decimalLiteral (h : style.hexadecimal = false) (n : Nat) :
    style.read? (style.decimalLiteral n) = some (n : Int) := by
  rw [read?, filter_decimalLiteral, if_neg (ne_true_of_eq_false h)]
  exact decimal?_of_number? (Numeral.number?_decimalDigits n)

theorem read?_minus_decimalLiteral (h : style.hexadecimal = false) (n : Nat) :
    style.read? ("-" ++ style.decimalLiteral n) = some (-(n : Int)) := by
  have hsign : ("-" ++ style.decimalLiteral n).toList.filter (· ≠ '_') =
      '-' :: Numeral.decimalDigits n := by
    rw [String.toList_append, List.filter_append, filter_decimalLiteral]
    rfl
  rw [read?, hsign, if_neg (ne_true_of_eq_false h), decimal?, Numeral.number?_decimalDigits]
  rfl

theorem decimalLiteral_neg (style : LiteralStyle) {n : Nat} (hn : 0 < n) :
    style.decimalLiteral (-(n : Int)) = "-" ++ style.decimalLiteral n := by
  rcases Nat.exists_eq_succ_of_ne_zero (Nat.ne_of_gt hn) with ⟨m, rfl⟩
  exact groupedNumber_minus style.separators (Numeral.decimal (m + 1)) decimalGroup

theorem unsigned_of_decimal (h : style.hexadecimal = false) (u : UInt64) :
    style.unsigned u = style.decimalLiteral u.toNat :=
  if_neg (ne_true_of_eq_false h)

theorem signed_of_decimal (h : style.hexadecimal = false) (v : Int64) :
    style.signed v = style.decimalLiteral v.toInt :=
  if_neg (ne_true_of_eq_false h)

theorem natAbs_toInt_lt (v : Int64) : v.toInt.natAbs < UInt64.size := by
  have hmin := v.le_toInt
  have hmax := v.toInt_lt
  rw [UInt64.size]
  omega

theorem signed_of_nonneg (h : style.hexadecimal = false) {v : Int64} (hv : 0 ≤ v.toInt) :
    style.signed v = style.unsigned (UInt64.ofNat v.toInt.toNat) := by
  have hlt : v.toInt.toNat < UInt64.size := by
    have hsize := natAbs_toInt_lt v
    omega
  rw [signed_of_decimal h, unsigned_of_decimal h, UInt64.toNat_ofNat_of_lt' hlt,
    Int.toNat_of_nonneg hv]

theorem signed_of_neg (h : style.hexadecimal = false) {v : Int64} (hv : v.toInt < 0) :
    style.signed v = "-" ++ style.unsigned (UInt64.ofNat v.toInt.natAbs) := by
  have hpos : 0 < v.toInt.natAbs := Int.natAbs_pos.mpr (Int.ne_of_lt hv)
  rw [signed_of_decimal h, unsigned_of_decimal h, UInt64.toNat_ofNat_of_lt' (natAbs_toInt_lt v),
    <- decimalLiteral_neg style hpos, Int.ofNat_natAbs_of_nonpos (Int.le_of_lt hv), Int.neg_neg]

/-!
## Both bases
-/

theorem read?_unsigned (style : LiteralStyle) (u : UInt64) :
    style.read? (style.unsigned u) = some (u.toNat : Int) := by
  cases h : style.hexadecimal with
  | true =>
      rw [unsigned_of_hexadecimal h, read?_hexLiteral h]
  | false =>
      rw [unsigned_of_decimal h, read?_decimalLiteral h]

theorem read?_signed_of_hexadecimal (h : style.hexadecimal = true) (v : Int64) :
    style.read? (style.signed v) = some (v.toInt % 2 ^ 64) := by
  rw [signed_of_hexadecimal h, read?_hexLiteral h, toNat_toUInt64]

theorem read?_signed_of_decimal (h : style.hexadecimal = false) (v : Int64) :
    style.read? (style.signed v) = some v.toInt := by
  rcases Int.lt_or_le v.toInt 0 with hneg | hnonneg
  · rw [signed_of_neg h hneg, unsigned_of_decimal h, read?_minus_decimalLiteral h,
      UInt64.toNat_ofNat_of_lt' (natAbs_toInt_lt v),
      Int.ofNat_natAbs_of_nonpos (Int.le_of_lt hneg), Int.neg_neg]
  · rw [signed_of_decimal h, <- Int.toNat_of_nonneg hnonneg, read?_decimalLiteral h]

theorem injective_unsigned (style : LiteralStyle) : Function.Injective style.unsigned := by
  intro u u' heq
  have hread := read?_unsigned style u
  rw [heq, read?_unsigned, Option.some.injEq, Int.natCast_inj] at hread
  exact UInt64.toNat_inj.mp hread.symm

theorem injective_signed (style : LiteralStyle) : Function.Injective style.signed := by
  intro v v' heq
  cases h : style.hexadecimal with
  | true =>
      have hread := read?_signed_of_hexadecimal h v
      rw [heq, read?_signed_of_hexadecimal h, Option.some.injEq, <- toNat_toUInt64,
        <- toNat_toUInt64, Int.natCast_inj] at hread
      have hpattern : v.toUInt64 = v'.toUInt64 := UInt64.toNat_inj.mp hread.symm
      rw [<- v.toInt64_toUInt64, hpattern, v'.toInt64_toUInt64]
  | false =>
      have hread := read?_signed_of_decimal h v
      rw [heq, read?_signed_of_decimal h, Option.some.injEq] at hread
      exact Int64.toInt_inj.mp hread.symm

theorem literals_read_back (style : LiteralStyle) : style.ReadsBack where
  unsigned := read?_unsigned style
  decimal := read?_signed_of_decimal
  pattern h v := by
    refine ⟨read?_signed_of_hexadecimal h v, ?_⟩
    rw [ofNat_toNat_emod, signed_of_hexadecimal h, unsigned_of_hexadecimal h]
  nonnegative h _ := signed_of_nonneg h
  negative h _ := signed_of_neg h
  injective_unsigned := injective_unsigned style
  injective_signed := injective_signed style

-- The least integer is one that has no positive counterpart.
example : LiteralStyle.signed ⟨true, false⟩ Int64.minValue = "-9_223_372_036_854_775_808" := by
  decide +kernel

end LiteralStyle
end MetadataLabels
