import Mathlib.Algebra.Group.Nat.Defs
import MetadataLabels.Text.Numeral

/-!
# Reading digits back

A text of digits is read by position, the most significant digit first.  In either
base, and with or without leading zeros, what is written is read back; so different
numbers are never written alike.
-/

namespace MetadataLabels
namespace Numeral

def digits : List Char :=
  ['0', '1', '2', '3', '4', '5', '6', '7', '8', '9', 'A', 'B', 'C', 'D', 'E', 'F']

def digit? (base : Nat) (c : Char) : Option Nat :=
  (digits.take base).idxOf? c

def appendDigit? (base n : Nat) (c : Char) : Option Nat :=
  (digit? base c).map fun d => base * n + d

/-- The number that a text of digits writes.  No digits write no number. -/
def number? (base : Nat) (text : List Char) : Option Nat :=
  if text = [] then none else text.foldlM (appendDigit? base) 0

variable {base n : Nat} {text : List Char} {c : Char}

/-!
## Reading
-/

theorem number?_of_ne_nil (h : text ≠ []) :
    number? base text = text.foldlM (appendDigit? base) 0 :=
  if_neg h

theorem number?_singleton (base : Nat) (c : Char) : number? base [c] = digit? base c := by
  rw [number?_of_ne_nil (List.cons_ne_nil c []), List.foldlM_cons, appendDigit?]
  cases digit? base c <;> simp

theorem number?_append_singleton (h : text ≠ []) (c : Char) :
    number? base (text ++ [c]) = (number? base text).bind fun n => appendDigit? base n c := by
  rw [number?_of_ne_nil h, number?_of_ne_nil (List.append_ne_nil_of_left_ne_nil h [c]),
    List.foldlM_append]
  simp

theorem digit?_of_not_mem (h : c ∉ digits) (base : Nat) : digit? base c = none := by
  rw [digit?, List.idxOf?_eq_none_iff]
  intro hc
  exact h (List.mem_of_mem_take hc)

theorem isSome_digit?_of_foldlM {start : Nat}
    (h : (text.foldlM (appendDigit? base) start).isSome = true) (hc : c ∈ text) :
    (digit? base c).isSome = true := by
  induction text generalizing start with
  | nil =>
      cases hc
  | cons d rest ih =>
      rw [List.foldlM_cons] at h
      cases hd : digit? base d with
      | none =>
          simp [appendDigit?, hd] at h
      | some value =>
          rcases List.mem_cons.mp hc with rfl | hrest
          · rw [hd]
            rfl
          · apply ih _ hrest
            · exact base * start + value
            · simpa [appendDigit?, hd] using h

theorem mem_digits_of_number? (h : number? base text = some n) (hc : c ∈ text) : c ∈ digits := by
  rw [number?_of_ne_nil (List.ne_nil_of_mem hc)] at h
  have hdigit := isSome_digit?_of_foldlM (Option.isSome_iff_exists.mpr ⟨n, h⟩) hc
  apply Decidable.by_contra
  intro hnot
  rw [digit?_of_not_mem hnot] at hdigit
  cases hdigit

theorem not_mem_of_number? (h : number? base text = some n) (hc : c ∉ digits) : c ∉ text :=
  fun hmem => hc (mem_digits_of_number? h hmem)

/-!
## Reading what was written

The induction is on the number of digits: the last digit is the remainder by the base,
and those before it write the quotient.
-/

theorem number?_toDigits (letter : Char -> Char) (hbase : 1 < base)
    (hletter : forall d, d < base -> digit? base (letter (Nat.digitChar d)) = some d) (n : Nat) :
    number? base ((Nat.toDigits base n).map letter) = some n := by
  induction n using Nat.strongRecOn with
  | ind n ih =>
      rw [Nat.toDigits_eq_if hbase]
      split
      next hlt =>
          rw [List.map_singleton, number?_singleton, hletter n hlt]
      next hle =>
          have hpos : 0 < n := by omega
          have hne : (Nat.toDigits base (n / base)).map letter ≠ [] := by
            rw [Ne, List.map_eq_nil_iff]
            exact Nat.toDigits_ne_nil
          have hlast := hletter (n % base) (Nat.mod_lt n (Nat.zero_lt_of_lt hbase))
          rw [List.map_append, List.map_singleton, number?_append_singleton hne,
            ih (n / base) (Nat.div_lt_self hpos hbase), Option.bind_some, appendDigit?, hlast,
            Option.map_some, Nat.div_add_mod]

theorem digit?_digitChar : forall d, d < 10 -> digit? 10 (Nat.digitChar d) = some d := by
  decide

theorem digit?_toUpper_digitChar :
    forall d, d < 16 -> digit? 16 (Nat.digitChar d).toUpper = some d := by
  decide

theorem number?_decimalDigits (n : Nat) : number? 10 (decimalDigits n) = some n := by
  have h := number?_toDigits id (by decide) digit?_digitChar n
  rwa [List.map_id] at h

theorem decimalDigits_injective : Function.Injective decimalDigits := by
  intro m n h
  have hread := number?_decimalDigits m
  rw [h, number?_decimalDigits, Option.some.injEq] at hread
  exact hread.symm

theorem number?_upper_hexDigits (n : Nat) : number? 16 (upper (hexDigits n)) = some n :=
  number?_toDigits Char.toUpper (by decide) digit?_toUpper_digitChar n

theorem number?_upper_padded (width n : Nat) :
    number? 16 (upper (padded (width + 1) n)) = some (n % 16 ^ (width + 1)) := by
  induction width generalizing n with
  | zero =>
      rw [Nat.zero_add, Nat.pow_one]
      exact (number?_singleton 16 _).trans
        (digit?_toUpper_digitChar (n % 16) (Nat.mod_lt n (by decide)))
  | succ width ih =>
      have hlast := digit?_toUpper_digitChar (n % 16) (Nat.mod_lt n (by decide))
      have hne : upper (padded (width + 1) (n / 16)) ≠ [] := by
        apply List.ne_nil_of_length_pos
        rw [upper, List.length_map, length_padded]
        exact Nat.succ_pos width
      have hsplit : upper (padded (width + 2) n) =
          upper (padded (width + 1) (n / 16)) ++ [(Nat.digitChar (n % 16)).toUpper] :=
        List.map_append
      rw [hsplit, number?_append_singleton hne, ih, Option.bind_some, appendDigit?, hlast,
        Option.map_some, Nat.pow_succ 16 (width + 1), Nat.mul_comm _ 16, Nat.mod_mul, Nat.add_comm]

/-!
## The leading digit
-/

theorem head?_toDigits_of_base_le (hbase : 1 < base) (h : base ≤ n) :
    (Nat.toDigits base n).head? = (Nat.toDigits base (n / base)).head? := by
  rw [Nat.toDigits_of_base_le hbase h, List.head?_append,
    List.head?_eq_some_head Nat.toDigits_ne_nil, Option.some_or]

theorem head?_decimalDigits_ne_zero (hn : 0 < n) : (decimalDigits n).head? ≠ some '0' := by
  induction n using Nat.strongRecOn with
  | ind n ih =>
      rw [decimalDigits]
      rcases Nat.lt_or_ge n 10 with hlt | hle
      · rw [Nat.toDigits_of_lt_base hlt, List.head?_cons, Ne, Option.some.injEq,
          Nat.digitChar_eq_zero]
        exact Nat.ne_of_gt hn
      · rw [head?_toDigits_of_base_le (by decide) hle]
        exact ih (n / 10) (Nat.div_lt_self hn (by decide)) (Nat.div_pos hle (by decide))

end Numeral
end MetadataLabels
