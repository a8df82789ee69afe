import Mathlib.Data.List.TakeWhile
import Mathlib.Data.Nat.Digits.Defs
import Mathlib.Tactic.Ring

/-!
# Decimal numerals in ASCII

`decimal n` is the numeral a program prints for `n`, and `value` is what a digit loop reads back.
`value_decimal` is the round trip.  A numeral somebody else wrote may have leading zeros; that is
`IsNumeral`, and `IsNumeral.takeWhile` says that a reader which stops at the first byte that is no
digit stops exactly at its end.
-/

set_option autoImplicit false

namespace Numeral

/-- The ASCII digits `0` to `9`. -/
def isDigit (b : UInt8) : Bool := 48 ≤ b.toNat && b.toNat ≤ 57

/-- The numeral of `n`, most significant digit first and without leading zeros. -/
def decimal (n : ℕ) : List UInt8 := (Nat.toDigits 10 n).map Char.toUInt8

/-- The number a string of digits stands for. -/
def value (ds : List UInt8) : ℕ := ds.foldl (fun v d ↦ 10 * v + (d.toNat - 48)) 0

theorem value_append_singleton (ds : List UInt8) (d : UInt8) :
    value (ds ++ [d]) = 10 * value ds + (d.toNat - 48) := by
  simp [value]

theorem toNat_digitChar {d : ℕ} (hd : d < 10) : (Nat.digitChar d).toUInt8.toNat = 48 + d := by
  revert d; decide

/-- The last digit comes off the end. -/
theorem decimal_eq (n : ℕ) :
    decimal n = (if n < 10 then [] else decimal (n / 10)) ++ [(Nat.digitChar (n % 10)).toUInt8] := by
  rw [decimal, Nat.toDigits_eq_if (by omega)]
  split
  · rename_i hn
    simp [Nat.mod_eq_of_lt hn]
  · simp [decimal]

theorem decimal_ne_nil (n : ℕ) : decimal n ≠ [] := by
  rw [decimal_eq]; simp

theorem isDigit_of_mem_decimal {n : ℕ} {b : UInt8} (hb : b ∈ decimal n) : isDigit b = true := by
  induction n using Nat.strong_induction_on with
  | _ n ih =>
    rw [decimal_eq, List.mem_append, List.mem_singleton] at hb
    rcases hb with hb | rfl
    · split at hb
      · simp at hb
      · exact ih (n / 10) (by omega) hb
    · have h := toNat_digitChar (Nat.mod_lt n (by omega : 0 < 10))
      rw [isDigit, h]
      simp only [Bool.and_eq_true, decide_eq_true_eq]
      omega

/-- **Reading a numeral gives the number back.** -/
theorem value_decimal (n : ℕ) : value (decimal n) = n := by
  induction n using Nat.strong_induction_on with
  | _ n ih =>
    have hd := toNat_digitChar (Nat.mod_lt n (by omega : 0 < 10))
    rw [decimal_eq, value_append_singleton, hd]
    split
    · simp only [value, List.foldl_nil]; omega
    · rw [ih (n / 10) (by omega)]; omega

/-! ## Digit strings -/

/-- Some digits and nothing else, with or without leading zeros. -/
structure IsNumeral (w : List UInt8) : Prop where
  /-- The string is not empty. -/
  ne_nil : w ≠ []
  /-- Every symbol is a digit. -/
  digits : ∀ d ∈ w, isDigit d = true

theorem isNumeral_decimal (n : ℕ) : IsNumeral (decimal n) :=
  ⟨decimal_ne_nil n, fun _ ↦ isDigit_of_mem_decimal⟩

theorem IsNumeral.not_mem {w : List UInt8} (hw : IsNumeral w) {b : UInt8}
    (hb : isDigit b = false) : b ∉ w := fun h ↦ by
  rw [hw.digits b h] at hb; cases hb

/-- A digit loop stops at the end of the numeral. -/
theorem IsNumeral.takeWhile {w v : List UInt8} (hw : IsNumeral w)
    (hv : ∀ b ∈ v.head?, isDigit b = false) : (w ++ v).takeWhile isDigit = w := by
  rw [List.takeWhile_append_of_pos hw.digits]
  cases v with
  | nil => simp
  | cons b v => simp [hv b rfl]

/-- The numeral of `n` with zeros in front, so that there are at least `width` digits. -/
def zeroPadded (width n : ℕ) : List UInt8 := (decimal n).leftpad width 48

theorem not_mem_decimal {n : ℕ} {b : UInt8} (hb : isDigit b = false) : b ∉ decimal n :=
  (isNumeral_decimal n).not_mem hb

end Numeral
