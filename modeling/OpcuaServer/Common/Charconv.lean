import OpcuaServer.Common.Result
import OpcuaServer.Library.Decimal
import Mathlib.Data.List.TakeWhile

/-!
# Printing and parsing of `int`

`stdToString` and `stdFromChars` are `std::to_string` and `std::from_chars` of the standard
library at the type `int` of 32 bits. A printed number is read back with nothing left over
(`stdFromChars_stdToString`), and a decimal numeral is read exactly when its value is in the
range of `int` (`stdFromChars_numeral`).
-/

namespace OpcuaServer

/-- `std::to_string(int)`. -/
def stdToString (n : Int32) : Bytes :=
  Decimal.integer n.toInt

/-- The value of the range of `int` that an integer is, if it is one. -/
def toInt32 (n : ℤ) : Option Int32 :=
  if -2 ^ 31 ≤ n ∧ n < 2 ^ 31 then some (Int32.ofInt n) else none

/-- The sign that `std::from_chars` reads and the text after it. -/
def takeMinus : Bytes → Bool × Bytes
  | 0x2D :: rest => (true, rest)
  | text => (false, text)

/-- `std::from_chars(first, last, value)` for an `int`: the value read and the text from `ptr`
on, where `ec` is `std::errc()`. -/
def stdFromChars (text : Bytes) : Option (Int32 × Bytes) :=
  let (negative, rest) := takeMinus text
  let digits := rest.takeWhile (Decimal.IsDigit ·)
  if digits = [] then none
  else
    let magnitude : ℤ := Decimal.value digits
    (toInt32 (if negative then -magnitude else magnitude)).map
      fun value => (value, rest.dropWhile (Decimal.IsDigit ·))

@[simp]
theorem toInt32_toInt (n : Int32) :
  toInt32 n.toInt = some n
  := by
  have h₁ := n.le_toInt
  have h₂ := n.toInt_lt
  rw [toInt32, if_pos ⟨h₁, h₂⟩, Int32.ofInt_toInt]

theorem toInt32_eq_some {n : ℤ} {value : Int32} :
  toInt32 n = some value ↔ value.toInt = n
  := by
  constructor
  · intro h
    rw [toInt32] at h
    split at h
    · next hn =>
      rw [← Option.some.inj h, Int32.toInt_ofInt_of_le hn.1 hn.2]
    · cases h
  · rintro rfl
    apply toInt32_toInt

/-- The sign and the digits of an integer are read completely. -/
theorem stdFromChars_numeral (negative : Bool) {digits : Bytes} (hne : digits ≠ [])
    (hdigits : ∀ d ∈ digits, Decimal.IsDigit d) :
  stdFromChars ((if negative then [0x2D] else []) ++ digits)
    = (toInt32 (if negative then -(Decimal.value digits : ℤ) else Decimal.value digits)).map
        fun value => (value, [])
  := by
  have htake : takeMinus ((if negative then [0x2D] else []) ++ digits) = (negative, digits) := by
    cases negative with
    | true => rfl
    | false =>
      cases digits with
      | nil => rfl
      | cons d ds =>
        have hd := hdigits d List.mem_cons_self
        simp only [Bool.false_eq_true, if_false, List.nil_append]
        rw [takeMinus]
        rintro _ ⟨⟩
        revert hd
        decide
  rw [stdFromChars, htake]
  have hall : ∀ d ∈ digits, decide (Decimal.IsDigit d) = true := by
    simpa using hdigits
  simp only [List.takeWhile_eq_self_iff.mpr hall, List.dropWhile_eq_nil_iff.mpr hall, if_neg hne]

/-- A printed number is read back. -/
theorem stdFromChars_stdToString (n : Int32) :
  stdFromChars (stdToString n) = some (n, [])
  := by
  have h := stdFromChars_numeral (decide (n.toInt < 0)) (Decimal.numeral_ne_nil n.toInt.natAbs)
    Decimal.isDigit_of_mem_numeral
  rw [Decimal.value_numeral] at h
  have hvalue : (if decide (n.toInt < 0) then -(n.toInt.natAbs : ℤ) else n.toInt.natAbs) = n.toInt
    := by
    simp only [decide_eq_true_eq]
    split <;> omega
  rw [hvalue, toInt32_toInt] at h
  rw [stdToString, Decimal.integer]
  split
  · next hneg => simpa [hneg] using h
  · next hneg => simpa [hneg] using h

example : stdFromChars (ascii "007x") = some (7, ascii "x") := by decide

end OpcuaServer
