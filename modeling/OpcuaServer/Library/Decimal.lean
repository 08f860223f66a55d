import Mathlib.Data.Nat.Digits.Lemmas

/-!
# Decimal numerals

`numeral n` is the decimal numeral of a natural number in ASCII, without leading zeros, and
`integer n` that of an integer, with a minus sign where it is negative. `value ds` is the number
a list of digits denotes, leading zeros allowed. The numerals are exactly the lists of digits
without a leading zero (`numeral_value`).
-/

namespace Decimal

/-- An ASCII digit. -/
def IsDigit (b : UInt8) : Prop :=
  0x30 ≤ b ∧ b ≤ 0x39

instance (b : UInt8) : Decidable (IsDigit b) :=
  inferInstanceAs (Decidable (_ ∧ _))

/-- The number an ASCII digit denotes. -/
def digitValue (b : UInt8) : ℕ :=
  b.toNat - 0x30

/-- The digit denoting a number below ten. -/
def digit (d : ℕ) : UInt8 :=
  UInt8.ofNat (0x30 + d)

/-- The number a list of digits denotes, the most significant digit first. -/
def value (ds : List UInt8) : ℕ :=
  Nat.ofDigits 10 (ds.reverse.map digitValue)

/-- The decimal numeral of `n`. -/
def numeral (n : ℕ) : List UInt8 :=
  if n = 0 then [0x30] else (Nat.digits 10 n).reverse.map digit

/-- The decimal numeral of an integer. -/
def integer (n : ℤ) : List UInt8 :=
  if n < 0 then 0x2D :: numeral n.natAbs else numeral n.natAbs

/-- The digits `0`, or digits of which the first is not `0`. -/
def IsInt (ds : List UInt8) : Prop :=
  ds = [0x30] ∨ ∃ d rest, ds = d :: rest ∧ IsDigit d ∧ d ≠ 0x30 ∧ ∀ b ∈ rest, IsDigit b

theorem IsInt.ne_nil {ds : List UInt8} (h : IsInt ds) :
  ds ≠ []
  := by
  rcases h with rfl | ⟨d, rest, rfl, -⟩ <;> apply List.cons_ne_nil

theorem IsInt.isDigit {ds : List UInt8} (h : IsInt ds) :
  ∀ d ∈ ds, IsDigit d
  := by
  rintro b hb
  rcases h with rfl | ⟨d, rest, rfl, hd, -, hrest⟩
  · obtain rfl := List.mem_singleton.mp hb
    decide
  · rcases List.mem_cons.mp hb with rfl | hb
    · apply hd
    · apply hrest b hb

theorem IsInt.isDigit_head {ds rest : List UInt8} (h : IsInt ds) {d : UInt8}
    (hd : d ∈ (ds ++ rest).head?) :
  IsDigit d
  := by
  cases ds with
  | nil => cases h.ne_nil rfl
  | cons b ds =>
    cases hd
    apply h.isDigit _ List.mem_cons_self

theorem isDigit_iff {b : UInt8} :
  IsDigit b ↔ 0x30 ≤ b.toNat ∧ b.toNat ≤ 0x39
  := by
  rw [IsDigit, UInt8.le_iff_toNat_le, UInt8.le_iff_toNat_le]
  rfl

theorem toNat_digit {d : ℕ} (h : d < 10) :
  (digit d).toNat = 0x30 + d
  := by
  rw [digit, UInt8.toNat_ofNat']
  omega

theorem isDigit_digit {d : ℕ} (h : d < 10) :
  IsDigit (digit d)
  := by
  rw [isDigit_iff, toNat_digit h]
  omega

theorem digitValue_digit {d : ℕ} (h : d < 10) :
  digitValue (digit d) = d
  := by
  rw [digitValue, toNat_digit h]
  omega

theorem digitValue_lt {b : UInt8} (h : IsDigit b) :
  digitValue b < 10
  := by
  rw [isDigit_iff] at h
  rw [digitValue]
  omega

theorem digit_digitValue {b : UInt8} (h : IsDigit b) :
  digit (digitValue b) = b
  := by
  apply UInt8.toNat_inj.mp
  rw [toNat_digit (digitValue_lt h), digitValue]
  rw [isDigit_iff] at h
  omega

/-- A digit denotes zero only if it is the digit `0`. -/
theorem digitValue_eq_zero {b : UInt8} (h : IsDigit b) (hb : digitValue b = 0) :
  b = 0x30
  := by
  rw [← digit_digitValue h, hb]
  rfl

/-- A numeral consists of digits. -/
theorem isDigit_of_mem_numeral {n : ℕ} :
  ∀ b ∈ numeral n, IsDigit b
  := by
  intro b hb
  rw [numeral] at hb
  split at hb
  · obtain rfl := List.mem_singleton.mp hb
    decide
  · obtain ⟨d, hd, rfl⟩ := List.mem_map.mp hb
    apply isDigit_digit
    apply Nat.digits_lt_base (by decide) (List.mem_reverse.mp hd)

/-- The numeral of `n` denotes `n`. -/
theorem value_numeral (n : ℕ) :
  value (numeral n) = n
  := by
  rw [value, numeral]
  split
  · next h =>
    subst h
    rfl
  · rw [← List.map_reverse, List.reverse_reverse, List.map_map]
    have h : List.map (digitValue ∘ digit) (Nat.digits 10 n) = Nat.digits 10 n := by
      rw [List.map_congr_left, List.map_id]
      intro d hd
      apply digitValue_digit
      apply Nat.digits_lt_base (by decide) hd
    rw [h]
    apply Nat.ofDigits_digits

/-- Digits without a leading zero are the numeral of the number they denote. -/
theorem numeral_value {ds : List UInt8} (h : IsInt ds) :
  numeral (value ds) = ds
  := by
  rcases h with rfl | ⟨d, rest, rfl, hd, hne, hrest⟩
  · rfl
  · have hdigit : ∀ b ∈ d :: rest, IsDigit b := by
      intro b hb
      rcases List.mem_cons.mp hb with rfl | hb
      · apply hd
      · apply hrest b hb
    have hdigits : Nat.digits 10 (value (d :: rest)) = (d :: rest).reverse.map digitValue := by
      apply Nat.digits_ofDigits 10 (by decide)
      · intro l hl
        obtain ⟨b, hb, rfl⟩ := List.mem_map.mp hl
        apply digitValue_lt (hdigit b (List.mem_reverse.mp hb))
      · intro hnil
        simp only [List.map_reverse, List.map_cons, List.getLast_reverse, List.head_cons]
        intro hzero
        apply hne (digitValue_eq_zero hd hzero)
    have hpos : value (d :: rest) ≠ 0 := by
      intro hzero
      rw [hzero, Nat.digits_zero] at hdigits
      symm at hdigits
      simp at hdigits
    rw [numeral, if_neg hpos, hdigits, ← List.map_reverse, List.reverse_reverse, List.map_map,
      List.map_congr_left, List.map_id]
    intro b hb
    apply digit_digitValue (hdigit b hb)

/-- A numeral has no leading zero. -/
theorem isInt_numeral (n : ℕ) :
  IsInt (numeral n)
  := by
  by_cases hn : n = 0
  · subst hn
    left
    rfl
  · right
    have hdigits := isDigit_of_mem_numeral (n := n)
    have hnum : numeral n = (Nat.digits 10 n).reverse.map digit := if_neg hn
    have hne : Nat.digits 10 n ≠ [] := Nat.digits_ne_nil_iff_ne_zero.mpr hn
    obtain ⟨l, d, hld⟩ := (List.eq_nil_or_concat (Nat.digits 10 n)).resolve_left hne
    have hlast : d ≠ 0 := by
      have := Nat.getLast_digit_ne_zero 10 hn
      simpa [hld] using this
    have hlt : d < 10 := Nat.digits_lt_base (b := 10) (m := n) (by decide) (by simp [hld])
    rw [hld] at hnum
    simp only [List.concat_eq_append, List.reverse_append, List.reverse_cons, List.reverse_nil,
      List.nil_append, List.cons_append, List.map_cons] at hnum
    use digit d, l.reverse.map digit, hnum, isDigit_digit hlt
    constructor
    · intro hzero
      apply hlast
      rw [← digitValue_digit hlt, hzero]
      rfl
    · intro b hb
      apply hdigits b
      rw [hnum]
      apply List.mem_cons_of_mem _ hb

theorem numeral_ne_nil (n : ℕ) :
  numeral n ≠ []
  := by
  rcases isInt_numeral n with h | ⟨d, rest, h, -⟩ <;> simp [h]

end Decimal
