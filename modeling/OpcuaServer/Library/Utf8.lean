import Mathlib.Data.List.Basic
import Mathlib.Tactic.Common

/-!
# UTF-8

`Utf8.encode cs` is the UTF-8 encoding of a list of Unicode scalar values. No encoding of a
scalar value is a proper prefix of another, so `encode` is injective (`encode_injective`).

Any byte list can be read as a text: `Repairs b cs` replaces each byte of `b` at which no encoding
starts, and nothing else.
-/

namespace Utf8

/-- The UTF-8 encoding of a list of scalar values. -/
def encode (cs : List Char) : List UInt8 :=
  cs.flatMap String.utf8EncodeChar

/-- A byte string that is the encoding of a list of scalar values. -/
def IsUtf8 (b : List UInt8) : Prop :=
  ∃ cs, b = encode cs

@[simp]
theorem encode_nil :
  encode [] = []
  := rfl

@[simp]
theorem encode_cons (c : Char) (cs : List Char) :
  encode (c :: cs) = String.utf8EncodeChar c ++ encode cs
  := rfl

@[simp]
theorem encode_append (cs ds : List Char) :
  encode (cs ++ ds) = encode cs ++ encode ds
  := List.flatMap_append

theorem IsUtf8.append {a b : List UInt8} (ha : IsUtf8 a) (hb : IsUtf8 b) :
  IsUtf8 (a ++ b)
  := by
  obtain ⟨cs, rfl⟩ := ha
  obtain ⟨ds, rfl⟩ := hb
  use cs ++ ds
  rw [encode_append]

theorem isUtf8_utf8EncodeChar (c : Char) :
  IsUtf8 (String.utf8EncodeChar c)
  := by
  use [c]
  rw [encode_cons, encode_nil, List.append_nil]

/-- ASCII is UTF-8. -/
theorem isUtf8_of_lt {b : List UInt8} (h : ∀ x ∈ b, x < 0x80) :
  IsUtf8 b
  := by
  have hencode : ∀ n < 128, String.utf8EncodeChar (Char.ofNat n) = [UInt8.ofNat n] := by
    decide +kernel
  use b.map fun x => Char.ofNat x.toNat
  induction b with
  | nil => rfl
  | cons x b ih =>
    have hx := h x List.mem_cons_self
    have ih := ih fun y hy => h y (List.mem_cons_of_mem x hy)
    rw [List.map_cons, encode_cons, hencode x.toNat hx, UInt8.ofNat_toNat, ← ih]
    rfl

/-- The scalar value at the front of a byte list is determined by the bytes. -/
theorem utf8EncodeChar_append_inj {c d : Char} {r s : List UInt8}
    (h : String.utf8EncodeChar c ++ r = String.utf8EncodeChar d ++ s) :
  c = d ∧ r = s
  := by
  have hc := ByteArray.utf8DecodeChar?_utf8EncodeChar_append (c := c) (b := r.toByteArray)
  have hd := ByteArray.utf8DecodeChar?_utf8EncodeChar_append (c := d) (b := s.toByteArray)
  rw [← List.toByteArray_append, h, List.toByteArray_append] at hc
  obtain rfl := Option.some.inj (hc.symm.trans hd)
  use rfl, List.append_cancel_left h

/-- Two lists of scalar values with the same encoding are equal. -/
theorem encode_injective :
  Function.Injective encode
  := by
  intro cs
  induction cs with
  | nil =>
    intro ds h
    cases ds with
    | nil => rfl
    | cons d ds =>
      symm at h
      simp only [encode_cons, encode_nil, List.append_eq_nil_iff] at h
      apply absurd h.1 String.utf8EncodeChar_ne_nil
  | cons c cs ih =>
    intro ds h
    cases ds with
    | nil =>
      simp only [encode_cons, encode_nil, List.append_eq_nil_iff] at h
      apply absurd h.1 String.utf8EncodeChar_ne_nil
    | cons d ds =>
      obtain ⟨rfl, htail⟩ := utf8EncodeChar_append_inj h
      rw [ih htail]

/-! ### The bytes of a scalar value -/

theorem utf8EncodeChar_one {c : Char} (h : c.toNat < 0x80) :
  String.utf8EncodeChar c = [UInt8.ofNat c.toNat]
  := if_pos (Nat.le_of_lt_succ h)

theorem utf8EncodeChar_two {c : Char} (h₁ : 0x80 ≤ c.toNat) (h₂ : c.toNat < 0x800) :
  String.utf8EncodeChar c
    = [UInt8.ofNat (c.toNat / 64 % 32 + 192), UInt8.ofNat (c.toNat % 64 + 128)]
  := by
  simp only [Char.toNat] at h₁ h₂
  simp only [String.utf8EncodeChar, Char.toNat]
  rw [if_neg (by omega), if_pos (by omega)]

theorem utf8EncodeChar_three {c : Char} (h₁ : 0x800 ≤ c.toNat) (h₂ : c.toNat < 0x10000) :
  String.utf8EncodeChar c
    = [UInt8.ofNat (c.toNat / 4096 % 16 + 224), UInt8.ofNat (c.toNat / 64 % 64 + 128),
        UInt8.ofNat (c.toNat % 64 + 128)]
  := by
  simp only [Char.toNat] at h₁ h₂
  simp only [String.utf8EncodeChar, Char.toNat]
  rw [if_neg (by omega), if_neg (by omega), if_pos (by omega)]

theorem utf8EncodeChar_four {c : Char} (h : 0x10000 ≤ c.toNat) :
  String.utf8EncodeChar c
    = [UInt8.ofNat (c.toNat / 262144 % 8 + 240), UInt8.ofNat (c.toNat / 4096 % 64 + 128),
        UInt8.ofNat (c.toNat / 64 % 64 + 128), UInt8.ofNat (c.toNat % 64 + 128)]
  := by
  simp only [Char.toNat] at h
  simp only [String.utf8EncodeChar, Char.toNat]
  rw [if_neg (by omega), if_neg (by omega), if_neg (by omega)]

/-- A scalar value is at most `0x10FFFF` and no surrogate. -/
theorem toNat_range (c : Char) :
  c.toNat < 0xD800 ∨ 0xDFFF < c.toNat ∧ c.toNat < 0x110000
  := c.valid

/-- The byte 0 encodes the character NUL only. -/
theorem zero_mem_utf8EncodeChar {c : Char} :
  0 ∈ String.utf8EncodeChar c ↔ c = '\x00'
  := by
  have hne : ∀ {n : ℕ}, n ≠ 0 → n < 256 → (0 : UInt8) ≠ UInt8.ofNat n := by
    intro n hn hlt h
    have hzero := congrArg UInt8.toNat h
    rw [UInt8.toNat_ofNat', UInt8.toNat_zero] at hzero
    omega
  constructor
  · intro hmem
    by_contra hc
    have hpos : c.toNat ≠ 0 := by
      intro hzero
      apply hc (Char.toNat_inj.mp hzero)
    have hrange := toNat_range c
    revert hmem
    rcases Nat.lt_or_ge c.toNat 0x80 with h₁ | h₁
    · rw [utf8EncodeChar_one h₁, List.mem_singleton]
      apply hne hpos (by omega)
    rcases Nat.lt_or_ge c.toNat 0x800 with h₂ | h₂
    · rw [utf8EncodeChar_two h₁ h₂]
      simp only [List.mem_cons, List.not_mem_nil, or_false]
      rintro (h | h) <;> apply hne (by omega) (by omega) h
    rcases Nat.lt_or_ge c.toNat 0x10000 with h₃ | h₃
    · rw [utf8EncodeChar_three h₂ h₃]
      simp only [List.mem_cons, List.not_mem_nil, or_false]
      rintro (h | h | h) <;> apply hne (by omega) (by omega) h
    · rw [utf8EncodeChar_four h₃]
      simp only [List.mem_cons, List.not_mem_nil, or_false]
      rintro (h | h | h | h) <;> apply hne (by omega) (by omega) h
  · rintro rfl
    decide

/-- A text encodes no NUL if none of its bytes is 0. -/
theorem zero_mem_encode {cs : List Char} :
  0 ∈ encode cs ↔ '\x00' ∈ cs
  := by
  rw [encode, List.mem_flatMap]
  constructor
  · rintro ⟨c, hc, hzero⟩
    rw [← zero_mem_utf8EncodeChar.mp hzero]
    apply hc
  · intro hmem
    use '\x00', hmem
    decide

/-! ### Repair -/

/-- Read from left to right, a byte list is a text in which the replacement character U+FFFD stands
for each byte at which no encoding of a scalar value starts. -/
inductive Repairs : List UInt8 → List Char → Prop where
  | nil : Repairs [] []
  | char {b : List UInt8} {c : Char} {cs : List Char} :
      Repairs b cs → Repairs (String.utf8EncodeChar c ++ b) (c :: cs)
  | replaced {x : UInt8} {b : List UInt8} {cs : List Char} :
      (∀ c rest, x :: b ≠ String.utf8EncodeChar c ++ rest) → Repairs b cs →
      Repairs (x :: b) ('\uFFFD' :: cs)

/-- A text needs no repair. -/
theorem Repairs.encode :
  ∀ cs : List Char, Repairs (encode cs) cs
  | [] => .nil
  | _ :: cs => .char (Repairs.encode cs)

/-- Every byte list can be repaired. -/
theorem exists_repairs (b : List UInt8) :
  ∃ cs, Repairs b cs
  := by
  induction hn : b.length using Nat.strongRecOn generalizing b with
  | ind n ih =>
    cases b with
    | nil => exact ⟨[], .nil⟩
    | cons x b =>
      by_cases hstart : ∃ c rest, x :: b = String.utf8EncodeChar c ++ rest
      · obtain ⟨c, rest, hc⟩ := hstart
        have hpos := List.length_pos_iff.mpr (String.utf8EncodeChar_ne_nil (c := c))
        have hlength := congrArg List.length hc
        rw [List.length_append] at hlength
        obtain ⟨cs, hcs⟩ := ih rest.length (by omega) rest rfl
        rw [hc]
        exact ⟨c :: cs, .char hcs⟩
      · obtain ⟨cs, hcs⟩ := ih b.length (by rw [← hn]; exact Nat.lt_succ_self _) b rfl
        refine ⟨'\uFFFD' :: cs, .replaced ?_ hcs⟩
        intro c rest hc
        apply hstart ⟨c, rest, hc⟩

/-- There is only one repair. -/
theorem Repairs.unique {b : List UInt8} {cs cs' : List Char} (h : Repairs b cs)
    (h' : Repairs b cs') :
  cs = cs'
  := by
  induction h generalizing cs' with
  | nil =>
    generalize hb : ([] : List UInt8) = b at h'
    cases h' with
    | nil => rfl
    | char => apply absurd (List.append_eq_nil_iff.mp hb.symm).1 String.utf8EncodeChar_ne_nil
    | replaced => cases hb
  | @char b c cs _ ih =>
    generalize hb : String.utf8EncodeChar c ++ b = b' at h'
    cases h' with
    | nil => apply absurd (List.append_eq_nil_iff.mp hb).1 String.utf8EncodeChar_ne_nil
    | char h' =>
      obtain ⟨rfl, rfl⟩ := utf8EncodeChar_append_inj hb
      rw [ih h']
    | replaced hno => apply absurd hb.symm (hno c b)
  | @replaced x b cs hno _ ih =>
    generalize hb : x :: b = b' at h'
    cases h' with
    | nil => cases hb
    | @char b' d => apply absurd hb (hno d b')
    | replaced _ h' =>
      obtain ⟨rfl, rfl⟩ := List.cons.inj hb
      rw [ih h']

/-- A repair adds no NUL. -/
theorem Repairs.nul_not_mem {b : List UInt8} {cs : List Char} (h : Repairs b cs) (hb : 0 ∉ b) :
  '\x00' ∉ cs
  := by
  induction h with
  | nil => exact List.not_mem_nil
  | @char b c cs _ ih =>
    rw [List.mem_append, not_or] at hb
    rw [List.mem_cons, not_or]
    constructor
    · rintro rfl
      apply hb.1 (zero_mem_utf8EncodeChar.mpr rfl)
    · apply ih hb.2
  | replaced _ _ ih =>
    rw [List.mem_cons, not_or] at hb ⊢
    exact ⟨by decide, ih hb.2⟩

/-- The number of a scalar value determines it. -/
theorem toNat_ofNat {n : ℕ} (h : n.isValidChar) :
  (Char.ofNat n).toNat = n
  := by
  rw [Char.ofNat, dif_pos h]
  rfl

end Utf8
