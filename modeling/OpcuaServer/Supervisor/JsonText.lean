import OpcuaServer.Common.Charconv
import OpcuaServer.Library.JsonCompact

/-!
# Characters and strings of JSON texts

The functions of the API server on single characters and on strings: the classification of
bytes, the UTF-8 encoder and validator, and the escaping of strings.

The encoder writes the UTF-8 encoding of a scalar value (`appendCodePoint_toNat`), the
validator accepts exactly the encodings of the scalar values from `0x80` on
(`validUtf8SequenceLength_encode`, `exists_char_of_validUtf8SequenceLength`), and a well-formed
string is escaped to the shortest forms of its characters (`escapeJsonString_encode`). What any
other string is escaped to denotes its repair (`chars_escapeJsonString`).
-/

namespace OpcuaServer

/-- `kMaxConfigJsonBytes`. -/
def kMaxConfigJsonBytes : ℕ := 64 * 1024

/-- `kConfigFieldCount`. -/
def kConfigFieldCount : ℕ := 13

/-- `IsJsonWhitespace`. -/
def isJsonWhitespace (ch : UInt8) : Bool :=
  ch == 0x20 || ch == 0x09 || ch == 0x0A || ch == 0x0D

/-- `HexDigit`: the number a hexadecimal digit denotes, `-1` for every other byte. -/
def hexDigit (ch : UInt8) : ℤ :=
  if 0x30 ≤ ch ∧ ch ≤ 0x39 then ch.toNat - 0x30
  else if 0x61 ≤ ch ∧ ch ≤ 0x66 then ch.toNat - 0x61 + 10
  else if 0x41 ≤ ch ∧ ch ≤ 0x46 then ch.toNat - 0x41 + 10
  else -1

/-- `AppendCodePoint`. -/
def appendCodePoint (codePoint : ℕ) (output : Bytes) : Bytes :=
  if codePoint ≤ 0x7F then
    output ++ [UInt8.ofNat codePoint]
  else if codePoint ≤ 0x7FF then
    output ++ [UInt8.ofNat (0xC0 ||| codePoint >>> 6), UInt8.ofNat (0x80 ||| codePoint &&& 0x3F)]
  else if codePoint ≤ 0xFFFF then
    output ++ [UInt8.ofNat (0xE0 ||| codePoint >>> 12),
      UInt8.ofNat (0x80 ||| codePoint >>> 6 &&& 0x3F), UInt8.ofNat (0x80 ||| codePoint &&& 0x3F)]
  else
    output ++ [UInt8.ofNat (0xF0 ||| codePoint >>> 18),
      UInt8.ofNat (0x80 ||| codePoint >>> 12 &&& 0x3F),
      UInt8.ofNat (0x80 ||| codePoint >>> 6 &&& 0x3F), UInt8.ofNat (0x80 ||| codePoint &&& 0x3F)]

/-- The loop of `validUtf8SequenceLength` over the bytes `offset`, …, `offset + count - 1` of the
sequence: the code point, or `some none` where a byte is no continuation byte. A read outside
of the input is `none`. -/
def decodeTail (input : Bytes) (position : ℕ) : ℕ → ℕ → ℕ → Option (Option ℕ)
  | 0, _, codePoint => some (some codePoint)
  | count + 1, offset, codePoint =>
      match input[position + offset]? with
      | none => none
      | some next =>
          if next.toNat &&& 0xC0 ≠ 0x80 then some none
          else decodeTail input position count (offset + 1)
            (codePoint <<< 6 ||| next.toNat &&& 0x3F)

/-- The part of `validUtf8SequenceLength` after the first byte. -/
def checkSequence (input : Bytes) (position length codePoint minimum : ℕ) : Option ℕ :=
  if position + length > input.length then some 0
  else
    match decodeTail input position (length - 1) 1 codePoint with
    | none => none
    | some none => some 0
    | some (some codePoint) =>
        if codePoint < minimum ∨ codePoint > 0x10FFFF ∨
            (codePoint ≥ 0xD800 ∧ codePoint ≤ 0xDFFF) then some 0
        else some length

/-- `ValidUtf8SequenceLength`: the length of the sequence at a position, `0` where there is
none. A read outside of the input is `none`. -/
def validUtf8SequenceLength (input : Bytes) (position : ℕ) : Option ℕ :=
  match input[position]? with
  | none => none
  | some first =>
      let first := first.toNat
      if first ≥ 0xC2 ∧ first ≤ 0xDF then
        checkSequence input position 2 (first &&& 0x1F) 0x80
      else if first ≥ 0xE0 ∧ first ≤ 0xEF then
        checkSequence input position 3 (first &&& 0x0F) 0x800
      else if first ≥ 0xF0 ∧ first ≤ 0xF4 then
        checkSequence input position 4 (first &&& 0x07) 0x10000
      else some 0

/-- `kHex`. -/
def kHex (n : ℕ) : UInt8 :=
  (ascii "0123456789abcdef").getD n 0

/-- One iteration of the loop of `escapeJsonString`: what is appended to `escaped`, and the next
position. -/
def escapeStep (value : Bytes) (position : ℕ) (ch : UInt8) : Bytes × ℕ :=
  if ch = 0x22 then (ascii "\\\"", position + 1)
  else if ch = 0x5C then (ascii "\\\\", position + 1)
  else if ch = 0x08 then (ascii "\\b", position + 1)
  else if ch = 0x0C then (ascii "\\f", position + 1)
  else if ch = 0x0A then (ascii "\\n", position + 1)
  else if ch = 0x0D then (ascii "\\r", position + 1)
  else if ch = 0x09 then (ascii "\\t", position + 1)
  else if ch < 0x20 then
    (ascii "\\u00" ++ [kHex (ch.toNat >>> 4 &&& 0x0F), kHex (ch.toNat &&& 0x0F)], position + 1)
  else if ch < 0x80 then ([ch], position + 1)
  else
    -- `none` is not taken: `position` is inside of `value`
    match validUtf8SequenceLength value position with
    | none | some 0 => (ascii "\\ufffd", position + 1)
    | some length => ((value.drop position).take length, position + length)

/-- The loop of `escapeJsonString`. Every iteration moves on, so `value.length` of them do. -/
def escapeLoop (value : Bytes) : ℕ → ℕ → Bytes → Bytes
  | 0, _, escaped => escaped
  | fuel + 1, position, escaped =>
      match value[position]? with
      | none => escaped
      | some ch =>
          escapeLoop value fuel (escapeStep value position ch).2
            (escaped ++ (escapeStep value position ch).1)

/-- `EscapeJsonString`. -/
def escapeJsonString (value : Bytes) : Bytes :=
  escapeLoop value value.length 0 []

/-! ### Bytes and code points -/

theorem isJsonWhitespace_iff {ch : UInt8} :
  isJsonWhitespace ch = true ↔ Json.IsWs ch
  := by
  simp [isJsonWhitespace, Json.IsWs, or_assoc]

/-- `hexDigit` gives the number a hexadecimal digit of the grammar denotes. -/
theorem hexDigit_of_hexDigit {b : UInt8} {n : ℕ} (h : Json.HexDigit b n) :
  hexDigit b = n
  := by
  cases h with
  | decimal h₁ h₂ =>
    rw [hexDigit, if_pos ⟨h₁, h₂⟩]
    have := UInt8.le_iff_toNat_le.mp h₁
    simp at this
    omega
  | upper h₁ h₂ =>
    rw [UInt8.le_iff_toNat_le] at h₁ h₂
    simp at h₁ h₂
    simp only [hexDigit, UInt8.le_iff_toNat_le, UInt8.reduceToNat]
    rw [if_neg (by omega), if_neg (by omega), if_pos (by omega)]
    omega
  | lower h₁ h₂ =>
    rw [UInt8.le_iff_toNat_le] at h₁ h₂
    simp at h₁ h₂
    simp only [hexDigit, UInt8.le_iff_toNat_le, UInt8.reduceToNat]
    rw [if_neg (by omega), if_pos (by omega)]
    omega

/-- A byte for which `hexDigit` is not negative is a hexadecimal digit. -/
theorem hexDigit_of_nonneg {b : UInt8} (h : ¬ hexDigit b < 0) :
  Json.HexDigit b (hexDigit b).toNat
  := by
  have hdigit : ∃ n, Json.HexDigit b n := by
    rw [hexDigit] at h
    split at h
    · next hb => exact ⟨_, .decimal hb.1 hb.2⟩
    · split at h
      · next hb => exact ⟨_, .lower hb.1 hb.2⟩
      · split at h
        · next hb => exact ⟨_, .upper hb.1 hb.2⟩
        · omega
  obtain ⟨n, hn⟩ := hdigit
  rw [hexDigit_of_hexDigit hn, Int.toNat_natCast]
  apply hn

theorem or_eq_add {n a : ℕ} (i : ℕ) (h : n < 2 ^ i) :
  2 ^ i * a ||| n = 2 ^ i * a + n
  := (Nat.two_pow_add_eq_or_of_lt h a).symm

/-! The masks of the source are of the form `2 ^ i - 1`, so that they take remainders. -/

theorem and_0x3F (n : ℕ) :
  n &&& 0x3F = n % 64
  := Nat.and_two_pow_sub_one_eq_mod n 6

theorem and_0x1F (n : ℕ) :
  n &&& 0x1F = n % 32
  := Nat.and_two_pow_sub_one_eq_mod n 5

theorem and_0x0F (n : ℕ) :
  n &&& 0x0F = n % 16
  := Nat.and_two_pow_sub_one_eq_mod n 4

theorem and_0x07 (n : ℕ) :
  n &&& 0x07 = n % 8
  := Nat.and_two_pow_sub_one_eq_mod n 3

theorem shiftLeft_or (codePoint next : ℕ) :
  codePoint <<< 6 ||| next &&& 0x3F = codePoint * 64 + next % 64
  := by
  rw [and_0x3F, ← Nat.shiftLeft_add_eq_or_of_lt (by omega), Nat.shiftLeft_eq]

/-- The two high bits of a byte are those of a continuation byte exactly from `0x80` to
`0xBF`. -/
theorem and_eq_continuation {n : ℕ} (h : n < 256) :
  n &&& 0xC0 = 0x80 ↔ 0x80 ≤ n ∧ n < 0xC0
  := by
  have hall : ∀ b : Fin 256, b.val &&& 0xC0 = 0x80 ↔ 0x80 ≤ b.val ∧ b.val < 0xC0 := by
    decide +kernel
  apply hall ⟨n, h⟩

/-- `appendCodePoint` appends the UTF-8 encoding of a scalar value. -/
theorem appendCodePoint_toNat (c : Char) (output : Bytes) :
  appendCodePoint c.toNat output = output ++ String.utf8EncodeChar c
  := by
  have hrange := Utf8.toNat_range c
  have htail : ∀ n : ℕ, 0x80 ||| n % 64 = n % 64 + 128 := by
    intro n
    have h : 0x80 ||| n % 64 = 0x80 + n % 64 := or_eq_add (a := 2) 6 (by omega)
    omega
  rw [appendCodePoint]
  simp only [Nat.shiftRight_eq_div_pow, and_0x3F, htail]
  split_ifs with h₁ h₂ h₃
  · rw [Utf8.utf8EncodeChar_one (by omega)]
  · have hlead : 0xC0 ||| c.toNat / 2 ^ 6 = 0xC0 + c.toNat / 2 ^ 6 :=
      or_eq_add (a := 6) 5 (by omega)
    have hfirst : 0xC0 + c.toNat / 2 ^ 6 = c.toNat / 64 % 32 + 192 := by omega
    rw [Utf8.utf8EncodeChar_two (by omega) (by omega), hlead, hfirst]
  · have hlead : 0xE0 ||| c.toNat / 2 ^ 12 = 0xE0 + c.toNat / 2 ^ 12 :=
      or_eq_add (a := 14) 4 (by omega)
    have hfirst : 0xE0 + c.toNat / 2 ^ 12 = c.toNat / 4096 % 16 + 224 := by omega
    rw [Utf8.utf8EncodeChar_three (by omega) (by omega), hlead, hfirst]
  · have hlead : 0xF0 ||| c.toNat / 2 ^ 18 = 0xF0 + c.toNat / 2 ^ 18 :=
      or_eq_add (a := 30) 3 (by omega)
    have hfirst : 0xF0 + c.toNat / 2 ^ 18 = c.toNat / 262144 % 8 + 240 := by omega
    rw [Utf8.utf8EncodeChar_four (by omega), hlead, hfirst]

/-! ### The validator -/

/-- The loop of the validator goes on at a continuation byte and gives up at any other. -/
theorem decodeTail_succ {input : Bytes} {position count offset codePoint : ℕ} {next : UInt8}
    (h : input[position + offset]? = some next) :
  decodeTail input position (count + 1) offset codePoint
    = if 0x80 ≤ next.toNat ∧ next.toNat < 0xC0 then
        decodeTail input position count (offset + 1) (codePoint * 64 + next.toNat % 64)
      else some none
  := by
  have hiff := and_eq_continuation next.toNat_lt
  rw [decodeTail, h]
  simp only [shiftLeft_or, ne_eq, hiff, ite_not]

/-- The validator looks at nothing before the position. -/
theorem validUtf8SequenceLength_drop {input : Bytes} {position : ℕ}
    (h : position ≤ input.length) :
  validUtf8SequenceLength input position = validUtf8SequenceLength (input.drop position) 0
  := by
  have htail : ∀ count offset codePoint, decodeTail input position count offset codePoint
      = decodeTail (input.drop position) 0 count offset codePoint := by
    intro count
    induction count with
    | zero =>
      intro offset codePoint
      rfl
    | succ count ih =>
      intro offset codePoint
      simp only [decodeTail, List.getElem?_drop, Nat.zero_add, ih]
  have hcheck : ∀ length codePoint minimum, 0 < length →
      checkSequence input position length codePoint minimum
        = checkSequence (input.drop position) 0 length codePoint minimum := by
    intro length codePoint minimum hlength
    have hsize : position + length > input.length ↔ 0 + length > (input.drop position).length := by
      rw [List.length_drop]
      omega
    simp only [checkSequence, hsize, htail]
  simp only [validUtf8SequenceLength, List.getElem?_drop, Nat.add_zero]
  simp only [hcheck 2 _ _ (by decide), hcheck 3 _ _ (by decide), hcheck 4 _ _ (by decide)]

/-- A read of the validator at a position inside of the input stays inside of it. -/
theorem validUtf8SequenceLength_isSome {input : Bytes} {position : ℕ}
    (h : position < input.length) :
  ∃ n, validUtf8SequenceLength input position = some n
  := by
  have htail : ∀ count offset codePoint, position + offset + count ≤ input.length →
      ∃ r, decodeTail input position count offset codePoint = some r := by
    intro count
    induction count with
    | zero =>
      intro offset codePoint _
      use some codePoint
      rfl
    | succ count ih =>
      intro offset codePoint hle
      rw [decodeTail_succ (List.getElem?_eq_getElem (by omega))]
      split
      · apply ih
        omega
      · use none
  have hcheck : ∀ length codePoint minimum, 0 < length →
      ∃ n, checkSequence input position length codePoint minimum = some n := by
    intro length codePoint minimum hlength
    rw [checkSequence]
    split
    · use 0
    · obtain ⟨r, hr⟩ := htail (length - 1) 1 codePoint (by omega)
      rw [hr]
      cases r with
      | none => use 0
      | some codePoint =>
        simp only
        split
        · use 0
        · use length
  rw [validUtf8SequenceLength, List.getElem?_eq_getElem h]
  simp only
  split_ifs
  · apply hcheck _ _ _ (by decide)
  · apply hcheck _ _ _ (by decide)
  · apply hcheck _ _ _ (by decide)
  · use 0

/-- The validator gives the length of the encoding of a scalar value from `0x80` on. -/
theorem validUtf8SequenceLength_encode {input : Bytes} {position : ℕ} {c : Char} {rest : Bytes}
    (h : input.drop position = String.utf8EncodeChar c ++ rest) (hc : 0x80 ≤ c.toNat) :
  validUtf8SequenceLength input position = some (String.utf8EncodeChar c).length
  := by
  have hrange := Utf8.toNat_range c
  have hpos : position ≤ input.length := by
    by_contra hlt
    rw [List.drop_eq_nil_of_le (by omega)] at h
    symm at h
    apply String.utf8EncodeChar_ne_nil (List.append_eq_nil_iff.mp h).1
  rw [validUtf8SequenceLength_drop hpos, h]
  by_cases h₂ : c.toNat < 0x800
  · rw [Utf8.utf8EncodeChar_two hc h₂]
    simp only [validUtf8SequenceLength, checkSequence, List.cons_append, List.nil_append,
      List.getElem?_cons_zero, UInt8.toNat_ofNat']
    rw [if_pos (by omega), if_neg (by simp), decodeTail_succ rfl]
    simp only [UInt8.toNat_ofNat', and_0x1F]
    rw [if_pos (by omega)]
    simp only [decodeTail]
    rw [if_neg (by omega)]
    rfl
  · by_cases h₃ : c.toNat < 0x10000
    · rw [Utf8.utf8EncodeChar_three (by omega) h₃]
      simp only [validUtf8SequenceLength, checkSequence, List.cons_append, List.nil_append,
        List.getElem?_cons_zero, UInt8.toNat_ofNat']
      rw [if_neg (by omega), if_pos (by omega), if_neg (by simp), decodeTail_succ rfl]
      simp only [UInt8.toNat_ofNat', and_0x0F]
      rw [if_pos (by omega), decodeTail_succ rfl]
      simp only [UInt8.toNat_ofNat']
      rw [if_pos (by omega)]
      simp only [decodeTail]
      rw [if_neg (by omega)]
      rfl
    · rw [Utf8.utf8EncodeChar_four (by omega)]
      simp only [validUtf8SequenceLength, checkSequence, List.cons_append, List.nil_append,
        List.getElem?_cons_zero, UInt8.toNat_ofNat']
      rw [if_neg (by omega), if_neg (by omega), if_pos (by omega), if_neg (by simp),
        decodeTail_succ rfl]
      simp only [UInt8.toNat_ofNat', and_0x07]
      rw [if_pos (by omega), decodeTail_succ rfl]
      simp only [UInt8.toNat_ofNat']
      rw [if_pos (by omega), decodeTail_succ rfl]
      simp only [UInt8.toNat_ofNat']
      rw [if_pos (by omega)]
      simp only [decodeTail]
      rw [if_neg (by omega)]
      rfl

/-- Where the loop of the validator ends with a code point, the byte it looks at is a
continuation byte and the rest of the loop ends with the same code point. -/
theorem decodeTail_inv {input : Bytes} {position count offset codePoint result : ℕ}
    (h : decodeTail input position (count + 1) offset codePoint = some (some result)) :
  ∃ next, input[position + offset]? = some next ∧ 0x80 ≤ next.toNat ∧ next.toNat < 0xC0 ∧
    decodeTail input position count (offset + 1) (codePoint * 64 + next.toNat % 64)
      = some (some result)
  := by
  cases hnext : input[position + offset]? with
  | none =>
    rw [decodeTail, hnext] at h
    cases h
  | some next =>
    rw [decodeTail_succ hnext] at h
    split at h
    · next hcont => exact ⟨next, rfl, hcont.1, hcont.2, h⟩
    · cases h

/-- What the validator has checked of a sequence it accepts. -/
theorem checkSequence_inv {input : Bytes} {position length codePoint minimum n : ℕ}
    (h : checkSequence input position length codePoint minimum = some n) (hn : 0 < n) :
  n = length ∧ ∃ result,
    decodeTail input position (length - 1) 1 codePoint = some (some result) ∧
      minimum ≤ result ∧ result.isValidChar
  := by
  rw [checkSequence] at h
  split at h
  · obtain rfl := Option.some.inj h
    omega
  · split at h
    · cases h
    · obtain rfl := Option.some.inj h
      omega
    · next result hresult =>
      split at h
      · obtain rfl := Option.some.inj h
        omega
      · next hvalid =>
        use (Option.some.inj h).symm, result, hresult
        constructor
        · omega
        · simp only [Nat.isValidChar]
          omega

/-- A byte is what its number gives. -/
theorem ofNat_eq_of_toNat {b : UInt8} {n : ℕ} (h : b.toNat = n) :
  UInt8.ofNat n = b
  := by
  rw [← h, UInt8.ofNat_toNat]

/-- A sequence the validator accepts is the encoding of a scalar value from `0x80` on. -/
theorem exists_char_of_validUtf8SequenceLength {input : Bytes} {position n : ℕ}
    (hpos : position < input.length) (h : validUtf8SequenceLength input position = some n)
    (hn : 0 < n) :
  ∃ c rest, 0x80 ≤ c.toNat ∧ input.drop position = String.utf8EncodeChar c ++ rest ∧
    n = (String.utf8EncodeChar c).length
  := by
  rw [validUtf8SequenceLength_drop hpos.le] at h
  generalize hs : input.drop position = s at h
  have hmem : ∀ i b, s[i]? = some b → ∀ l, s = l ++ s.drop i → s = l ++ b :: s.drop (i + 1) := by
    intro i b hb l hl
    obtain ⟨hi, rfl⟩ := List.getElem?_eq_some_iff.mp hb
    rw [List.getElem_cons_drop]
    apply hl
  rw [validUtf8SequenceLength] at h
  split at h
  · cases h
  · next first hfirst =>
    have hs₀ := hmem 0 first hfirst [] rfl
    simp only [and_0x1F, and_0x0F, and_0x07] at h
    split_ifs at h with h₂ h₃ h₄
    · obtain ⟨rfl, v, hv, hmin, hvalid⟩ := checkSequence_inv h hn
      obtain ⟨b₁, hb₁, hb₁l, hb₁u, hv⟩ := decodeTail_inv hv
      have hs₁ := hmem 1 b₁ hb₁ [first] hs₀
      simp only [decodeTail, Option.some.injEq] at hv
      have hc := Utf8.toNat_ofNat hvalid
      use Char.ofNat v, s.drop 2
      rw [Utf8.utf8EncodeChar_two (by omega) (by omega), hc, ofNat_eq_of_toNat (b := first) (by omega),
        ofNat_eq_of_toNat (b := b₁) (by omega)]
      exact ⟨hmin, hs₁, rfl⟩
    · obtain ⟨rfl, v, hv, hmin, hvalid⟩ := checkSequence_inv h hn
      obtain ⟨b₁, hb₁, hb₁l, hb₁u, hv⟩ := decodeTail_inv hv
      obtain ⟨b₂, hb₂, hb₂l, hb₂u, hv⟩ := decodeTail_inv hv
      have hs₁ := hmem 1 b₁ hb₁ [first] hs₀
      have hs₂ := hmem 2 b₂ hb₂ [first, b₁] hs₁
      simp only [decodeTail, Option.some.injEq] at hv
      have hc := Utf8.toNat_ofNat hvalid
      use Char.ofNat v, s.drop 3
      rw [Utf8.utf8EncodeChar_three (by omega) (by omega), hc,
        ofNat_eq_of_toNat (b := first) (by omega), ofNat_eq_of_toNat (b := b₁) (by omega),
        ofNat_eq_of_toNat (b := b₂) (by omega)]
      exact ⟨by omega, hs₂, rfl⟩
    · obtain ⟨rfl, v, hv, hmin, hvalid⟩ := checkSequence_inv h hn
      obtain ⟨b₁, hb₁, hb₁l, hb₁u, hv⟩ := decodeTail_inv hv
      obtain ⟨b₂, hb₂, hb₂l, hb₂u, hv⟩ := decodeTail_inv hv
      obtain ⟨b₃, hb₃, hb₃l, hb₃u, hv⟩ := decodeTail_inv hv
      have hs₁ := hmem 1 b₁ hb₁ [first] hs₀
      have hs₂ := hmem 2 b₂ hb₂ [first, b₁] hs₁
      have hs₃ := hmem 3 b₃ hb₃ [first, b₁, b₂] hs₂
      simp only [decodeTail, Option.some.injEq] at hv
      have hc := Utf8.toNat_ofNat hvalid
      simp only [Nat.isValidChar] at hvalid
      use Char.ofNat v, s.drop 4
      rw [Utf8.utf8EncodeChar_four (by omega), hc,
        ofNat_eq_of_toNat (b := first) (by omega), ofNat_eq_of_toNat (b := b₁) (by omega),
        ofNat_eq_of_toNat (b := b₂) (by omega), ofNat_eq_of_toNat (b := b₃) (by omega)]
      exact ⟨by omega, hs₃, rfl⟩
    · obtain rfl := Option.some.inj h
      omega

/-! ### Escaping -/

/-- `kHex` gives the digits of the shortest forms. -/
theorem kHex_eq {n : ℕ} (h : n < 16) :
  kHex n = Json.hexDigit n
  := by
  interval_cases n <;> rfl

/-- The escaping of an ASCII character is its shortest form. -/
theorem escapeStep_ascii {value : Bytes} {position : ℕ} {c : Char} (hc : c.toNat < 0x80) :
  escapeStep value position (UInt8.ofNat c.toNat) = (Json.shortForm c, position + 1)
  := by
  have hbyte : (UInt8.ofNat c.toNat).toNat = c.toNat := by
    rw [UInt8.toNat_ofNat']
    omega
  have hiff : ∀ d : Char, d.toNat < 0x80 →
      (UInt8.ofNat c.toNat = UInt8.ofNat d.toNat ↔ c = d) := by
    intro d hd
    rw [← UInt8.toNat_inj, hbyte, UInt8.toNat_ofNat', Nat.mod_eq_of_lt (by omega), Char.toNat_inj]
  have h₁ : UInt8.ofNat c.toNat = 0x22 ↔ c = '"' := hiff '"' (by decide)
  have h₂ : UInt8.ofNat c.toNat = 0x5C ↔ c = '\\' := hiff '\\' (by decide)
  have h₃ : UInt8.ofNat c.toNat = 0x08 ↔ c = '\x08' := hiff '\x08' (by decide)
  have h₄ : UInt8.ofNat c.toNat = 0x0C ↔ c = '\x0C' := hiff '\x0C' (by decide)
  have h₅ : UInt8.ofNat c.toNat = 0x0A ↔ c = '\n' := hiff '\n' (by decide)
  have h₆ : UInt8.ofNat c.toNat = 0x0D ↔ c = '\r' := hiff '\r' (by decide)
  have h₇ : UInt8.ofNat c.toNat = 0x09 ↔ c = '\t' := hiff '\t' (by decide)
  have h₈ : UInt8.ofNat c.toNat < 0x20 ↔ c.toNat < 0x20 := by
    rw [UInt8.lt_iff_toNat_lt, hbyte]
    rfl
  have h₉ : UInt8.ofNat c.toNat < 0x80 := by
    rw [UInt8.lt_iff_toNat_lt, hbyte]
    apply hc
  simp only [escapeStep, Json.shortForm, h₁, h₂, h₃, h₄, h₅, h₆, h₇, h₈, h₉, hbyte, if_true,
    Nat.shiftRight_eq_div_pow, Nat.reducePow, and_0x0F]
  split_ifs with _ _ _ _ _ _ _ hlow
  all_goals try rfl
  · rw [kHex_eq (by omega), kHex_eq (by omega), Nat.mod_eq_of_lt (a := c.toNat / 16) (by omega)]
    rfl
  · rw [Utf8.utf8EncodeChar_one hc]

/-- The escaping of a byte from `0x80` on depends on the sequence at its position. -/
theorem escapeStep_of_ge {ch : UInt8} (hch : 0x80 ≤ ch.toNat) (value : Bytes) (position : ℕ) :
  escapeStep value position ch
    = match validUtf8SequenceLength value position with
      | none | some 0 => (ascii "\\ufffd", position + 1)
      | some length => ((value.drop position).take length, position + length)
  := by
  have hne : ∀ b : UInt8, b.toNat < 0x80 → ch ≠ b := by
    rintro b hb rfl
    omega
  have hlt : ∀ b : UInt8, b.toNat ≤ 0x80 → ¬ ch < b := by
    intro b hb hlt
    have := UInt8.lt_iff_toNat_lt.mp hlt
    omega
  rw [escapeStep, if_neg (hne _ (by decide)), if_neg (hne _ (by decide)),
    if_neg (hne _ (by decide)), if_neg (hne _ (by decide)), if_neg (hne _ (by decide)),
    if_neg (hne _ (by decide)), if_neg (hne _ (by decide)), if_neg (hlt _ (by decide)),
    if_neg (hlt _ (by decide))]

/-- The escaping of a character from `0x80` on copies its encoding. -/
theorem escapeStep_encode {value : Bytes} {position : ℕ} {c : Char} {ch : UInt8} {rest : Bytes}
    (h : value.drop position = String.utf8EncodeChar c ++ rest) (hc : 0x80 ≤ c.toNat)
    (hch : 0x80 ≤ ch.toNat) :
  escapeStep value position ch
    = (Json.shortForm c, position + (String.utf8EncodeChar c).length)
  := by
  have hne : ∀ d : Char, d.toNat < 0x80 → c ≠ d := by
    rintro d hd rfl
    omega
  have hshort : Json.shortForm c = String.utf8EncodeChar c := by
    rw [Json.shortForm, if_neg (hne _ (by decide)), if_neg (hne _ (by decide)),
      if_neg (hne _ (by decide)), if_neg (hne _ (by decide)), if_neg (hne _ (by decide)),
      if_neg (hne _ (by decide)), if_neg (hne _ (by decide)), if_neg (by omega)]
  rw [escapeStep_of_ge hch, validUtf8SequenceLength_encode h hc, hshort, h]
  cases hencode : String.utf8EncodeChar c with
  | nil => apply absurd hencode String.utf8EncodeChar_ne_nil
  | cons b bs => simp

/-- The first byte of the encoding of a character from `0x80` on. -/
theorem head_utf8EncodeChar {c : Char} (hc : 0x80 ≤ c.toNat) :
  ∃ b bs, String.utf8EncodeChar c = b :: bs ∧ 0x80 ≤ b.toNat
  := by
  have hrange := Utf8.toNat_range c
  by_cases h₂ : c.toNat < 0x800
  · rw [Utf8.utf8EncodeChar_two hc h₂]
    refine ⟨_, _, rfl, ?_⟩
    rw [UInt8.toNat_ofNat']
    omega
  · by_cases h₃ : c.toNat < 0x10000
    · rw [Utf8.utf8EncodeChar_three (by omega) h₃]
      refine ⟨_, _, rfl, ?_⟩
      rw [UInt8.toNat_ofNat']
      omega
    · rw [Utf8.utf8EncodeChar_four (by omega)]
      refine ⟨_, _, rfl, ?_⟩
      rw [UInt8.toNat_ofNat']
      omega

/-- One iteration of the escaping at a character of the value. -/
theorem escapeLoop_cons {value : Bytes} {fuel position : ℕ} {c : Char} {rest escaped : Bytes}
    (h : value.drop position = String.utf8EncodeChar c ++ rest) :
  escapeLoop value (fuel + 1) position escaped
    = escapeLoop value fuel (position + (String.utf8EncodeChar c).length)
        (escaped ++ Json.shortForm c)
  := by
  by_cases hc : c.toNat < 0x80
  · have hone := Utf8.utf8EncodeChar_one hc
    have hread : value[position]? = some (UInt8.ofNat c.toNat) := by
      rw [← Nat.add_zero position, ← List.getElem?_drop, h, hone]
      rfl
    rw [escapeLoop, hread]
    simp only [escapeStep_ascii hc, hone]
    rfl
  · obtain ⟨b, bs, hb, hle⟩ := head_utf8EncodeChar (c := c) (by omega)
    have hread : value[position]? = some b := by
      rw [← Nat.add_zero position, ← List.getElem?_drop, h, hb]
      rfl
    rw [escapeLoop, hread]
    simp only [escapeStep_encode h (by omega) hle]

/-- From a position at which well-formed text is left, the loop appends the shortest forms of
its characters. -/
theorem escapeLoop_encode {value : Bytes} (cs : List Char) :
  ∀ {fuel position : ℕ} {escaped : Bytes}, value.drop position = Utf8.encode cs →
    cs.length ≤ fuel →
    escapeLoop value fuel position escaped = escaped ++ cs.flatMap Json.shortForm
  := by
  induction cs with
  | nil =>
    intro fuel position escaped h _
    have hread : value[position]? = none := by
      rw [← Nat.add_zero position, ← List.getElem?_drop, h]
      rfl
    cases fuel <;> simp [escapeLoop, hread]
  | cons c cs ih =>
    intro fuel position escaped h hfuel
    obtain ⟨fuel, rfl⟩ := Nat.exists_eq_add_of_le' hfuel
    have hdrop : value.drop (position + (String.utf8EncodeChar c).length) = Utf8.encode cs := by
      rw [← List.drop_drop, h, Utf8.encode_cons, List.drop_left]
    have hassoc : fuel + (c :: cs).length = (fuel + cs.length) + 1 := rfl
    rw [hassoc, escapeLoop_cons h, ih hdrop (by omega), List.flatMap_cons, List.append_assoc]

/-- Well-formed text is escaped to the shortest forms of its characters. -/
theorem escapeJsonString_encode (cs : List Char) :
  escapeJsonString (Utf8.encode cs) = cs.flatMap Json.shortForm
  := by
  rw [escapeJsonString, escapeLoop_encode cs rfl, List.nil_append]
  induction cs with
  | nil => apply Nat.le_refl
  | cons c cs ih =>
    have := List.length_pos_iff.mpr (String.utf8EncodeChar_ne_nil (c := c))
    simp only [Utf8.encode_cons, List.length_append, List.length_cons]
    omega

/-! ### Escaping what is not UTF-8 -/

/-- The escape of the replacement character. -/
theorem charForm_replacement :
  Json.CharForm (ascii "\\ufffd") '\uFFFD'
  := by
  have hf : Json.HexDigit 0x66 15 := .lower (by decide) (by decide)
  have hd : Json.HexDigit 0x64 13 := .lower (by decide) (by decide)
  exact .unicode (Json.CodeUnit.mk hf hf hf hd)

/-- A byte at which no encoding starts is escaped to the escape of the replacement character. -/
theorem escapeStep_replaced {value : Bytes} {position : ℕ} {x : UInt8} {b : Bytes}
    (h : value.drop position = x :: b) (hno : ∀ c rest, x :: b ≠ String.utf8EncodeChar c ++ rest) :
  escapeStep value position x = (ascii "\\ufffd", position + 1)
  := by
  have hge : 0x80 ≤ x.toNat := by
    by_contra hlt
    have hx := Utf8.toNat_ofNat (n := x.toNat) (by simp only [Nat.isValidChar]; omega)
    apply hno (Char.ofNat x.toNat) b
    rw [Utf8.utf8EncodeChar_one (by omega), hx, UInt8.ofNat_toNat]
    rfl
  have hposition : position < value.length := by
    by_contra hlt
    rw [List.drop_eq_nil_of_le (by omega)] at h
    cases h
  obtain ⟨n, hvalid⟩ := validUtf8SequenceLength_isSome hposition
  have hzero : n = 0 := by
    by_contra hpos
    obtain ⟨c, rest, -, hdrop, -⟩ := exists_char_of_validUtf8SequenceLength hposition hvalid
      (Nat.pos_of_ne_zero hpos)
    rw [h] at hdrop
    apply hno c rest hdrop
  rw [escapeStep_of_ge hge, hvalid, hzero]
  rfl

/-- From a position on, the loop appends forms of the characters of the repair. -/
theorem escapeLoop_repairs {value b : Bytes} {cs : List Char} (h : Utf8.Repairs b cs) :
  ∀ (fuel position : ℕ) (escaped : Bytes), value.drop position = b → b.length ≤ fuel →
    ∃ body, Json.Chars body cs ∧ escapeLoop value fuel position escaped = escaped ++ body
  := by
  induction h with
  | nil =>
    intro fuel position escaped hdrop _
    have hread : value[position]? = none := by
      rw [← Nat.add_zero position, ← List.getElem?_drop, hdrop]
      rfl
    refine ⟨[], .nil, ?_⟩
    cases fuel <;> simp [escapeLoop, hread]
  | @char b c cs _ ih =>
    intro fuel position escaped hdrop hfuel
    have hpos := List.length_pos_iff.mpr (String.utf8EncodeChar_ne_nil (c := c))
    rw [List.length_append] at hfuel
    obtain ⟨fuel, rfl⟩ := Nat.exists_eq_add_of_le' (show 1 ≤ fuel by omega)
    have hrest : value.drop (position + (String.utf8EncodeChar c).length) = b := by
      rw [← List.drop_drop, hdrop, List.drop_left]
    obtain ⟨body, hbody, heq⟩ := ih fuel _ (escaped ++ Json.shortForm c) hrest (by omega)
    refine ⟨Json.shortForm c ++ body, .cons (.shortForm c) hbody, ?_⟩
    rw [escapeLoop_cons hdrop, heq, List.append_assoc]
  | @replaced x b cs hno _ ih =>
    intro fuel position escaped hdrop hfuel
    obtain ⟨fuel, rfl⟩ := Nat.exists_eq_add_of_le' (show 1 ≤ fuel from Nat.le_trans (by simp) hfuel)
    have hread : value[position]? = some x := by
      rw [← Nat.add_zero position, ← List.getElem?_drop, hdrop]
      rfl
    have hrest : value.drop (position + 1) = b := by
      rw [← List.drop_drop, hdrop]
      rfl
    obtain ⟨body, hbody, heq⟩ := ih fuel _ (escaped ++ ascii "\\ufffd") hrest
      (Nat.le_of_succ_le_succ hfuel)
    refine ⟨ascii "\\ufffd" ++ body, .cons charForm_replacement hbody, ?_⟩
    rw [escapeLoop, hread]
    simp only [escapeStep_replaced hdrop hno]
    rw [heq, List.append_assoc]

/-- What a byte string is escaped to denotes its repair. -/
theorem chars_escapeJsonString {value : Bytes} {cs : List Char} (h : Utf8.Repairs value cs) :
  Json.Chars (escapeJsonString value) cs
  := by
  obtain ⟨body, hbody, heq⟩ := escapeLoop_repairs h value.length 0 [] rfl (le_refl _)
  rw [escapeJsonString, heq]
  apply hbody

example : escapeJsonString [0xE2, 0x82, 0x22, 0xC3, 0xA9] = ascii "\\ufffd\\ufffd\\\"" ++ [0xC3, 0xA9] := by
  decide +kernel

/-- Between quotation marks, it is a string literal. -/
theorem stringLit_escapeJsonString {value : Bytes} {cs : List Char} (h : Utf8.Repairs value cs) :
  Json.StringLit ([0x22] ++ escapeJsonString value ++ [0x22]) cs
  := ⟨_, chars_escapeJsonString h, rfl⟩

end OpcuaServer
