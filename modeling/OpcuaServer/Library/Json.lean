import OpcuaServer.Library.Utf8
import OpcuaServer.Library.Decimal

/-!
# The grammar of JSON texts

The productions of RFC 8259 over byte strings, each relating a byte string to what it denotes:
`StringLit b cs` to a list of Unicode scalar values, `NumberLit b n` to the parts of a number,
`Derives b v` to a JSON value and `Text b v` to the value of a whole text. Escapes of a surrogate
denote a scalar value only in pairs.
-/

namespace Json

/-! ### White space and structural characters -/

/-- `%x20 / %x09 / %x0A / %x0D` -/
def IsWs (b : UInt8) : Prop :=
  b = 0x20 ∨ b = 0x09 ∨ b = 0x0A ∨ b = 0x0D

/-- `ws = *( %x20 / %x09 / %x0A / %x0D )` -/
def Ws (w : List UInt8) : Prop :=
  ∀ b ∈ w, IsWs b

/-- A structural character `c` with the white space around it. -/
def Structural (c : UInt8) (b : List UInt8) : Prop :=
  ∃ w₁ w₂, Ws w₁ ∧ Ws w₂ ∧ b = w₁ ++ c :: w₂

theorem Ws.nil :
  Ws []
  := by
  intro b hb
  cases hb

theorem Ws.append {w w' : List UInt8} (h : Ws w) (h' : Ws w') :
  Ws (w ++ w')
  := by
  intro b hb
  rcases List.mem_append.mp hb with hb | hb
  · apply h b hb
  · apply h' b hb

theorem Structural.bare (c : UInt8) :
  Structural c [c]
  := by
  use [], [], Ws.nil, Ws.nil
  rfl

theorem Structural.length_pos {c : UInt8} {b : List UInt8} (h : Structural c b) :
  1 ≤ b.length
  := by
  obtain ⟨w₁, w₂, -, -, rfl⟩ := h
  simp only [List.length_append, List.length_cons]
  omega

/-! ### Strings -/

/-- A hexadecimal digit and the number it denotes. -/
inductive HexDigit : UInt8 → ℕ → Prop where
  | decimal {b : UInt8} : 0x30 ≤ b → b ≤ 0x39 → HexDigit b (b.toNat - 0x30)
  | upper {b : UInt8} : 0x41 ≤ b → b ≤ 0x46 → HexDigit b (b.toNat - 0x41 + 10)
  | lower {b : UInt8} : 0x61 ≤ b → b ≤ 0x66 → HexDigit b (b.toNat - 0x61 + 10)

/-- `4HEXDIG` and the UTF-16 code unit it denotes. -/
inductive CodeUnit : List UInt8 → ℕ → Prop where
  | mk {b₁ b₂ b₃ b₄ : UInt8} {n₁ n₂ n₃ n₄ : ℕ} :
      HexDigit b₁ n₁ → HexDigit b₂ n₂ → HexDigit b₃ n₃ → HexDigit b₄ n₄ →
      CodeUnit [b₁, b₂, b₃, b₄] (((n₁ * 16 + n₂) * 16 + n₃) * 16 + n₄)

theorem HexDigit.lt {b : UInt8} {n : ℕ} (h : HexDigit b n) :
  n < 16
  := by
  cases h with
  | decimal h₁ h₂ | upper h₁ h₂ | lower h₁ h₂ =>
    have h₁ := UInt8.le_iff_toNat_le.mp h₁
    have h₂ := UInt8.le_iff_toNat_le.mp h₂
    simp at h₁ h₂
    omega

theorem CodeUnit.length {b : List UInt8} {n : ℕ} (h : CodeUnit b n) :
  b.length = 4
  := by
  cases h
  rfl

theorem CodeUnit.lt {b : List UInt8} {n : ℕ} (h : CodeUnit b n) :
  n < 0x10000
  := by
  cases h with
  | mk h₁ h₂ h₃ h₄ =>
    have := h₁.lt
    have := h₂.lt
    have := h₃.lt
    have := h₄.lt
    omega

/-- The second byte of a two-byte escape and the character the escape denotes. -/
inductive SimpleEscape : UInt8 → Char → Prop where
  | quotationMark : SimpleEscape 0x22 '"'
  | reverseSolidus : SimpleEscape 0x5C '\\'
  | solidus : SimpleEscape 0x2F '/'
  | backspace : SimpleEscape 0x62 '\x08'
  | formFeed : SimpleEscape 0x66 '\x0C'
  | lineFeed : SimpleEscape 0x6E '\n'
  | carriageReturn : SimpleEscape 0x72 '\r'
  | tab : SimpleEscape 0x74 '\t'

/-- One `char` of a string and the scalar value it denotes. -/
inductive CharForm : List UInt8 → Char → Prop where
  | unescaped {c : Char} : 0x20 ≤ c.toNat → c ≠ '"' → c ≠ '\\' →
      CharForm (String.utf8EncodeChar c) c
  | escaped {e : UInt8} {c : Char} : SimpleEscape e c → CharForm [0x5C, e] c
  | unicode {h : List UInt8} {c : Char} : CodeUnit h c.toNat → CharForm (0x5C :: 0x75 :: h) c
  | surrogatePair {h l : List UInt8} {hi lo : ℕ} {c : Char} :
      CodeUnit h hi → CodeUnit l lo → 0xD800 ≤ hi → hi ≤ 0xDBFF → 0xDC00 ≤ lo → lo ≤ 0xDFFF →
      c.toNat = 0x10000 + (hi - 0xD800) * 0x400 + (lo - 0xDC00) →
      CharForm (0x5C :: 0x75 :: h ++ 0x5C :: 0x75 :: l) c

/-- `*char` and the scalar values it denotes. -/
inductive Chars : List UInt8 → List Char → Prop where
  | nil : Chars [] []
  | cons {p b : List UInt8} {c : Char} {cs : List Char} :
      CharForm p c → Chars b cs → Chars (p ++ b) (c :: cs)

/-- `string = quotation-mark *char quotation-mark` -/
def StringLit (b : List UInt8) (cs : List Char) : Prop :=
  ∃ body, Chars body cs ∧ b = 0x22 :: body ++ [0x22]

/-! ### Strings are UTF-8 -/

theorem HexDigit.isAscii {b : UInt8} {n : ℕ} (h : HexDigit b n) :
  b < 0x80
  := by
  rw [UInt8.lt_iff_toNat_lt]
  cases h with
  | decimal _ h | upper _ h | lower _ h =>
    have h := UInt8.le_iff_toNat_le.mp h
    simp at h ⊢
    omega

/-- An escape with the bytes of a code unit is ASCII. -/
theorem CodeUnit.isUtf8 {b : List UInt8} {n : ℕ} (h : CodeUnit b n) :
  Utf8.IsUtf8 (0x5C :: 0x75 :: b)
  := by
  apply Utf8.isUtf8_of_lt
  cases h with
  | mk h₁ h₂ h₃ h₄ =>
    simp only [List.mem_cons, List.not_mem_nil, or_false]
    rintro x (rfl | rfl | rfl | rfl | rfl | rfl)
    · decide
    · decide
    · apply h₁.isAscii
    · apply h₂.isAscii
    · apply h₃.isAscii
    · apply h₄.isAscii

theorem CharForm.isUtf8 {p : List UInt8} {c : Char} (h : CharForm p c) :
  Utf8.IsUtf8 p
  := by
  cases h with
  | unescaped => apply Utf8.isUtf8_utf8EncodeChar
  | escaped h =>
    apply Utf8.isUtf8_of_lt
    simp only [List.forall_mem_cons]
    cases h <;> simp
  | unicode h => apply h.isUtf8
  | surrogatePair hh hl => apply hh.isUtf8.append hl.isUtf8

theorem Chars.isUtf8 {b : List UInt8} {cs : List Char} (h : Chars b cs) :
  Utf8.IsUtf8 b
  := by
  induction h with
  | nil => exact ⟨[], rfl⟩
  | cons hp _ ih => apply hp.isUtf8.append ih

/-- A string literal is UTF-8. -/
theorem StringLit.isUtf8 {b : List UInt8} {cs : List Char} (h : StringLit b cs) :
  Utf8.IsUtf8 b
  := by
  obtain ⟨body, hbody, rfl⟩ := h
  have hquote : Utf8.IsUtf8 [0x22] := ⟨['"'], rfl⟩
  apply (hquote.append hbody.isUtf8).append hquote

/-! ### Numbers -/

/-- The parts of a number: the sign, the digits before the decimal point, the digits after it
and the exponent with its sign, the last two where they are written. -/
structure Number where
  negative : Bool
  int : List UInt8
  frac : Option (List UInt8)
  exp : Option (List UInt8)

/-- `1*DIGIT`, which is `frac` without its decimal point. -/
def IsFraction (b : List UInt8) : Prop :=
  b ≠ [] ∧ ∀ d ∈ b, Decimal.IsDigit d

/-- `exp` without its `e`: `[ minus / plus ] 1*DIGIT` -/
def IsExponent (b : List UInt8) : Prop :=
  ∃ sign digits, (sign = [] ∨ sign = [0x2B] ∨ sign = [0x2D]) ∧ IsFraction digits ∧
    b = sign ++ digits

/-- The bytes of an optional part of a number: nothing, or a byte that leads the part and the
rest of it. -/
inductive IsPart (lead : UInt8 → Prop) (P : List UInt8 → Prop) :
    List UInt8 → Option (List UInt8) → Prop where
  | none : IsPart lead P [] none
  | some {c : UInt8} {b : List UInt8} : lead c → P b → IsPart lead P (c :: b) (some b)

/-- `number = [ minus ] int [ frac ] [ exp ]` -/
inductive NumberLit : List UInt8 → Number → Prop where
  | mk {n : Number} {frac exp : List UInt8} :
      Decimal.IsInt n.int → IsPart (fun c => c = 0x2E) IsFraction frac n.frac →
      IsPart (fun c => c = 0x65 ∨ c = 0x45) IsExponent exp n.exp →
      NumberLit ((if n.negative then [0x2D] else []) ++ (n.int ++ (frac ++ exp))) n

/-- A number without a fraction and without an exponent. -/
def Number.IsInteger (n : Number) : Prop :=
  n.frac = none ∧ n.exp = none

/-- A number without a fraction and without an exponent is its sign and its digits. -/
theorem NumberLit.of_isInteger {b : List UInt8} {n : Number} (h : NumberLit b n)
    (hn : n.IsInteger) :
  b = (if n.negative then [0x2D] else []) ++ n.int ∧ Decimal.IsInt n.int
  := by
  obtain ⟨negative, int, frac, exp⟩ := n
  obtain ⟨rfl, rfl⟩ : frac = none ∧ exp = none := hn
  cases h with
  | mk hint hfrac hexp =>
    cases hfrac
    cases hexp
    rw [List.append_nil, List.append_nil]
    exact ⟨rfl, hint⟩

/-- A sign and digits are a number without a fraction and without an exponent. -/
theorem NumberLit.integer (negative : Bool) {ds : List UInt8} (h : Decimal.IsInt ds) :
  NumberLit ((if negative then [0x2D] else []) ++ ds) ⟨negative, ds, none, none⟩
  := by
  have hmk : NumberLit ((if negative then [0x2D] else []) ++ (ds ++ ([] ++ [])))
      ⟨negative, ds, none, none⟩ :=
    .mk (n := ⟨negative, ds, none, none⟩) h .none .none
  rw [List.append_nil, List.append_nil] at hmk
  apply hmk

/-- The value of a number without a fraction and without an exponent. -/
def Number.intValue (n : Number) : ℤ :=
  if n.negative then -(Decimal.value n.int : ℤ) else Decimal.value n.int

/-! ### Values and texts -/

/-- A JSON value, the members of an object in the order in which they are written. -/
inductive Value where
  | null
  | boolean (b : Bool)
  | number (n : Number)
  | string (cs : List Char)
  | array (vs : List Value)
  | object (ms : List (List Char × Value))

mutual

/-- `value = false / null / true / object / array / number / string` -/
inductive Derives : List UInt8 → Value → Prop where
  | null : Derives [0x6E, 0x75, 0x6C, 0x6C] .null
  | true : Derives [0x74, 0x72, 0x75, 0x65] (.boolean true)
  | false : Derives [0x66, 0x61, 0x6C, 0x73, 0x65] (.boolean false)
  | number {b : List UInt8} {n : Number} : NumberLit b n → Derives b (.number n)
  | string {b : List UInt8} {cs : List Char} : StringLit b cs → Derives b (.string cs)
  | emptyArray {a z : List UInt8} : Structural 0x5B a → Structural 0x5D z →
      Derives (a ++ z) (.array [])
  | array {a b z : List UInt8} {vs : List Value} :
      Structural 0x5B a → Elements b vs → Structural 0x5D z → Derives (a ++ b ++ z) (.array vs)
  | emptyObject {a z : List UInt8} : Structural 0x7B a → Structural 0x7D z →
      Derives (a ++ z) (.object [])
  | object {a b z : List UInt8} {ms : List (List Char × Value)} :
      Structural 0x7B a → Members b ms → Structural 0x7D z → Derives (a ++ b ++ z) (.object ms)

/-- `value *( value-separator value )` -/
inductive Elements : List UInt8 → List Value → Prop where
  | last {b : List UInt8} {v : Value} : Derives b v → Elements b [v]
  | more {b s r : List UInt8} {v : Value} {vs : List Value} :
      Derives b v → Structural 0x2C s → Elements r vs → Elements (b ++ s ++ r) (v :: vs)

/-- `member *( value-separator member )`, with `member = string name-separator value` -/
inductive Members : List UInt8 → List (List Char × Value) → Prop where
  | last {k s b : List UInt8} {cs : List Char} {v : Value} :
      StringLit k cs → Structural 0x3A s → Derives b v → Members (k ++ s ++ b) [(cs, v)]
  | more {k s b t r : List UInt8} {cs : List Char} {v : Value} {ms : List (List Char × Value)} :
      StringLit k cs → Structural 0x3A s → Derives b v → Structural 0x2C t → Members r ms →
      Members (k ++ s ++ b ++ t ++ r) ((cs, v) :: ms)

end

/-- `JSON-text = ws value ws` -/
def Text (b : List UInt8) (v : Value) : Prop :=
  ∃ w₁ w₂ body, Ws w₁ ∧ Ws w₂ ∧ Derives body v ∧ b = w₁ ++ body ++ w₂

/-- The members of an object start with a quotation mark. -/
theorem Members.head {b : List UInt8} {ms : List (List Char × Value)} (h : Members b ms) :
  ∃ body, b = 0x22 :: body
  := by
  cases h with
  | last hk | more hk =>
    obtain ⟨body, -, rfl⟩ := hk
    exact ⟨_, rfl⟩

end Json
