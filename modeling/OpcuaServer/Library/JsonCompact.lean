import OpcuaServer.Library.Json

/-!
# The shortest way to write a JSON object

`shortForm c` is the shortest of the ways to write the character `c` in a string, `shortString`
writes a string with them, and `compactObject` writes an object without white space. No text of an
object is shorter than the sizes of its names and values add up to (`Text.length_object_le`).
-/

namespace Json

/-! ### The shortest form of a character -/

/-- The lower-case hexadecimal digit denoting a number below sixteen. -/
def hexDigit (n : ℕ) : UInt8 :=
  if n < 10 then UInt8.ofNat (0x30 + n) else UInt8.ofNat (0x61 + (n - 10))

theorem HexDigit.hexDigit {n : ℕ} (h : n < 16) :
  HexDigit (hexDigit n) n
  := by
  interval_cases n
  all_goals first
    | exact HexDigit.decimal (by decide) (by decide)
    | exact HexDigit.lower (by decide) (by decide)

/-- The shortest form of a character in a string: a two-byte escape where there is one, a
`\u` escape for the other control characters, and the character itself otherwise. -/
def shortForm (c : Char) : List UInt8 :=
  if c = '"' then [0x5C, 0x22]
  else if c = '\\' then [0x5C, 0x5C]
  else if c = '\x08' then [0x5C, 0x62]
  else if c = '\x0C' then [0x5C, 0x66]
  else if c = '\n' then [0x5C, 0x6E]
  else if c = '\r' then [0x5C, 0x72]
  else if c = '\t' then [0x5C, 0x74]
  else if c.toNat < 0x20 then
    [0x5C, 0x75, 0x30, 0x30, hexDigit (c.toNat / 16), hexDigit (c.toNat % 16)]
  else String.utf8EncodeChar c

/-- The shortest form of a character denotes it. -/
theorem CharForm.shortForm (c : Char) :
  CharForm (shortForm c) c
  := by
  rw [Json.shortForm]
  split_ifs with h₁ h₂ h₃ h₄ h₅ h₆ h₇ h₈
  · subst h₁
    exact .escaped .quotationMark
  · subst h₂
    exact .escaped .reverseSolidus
  · subst h₃
    exact .escaped .backspace
  · subst h₄
    exact .escaped .formFeed
  · subst h₅
    exact .escaped .lineFeed
  · subst h₆
    exact .escaped .carriageReturn
  · subst h₇
    exact .escaped .tab
  · apply CharForm.unicode
    have h := CodeUnit.mk (HexDigit.hexDigit (n := 0) (by decide))
      (HexDigit.hexDigit (n := 0) (by decide))
      (HexDigit.hexDigit (n := c.toNat / 16) (by omega))
      (HexDigit.hexDigit (n := c.toNat % 16) (by omega))
    have hn : ((0 * 16 + 0) * 16 + c.toNat / 16) * 16 + c.toNat % 16 = c.toNat := by omega
    rw [hn] at h
    apply h
  · apply CharForm.unescaped (by omega) h₁ h₂

/-- A two-byte escape is a shortest form, except for the escape of the solidus. -/
theorem SimpleEscape.length_shortForm_le {e : UInt8} {c : Char} (h : SimpleEscape e c) :
  (shortForm c).length ≤ 2
  := by
  cases h <;> decide

theorem length_shortForm_pos (c : Char) :
  0 < (shortForm c).length
  := by
  rw [shortForm]
  split_ifs <;> simp [Char.utf8Size_pos]

theorem length_shortForm_le_six (c : Char) :
  (shortForm c).length ≤ 6
  := by
  rw [shortForm]
  split_ifs <;> simp
  have := c.utf8Size_le_four
  omega

/-- No form of a character in a string is shorter than its shortest form. -/
theorem length_shortForm_le {p : List UInt8} {c : Char} (h : CharForm p c) :
  (shortForm c).length ≤ p.length
  := by
  cases h with
  | unescaped h h₁ h₂ =>
    have hne : ∀ d : Char, d.toNat < 0x20 → c ≠ d := by
      rintro d hd rfl
      omega
    rw [shortForm, if_neg h₁, if_neg h₂, if_neg (hne _ (by decide)), if_neg (hne _ (by decide)),
      if_neg (hne _ (by decide)), if_neg (hne _ (by decide)), if_neg (hne _ (by decide)),
      if_neg (by omega)]
  | escaped h => apply h.length_shortForm_le
  | unicode h =>
    have := h.length
    have := length_shortForm_le_six c
    simp only [List.length_cons]
    omega
  | surrogatePair h =>
    have := h.length
    have := length_shortForm_le_six c
    simp only [List.length_append, List.length_cons]
    omega

/-- A form of a character is not empty. -/
theorem CharForm.length_pos {p : List UInt8} {c : Char} (h : CharForm p c) :
  0 < p.length
  := Nat.lt_of_lt_of_le (length_shortForm_pos c) (length_shortForm_le h)

/-- The shortest form of a string of characters. -/
def shortString (cs : List Char) : List UInt8 :=
  0x22 :: cs.flatMap shortForm ++ [0x22]

theorem Chars.shortForm :
  ∀ cs : List Char, Chars (cs.flatMap shortForm) cs
  | [] => .nil
  | c :: cs => .cons (.shortForm c) (Chars.shortForm cs)

theorem StringLit.shortString (cs : List Char) :
  StringLit (shortString cs) cs
  := by
  use cs.flatMap Json.shortForm, Chars.shortForm cs
  rfl

theorem Chars.length_shortForm_le :
  ∀ {b : List UInt8} {cs : List Char}, Chars b cs → (cs.flatMap Json.shortForm).length ≤ b.length
  | _, _, .nil => Nat.le_refl _
  | _, _, .cons hp hb => by
      have := Json.length_shortForm_le hp
      have := Chars.length_shortForm_le hb
      simp only [List.flatMap_cons, List.length_append]
      omega

/-- No literal of a string is shorter than its shortest form. -/
theorem StringLit.length_shortString_le {b : List UInt8} {cs : List Char} (h : StringLit b cs) :
  (Json.shortString cs).length ≤ b.length
  := by
  obtain ⟨body, hbody, rfl⟩ := h
  have := hbody.length_shortForm_le
  simp only [Json.shortString, List.length_append, List.length_cons]
  omega

/-! ### Compact objects -/

/-- Members without white space, each given by its name and the bytes of its value. -/
def compactMembers : List (List Char × List UInt8) → List UInt8
  | [] => []
  | [m] => shortString m.1 ++ [0x3A] ++ m.2
  | m :: ms => shortString m.1 ++ [0x3A] ++ m.2 ++ [0x2C] ++ compactMembers ms

/-- An object without white space. -/
def compactObject (ms : List (List Char × List UInt8)) : List UInt8 :=
  [0x7B] ++ compactMembers ms ++ [0x7D]

/-- A member given by its name and the bytes of its value. -/
def IsCompactMember (m : List Char × List UInt8) (v : List Char × Value) : Prop :=
  m.1 = v.1 ∧ Derives m.2 v.2

theorem Members.compact :
  ∀ {ms : List (List Char × List UInt8)} {vs : List (List Char × Value)},
    List.Forall₂ IsCompactMember ms vs → ms ≠ [] → Members (compactMembers ms) vs
  | [_], _, .cons hm .nil, _ => by
    obtain ⟨hname, hvalue⟩ := hm
    apply Members.last _ (.bare 0x3A) hvalue
    rw [hname]
    apply StringLit.shortString
  | m :: m' :: ms, _, .cons hm hms, _ => by
    obtain ⟨hname, hvalue⟩ := hm
    apply Members.more _ (.bare 0x3A) hvalue (.bare 0x2C)
    · apply Members.compact hms (List.cons_ne_nil m' ms)
    · rw [hname]
      apply StringLit.shortString

/-- A compact object is a text of the object. -/
theorem Text.compactObject {ms : List (List Char × List UInt8)} {vs : List (List Char × Value)}
    (h : List.Forall₂ IsCompactMember ms vs) (hne : ms ≠ []) :
  Text (compactObject ms) (.object vs)
  := by
  refine ⟨[], [], _, Ws.nil, Ws.nil, .object (.bare 0x7B) (.compact h hne) (.bare 0x7D), ?_⟩
  rw [List.nil_append, List.append_nil]
  rfl

/-- The size of a compact member and the structural character after it. -/
theorem length_compactMembers :
  ∀ {ms : List (List Char × List UInt8)}, ms ≠ [] →
    (compactMembers ms).length + 1
      = (ms.map fun m => (shortString m.1).length + m.2.length + 2).sum
  | [m], _ => by
    simp only [compactMembers, List.length_append, List.length_cons, List.length_nil,
      List.map_cons, List.map_nil, List.sum_cons, List.sum_nil]
    omega
  | m :: m' :: ms, _ => by
    have ih := length_compactMembers (List.cons_ne_nil m' ms)
    rw [compactMembers, List.map_cons, List.sum_cons, ← ih]
    · simp only [List.length_append, List.length_cons, List.length_nil]
      omega
    · rintro ⟨⟩

/-! ### Sizes -/

/-- The number of bytes that a value takes at least: that of the shortest form of a string, and
that of the decimal numeral of an integer. -/
def Value.size : Value → ℕ
  | .string cs => (shortString cs).length
  | .number n => if n.frac = none ∧ n.exp = none then (Decimal.integer n.intValue).length else 0
  | _ => 0

/-- The number of bytes that a member takes at least, with the structural character after it. -/
def memberSize (m : List Char × Value) : ℕ :=
  (shortString m.1).length + m.2.size + 2

/-- No literal of an integer is shorter than its decimal numeral. -/
theorem NumberLit.length_integer_le {b : List UInt8} {n : Number} (h : NumberLit b n)
    (hn : n.IsInteger) :
  (Decimal.integer n.intValue).length ≤ b.length
  := by
  obtain ⟨rfl, hint⟩ := h.of_isInteger hn
  have hnumeral := Decimal.numeral_value hint
  have hpos := List.length_pos_iff.mpr hint.ne_nil
  rw [Number.intValue, Decimal.integer]
  cases n.negative with
  | false =>
    simp only [Bool.false_eq_true, if_false, List.nil_append, Int.natAbs_natCast, hnumeral]
    rw [if_neg (by omega)]
  | true =>
    simp only [if_true, Int.natAbs_neg, Int.natAbs_natCast, hnumeral]
    split
    · simp only [List.length_cons, List.length_append, List.length_nil]
      omega
    · simp only [List.length_cons, List.length_append, List.length_nil]
      omega

theorem Derives.size_le {b : List UInt8} {v : Value} (h : Derives b v) :
  v.size ≤ b.length
  := by
  cases h with
  | string h => apply h.length_shortString_le
  | number h =>
    rw [Value.size]
    split
    · next hn => apply h.length_integer_le hn
    · apply Nat.zero_le
  | null | true | false | emptyArray | array | emptyObject | object => apply Nat.zero_le

theorem Members.size_le :
  ∀ {b : List UInt8} {ms : List (List Char × Value)}, Members b ms →
    (ms.map memberSize).sum ≤ b.length + 1
  | _, _, .last hk hs hb => by
    have hname := hk.length_shortString_le
    have hcolon := hs.length_pos
    have hvalue := hb.size_le
    simp only [List.map_cons, List.map_nil, List.sum_cons, List.sum_nil, memberSize,
      List.length_append]
    omega
  | _, _, .more hk hs hb ht hr => by
    have hname := hk.length_shortString_le
    have hcolon := hs.length_pos
    have hvalue := hb.size_le
    have hcomma := ht.length_pos
    have ih := Members.size_le hr
    simp only [List.map_cons, List.sum_cons, memberSize, List.length_append] at ih ⊢
    omega

/-- No text of an object is shorter than the sizes of its members add up to. -/
theorem Text.size_le {b : List UInt8} {ms : List (List Char × Value)} (h : Text b (.object ms)) :
  (ms.map memberSize).sum + 1 ≤ b.length
  := by
  obtain ⟨w₁, w₂, body, -, -, hbody, rfl⟩ := h
  cases hbody with
  | emptyObject ha hz =>
    have := ha.length_pos
    have := hz.length_pos
    simp only [List.map_nil, List.sum_nil, List.length_append]
    omega
  | object ha hb hz =>
    have := ha.length_pos
    have := hz.length_pos
    have := hb.size_le
    simp only [List.length_append]
    omega

end Json
