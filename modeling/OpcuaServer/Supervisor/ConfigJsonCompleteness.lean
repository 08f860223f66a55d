import OpcuaServer.Supervisor.ConfigJsonObject
import OpcuaServer.Supervisor.ConfigJsonRules

/-!
# What the grammar derives, the parser accepts

Each function of the parser consumes the bytes that the grammar gives for what it reads, white
space in front of it included, and returns what they denote.
-/

namespace OpcuaServer

namespace ConfigJsonParser

/-! ### White space and structural characters -/

/-- `skipWhitespace` consumes all the white space there is. -/
theorem accepts_skipWhitespace {w rest : Bytes} (hw : Json.Ws w)
    (hrest : ∀ ch ∈ rest.head?, isJsonWhitespace ch = false) :
  Accepts skipWhitespace () w rest
  := by
  apply Accepts.loop
  intro fuel hfuel
  induction w generalizing fuel with
  | nil =>
    apply Accepts.iterate_inr
    apply Accepts.test
    · apply Accepts.atByte_not hrest
    · apply Accepts.pure
  | cons ch w ih =>
    obtain ⟨fuel, rfl⟩ := Nat.exists_eq_add_of_le' hfuel
    have hch : isJsonWhitespace ch = true := isJsonWhitespace_iff.mpr (hw ch List.mem_cons_self)
    apply Accepts.iterate_inl (b := [ch]) (t := ())
    · apply Accepts.test
      · apply Accepts.atByte _ hch
      · apply Accepts.last
        · apply Accepts.advance
        · apply Accepts.pure
    · apply ih (fun b hb => hw b (List.mem_cons_of_mem _ hb))
      apply Nat.le_add_left

/-- `consume` takes the expected character with the white space in front of it. -/
theorem accepts_consume {w : Bytes} {expected : UInt8} (hw : Json.Ws w)
    (hexpected : isJsonWhitespace expected = false) (rest : Bytes) :
  Accepts (consume expected) true (w ++ [expected]) rest
  := by
  apply Accepts.bind
  · apply accepts_skipWhitespace hw
    rintro ch ⟨⟩
    apply hexpected
  · apply Accepts.test
    · apply Accepts.atByte (t := (· == expected)) rest (beq_self_eq_true expected)
    · apply Accepts.last
      · apply Accepts.advance
      · apply Accepts.pure

/-- `consume` takes nothing in front of another character. -/
theorem accepts_consume_not {expected ch : UInt8} {rest : Bytes} (hne : ch ≠ expected)
    (hch : isJsonWhitespace ch = false) :
  Accepts (consume expected) false [] (ch :: rest)
  := by
  apply Accepts.bind (b := [])
  · apply accepts_skipWhitespace Json.Ws.nil
    rintro _ ⟨⟩
    apply hch
  · apply Accepts.test
    · apply Accepts.atByte_not
      rintro _ ⟨⟩
      apply beq_false_of_ne hne
    · apply Accepts.pure

/-! ### Strings -/

/-- Where four bytes are left, the digits of a code unit are read. -/
theorem parseHexCodeUnit_apply {input : Bytes} {position : ℕ}
    (hsize : input.length + 4 < 2 ^ 64) (h : position + 4 ≤ input.length) :
  parseHexCodeUnit input position = hexDigits 4 0 input position
  := by
  rw [parseHexCodeUnit, bind_apply, positionPlus_apply hsize (by decide) (by omega)]
  simp only [bind_apply, size_apply]
  rw [if_neg (Nat.not_lt.mpr h)]

/-- A hexadecimal digit is appended to the value of the digits before it. -/
theorem accepts_hexDigits_succ {count value digit result : ℕ} {ch : UInt8} {b rest : Bytes}
    (hdigit : Json.HexDigit ch digit)
    (hrest : Accepts (hexDigits count (value * 16 + digit)) result b rest) :
  Accepts (hexDigits (count + 1) value) result (ch :: b) rest
  := by
  have hvalue : value <<< 4 ||| digit = value * 16 + digit := by
    rw [← Nat.shiftLeft_add_eq_or_of_lt hdigit.lt, Nat.shiftLeft_eq]
  apply Accepts.bind (b := [ch])
  · apply Accepts.next
  · rw [hexDigit_of_hexDigit hdigit, if_neg (by omega), Int.toNat_natCast, hvalue]
    apply hrest

/-- `parseHexCodeUnit` reads a code unit. -/
theorem accepts_parseHexCodeUnit {b : Bytes} {n : ℕ} (h : Json.CodeUnit b n) (rest : Bytes) :
  Accepts parseHexCodeUnit n b rest
  := by
  have hdigits : Accepts (hexDigits 4 0) n b rest := by
    cases h with
    | @mk b₁ b₂ b₃ b₄ n₁ n₂ n₃ n₄ h₁ h₂ h₃ h₄ =>
      have hn : ((n₁ * 16 + n₂) * 16 + n₃) * 16 + n₄
          = (((0 * 16 + n₁) * 16 + n₂) * 16 + n₃) * 16 + n₄ := by omega
      rw [hn]
      apply accepts_hexDigits_succ h₁
      apply accepts_hexDigits_succ h₂
      apply accepts_hexDigits_succ h₃
      apply accepts_hexDigits_succ h₄
      apply Accepts.pure
  intro input position hsize hdrop
  have hlength := congrArg List.length hdrop
  rw [List.length_drop, List.length_append, h.length] at hlength
  rw [parseHexCodeUnit_apply hsize (by omega)]
  apply hdigits input position hsize hdrop

/-- A high and a low surrogate are read to the code point of the pair. -/
theorem accepts_parseLowSurrogate {b : Bytes} {high low : ℕ} (h : Json.CodeUnit b low)
    (hl : 0xDC00 ≤ low) (hu : low ≤ 0xDFFF) (rest : Bytes) :
  Accepts (parseLowSurrogate high) (0x10000 + (high - 0xD800) * 0x400 + (low - 0xDC00))
    (0x5C :: 0x75 :: b) rest
  := by
  intro input position hsize hdrop
  have hdrop₁ := drop_succ hdrop
  have hlt₁ := lt_of_drop hdrop₁
  have hunit := accepts_parseHexCodeUnit h rest input _ hsize (drop_succ hdrop₁)
  have hle : position + 2 ≤ input.length := hlt₁
  have hread : read (position + 1) input position = .value 0x75 position := by
    rw [read, getElem?_of_drop hdrop₁]
  rw [parseLowSurrogate, bind_apply, positionPlus_apply hsize (by decide) (by omega)]
  simp only [bind_apply, size_apply]
  rw [if_neg (by omega), bind_apply, current_cons hdrop]
  simp only [ne_eq, not_true_eq_false, if_false, bind_apply]
  rw [positionPlus_apply hsize (by decide) (by omega)]
  simp only [hread, not_true_eq_false, if_false, bind_apply, setPosition_apply hle, hunit]
  rw [if_neg (by omega), pure_apply, Nat.shiftLeft_eq]
  congr 1
  simp only [List.length_cons]
  omega

/-- The two-byte escapes. -/
theorem accepts_parseEscape_simple {e : UInt8} {c : Char} (h : Json.SimpleEscape e c)
    (value rest : Bytes) :
  Accepts (parseEscape value) (value ++ String.utf8EncodeChar c) [e] rest
  := by
  apply Accepts.last
  · apply Accepts.next
  · cases h <;> apply Accepts.pure

/-- A `\u` escape of a scalar value other than NUL. -/
theorem accepts_parseEscape_unicode {b : Bytes} {c : Char} {rest : Bytes}
    (h : Accepts parseCodePoint c.toNat b rest) (hc : c ≠ '\x00') (value : Bytes) :
  Accepts (parseEscape value) (value ++ String.utf8EncodeChar c) (0x75 :: b) rest
  := by
  apply Accepts.bind (b := [0x75])
  · apply Accepts.next
  · apply Accepts.last h
    have hne : c.toNat ≠ 0 := by
      intro h0
      apply hc
      apply Char.toNat_inj.mp h0
    rw [if_neg hne, appendCodePoint_toNat]
    apply Accepts.pure

/-- A `\u` escape of a scalar value is no surrogate. -/
theorem accepts_parseCodePoint_unicode {b : Bytes} {c : Char} (h : Json.CodeUnit b c.toNat)
    (rest : Bytes) :
  Accepts parseCodePoint c.toNat b rest
  := by
  have hrange := Utf8.toNat_range c
  apply Accepts.last (accepts_parseHexCodeUnit h rest)
  rw [if_neg (by omega), if_neg (by omega)]
  apply Accepts.pure

/-- A pair of `\u` escapes of a high and a low surrogate. -/
theorem accepts_parseCodePoint_pair {b b' : Bytes} {high low : ℕ} (hhigh : Json.CodeUnit b high)
    (hlow : Json.CodeUnit b' low) (h₁ : 0xD800 ≤ high) (h₂ : high ≤ 0xDBFF) (h₃ : 0xDC00 ≤ low)
    (h₄ : low ≤ 0xDFFF) (rest : Bytes) :
  Accepts parseCodePoint (0x10000 + (high - 0xD800) * 0x400 + (low - 0xDC00))
    (b ++ 0x5C :: 0x75 :: b') rest
  := by
  apply Accepts.bind (accepts_parseHexCodeUnit hhigh _)
  rw [if_pos ⟨h₁, h₂⟩]
  apply accepts_parseLowSurrogate hlow h₃ h₄

/-- An iteration at a byte that it treats without going back. -/
theorem accepts_stringStep {value b rest : Bytes} {ch : UInt8} {r : Bytes ⊕ Bytes}
    (h : ∀ start, Accepts (stringByte value start ch) r b rest) :
  Accepts (stringStep value) r (ch :: b) rest
  := by
  intro input position hsize hdrop
  rw [stringStep_apply hdrop, h position input _ hsize (drop_succ hdrop), List.length_cons]
  congr 1
  omega

/-- A byte from `0x20` to `0x7F` other than the quotation mark and the backslash is taken as it
is. -/
theorem accepts_stringStep_ascii {c : Char} (h₁ : 0x20 ≤ c.toNat) (h₂ : c.toNat < 0x80)
    (hquote : c ≠ '"') (hbackslash : c ≠ '\\') (value rest : Bytes) :
  Accepts (stringStep value) (.inl (value ++ String.utf8EncodeChar c))
    (String.utf8EncodeChar c) rest
  := by
  have hbyte : (UInt8.ofNat c.toNat).toNat = c.toNat := by
    rw [UInt8.toNat_ofNat']
    omega
  have hne : ∀ d : Char, d.toNat < 0x80 → c ≠ d → UInt8.ofNat c.toNat ≠ UInt8.ofNat d.toNat := by
    intro d hd hcd heq
    have := congrArg UInt8.toNat heq
    rw [hbyte, UInt8.toNat_ofNat', Nat.mod_eq_of_lt (by omega)] at this
    apply hcd (Char.toNat_inj.mp this)
  have hquote' : UInt8.ofNat c.toNat ≠ 0x22 := hne '"' (by decide) hquote
  have hbackslash' : UInt8.ofNat c.toNat ≠ 0x5C := hne '\\' (by decide) hbackslash
  have hle : ¬ UInt8.ofNat c.toNat < 0x20 := by
    rw [UInt8.lt_iff_toNat_lt, hbyte]
    simpa using h₁
  have hlt : ¬ UInt8.ofNat c.toNat ≥ 0x80 := by
    rw [ge_iff_le, UInt8.le_iff_toNat_le, hbyte]
    simpa using h₂
  rw [Utf8.utf8EncodeChar_one h₂]
  apply accepts_stringStep
  intro start
  rw [stringByte, if_neg hquote', if_neg hle, if_neg hlt, if_pos hbackslash']
  apply Accepts.pure

/-- The encoding of a character from `0x80` on is taken as it is. -/
theorem accepts_stringStep_encode {c : Char} (h : 0x80 ≤ c.toNat) (value rest : Bytes) :
  Accepts (stringStep value) (.inl (value ++ String.utf8EncodeChar c))
    (String.utf8EncodeChar c) rest
  := by
  intro input position hsize hdrop
  obtain ⟨ch, bs, hch, hle⟩ := head_utf8EncodeChar h
  have hcons : input.drop position = ch :: (bs ++ rest) := by rw [hdrop, hch]; rfl
  have hpos := lt_of_drop hcons
  have hvalid := validUtf8SequenceLength_encode hdrop h
  have hlength : (String.utf8EncodeChar c).length ≤ 4 := by
    rw [String.length_utf8EncodeChar]
    apply c.utf8Size_le_four
  have hne : (String.utf8EncodeChar c).length ≠ 0 := by
    rw [hch]
    simp
  have hstop : position + (String.utf8EncodeChar c).length ≤ input.length := by
    have := congrArg List.length hdrop
    rw [List.length_drop, List.length_append] at this
    omega
  have hquote : ch ≠ 0x22 := by
    rintro rfl
    simp at hle
  have hge : ch ≥ 0x80 := UInt8.le_iff_toNat_le.mpr hle
  have hnlt : ¬ ch < 0x20 := by
    rw [UInt8.lt_iff_toNat_lt]
    simp only [UInt8.reduceToNat]
    omega
  rw [stringStep_apply hcons, stringByte, if_neg hquote, if_neg hnlt, if_pos hge]
  simp only [bind_apply, setPosition_apply hpos.le, sequenceLength_apply hsize hpos.le hvalid]
  rw [if_neg hne]
  simp only [bind_apply, bytes_apply, positionPlus_apply hsize hlength hpos.le,
    setPosition_apply hstop, pure_apply, hdrop, List.take_left]

/-- An iteration of the loop of `parseString` reads a character other than NUL. -/
theorem accepts_stringStep_char {p : Bytes} {c : Char} (h : Json.CharForm p c) (hc : c ≠ '\x00')
    (value rest : Bytes) :
  Accepts (stringStep value) (.inl (value ++ String.utf8EncodeChar c)) p rest
  := by
  have hescape : ∀ {b : Bytes} {ch : UInt8},
      Accepts (parseEscape value) (value ++ String.utf8EncodeChar c) (ch :: b) rest →
      Accepts (stringStep value) (.inl (value ++ String.utf8EncodeChar c)) (0x5C :: ch :: b) rest
      := by
    intro b ch hb
    apply accepts_stringStep
    intro start
    apply Accepts.test
    · apply Accepts.atEnd
    · apply Accepts.last hb
      apply Accepts.pure
  cases h with
  | unescaped h₁ hquote hbackslash =>
    by_cases h₂ : c.toNat < 0x80
    · apply accepts_stringStep_ascii h₁ h₂ hquote hbackslash
    · apply accepts_stringStep_encode (by omega)
  | escaped h =>
    apply hescape
    apply accepts_parseEscape_simple h
  | unicode h =>
    apply hescape
    apply accepts_parseEscape_unicode _ hc
    apply accepts_parseCodePoint_unicode h
  | surrogatePair hhigh hlow h₁ h₂ h₃ h₄ hvalue =>
    apply hescape
    apply accepts_parseEscape_unicode _ hc
    rw [hvalue]
    apply accepts_parseCodePoint_pair hhigh hlow h₁ h₂ h₃ h₄

/-- The closing quotation mark ends the loop of `parseString`. -/
theorem accepts_stringStep_quote (value rest : Bytes) :
  Accepts (stringStep value) (.inr value) [0x22] rest
  := by
  apply accepts_stringStep
  intro start
  apply Accepts.pure

/-- The loop of `parseString` reads characters up to the closing quotation mark. -/
theorem accepts_stringLoop {body : Bytes} {cs : List Char} (h : Json.Chars body cs)
    (hnul : '\x00' ∉ cs) (rest : Bytes) :
  ∀ value fuel, body.length ≤ fuel →
    Accepts (iterate stringStep (fuel + 1) value) (value ++ Utf8.encode cs) (body ++ [0x22]) rest
  := by
  induction h with
  | nil =>
    intro value fuel _
    rw [Utf8.encode_nil, List.append_nil]
    apply Accepts.iterate_inr (accepts_stringStep_quote value rest)
  | @cons p b c cs hp hb ih =>
    intro value fuel hfuel
    have hc : c ≠ '\x00' := fun hc => hnul (hc ▸ List.mem_cons_self)
    have hpos := hp.length_pos
    rw [List.length_append] at hfuel
    obtain ⟨fuel, rfl⟩ := Nat.exists_eq_add_of_le' (show 1 ≤ fuel by omega)
    rw [Utf8.encode_cons, ← List.append_assoc, List.append_assoc p]
    apply Accepts.iterate_inl
    · apply accepts_stringStep_char hp hc
    · apply ih (fun hmem => hnul (List.mem_cons_of_mem _ hmem))
      omega

/-- `parseString` reads a string literal without NUL. -/
theorem accepts_parseString {w lit : Bytes} {cs : List Char} (hw : Json.Ws w)
    (h : Json.StringLit lit cs) (hnul : '\x00' ∉ cs) (rest : Bytes) :
  Accepts parseString (Utf8.encode cs) (w ++ lit) rest
  := by
  obtain ⟨body, hbody, rfl⟩ := h
  apply Accepts.bind
  · apply accepts_skipWhitespace hw
    rintro _ ⟨⟩
    rfl
  · apply Accepts.test
    · apply Accepts.atByte
      rfl
    · apply Accepts.bind (b := [0x22])
      · apply Accepts.advance
      · apply Accepts.loop
        intro fuel hfuel
        apply accepts_stringLoop hbody hnul rest []
        apply Nat.le_trans (List.sublist_append_left body [0x22]).length_le hfuel

/-! ### Integers -/

/-- `scanMinus` takes the minus sign of an integer. -/
theorem accepts_scanMinus (negative : Bool) {ds rest : Bytes} (h : Decimal.IsInt ds) :
  Accepts scanMinus () (if negative then [0x2D] else []) (ds ++ rest)
  := by
  cases negative with
  | true =>
    apply Accepts.test
    · apply Accepts.atByte
      rfl
    · apply Accepts.advance
  | false =>
    apply Accepts.test
    · apply Accepts.atByte_not
      intro ch hch
      have hdigit := h.isDigit_head hch
      apply beq_eq_false_iff_ne.mpr
      rintro rfl
      revert hdigit
      decide
    · apply Accepts.pure

/-- The loop of `scanDigits` takes all the digits there are. -/
theorem accepts_digitLoop {ds rest : Bytes} (hds : ∀ d ∈ ds, Decimal.IsDigit d)
    (hrest : ∀ ch ∈ rest.head?, ¬ Decimal.IsDigit ch) :
  Accepts (loop (fun _ => do
    if ← atDigit then
      advance
      return .inl ()
    else return .inr ()) ()) () ds rest
  := by
  apply Accepts.loop
  intro fuel hfuel
  induction ds generalizing fuel with
  | nil =>
    apply Accepts.iterate_inr
    apply Accepts.test
    · apply Accepts.atByte_not
      intro ch hch
      apply decide_eq_false (hrest ch hch)
    · apply Accepts.pure
  | cons d ds ih =>
    obtain ⟨fuel, rfl⟩ := Nat.exists_eq_add_of_le' hfuel
    apply Accepts.iterate_inl (b := [d]) (t := ())
    · apply Accepts.test
      · apply Accepts.atByte
        apply decide_eq_true (hds d List.mem_cons_self)
      · apply Accepts.last
        · apply Accepts.advance
        · apply Accepts.pure
    · apply ih (fun b hb => hds b (List.mem_cons_of_mem _ hb))
      apply Nat.le_add_left

/-- `scanDigits` takes the digits of an integer. -/
theorem accepts_scanDigits {ds rest : Bytes} (h : Decimal.IsInt ds)
    (hrest : ∀ ch ∈ rest.head?, ¬ Decimal.IsDigit ch) :
  Accepts scanDigits () ds rest
  := by
  have hdigit := h.isDigit
  rcases h with rfl | ⟨d, ds, rfl, hd, hne, -⟩
  · apply Accepts.test
    · apply Accepts.atByte
      rfl
    · apply Accepts.test
      · apply Accepts.current
      · apply Accepts.last
        · apply Accepts.advance
        · apply Accepts.test
          · apply Accepts.atByte_not
            intro ch hch
            apply decide_eq_false (hrest ch hch)
          · apply Accepts.pure
  · apply Accepts.test
    · apply Accepts.atByte
      apply decide_eq_true hd
    · apply Accepts.test
      · apply Accepts.current
      · rw [if_neg hne]
        apply accepts_digitLoop hdigit hrest

/-- A number does not start with white space. -/
theorem not_isJsonWhitespace_of_integer {ds rest : Bytes} (h : Decimal.IsInt ds) (negative : Bool)
    {ch : UInt8} (hch : ch ∈ (((if negative then [0x2D] else []) ++ ds) ++ rest).head?) :
  isJsonWhitespace ch = false ∧ ch ≠ 0x22
  := by
  cases negative with
  | true =>
    cases hch
    decide
  | false =>
    have hdigit := Decimal.isDigit_iff.mp (h.isDigit_head hch)
    constructor
    · rw [← Bool.not_eq_true, isJsonWhitespace_iff]
      rintro (rfl | rfl | rfl | rfl)
      all_goals
        revert hdigit
        decide
    · rintro rfl
      revert hdigit
      decide

/-- `parseInteger` reads a number that is written as an integer in the range of `int`. -/
theorem accepts_parseInteger {w b rest : Bytes} {n : Json.Number} {value : Int32} (hw : Json.Ws w)
    (h : Json.NumberLit b n) (hn : n.IsInteger) (hvalue : value.toInt = n.intValue)
    (hrest : ∀ ch ∈ rest.head?, ¬ Decimal.IsDigit ch) :
  Accepts parseInteger value (w ++ b) rest
  := by
  obtain ⟨hb, hint⟩ := h.of_isInteger hn
  subst hb
  apply Accepts.bind
  · apply accepts_skipWhitespace hw
    intro ch hch
    apply (not_isJsonWhitespace_of_integer hint n.negative hch).1
  · intro input position hsize hdrop
    have hdrop' := hdrop
    rw [List.append_assoc] at hdrop'
    have hminus := accepts_scanMinus n.negative hint input position hsize hdrop'
    have hdigits := accepts_scanDigits hint hrest input _ hsize
      (by rw [← List.drop_drop, hdrop', List.drop_left])
    have hnumeral := stdFromChars_numeral n.negative hint.ne_nil hint.isDigit
    have hlength := congrArg List.length hdrop'
    rw [List.length_drop, List.length_append, List.length_append] at hlength
    have hpos := List.length_pos_iff.mpr hint.ne_nil
    rw [← Json.Number.intValue, ← hvalue, toInt32_toInt, Option.map_some] at hnumeral
    have hstart : position ≤ input.length := by omega
    have hstop : position + (if n.negative then [0x2D] else ([] : Bytes)).length + n.int.length
        ≤ input.length := by omega
    simp only [bind_apply, position_apply, hminus, hdigits, setPosition_apply hstart,
      setPosition_apply hstop, bytes_apply]
    rw [Nat.add_assoc, ← List.length_append, Nat.add_sub_cancel_left, hdrop, List.take_left,
      hnumeral]
    rfl

/-! ### Objects -/

/-- What does not start with white space does not start with white space in a longer text. -/
theorem not_isJsonWhitespace_cons {ch : UInt8} {rest : Bytes} (h : isJsonWhitespace ch = false) :
  ∀ c ∈ (ch :: rest).head?, isJsonWhitespace c = false
  := by
  rintro _ ⟨⟩
  apply h

/-- After a value comes white space or a structural character, but no digit. -/
theorem not_isDigit_of_ws {w : Bytes} {ch : UInt8} {rest : Bytes} (hw : Json.Ws w)
    (hch : ¬ Decimal.IsDigit ch) :
  ∀ c ∈ (w ++ ch :: rest).head?, ¬ Decimal.IsDigit c
  := by
  cases w with
  | nil =>
    rintro _ ⟨⟩
    apply hch
  | cons c w =>
    rintro _ ⟨⟩
    rcases hw c List.mem_cons_self with rfl | rfl | rfl | rfl <;> decide

/-- `parseValue` reads a string without NUL and an integer in the range of `int`. -/
theorem accepts_parseValue {w b rest : Bytes} {v : Json.Value} {value : JsonValue} (hw : Json.Ws w)
    (h : Json.Derives b v) (hvalue : JsonValue.Decodes v value)
    (hrest : ∀ ch ∈ rest.head?, ¬ Decimal.IsDigit ch) :
  Accepts parseValue value (w ++ b) rest
  := by
  cases hvalue with
  | string hnul =>
    cases h with
    | string hlit =>
      have hstring := accepts_parseString Json.Ws.nil hlit hnul rest
      obtain ⟨body, -, rfl⟩ := hlit
      apply Accepts.bind
      · apply accepts_skipWhitespace hw
        apply not_isJsonWhitespace_cons
        rfl
      · apply Accepts.test
        · apply Accepts.atByte
          rfl
        · apply Accepts.last hstring
          apply Accepts.pure
  | integer hn hint =>
    cases h with
    | number hlit =>
      have hinteger := accepts_parseInteger Json.Ws.nil hlit hn hint hrest
      obtain ⟨hb, hds⟩ := hlit.of_isInteger hn
      subst hb
      apply Accepts.bind
      · apply accepts_skipWhitespace hw
        intro ch hch
        apply (not_isJsonWhitespace_of_integer hds _ hch).1
      · apply Accepts.test
        · apply Accepts.atByte_not
          intro ch hch
          apply beq_eq_false_iff_ne.mpr
          apply (not_isJsonWhitespace_of_integer hds _ hch).2
        · apply Accepts.last hinteger
          apply Accepts.pure

/-- An iteration of the loop of `parseObject` reads a member and the character after it. -/
theorem accepts_memberStep {object : JsonObject} {r : JsonObject ⊕ JsonObject} {b : Bytes}
    (h : MemberForm object r b) (rest : Bytes) :
  Accepts (memberStep object) r b rest
  := by
  obtain ⟨he, hknown, hnew, hw, hk, hw₁, hw₂, hb, hw₃, hch⟩ := h
  rename_i m e w k w₁ w₂ b w₃ ch
  obtain ⟨key, value⟩ := e
  obtain ⟨hkey, hvalue⟩ := he
  have hfield : isKnownField key = true := by
    rw [show key = Utf8.encode m.1 from hkey, isKnownField_iff]
    apply hknown
  have hnul := (ServerConfig.encode_jsonNames _ hknown).2
  have hdigit : ¬ Decimal.IsDigit ch := by cases hch <;> decide
  have hws : isJsonWhitespace ch = false := by cases hch <;> rfl
  rw [show key = Utf8.encode m.1 from hkey] at hfield hnew hch
  apply Accepts.bind
  · apply accepts_parseString hw hk hnul
  · simp only [hfield, Bool.not_true, Bool.false_eq_true, if_false]
    apply Accepts.bind
    · apply accepts_consume hw₁ rfl
    · simp only [Bool.not_true, Bool.false_eq_true, if_false]
      apply Accepts.bind
      · apply accepts_parseValue hw₂ hb hvalue
        rw [List.append_assoc]
        apply not_isDigit_of_ws hw₃ hdigit
      · rw [JsonObject.emplace_eq_some_iff.mpr ⟨hnew, rfl⟩]
        apply Accepts.bind
        · apply accepts_skipWhitespace hw₃
          apply not_isJsonWhitespace_cons hws
        · cases hch with
          | comma =>
            apply Accepts.test
            · apply accepts_consume_not
              · decide
              · rfl
            · apply Accepts.last
              · apply accepts_consume Json.Ws.nil rfl
              · apply Accepts.pure
          | brace =>
            apply Accepts.last
            · apply accepts_consume Json.Ws.nil rfl
            · apply Accepts.pure

/-- The loop of `parseObject` reads the members up to the closing brace. -/
theorem accepts_memberLoop {w' : Bytes} (hw' : Json.Ws w') (rest : Bytes) :
  ∀ {b : Bytes} {ms : List (List Char × Json.Value)}, Json.Members b ms →
    ∀ {object o : JsonObject}, JsonObject.Decodes ms o →
    (∀ m ∈ ms, m.1 ∈ ServerConfig.jsonNames) → ((object ++ o).map Prod.fst).Nodup →
    ∀ {w : Bytes} {fuel : ℕ}, Json.Ws w → (w ++ (b ++ (w' ++ [0x7D]))).length ≤ fuel →
      Accepts (iterate memberStep (fuel + 1) object) (object ++ o) (w ++ (b ++ (w' ++ [0x7D]))) rest
  | _, _, .last hk hs hb, object, _, .cons he .nil, hknown, hnodup, w, fuel, hw, hfuel => by
    obtain ⟨w₁, w₂, hw₁, hw₂, rfl⟩ := hs
    have hstep := accepts_memberStep (.mk he (hknown _ List.mem_cons_self)
      (JsonObject.not_mem_of_nodup_append hnodup) hw hk hw₁ hw₂ hb hw' .brace) rest
    simp only [List.append_assoc, List.cons_append, List.nil_append] at hstep ⊢
    apply Accepts.iterate_inr hstep
  | _, _, .more (r := r) hk hs hb ht hr, object, _, @List.Forall₂.cons _ _ _ _ e _ o he ho, hknown,
      hnodup, w, fuel, hw, hfuel => by
    obtain ⟨w₁, w₂, hw₁, hw₂, rfl⟩ := hs
    obtain ⟨w₃, w₄, hw₃, hw₄, rfl⟩ := ht
    simp only [List.append_assoc, List.cons_append, List.length_append,
      List.length_cons, List.length_nil] at hfuel
    obtain ⟨fuel, rfl⟩ := Nat.exists_eq_add_of_le' (show 1 ≤ fuel by omega)
    have hnodup' : ((object ++ [e] ++ o).map Prod.fst).Nodup := by
      rw [List.append_assoc]
      apply hnodup
    have hstep := accepts_memberStep (.mk he (hknown _ List.mem_cons_self)
      (JsonObject.not_mem_of_nodup_append hnodup) hw hk hw₁ hw₂ hb hw₃ .comma)
    have hfuel' : (w₄ ++ (r ++ (w' ++ [0x7D]))).length ≤ fuel := by
      simp only [List.length_append, List.length_cons, List.length_nil]
      omega
    have hloop := accepts_memberLoop hw' rest hr ho
      (fun m hm => hknown m (List.mem_cons_of_mem _ hm)) hnodup' hw₄ hfuel'
    have hiterate := Accepts.iterate_inl (hstep _) hloop
    simp only [List.append_assoc, List.cons_append, List.nil_append] at hiterate ⊢
    apply hiterate

/-- `parseObject` reads an object whose members are named by different fields. -/
theorem accepts_parseObject {w a b z w' : Bytes} {ms : List (List Char × Json.Value)}
    {object : JsonObject} (hw : Json.Ws w) (ha : Json.Structural 0x7B a) (hb : Json.Members b ms)
    (hz : z = w' ++ [0x7D]) (hw' : Json.Ws w') (hms : JsonObject.Decodes ms object)
    (hknown : ∀ m ∈ ms, m.1 ∈ ServerConfig.jsonNames) (hnodup : (ms.map Prod.fst).Nodup)
    (rest : Bytes) :
  Accepts parseObject object (w ++ (a ++ (b ++ z))) rest
  := by
  obtain ⟨w₁, w₂, hw₁, hw₂, rfl⟩ := ha
  obtain ⟨body, hhead⟩ := hb.head
  subst hz
  have hobject := hms.nodup hnodup
  have hloop : Accepts (loop memberStep []) object (b ++ (w' ++ [0x7D])) rest := by
    apply Accepts.loop
    intro fuel hfuel
    have hnodup' : ((([] : JsonObject) ++ object).map Prod.fst).Nodup := hobject
    apply accepts_memberLoop hw' rest hb hms hknown hnodup' Json.Ws.nil hfuel
  have hchain : Accepts parseObject object
      ((w ++ w₁ ++ [0x7B]) ++ (w₂ ++ (b ++ (w' ++ [0x7D])))) rest := by
    apply Accepts.bind
    · apply accepts_consume (hw.append hw₁) rfl
    · simp only [Bool.not_true, Bool.false_eq_true, if_false]
      apply Accepts.bind
      · apply accepts_skipWhitespace hw₂
        rw [hhead]
        apply not_isJsonWhitespace_cons
        rfl
      · apply Accepts.test
        · rw [hhead]
          apply accepts_consume_not
          · decide
          · rfl
        · apply hloop
  simp only [List.append_assoc, List.cons_append, List.nil_append] at hchain ⊢
  apply hchain

/-- `parse` accepts the JSON texts of at most 65536 bytes that denote a configuration. -/
theorem run_of_text {input : Bytes} {ms : List (List Char × Json.Value)} {config : ServerConfig}
    (hsize : input.length ≤ kMaxConfigJsonBytes) (h : Json.Text input (.object ms))
    (hconfig : ServerConfig.Denotes ms config) :
  run input = .ok config
  := by
  obtain ⟨object, hobject⟩ := exists_decodes_of_denotes hconfig
  have hnodup : (ms.map Prod.fst).Nodup :=
    hconfig.names.nodup_iff.mpr ServerConfig.nodup_jsonNames
  have hknown : ∀ m ∈ ms, m.1 ∈ ServerConfig.jsonNames := by
    intro m hm
    apply hconfig.names.mem_iff.mp (List.mem_map_of_mem hm)
  have hbuild := (buildConfig_eq_ok_iff_denotes hobject hknown hnodup).mpr hconfig
  have hlarge : input.length + 4 < 2 ^ 64 := by
    rw [kMaxConfigJsonBytes] at hsize
    omega
  obtain ⟨w₁, w₂, body, hw₁, hw₂, hbody, hinput⟩ := h
  cases hbody with
  | emptyObject ha hz =>
    have := hconfig.names.length_eq
    cases this
  | @object a b z _ ha hb hz =>
    obtain ⟨w₃, w₄, hw₃, hw₄, rfl⟩ := hz
    have hdrop : input.drop 0
        = (w₁ ++ (a ++ (b ++ (w₃ ++ [0x7D])))) ++ ((w₄ ++ w₂) ++ []) := by
      rw [hinput]
      simp only [List.drop_zero, List.append_assoc, List.cons_append, List.nil_append,
        List.append_nil]
    have hparse := accepts_parseObject hw₁ ha hb rfl hw₃ hobject hknown hnodup _ input 0 hlarge
      hdrop
    have hws : Accepts skipWhitespace () (w₄ ++ w₂) [] :=
      accepts_skipWhitespace (hw₄.append hw₂) (by rintro _ ⟨⟩)
    have hskip := hws input _ hlarge (by rw [← List.drop_drop, hdrop, List.drop_left])
    have hend := congrArg List.length hdrop
    rw [List.drop_zero, List.length_append, List.append_nil] at hend
    simp only [run, parse, bind_apply, size_apply, if_neg (Nat.not_lt.mpr hsize), gt_iff_lt, hparse,
      hskip, position_apply]
    rw [if_neg (by omega), hbuild]
    rfl

end ConfigJsonParser

end OpcuaServer
