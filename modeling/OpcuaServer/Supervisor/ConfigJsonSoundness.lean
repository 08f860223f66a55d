import OpcuaServer.Library.JsonUnambiguous
import OpcuaServer.Supervisor.ConfigJsonCompleteness
import OpcuaServer.Supervisor.ConfigJsonRules

/-!
# What the parser accepts, the grammar derives

Where a function of the parser returns a value, the bytes it has consumed are those of a
production of the grammar, with white space in front of them, and the value is what they denote.
-/

namespace OpcuaServer

namespace ConfigJsonParser

/-! ### White space and structural characters -/

theorem yields_skipWhitespace :
  Yields skipWhitespace fun _ b => Json.Ws b
  := by
  apply Yields.loop (R := fun _ _ b => Json.Ws b)
  intro _
  apply Yields.ifByte
  · intro ch hch
    apply Yields.pure
    intro _ b hb
    apply Json.Ws.append _ hb
    intro c hc
    obtain rfl := List.mem_singleton.mp hc
    apply isJsonWhitespace_iff.mp hch
  · apply Yields.pure
    apply Json.Ws.nil

theorem yields_consume (expected : UInt8) :
  Yields (consume expected) fun r b =>
    ∃ w, Json.Ws w ∧ b = if r then w ++ [expected] else w
  := by
  apply Yields.bind yields_skipWhitespace
  intro _ w hw
  apply Yields.ifByte
  · intro ch hch
    apply Yields.pure
    use w, hw
    rw [if_pos rfl, beq_iff_eq.mp hch]
  · apply Yields.pure
    use w, hw
    simp

/-! ### Strings -/

/-- A digit and the digits after it. -/
theorem yields_hexDigits_succ {count value : ℕ} {R : ℕ → Bytes → Prop}
    (h : ∀ ch n, Json.HexDigit ch n →
      Yields (hexDigits count (value * 16 + n)) fun a b => R a (ch :: b)) :
  Yields (hexDigits (count + 1) value) R
  := by
  apply Yields.bind Yields.next
  rintro ch _ rfl
  dsimp only
  split
  · apply Yields.fail
  · next hdigit =>
    have hhex := hexDigit_of_nonneg hdigit
    have hvalue : value <<< 4 ||| (hexDigit ch).toNat = value * 16 + (hexDigit ch).toNat := by
      rw [← Nat.shiftLeft_add_eq_or_of_lt (i := 4) hhex.lt, Nat.shiftLeft_eq]
    rw [hvalue]
    apply h ch _ hhex

theorem yields_parseHexCodeUnit :
  Yields parseHexCodeUnit fun n b => Json.CodeUnit b n
  := by
  have hdigits : Yields (hexDigits 4 0) fun n b => Json.CodeUnit b n := by
    apply yields_hexDigits_succ
    intro b₁ n₁ h₁
    apply yields_hexDigits_succ
    intro b₂ n₂ h₂
    apply yields_hexDigits_succ
    intro b₃ n₃ h₃
    apply yields_hexDigits_succ
    intro b₄ n₄ h₄
    apply Yields.pure
    have hmk := Json.CodeUnit.mk h₁ h₂ h₃ h₄
    rw [← Nat.zero_add n₁, ← Nat.zero_mul 16] at hmk
    apply hmk
  apply Yields.bind (Yields.positionPlus 4)
  rintro _ _ rfl
  apply Yields.bind Yields.size
  rintro _ _ rfl
  split
  · apply Yields.fail
  · apply hdigits

theorem yields_parseLowSurrogate (high : ℕ) :
  Yields (parseLowSurrogate high) fun n b => ∃ l low, b = 0x5C :: 0x75 :: l ∧
    Json.CodeUnit l low ∧ 0xDC00 ≤ low ∧ low ≤ 0xDFFF ∧
    n = 0x10000 + (high - 0xD800) * 0x400 + (low - 0xDC00)
  := by
  intro input position n position' hrun
  rw [parseLowSurrogate, bind_apply] at hrun
  split at hrun
  · next stop q hstop =>
    obtain ⟨rfl, rfl⟩ := positionPlus_inv hstop
    simp only [bind_apply, size_apply] at hrun
    split at hrun
    · cases hrun
    · next hsize =>
      obtain ⟨c₀, c₁, rest, hdrop⟩ := exists_drop_of_two (Nat.not_lt.mp hsize)
      have hread : read (q + 1) input q = .value c₁ q := by
        rw [read, getElem?_of_drop (drop_succ hdrop)]
      simp only [bind_apply, current_cons hdrop] at hrun
      split at hrun
      · cases hrun
      · next h₀ =>
        rw [bind_apply] at hrun
        split at hrun
        · next index q' hindex =>
          obtain ⟨rfl, rfl⟩ := positionPlus_inv hindex
          simp only [bind_apply, hread] at hrun
          split at hrun
          · cases hrun
          · next h₁ =>
            have hlow : Yields (do
                let low ← parseHexCodeUnit
                if low < 0xDC00 ∨ low > 0xDFFF then fail (ascii "invalid low surrogate")
                else return 0x10000 + (high - 0xD800) <<< 10 + (low - 0xDC00))
                fun n b => ∃ low, Json.CodeUnit b low ∧ 0xDC00 ≤ low ∧ low ≤ 0xDFFF ∧
                  n = 0x10000 + (high - 0xD800) * 0x400 + (low - 0xDC00) := by
              apply Yields.bind yields_parseHexCodeUnit
              intro low b hlow
              split
              · apply Yields.fail
              · next hrange =>
                apply Yields.pure
                rw [List.append_nil, Nat.shiftLeft_eq]
                use low, hlow
                omega
            rw [bind_apply] at hrun
            split at hrun
            · next hset =>
              obtain ⟨rfl, -⟩ := setPosition_inv hset
              obtain ⟨l, hl, low, hunit, hle, hge, hn⟩ := hlow input (q' + 2) n position' hrun
              use 0x5C :: 0x75 :: l
              constructor
              · rw [hdrop, not_not.mp h₀, not_not.mp h₁, List.cons_append, List.cons_append, ← hl]
                rw [← drop_succ (drop_succ hdrop)]
              · use l, low, rfl, hunit
            · cases hrun
            · cases hrun
        · cases hrun
        · cases hrun
  · cases hrun
  · cases hrun

/-- The code point of a `\u` escape is a scalar value. -/
theorem yields_parseCodePoint :
  Yields parseCodePoint fun n b => ∃ c : Char, c.toNat = n ∧ Json.CharForm (0x5C :: 0x75 :: b) c
  := by
  apply Yields.bind yields_parseHexCodeUnit
  intro high b hhigh
  have hlt := hhigh.lt
  split
  · next hrange =>
    apply (yields_parseLowSurrogate high).mono
    rintro n _ ⟨l, low, rfl, hlow, hle, hge, hn⟩
    have hvalid : n.isValidChar := by
      right
      omega
    have hchar := Utf8.toNat_ofNat hvalid
    use Char.ofNat n, hchar
    apply Json.CharForm.surrogatePair hhigh hlow hrange.1 hrange.2 hle hge (hchar.trans hn)
  · split
    · apply Yields.fail
    · apply Yields.pure
      rw [List.append_nil]
      have hvalid : high.isValidChar := by
        rw [Nat.isValidChar]
        omega
      use Char.ofNat high, Utf8.toNat_ofNat hvalid
      apply Json.CharForm.unicode
      rw [Utf8.toNat_ofNat hvalid]
      apply hhigh

/-- An escape appends the character it denotes. -/
theorem yields_parseEscape (value : Bytes) :
  Yields (parseEscape value) fun v b => ∃ c, c ≠ '\x00' ∧ v = value ++ String.utf8EncodeChar c ∧
    Json.CharForm (0x5C :: b) c
  := by
  have hsimple : ∀ {e : UInt8} {c : Char} {v : Bytes}, Json.SimpleEscape e c → c ≠ '\x00' →
      v = value ++ String.utf8EncodeChar c → Yields (pure v) fun v b => ∃ c, c ≠ '\x00' ∧
        v = value ++ String.utf8EncodeChar c ∧ Json.CharForm (0x5C :: ([e] ++ b)) c := by
    intro e c v h hc hv
    apply Yields.pure
    use c, hc, hv
    apply Json.CharForm.escaped h
  apply Yields.bind Yields.next
  rintro ch _ rfl
  split_ifs with h₁ h₂ h₃ h₄ h₅ h₆ h₇
  · rcases h₁ with rfl | rfl | rfl
    · exact hsimple .quotationMark (by decide) rfl
    · exact hsimple .reverseSolidus (by decide) rfl
    · exact hsimple .solidus (by decide) rfl
  · subst h₂
    exact hsimple .backspace (by decide) rfl
  · subst h₃
    exact hsimple .formFeed (by decide) rfl
  · subst h₄
    exact hsimple .lineFeed (by decide) rfl
  · subst h₅
    exact hsimple .carriageReturn (by decide) rfl
  · subst h₆
    exact hsimple .tab (by decide) rfl
  · apply Yields.bind yields_parseCodePoint
    rintro n b ⟨c, rfl, hform⟩
    split
    · apply Yields.fail
    · next hne =>
      apply Yields.pure
      use c
      constructor
      · rintro rfl
        apply hne
        rfl
      · use appendCodePoint_toNat c value
        rw [List.append_nil, h₇]
        apply hform
  · apply Yields.fail

/-- What an iteration of the loop of `parseString` does: it reads a character, or the closing
quotation mark. -/
def IsStringStep (value : Bytes) : Bytes ⊕ Bytes → Bytes → Prop
  | .inl v, b => ∃ c, c ≠ '\x00' ∧ v = value ++ String.utf8EncodeChar c ∧ Json.CharForm b c
  | .inr v, b => v = value ∧ b = [0x22]

/-- A byte below `0x80` that is no quotation mark, no backslash and no control character. -/
theorem isStringStep_ascii {value : Bytes} {ch : UInt8} (hquote : ch ≠ 0x22)
    (hbackslash : ch ≠ 0x5C) (hlow : ¬ ch < 0x20) (hhigh : ¬ ch ≥ 0x80) :
  IsStringStep value (.inl (value ++ [ch])) [ch]
  := by
  have hle : 0x20 ≤ ch.toNat := UInt8.le_iff_toNat_le.mp (UInt8.not_lt.mp hlow)
  have hlt : ch.toNat < 0x80 := UInt8.lt_iff_toNat_lt.mp (UInt8.not_le.mp hhigh)
  have hnat : (Char.ofNat ch.toNat).toNat = ch.toNat := Utf8.toNat_ofNat (by
    left
    omega)
  have hencode : String.utf8EncodeChar (Char.ofNat ch.toNat) = [ch] := by
    rw [Utf8.utf8EncodeChar_one (by omega), hnat, UInt8.ofNat_toNat]
  have hne : ∀ d : Char, d.toNat < 0x80 → ch ≠ UInt8.ofNat d.toNat → Char.ofNat ch.toNat ≠ d := by
    rintro d hd hch rfl
    apply hch
    rw [hnat, UInt8.ofNat_toNat]
  have hform : Json.CharForm (String.utf8EncodeChar (Char.ofNat ch.toNat)) (Char.ofNat ch.toNat) :=
    .unescaped (by omega) (hne '"' (by decide) hquote) (hne '\\' (by decide) hbackslash)
  rw [hencode] at hform
  use Char.ofNat ch.toNat
  constructor
  · apply hne _ (by decide)
    rintro rfl
    revert hle
    decide
  · rw [hencode]
    exact ⟨rfl, hform⟩

/-- A sequence of bytes from `0x80` on that is the encoding of a character. -/
theorem isStringStep_encode {value input : Bytes} {start : ℕ} {ch : UInt8} {rest : Bytes}
    {r : Bytes ⊕ Bytes} {position' : ℕ} (hdrop : input.drop start = ch :: rest)
    (hrun : (do
      setPosition start
      let length ← sequenceLength
      if length = 0 then fail (ascii "invalid UTF-8 in JSON string")
      else
        let sequence ← bytes length
        setPosition (← positionPlus length)
        return .inl (value ++ sequence) : ConfigJsonParser (Bytes ⊕ Bytes)) input (start + 1)
      = .value r position') :
  ∃ b, input.drop start = b ++ input.drop position' ∧ IsStringStep value r b
  := by
  simp only [bind_apply, setPosition_apply (lt_of_drop hdrop).le] at hrun
  split at hrun
  · next length q hlength =>
    obtain ⟨hvalid, rfl⟩ := sequenceLength_inv hlength
    split at hrun
    · cases hrun
    · next hne =>
      simp only [bind_apply, bytes_apply] at hrun
      split at hrun
      · next stop q' hstop =>
        obtain ⟨rfl, rfl⟩ := positionPlus_inv hstop
        obtain ⟨c, rest', hc, hencode, rfl⟩ := exists_char_of_validUtf8SequenceLength
          (lt_of_drop hdrop) hvalid (Nat.pos_of_ne_zero hne)
        have hlength := congrArg List.length hencode
        rw [List.length_drop, List.length_append] at hlength
        have hpos := lt_of_drop hdrop
        rw [setPosition_apply (by omega)] at hrun
        cases hrun
        use String.utf8EncodeChar c
        rw [← List.drop_drop, hencode, List.drop_left, List.take_left]
        use rfl, c
        have hne' : ∀ d : Char, d.toNat < 0x80 → c ≠ d := by
          rintro d hd rfl
          omega
        use hne' _ (by decide), rfl
        apply Json.CharForm.unescaped (by omega) (hne' _ (by decide)) (hne' _ (by decide))
      · cases hrun
      · cases hrun
  · cases hrun
  · cases hrun

theorem yields_stringStep (value : Bytes) :
  Yields (stringStep value) (IsStringStep value)
  := by
  intro input position r position' hrun
  cases hdrop : input.drop position with
  | nil =>
    rw [stringStep, bind_apply, atEnd_nil hdrop] at hrun
    cases hrun
  | cons ch rest =>
    rw [stringStep_apply hdrop, stringByte] at hrun
    split at hrun
    · next hquote =>
      cases hrun
      exact ⟨[0x22], by rw [drop_succ hdrop, hquote]; rfl, rfl, rfl⟩
    · next hquote =>
      split at hrun
      · cases hrun
      · next hlow =>
        split at hrun
        · rw [← hdrop]
          apply isStringStep_encode hdrop hrun
        · next hhigh =>
          split at hrun
          · next hbackslash =>
            cases hrun
            exact ⟨[ch], by rw [drop_succ hdrop]; rfl,
              isStringStep_ascii hquote hbackslash hlow hhigh⟩
          · next hbackslash =>
            have hescape : Yields (do
                if ← atEnd then fail (ascii "incomplete JSON escape")
                else return .inl (← parseEscape value)) fun r b => IsStringStep value r (0x5C :: b)
                := by
              apply Yields.bind Yields.atEnd
              rintro (_ | _) _ rfl
              · apply Yields.bind (yields_parseEscape value)
                intro v b hv
                apply Yields.pure
                rw [List.append_nil]
                apply hv
              · apply Yields.fail
            obtain ⟨b, hb, hstep⟩ := hescape input _ r position' hrun
            rw [drop_succ hdrop] at hb
            exact ⟨0x5C :: b, by rw [hb, not_not.mp hbackslash]; rfl, hstep⟩

/-- A string literal without NUL is read, and decoded to UTF-8. -/
theorem yields_parseString :
  Yields parseString fun a b => ∃ w lit cs, Json.Ws w ∧ Json.StringLit lit cs ∧ '\x00' ∉ cs ∧
    b = w ++ lit ∧ a = Utf8.encode cs
  := by
  have hloop : ∀ value, Yields (loop stringStep value) fun a b => ∃ body cs, Json.Chars body cs ∧
      '\x00' ∉ cs ∧ b = body ++ [0x22] ∧ a = value ++ Utf8.encode cs := by
    apply Yields.loop
    intro value
    apply (yields_stringStep value).mono
    rintro (v | v) b hstep
    · obtain ⟨c, hc, rfl, hform⟩ := hstep
      rintro a _ ⟨body, cs, hbody, hnul, rfl, rfl⟩
      use b ++ body, c :: cs, .cons hform hbody
      constructor
      · rw [List.mem_cons, not_or]
        exact ⟨hc.symm, hnul⟩
      · rw [Utf8.encode_cons, List.append_assoc, List.append_assoc]
        exact ⟨rfl, rfl⟩
    · obtain ⟨rfl, rfl⟩ := hstep
      use [], [], .nil
      simp
  apply Yields.bind yields_skipWhitespace
  intro _ w hw
  apply Yields.ifByte
  · intro ch hch
    apply (hloop []).mono
    rintro a _ ⟨body, cs, hbody, hnul, rfl, rfl⟩
    use w, 0x22 :: body ++ [0x22], cs, hw, ⟨body, hbody, rfl⟩, hnul
    rw [beq_iff_eq.mp hch]
    exact ⟨rfl, rfl⟩
  · apply Yields.fail

/-! ### Integers -/

theorem yields_scanMinus :
  Yields scanMinus fun _ b => ∃ negative : Bool, b = if negative then [0x2D] else []
  := by
  rw [scanMinus, ← bind_return advance]
  apply Yields.ifByte
  · intro ch hch
    apply Yields.pure
    use true
    rw [if_pos rfl, beq_iff_eq.mp hch]
  · apply Yields.pure
    use false
    rfl

theorem yields_digitLoop (fuel : ℕ) :
  Yields (iterate (fun _ => do
    if ← atDigit then
      advance
      return .inl ()
    else return .inr ()) fuel ()) fun _ b => ∀ d ∈ b, Decimal.IsDigit d
  := by
  apply Yields.iterate (R := fun _ _ b => ∀ d ∈ b, Decimal.IsDigit d)
  intro _
  apply Yields.ifByte
  · intro ch hch
    apply Yields.pure
    intro _ b hb d hd
    rcases List.mem_cons.mp hd with rfl | hd
    · apply of_decide_eq_true hch
    · apply hb d hd
  · apply Yields.pure
    intro d hd
    cases hd

/-- The digits of an integer have no leading zero. -/
theorem yields_scanDigits :
  Yields scanDigits fun _ b => Decimal.IsInt b
  := by
  intro input position a position' hrun
  cases hdrop : input.drop position with
  | nil =>
    rw [scanDigits, bind_apply, atDigit, atByte_nil _ hdrop] at hrun
    cases hrun
  | cons ch rest =>
    simp only [scanDigits, bind_apply, atDigit, atByte_cons _ hdrop] at hrun
    split at hrun
    · next hdigit =>
      simp only [bind_apply, current_cons hdrop] at hrun
      split at hrun
      · next hzero =>
        have hend : Yields (do
            if ← atDigit then fail (ascii "JSON integer has a leading zero")
            else return ()) fun _ b => b = [] := by
          apply Yields.bind (Yields.atByte _)
          rintro (_ | _) _ rfl
          · apply Yields.pure
            rfl
          · apply Yields.fail
        simp only [bind_apply, advance_apply (lt_of_drop hdrop)] at hrun
        obtain ⟨_, hb, rfl⟩ := hend input (position + 1) a position' hrun
        rw [drop_succ hdrop] at hb
        use [ch]
        rw [hb]
        exact ⟨rfl, .inl (by rw [hzero])⟩
      · next hzero =>
        simp only [loop, iterate, bind_apply, atByte_cons _ hdrop, hdigit, if_true,
          advance_apply (lt_of_drop hdrop), pure_apply] at hrun
        obtain ⟨b, hb, hdigits⟩ := yields_digitLoop _ input (position + 1) a position' hrun
        rw [drop_succ hdrop] at hb
        use ch :: b
        rw [hb]
        exact ⟨rfl, .inr ⟨ch, b, rfl, of_decide_eq_true hdigit, hzero, hdigits⟩⟩
    · cases hrun

/-- The bytes consumed are those between the two positions. -/
theorem take_of_drop {input b : Bytes} {position position' : ℕ}
    (h : input.drop position = b ++ input.drop position') (hne : b ≠ []) :
  (input.drop position).take (position' - position) = b
  := by
  have hlength := congrArg List.length h
  have hpos := List.length_pos_iff.mpr hne
  rw [List.length_append, List.length_drop, List.length_drop] at hlength
  by_cases hle : position' ≤ input.length
  · rw [h, List.take_append_of_le_length (by omega), List.take_of_length_le (by omega)]
  · rw [h, List.drop_eq_nil_of_le (by omega), List.append_nil, List.take_of_length_le (by omega)]

/-- A number written as an integer in the range of `int`. -/
theorem yields_parseInteger :
  Yields parseInteger fun value b => ∃ w lit n, Json.Ws w ∧ Json.NumberLit lit n ∧ n.IsInteger ∧
    value.toInt = n.intValue ∧ b = w ++ lit
  := by
  apply Yields.bind yields_skipWhitespace
  intro _ w hw input position value position' hrun
  simp only [bind_apply, position_apply] at hrun
  split at hrun
  · next q hminus =>
    obtain ⟨_, hsign, negative, rfl⟩ := yields_scanMinus input position _ q hminus
    split at hrun
    · next q' hscan =>
      obtain ⟨ds, hds, hint⟩ := yields_scanDigits input q _ q' hscan
      rw [hds, ← List.append_assoc] at hsign
      have hne : (if negative then [0x2D] else []) ++ ds ≠ [] :=
        List.append_ne_nil_of_right_ne_nil _ hint.ne_nil
      have hle : position ≤ input.length := by
        by_contra hlt
        rw [List.drop_eq_nil_of_le (by omega)] at hsign
        apply hne (List.append_eq_nil_iff.mp hsign.symm).1
      simp only [setPosition_apply hle, bytes_apply, take_of_drop hsign hne] at hrun
      split at hrun
      · next hstop =>
        obtain ⟨rfl, -⟩ := setPosition_inv hstop
        rw [stdFromChars_numeral negative hint.ne_nil hint.isDigit] at hrun
        cases hvalue : toInt32 (if negative then -(Decimal.value ds : ℤ) else Decimal.value ds) with
        | none =>
          rw [hvalue] at hrun
          cases hrun
        | some n =>
          rw [hvalue] at hrun
          cases hrun
          have hlit := Json.NumberLit.integer negative hint
          use (if negative then [0x2D] else []) ++ ds, hsign
          exact ⟨w, _, _, hw, hlit, ⟨rfl, rfl⟩, toInt32_eq_some.mp hvalue, rfl⟩
      · cases hrun
      · cases hrun
    · cases hrun
    · cases hrun
  · cases hrun
  · cases hrun

/-! ### Objects -/

/-- A string without NUL or an integer in the range of `int`. -/
theorem yields_parseValue :
  Yields parseValue fun value b => ∃ w lit v, Json.Ws w ∧ Json.Derives lit v ∧
    JsonValue.Decodes v value ∧ b = w ++ lit
  := by
  apply Yields.bind yields_skipWhitespace
  intro _ w hw
  apply Yields.bind (Yields.atByte _)
  rintro (_ | _) _ rfl
  · apply Yields.bind yields_parseInteger
    rintro value _ ⟨w', lit, n, hw', hlit, hn, hvalue, rfl⟩
    apply Yields.pure
    use w ++ w', lit, .number n, hw.append hw', .number hlit, .integer hn hvalue
    simp only [List.nil_append, List.append_nil, List.append_assoc]
  · apply Yields.bind yields_parseString
    rintro _ _ ⟨w', lit, cs, hw', hlit, hnul, rfl, rfl⟩
    apply Yields.pure
    use w ++ w', lit, .string cs, hw.append hw', .string hlit, .string hnul
    simp only [List.nil_append, List.append_nil, List.append_assoc]

/-- A member with a new known key, and the comma or the brace after it. -/
theorem yields_memberStep (object : JsonObject) :
  Yields (memberStep object) (MemberForm object)
  := by
  apply Yields.bind yields_parseString
  rintro _ _ ⟨w, k, name, hw, hk, hnul, rfl, rfl⟩
  split
  · apply Yields.fail
  · next hfield =>
    have hknown : name ∈ ServerConfig.jsonNames := by
      apply isKnownField_iff.mp
      simpa using hfield
    apply Yields.bind (yields_consume 0x3A)
    rintro (_ | _) _ ⟨w₁, hw₁, rfl⟩
    · apply Yields.fail
    · apply Yields.bind yields_parseValue
      rintro value _ ⟨w₂, lit, v, hw₂, hlit, hvalue, rfl⟩
      split
      · apply Yields.fail
      · next object' hemplace =>
        obtain ⟨hnew, rfl⟩ := JsonObject.emplace_eq_some_iff.mp hemplace
        have hform : ∀ {w₃ w₄ : Bytes} {ch : UInt8} {r : JsonObject ⊕ JsonObject},
            Json.Ws w₃ → Json.Ws w₄ → MemberEnd (object ++ [(Utf8.encode name, value)]) ch r →
            MemberForm object r
              ((w ++ k) ++ ((w₁ ++ [0x3A]) ++ ((w₂ ++ lit) ++ ((w₃ ++ w₄) ++ [ch])))) := by
          intro w₃ w₄ ch r hw₃ hw₄ hch
          exact .mk (m := (name, v)) (e := (Utf8.encode name, value)) ⟨rfl, hvalue⟩ hknown hnew hw
            hk hw₁ hw₂ hlit (hw₃.append hw₄) hch
        apply Yields.bind yields_skipWhitespace
        intro _ w₃ hw₃
        apply Yields.bind (yields_consume 0x7D)
        rintro (_ | _) _ ⟨w₄, hw₄, rfl⟩
        · apply Yields.bind (yields_consume 0x2C)
          rintro (_ | _) _ ⟨w₅, hw₅, rfl⟩
          · apply Yields.fail
          · apply Yields.pure
            have h := hform hw₃ (hw₄.append hw₅) .comma
            simp only [List.append_assoc, List.append_nil, if_true] at h ⊢
            apply h
        · apply Yields.pure
          have h := hform hw₃ hw₄ .brace
          simp only [List.append_assoc, List.append_nil, if_true] at h ⊢
          apply h

/-- What the loop of `parseObject` reads from the object `object` on: members and the closing
brace. -/
def IsMembersFrom (object result : JsonObject) (b : Bytes) : Prop :=
  ∃ ms o w body w', result = object ++ o ∧ JsonObject.Decodes ms o ∧
    (∀ m ∈ ms, m.1 ∈ ServerConfig.jsonNames) ∧
    ((object.map Prod.fst).Nodup → (result.map Prod.fst).Nodup) ∧ Json.Ws w ∧
    Json.Members body ms ∧ Json.Ws w' ∧ b = w ++ (body ++ (w' ++ [0x7D]))

theorem yields_memberLoop (object : JsonObject) :
  Yields (loop memberStep object) (IsMembersFrom object)
  := by
  apply Yields.loop
  clear object
  intro object
  apply (yields_memberStep object).mono
  rintro r b ⟨hm, hknown, hnew, hw, hk, hw₁, hw₂, hlit, hw₃, hch⟩
  rename_i m e w k w₁ w₂ lit w₃ ch
  have hnodup : (object.map Prod.fst).Nodup → ((object ++ [e]).map Prod.fst).Nodup := by
    intro hobject
    rw [List.map_append]
    apply hobject.append (List.nodup_singleton _)
    apply List.disjoint_singleton.mpr hnew
  cases hch with
  | comma =>
    rintro result _ ⟨ms, o, w', body, w'', rfl, hms, hnames, hrest, hw', hbody, hw'', rfl⟩
    have hmembers := Json.Members.more hk ⟨w₁, w₂, hw₁, hw₂, rfl⟩ hlit ⟨w₃, w', hw₃, hw', rfl⟩ hbody
    have hknown' : ∀ m' ∈ m :: ms, m'.1 ∈ ServerConfig.jsonNames := by
      intro m' hm'
      rcases List.mem_cons.mp hm' with rfl | hm'
      · apply hknown
      · apply hnames m' hm'
    refine ⟨m :: ms, e :: o, w, _, w'', List.append_assoc object [e] o, .cons hm hms, hknown',
      fun hobject => hrest (hnodup hobject), hw, hmembers, hw'', ?_⟩
    simp only [List.append_assoc, List.cons_append, List.nil_append]
  | brace =>
    have hmembers := Json.Members.last hk ⟨w₁, w₂, hw₁, hw₂, rfl⟩ hlit
    have hknown' : ∀ m' ∈ [m], m'.1 ∈ ServerConfig.jsonNames := by
      intro m' hm'
      obtain rfl := List.mem_singleton.mp hm'
      apply hknown
    refine ⟨[m], [e], w, _, w₃, rfl, .cons hm .nil, hknown', hnodup, hw, hmembers, hw₃, ?_⟩
    simp only [List.append_assoc, List.cons_append, List.nil_append]

/-- `parseObject` reads an object without members, or an object whose members are named by
different fields. -/
theorem yields_parseObject :
  Yields parseObject fun object b => object = [] ∨ ∃ w ms a body w',
    Json.Ws w ∧ JsonObject.Decodes ms object ∧ (∀ m ∈ ms, m.1 ∈ ServerConfig.jsonNames) ∧
    (object.map Prod.fst).Nodup ∧ Json.Structural 0x7B a ∧ Json.Members body ms ∧ Json.Ws w' ∧
    b = w ++ (a ++ (body ++ (w' ++ [0x7D])))
  := by
  apply Yields.bind (yields_consume 0x7B)
  rintro (_ | _) _ ⟨w, hw, rfl⟩
  · apply Yields.fail
  · apply Yields.bind yields_skipWhitespace
    intro _ w₁ hw₁
    apply Yields.bind (yields_consume 0x7D)
    rintro (_ | _) w₃ ⟨_, hw₃, rfl⟩
    · apply (yields_memberLoop []).mono
      rintro object _ ⟨ms, o, w₄, body, w', rfl, hms, hnames, hnodup, hw₄, hbody, hw', rfl⟩
      right
      use w, ms, 0x7B :: (w₁ ++ (w₃ ++ w₄)), body, w', hw, hms, hnames, hnodup List.nodup_nil
      use ⟨[], _, Json.Ws.nil, hw₁.append (hw₃.append hw₄), rfl⟩, hbody, hw'
      simp [List.append_assoc]
    · apply Yields.pure
      left
      rfl

theorem ofResult_inv {α : Type} {result : Result α} {input : Bytes} {position position' : ℕ} {a : α}
    (h : ofResult result input position = .value a position') :
  result = .ok a
  := by
  cases result with
  | error message => cases h
  | ok a =>
    cases h
    rfl

/-- What `parse` accepts is a JSON text of at most 65536 bytes that denotes its result. -/
theorem text_of_run {input : Bytes} {config : ServerConfig} (hrun : run input = .ok config) :
  input.length ≤ kMaxConfigJsonBytes ∧ ∃ ms, Json.Text input (.object ms) ∧
    ServerConfig.Denotes ms config
  := by
  rw [run] at hrun
  split at hrun
  · next config' position' hparse =>
    obtain rfl := Except.ok.inj hrun
    simp only [parse, bind_apply, size_apply] at hparse
    split at hparse
    · cases hparse
    · next hsize =>
      use Nat.not_lt.mp hsize
      simp only [bind_apply] at hparse
      split at hparse
      · next object q hobject =>
        split at hparse
        · next q' hskip =>
          simp only [position_apply, size_apply] at hparse
          split at hparse
          · cases hparse
          · next hend =>
            obtain ⟨b, hb, hform⟩ := yields_parseObject input 0 object q hobject
            obtain ⟨w₄, hw₄, hws⟩ := yields_skipWhitespace input q () q' hskip
            rw [not_not.mp hend, List.drop_length, List.append_nil] at hw₄
            rw [List.drop_zero, hw₄] at hb
            have hbuild := ofResult_inv hparse
            rcases hform with rfl | ⟨w, ms, a, body, w', hw, hms, hnames, hnodup, ha, hbody, hw', rfl⟩
            · cases hbuild
            · have hdistinct : (ms.map Prod.fst).Nodup := by
                rw [hms.keys] at hnodup
                apply hnodup.of_map
              use ms
              constructor
              · have hz : Json.Structural 0x7D (w' ++ [0x7D]) := ⟨w', [], hw', Json.Ws.nil, rfl⟩
                have hobject := Json.Derives.object ha hbody hz
                refine ⟨w, w₄, _, hw, hws, hobject, ?_⟩
                rw [hb]
                simp only [List.append_assoc]
              · apply (buildConfig_eq_ok_iff_denotes hms hnames hdistinct).mp hbuild
        · cases hparse
        · cases hparse
      · cases hparse
      · cases hparse
  · cases hrun
  · cases hrun

/-- The configuration of a text is that of every text with the same members in any order. -/
theorem run_of_perm {input input' : Bytes} {ms ms' : List (List Char × Json.Value)}
    {config : ServerConfig} (hsize' : input'.length ≤ kMaxConfigJsonBytes)
    (htext : Json.Text input (.object ms)) (htext' : Json.Text input' (.object ms'))
    (hperm : ms.Perm ms') (hrun : run input = .ok config) :
  run input' = .ok config
  := by
  obtain ⟨-, ms₀, htext₀, hdenotes⟩ := text_of_run hrun
  obtain rfl := Json.Value.object.inj (htext.unique htext₀)
  apply run_of_text hsize' htext' (hdenotes.perm hperm)

/-- The parser accepts exactly the JSON texts of at most 65536 bytes that denote a configuration,
with that configuration. In particular, texts of the same members in different orders, with
different white space and with different escapes have one result. -/
theorem run_eq_ok_iff :
  (∀ (input : Bytes) (config : ServerConfig),
    run input = .ok config ↔ input.length ≤ kMaxConfigJsonBytes ∧
      ∃ ms, Json.Text input (.object ms) ∧ ServerConfig.Denotes ms config) ∧
  ∀ (input input' : Bytes) (ms ms' : List (List Char × Json.Value)),
    input.length ≤ kMaxConfigJsonBytes → input'.length ≤ kMaxConfigJsonBytes →
    Json.Text input (.object ms) → Json.Text input' (.object ms') → ms.Perm ms' →
    ∀ config, run input = .ok config ↔ run input' = .ok config
  := by
  constructor
  · intro input config
    constructor
    · apply text_of_run
    · rintro ⟨hsize, ms, htext, hdenotes⟩
      apply run_of_text hsize htext hdenotes
  · intro input input' ms ms' hsize hsize' htext htext' hperm config
    constructor
    · apply run_of_perm hsize' htext htext' hperm
    · apply run_of_perm hsize htext' htext hperm.symm

end ConfigJsonParser

end OpcuaServer
