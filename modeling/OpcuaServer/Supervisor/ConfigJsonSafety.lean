import OpcuaServer.Supervisor.ConfigJsonRules

/-!
# The parser stays inside of its input

`Safe input p position Q` says that `p`, started at a position of the input, ends without a fault,
at a position of the input, and where it returns a value as `Q` says. Each loop of the parser moves
on in every iteration after which it goes on, which bounds how often it is repeated.
-/

namespace OpcuaServer

namespace ConfigJsonParser

variable {α β σ : Type}

/-- From the position on, `p` ends without a fault and inside of the input, and `Q` holds of the
value it returns and of the position it leaves behind. -/
def Safe (input : Bytes) (p : ConfigJsonParser α) (position : ℕ) (Q : α → ℕ → Prop) : Prop :=
  match p input position with
  | .value a position' => position' ≤ input.length ∧ Q a position'
  | .error _ position' => position' ≤ input.length
  | .fault _ => False

/-- How an iteration of a loop moves the position: forward where the loop goes on. -/
def Moves (position : ℕ) : σ ⊕ β → ℕ → Prop
  | .inl _, position' => position < position'
  | .inr _, position' => position ≤ position'

variable {input : Bytes} {position : ℕ}

namespace Safe

theorem mono {p : ConfigJsonParser α} {Q R : α → ℕ → Prop} (h : Safe input p position Q)
    (hQ : ∀ a q, Q a q → R a q) :
  Safe input p position R
  := by
  rw [Safe] at h ⊢
  split at h
  · next a q _ => exact ⟨h.1, hQ a q h.2⟩
  · apply h
  · apply h

theorem bind {p : ConfigJsonParser α} {f : α → ConfigJsonParser β} {Q : α → ℕ → Prop}
    {R : β → ℕ → Prop} (hp : Safe input p position Q)
    (hf : ∀ a q, q ≤ input.length → Q a q → Safe input (f a) q R) :
  Safe input (p >>= f) position R
  := by
  rw [Safe] at hp
  rw [Safe, bind_apply]
  cases hrun : p input position with
  | value a q =>
    rw [hrun] at hp
    apply hf a q hp.1 hp.2
  | error message q =>
    rw [hrun] at hp
    apply hp
  | fault f =>
    rw [hrun] at hp
    apply hp

theorem pure {a : α} {Q : α → ℕ → Prop} (h : position ≤ input.length) (hQ : Q a position) :
  Safe input (Pure.pure a) position Q
  := ⟨h, hQ⟩

theorem fail {Q : α → ℕ → Prop} (message : Bytes) (h : position ≤ input.length) :
  Safe input (ConfigJsonParser.fail message) position Q
  := h

theorem atPosition (h : position ≤ input.length) :
  Safe input ConfigJsonParser.position position fun n q => n = position ∧ q = position
  := ⟨h, rfl, rfl⟩

theorem size (h : position ≤ input.length) :
  Safe input ConfigJsonParser.size position fun n q => n = input.length ∧ q = position
  := ⟨h, rfl, rfl⟩

theorem bytes (length : ℕ) (h : position ≤ input.length) :
  Safe input (ConfigJsonParser.bytes length) position fun _ q => q = position
  := ⟨h, rfl⟩

theorem setPosition {target : ℕ} (h : target ≤ input.length) :
  Safe input (ConfigJsonParser.setPosition target) position fun _ q => q = target
  := by
  rw [Safe, setPosition_apply h]
  exact ⟨h, rfl⟩

theorem advance (h : position < input.length) :
  Safe input ConfigJsonParser.advance position fun _ q => q = position + 1
  := setPosition h

theorem read {index : ℕ} (hindex : index < input.length) (h : position ≤ input.length) :
  Safe input (ConfigJsonParser.read index) position fun _ q => q = position
  := by
  rw [Safe, ConfigJsonParser.read, List.getElem?_eq_getElem hindex]
  exact ⟨h, rfl⟩

theorem current (h : position < input.length) :
  Safe input ConfigJsonParser.current position fun _ q => q = position
  := read h h.le

theorem next (h : position < input.length) :
  Safe input ConfigJsonParser.next position fun _ q => q = position + 1
  := by
  apply bind (current h)
  rintro ch _ _ rfl
  apply bind (advance h)
  rintro _ _ hle rfl
  apply pure hle rfl

/-- Where the end is not reached, there is a byte at the position. -/
theorem atEnd (h : position ≤ input.length) :
  Safe input ConfigJsonParser.atEnd position
    fun b q => q = position ∧ (b = false → position < input.length)
  := by
  refine ⟨h, rfl, ?_⟩
  intro hb
  apply Nat.lt_of_not_le (of_decide_eq_false hb)

/-- Where a test of the next byte passes, there is one. -/
theorem atByte (t : UInt8 → Bool) (h : position ≤ input.length) :
  Safe input (ConfigJsonParser.atByte t) position
    fun b q => q = position ∧ (b = true → position < input.length)
  := by
  apply bind (atEnd h)
  rintro (_ | _) _ hle ⟨rfl, hlt⟩
  · have hlt := hlt rfl
    apply bind (current hlt)
    rintro ch _ hle rfl
    exact ⟨hle, rfl, fun _ => hlt⟩
  · apply pure hle
    simp

theorem positionPlus {n : ℕ} (hsize : input.length + 4 < 2 ^ 64) (hn : n ≤ 4)
    (h : position ≤ input.length) :
  Safe input (ConfigJsonParser.positionPlus n) position fun sum q => sum = position + n ∧ q = position
  := by
  rw [Safe, positionPlus_apply hsize hn h]
  exact ⟨h, rfl, rfl⟩

/-- A loop whose iterations move on ends as its last iteration does. -/
theorem iterate {body : σ → ConfigJsonParser (σ ⊕ β)}
    (hbody : ∀ s q, q ≤ input.length → Safe input (body s) q (Moves q)) {fuel : ℕ} {s : σ}
    (hfuel : input.length < position + fuel) (h : position ≤ input.length) :
  Safe input (ConfigJsonParser.iterate body fuel s) position fun _ q => position ≤ q
  := by
  induction fuel generalizing s position with
  | zero => omega
  | succ fuel ih =>
    apply bind (hbody s position h)
    rintro (s' | b) q hq hmoves
    · have hlt : position < q := hmoves
      apply mono (ih (by omega) hq)
      intro _ q' hle
      omega
    · apply pure hq hmoves

theorem loop {body : σ → ConfigJsonParser (σ ⊕ β)}
    (hbody : ∀ s q, q ≤ input.length → Safe input (body s) q (Moves q)) (s : σ)
    (h : position ≤ input.length) :
  Safe input (ConfigJsonParser.loop body s) position fun _ q => position ≤ q
  := iterate hbody (by omega) h

end Safe

/-! ### White space and structural characters -/

/-- One iteration of a loop that passes over the bytes of a test. -/
theorem safe_pass (t : UInt8 → Bool) (h : position ≤ input.length) :
  Safe input (do
    if ← atByte t then
      advance
      return (.inl () : Unit ⊕ Unit)
    else return .inr ()) position (Moves position)
  := by
  apply Safe.bind (Safe.atByte t h)
  rintro (_ | _) _ hle ⟨rfl, hlt⟩
  · apply Safe.pure hle (le_refl _)
  · apply Safe.bind (Safe.advance (hlt rfl))
    rintro _ _ hle rfl
    apply Safe.pure hle (Nat.lt_succ_self _)

theorem safe_skipWhitespace (h : position ≤ input.length) :
  Safe input skipWhitespace position fun _ q => position ≤ q
  := by
  apply Safe.loop _ _ h
  intro _ q hq
  apply safe_pass _ hq

theorem safe_consume (expected : UInt8) (h : position ≤ input.length) :
  Safe input (consume expected) position fun _ q => position ≤ q
  := by
  apply Safe.bind (safe_skipWhitespace h)
  intro _ q hq hle
  apply Safe.bind (Safe.atByte _ hq)
  rintro (_ | _) _ hq ⟨rfl, hlt⟩
  · apply Safe.pure hq hle
  · apply Safe.bind (Safe.advance (hlt rfl))
    rintro _ _ hq rfl
    apply Safe.pure hq (by omega)

/-! ### Strings -/

theorem safe_hexDigits {count value : ℕ} (h : position + count ≤ input.length) :
  Safe input (hexDigits count value) position fun _ q => q = position + count
  := by
  induction count generalizing position value with
  | zero => apply Safe.pure h rfl
  | succ count ih =>
    apply Safe.bind (Safe.next (by omega))
    rintro ch _ hq rfl
    simp only
    split
    · apply Safe.fail _ hq
    · apply Safe.mono (ih (by omega))
      rintro _ _ rfl
      omega

section

variable (hsize : input.length + 4 < 2 ^ 64)

include hsize

theorem safe_parseHexCodeUnit (h : position ≤ input.length) :
  Safe input parseHexCodeUnit position fun _ q => q = position + 4
  := by
  apply Safe.bind (Safe.positionPlus hsize (le_refl _) h)
  rintro _ _ h ⟨rfl, rfl⟩
  apply Safe.bind (Safe.size h)
  rintro _ _ h ⟨rfl, rfl⟩
  split
  · apply Safe.fail _ h
  · apply safe_hexDigits (by omega)

theorem safe_parseLowSurrogate (codePoint : ℕ) (h : position ≤ input.length) :
  Safe input (parseLowSurrogate codePoint) position fun _ q => q = position + 6
  := by
  apply Safe.bind (Safe.positionPlus hsize (by decide) h)
  rintro _ _ h ⟨rfl, rfl⟩
  apply Safe.bind (Safe.size h)
  rintro _ q h ⟨rfl, rfl⟩
  split
  · apply Safe.fail _ h
  · next hle =>
    apply Safe.bind (Safe.current (by omega))
    rintro ch _ h rfl
    split
    · apply Safe.fail _ h
    · apply Safe.bind (Safe.positionPlus hsize (by decide) h)
      rintro _ _ h ⟨rfl, rfl⟩
      apply Safe.bind (Safe.read (by omega) h)
      rintro ch' _ h rfl
      split
      · apply Safe.fail _ h
      · apply Safe.bind (Safe.setPosition (by omega))
        rintro _ _ h' rfl
        apply Safe.bind (safe_parseHexCodeUnit hsize h')
        rintro low _ h' rfl
        split
        · apply Safe.fail _ h'
        · apply Safe.pure h' (by omega)

theorem safe_parseCodePoint (h : position ≤ input.length) :
  Safe input parseCodePoint position fun _ q => position ≤ q
  := by
  apply Safe.bind (safe_parseHexCodeUnit hsize h)
  rintro codePoint _ hq rfl
  split
  · apply Safe.mono (safe_parseLowSurrogate hsize codePoint hq)
    rintro _ _ rfl
    omega
  · split
    · apply Safe.fail _ hq
    · apply Safe.pure hq (by omega)

/-- An escape has at least the byte after its backslash. -/
theorem safe_parseEscape (value : Bytes) (h : position < input.length) :
  Safe input (parseEscape value) position fun _ q => position < q
  := by
  apply Safe.bind (Safe.next h)
  rintro escape _ hq rfl
  have hlt : position < position + 1 := Nat.lt_succ_self position
  split_ifs
  · apply Safe.pure hq hlt
  · apply Safe.pure hq hlt
  · apply Safe.pure hq hlt
  · apply Safe.pure hq hlt
  · apply Safe.pure hq hlt
  · apply Safe.pure hq hlt
  · apply Safe.bind (safe_parseCodePoint hsize hq)
    intro codePoint q hq hle
    split
    · apply Safe.fail _ hq
    · apply Safe.pure hq (by omega)
  · apply Safe.fail _ hq

omit hsize in
/-- A sequence that the validator accepts lies inside of the input. -/
theorem validUtf8SequenceLength_le {n : ℕ} (h : position < input.length)
    (hvalid : validUtf8SequenceLength input position = some n) :
  position + n ≤ input.length ∧ n ≤ 4
  := by
  rcases Nat.eq_zero_or_pos n with rfl | hpos
  · omega
  · obtain ⟨c, rest, -, hdrop, rfl⟩ := exists_char_of_validUtf8SequenceLength h hvalid hpos
    have hlength := congrArg List.length hdrop
    rw [List.length_drop, List.length_append] at hlength
    have hfour := c.utf8Size_le_four
    rw [String.length_utf8EncodeChar] at hlength ⊢
    omega

theorem safe_sequenceLength (h : position < input.length) :
  Safe input sequenceLength position
    fun n q => q = position ∧ position + n ≤ input.length ∧ n ≤ 4
  := by
  obtain ⟨n, hvalid⟩ := validUtf8SequenceLength_isSome h
  rw [Safe, sequenceLength_apply hsize h.le hvalid]
  exact ⟨h.le, rfl, validUtf8SequenceLength_le h hvalid⟩

theorem safe_stringStep (value : Bytes) (h : position ≤ input.length) :
  Safe input (stringStep value) position (Moves position)
  := by
  apply Safe.bind (Safe.atEnd h)
  rintro (_ | _) _ h ⟨rfl, hlt⟩
  · have hlt := hlt rfl
    apply Safe.bind (Safe.atPosition h)
    rintro _ q _ ⟨rfl, rfl⟩
    apply Safe.bind (Safe.next hlt)
    rintro ch _ hq rfl
    rw [stringByte]
    split_ifs
    · apply Safe.pure hq (Nat.le_succ _)
    · apply Safe.fail _ hq
    · apply Safe.bind (Safe.setPosition h)
      rintro _ _ _ rfl
      apply Safe.bind (safe_sequenceLength hsize hlt)
      rintro length _ _ ⟨rfl, hle, hfour⟩
      split
      · apply Safe.fail _ h
      · apply Safe.bind (Safe.bytes length h)
        rintro sequence _ _ rfl
        apply Safe.bind (Safe.positionPlus hsize hfour h)
        rintro _ _ _ ⟨rfl, rfl⟩
        apply Safe.bind (Safe.setPosition hle)
        rintro _ _ _ rfl
        apply Safe.pure hle
        simp only [Moves]
        omega
    · apply Safe.pure hq (Nat.lt_succ_self _)
    · apply Safe.bind (Safe.atEnd hq)
      rintro (_ | _) _ hq ⟨rfl, hlt⟩
      · apply Safe.bind (safe_parseEscape hsize value (hlt rfl))
        intro value' q' hq' hlt'
        apply Safe.pure hq'
        simp only [Moves]
        omega
      · apply Safe.fail _ hq
  · apply Safe.fail _ h

/-- A string has at least its opening quotation mark. -/
theorem safe_parseString (h : position ≤ input.length) :
  Safe input parseString position fun _ q => position < q
  := by
  apply Safe.bind (safe_skipWhitespace h)
  intro _ q hq hle
  apply Safe.bind (Safe.atByte _ hq)
  rintro (_ | _) _ hq ⟨rfl, hlt⟩
  · apply Safe.fail _ hq
  · apply Safe.bind (Safe.advance (hlt rfl))
    rintro _ _ hq rfl
    apply Safe.mono (Safe.loop (fun value q hq => safe_stringStep hsize value hq) [] hq)
    intro _ q' hle'
    omega

end

/-! ### Integers -/

theorem safe_scanMinus (h : position ≤ input.length) :
  Safe input scanMinus position fun _ q => position ≤ q
  := by
  apply Safe.bind (Safe.atByte _ h)
  rintro (_ | _) _ h ⟨rfl, hlt⟩
  · apply Safe.pure h (le_refl _)
  · apply Safe.mono (Safe.advance (hlt rfl))
    rintro _ _ rfl
    apply Nat.le_succ

theorem safe_scanDigits (h : position ≤ input.length) :
  Safe input scanDigits position fun _ q => position ≤ q
  := by
  apply Safe.bind (Safe.atByte _ h)
  rintro (_ | _) _ h ⟨rfl, hlt⟩
  · apply Safe.fail _ h
  · apply Safe.bind (Safe.current (hlt rfl))
    rintro ch _ h rfl
    split
    · apply Safe.bind (Safe.advance (hlt rfl))
      rintro _ _ hq rfl
      apply Safe.bind (Safe.atByte _ hq)
      rintro (_ | _) _ hq ⟨rfl, -⟩
      · apply Safe.pure hq (Nat.le_succ _)
      · apply Safe.fail _ hq
    · apply Safe.loop (fun _ q hq => safe_pass _ hq) () h

theorem safe_parseInteger (h : position ≤ input.length) :
  Safe input parseInteger position fun _ q => position ≤ q
  := by
  apply Safe.bind (safe_skipWhitespace h)
  intro _ start hstart hle
  apply Safe.bind (Safe.atPosition hstart)
  rintro _ _ _ ⟨rfl, rfl⟩
  apply Safe.bind (safe_scanMinus hstart)
  intro _ q hq hle'
  apply Safe.bind (safe_scanDigits hq)
  intro _ stop hstop hle''
  apply Safe.bind (Safe.atPosition hstop)
  rintro _ _ _ ⟨rfl, rfl⟩
  apply Safe.bind (Safe.setPosition hstart)
  rintro _ _ _ rfl
  apply Safe.bind (Safe.bytes _ hstart)
  rintro text _ _ rfl
  apply Safe.bind (Safe.setPosition hstop)
  rintro _ _ _ rfl
  split
  · apply Safe.pure hstop (by omega)
  · apply Safe.fail _ hstop

/-! ### Objects -/

section

variable (hsize : input.length + 4 < 2 ^ 64)

include hsize

theorem safe_parseValue (h : position ≤ input.length) :
  Safe input parseValue position fun _ q => position ≤ q
  := by
  apply Safe.bind (safe_skipWhitespace h)
  intro _ q hq hle
  apply Safe.bind (Safe.atByte _ hq)
  rintro (_ | _) _ hq ⟨rfl, -⟩
  · apply Safe.bind (safe_parseInteger hq)
    intro value q' hq' hle'
    apply Safe.pure hq' (by omega)
  · apply Safe.bind (safe_parseString hsize hq)
    intro value q' hq' hle'
    apply Safe.pure hq' (by omega)

/-- A member has at least the quotation mark of its name. -/
theorem safe_memberStep (object : JsonObject) (h : position ≤ input.length) :
  Safe input (memberStep object) position (Moves position)
  := by
  apply Safe.bind (safe_parseString hsize h)
  intro key q hq hlt
  split_ifs
  · apply Safe.fail _ hq
  · apply Safe.bind (safe_consume _ hq)
    rintro (_ | _) q₁ hq₁ hle₁
    · apply Safe.fail _ hq₁
    · apply Safe.bind (safe_parseValue hsize hq₁)
      intro value q₂ hq₂ hle₂
      split
      · apply Safe.fail _ hq₂
      · apply Safe.bind (safe_skipWhitespace hq₂)
        intro _ q₃ hq₃ hle₃
        apply Safe.bind (safe_consume _ hq₃)
        rintro (_ | _) q₄ hq₄ hle₄
        · apply Safe.bind (safe_consume _ hq₄)
          rintro (_ | _) q₅ hq₅ hle₅
          · apply Safe.fail _ hq₅
          · apply Safe.pure hq₅
            simp only [Moves]
            omega
        · apply Safe.pure hq₄
          simp only [Moves]
          omega

theorem safe_parseObject (h : position ≤ input.length) :
  Safe input parseObject position fun _ q => position ≤ q
  := by
  apply Safe.bind (safe_consume _ h)
  rintro (_ | _) q hq hle
  · apply Safe.fail _ hq
  · apply Safe.bind (safe_skipWhitespace hq)
    intro _ q₁ hq₁ hle₁
    apply Safe.bind (safe_consume _ hq₁)
    rintro (_ | _) q₂ hq₂ hle₂
    · apply Safe.mono (Safe.loop (fun object q hq => safe_memberStep hsize object hq) [] hq₂)
      intro _ q₃ hle₃
      omega
    · apply Safe.pure hq₂ (by omega)

end

/-- The parser gives up on an input that is too long before it reads any of it. -/
theorem safe_parse (input : Bytes) :
  Safe input parse 0 fun _ q => q = input.length
  := by
  apply Safe.bind (Safe.size (Nat.zero_le _))
  rintro _ _ h ⟨rfl, rfl⟩
  split
  · apply Safe.fail _ h
  · next hmax =>
    have hsize : input.length + 4 < 2 ^ 64 := by
      rw [kMaxConfigJsonBytes] at hmax
      omega
    apply Safe.bind (safe_parseObject hsize h)
    intro object q hq _
    apply Safe.bind (safe_skipWhitespace hq)
    intro _ q₁ hq₁ _
    apply Safe.bind (Safe.atPosition hq₁)
    rintro _ _ _ ⟨rfl, rfl⟩
    apply Safe.bind (Safe.size hq₁)
    rintro _ _ _ ⟨rfl, rfl⟩
    split
    · apply Safe.fail _ hq₁
    · next heq =>
      cases buildConfig object with
      | ok config => apply Safe.pure hq₁ (not_not.mp heq)
      | error message => apply Safe.fail _ hq₁

/-- The member functions of the parser, from a position of the input on, stay inside of the input,
and the iterations of its loops move on. -/
structure StaysInside (input : Bytes) (position : ℕ) : Prop where
  skipWhitespace : Safe input skipWhitespace position fun _ q => position ≤ q
  consume : ∀ expected, Safe input (consume expected) position fun _ q => position ≤ q
  parseHexCodeUnit : Safe input parseHexCodeUnit position fun _ q => q = position + 4
  parseString : Safe input parseString position fun _ q => position < q
  parseInteger : Safe input parseInteger position fun _ q => position ≤ q
  parseObject : Safe input parseObject position fun _ q => position ≤ q
  stringStep : ∀ value, Safe input (stringStep value) position (Moves position)
  memberStep : ∀ object, Safe input (memberStep object) position (Moves position)
  sequenceLength : position < input.length →
    Safe input sequenceLength position fun n q => q = position ∧ position + n ≤ input.length ∧ n ≤ 4

theorem staysInside (hsize : input.length + 4 < 2 ^ 64) (h : position ≤ input.length) :
  StaysInside input position
  where
  skipWhitespace := safe_skipWhitespace h
  consume expected := safe_consume expected h
  parseHexCodeUnit := safe_parseHexCodeUnit hsize h
  parseString := safe_parseString hsize h
  parseInteger := safe_parseInteger h
  parseObject := safe_parseObject hsize h
  stringStep value := safe_stringStep hsize value h
  memberStep object := safe_memberStep hsize object h
  sequenceLength hlt := safe_sequenceLength hsize hlt

/-- On every input the parser ends, without a fault, and at the end of the input where it returns a
configuration. Its member functions do so from every position of every `std::string`, whose size is
below `2 ^ 63`. -/
theorem parse_staysInside (input : Bytes) :
  Safe input parse 0 (fun _ q => q = input.length) ∧
    (input.length < 2 ^ 63 → ∀ position, position ≤ input.length → StaysInside input position)
  := by
  constructor
  · apply safe_parse
  · intro hsize position h
    apply staysInside (by omega) h

/-- An input that ends in the middle of a surrogate pair. -/
theorem parse_staysInside_truncated :
  Safe (ascii "\x7b\"\\ud800\\") parse 0 (fun _ q => q = 9) ∧
    StaysInside (ascii "\x7b\"\\ud800\\") 9
  := by
  obtain ⟨hparse, hinside⟩ := parse_staysInside (ascii "\x7b\"\\ud800\\")
  exact ⟨hparse, hinside (by decide) 9 (by decide)⟩

end ConfigJsonParser

end OpcuaServer
