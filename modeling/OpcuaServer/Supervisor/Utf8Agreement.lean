import OpcuaServer.Supervisor.ConfigJsonSoundness

/-!
# The validator and the encoder of UTF-8

`ValidUtf8SequenceLength` accepts a sequence of bytes exactly where `AppendCodePoint` writes it for
some scalar value from `0x80` on (`utf8_agreement`). The strings that `ParseString` puts together
of copied sequences, escapes and pairs of surrogates are therefore encodings of scalar values.
-/

namespace OpcuaServer

/-- A code point that is no surrogate. -/
def IsScalar (v : ℕ) : Prop :=
  v ≤ 0x10FFFF ∧ ¬ (0xD800 ≤ v ∧ v ≤ 0xDFFF)

/-- The `n` bytes of `s` from `p` on are what `appendCodePoint` appends for `v`, a scalar value
that is not ASCII. -/
structure IsSequence (s : Bytes) (p n v : ℕ) : Prop where
  scalar : IsScalar v
  not_ascii : 0x80 ≤ v
  inside : p + n ≤ s.length
  appended : ∀ output, appendCodePoint v output = output ++ (s.drop p).take n

/-- The scalar values are the numbers of the characters. -/
theorem isScalar_iff {v : ℕ} :
  IsScalar v ↔ ∃ c : Char, c.toNat = v
  := by
  constructor
  · rintro ⟨hle, hsurrogate⟩
    use Char.ofNat v
    apply Utf8.toNat_ofNat
    rw [Nat.isValidChar]
    omega
  · rintro ⟨c, rfl⟩
    have hrange := Utf8.toNat_range c
    rw [IsScalar]
    omega

/-- A sequence is the encoding of a character with bytes after it. -/
theorem isSequence_iff {s : Bytes} {p n v : ℕ} :
  IsSequence s p n v ↔ ∃ (c : Char) (rest : Bytes), c.toNat = v ∧ 0x80 ≤ c.toNat ∧
    s.drop p = String.utf8EncodeChar c ++ rest ∧ n = (String.utf8EncodeChar c).length
  := by
  constructor
  · rintro ⟨hscalar, hv, hinside, happended⟩
    obtain ⟨c, rfl⟩ := isScalar_iff.mp hscalar
    have hencode : String.utf8EncodeChar c = (s.drop p).take n := by
      rw [← List.nil_append (String.utf8EncodeChar c), ← appendCodePoint_toNat, happended,
        List.nil_append]
    use c, (s.drop p).drop n, rfl, hv
    constructor
    · rw [hencode, List.take_append_drop]
    · rw [hencode, List.length_take, List.length_drop]
      omega
  · rintro ⟨c, rest, rfl, hc, hdrop, rfl⟩
    have hlength := congrArg List.length hdrop
    rw [List.length_drop, List.length_append] at hlength
    have hpos : 0 < (String.utf8EncodeChar c).length :=
      List.length_pos_iff.mpr String.utf8EncodeChar_ne_nil
    constructor
    · apply isScalar_iff.mpr
      use c
    · apply hc
    · omega
    · intro output
      rw [hdrop, List.take_left, appendCodePoint_toNat]

/-- The validator finds the sequences that the encoder writes, and no others. -/
theorem validUtf8SequenceLength_iff {s : Bytes} {p n : ℕ} (hp : p < s.length) (hn : 0 < n) :
  validUtf8SequenceLength s p = some n ↔ ∃ v, IsSequence s p n v
  := by
  constructor
  · intro hvalid
    obtain ⟨c, rest, hc, hdrop, hlength⟩ :=
      exists_char_of_validUtf8SequenceLength hp hvalid hn
    use c.toNat
    apply isSequence_iff.mpr
    use c, rest
  · rintro ⟨v, hsequence⟩
    obtain ⟨c, rest, rfl, hc, hdrop, rfl⟩ := isSequence_iff.mp hsequence
    apply validUtf8SequenceLength_encode hdrop hc

/-- At most one sequence starts at a position. -/
theorem IsSequence.unique {s : Bytes} {p n n' v v' : ℕ} (h : IsSequence s p n v)
    (h' : IsSequence s p n' v') :
  n = n' ∧ v = v'
  := by
  obtain ⟨c, rest, rfl, _, hdrop, rfl⟩ := isSequence_iff.mp h
  obtain ⟨c', rest', rfl, _, hdrop', rfl⟩ := isSequence_iff.mp h'
  obtain ⟨rfl, _⟩ := Utf8.utf8EncodeChar_append_inj (hdrop.symm.trans hdrop')
  exact ⟨rfl, rfl⟩

/-- A string that is parsed is the encoding of scalar values without NUL. -/
theorem ConfigJsonParser.encode_of_parseString {input value : Bytes} {position position' : ℕ}
    (h : ConfigJsonParser.parseString input position = .value value position') :
  ∃ cs : List Char, '\x00' ∉ cs ∧ value = Utf8.encode cs
  := by
  obtain ⟨_, _, _, _, cs, _, _, hnul, _, hvalue⟩ := yields_parseString input position _ _ h
  use cs

/-- The validator and the encoder describe the same sequences, each of one scalar value and one
length, and what the parser puts together of them are encodings of scalar values without NUL. -/
theorem utf8_agreement {s : Bytes} {p : ℕ} (hp : p < s.length) :
  (∀ n, 0 < n → (validUtf8SequenceLength s p = some n ↔ ∃ v, IsSequence s p n v)) ∧
  (∀ n n' v v', IsSequence s p n v → IsSequence s p n' v' → n = n' ∧ v = v') ∧
  ∀ (input : Bytes) (position : ℕ) (value : Bytes) (position' : ℕ),
    ConfigJsonParser.parseString input position = .value value position' →
    ∃ cs : List Char, '\x00' ∉ cs ∧ value = Utf8.encode cs
  := by
  refine ⟨?_, ?_, ?_⟩
  · intro n hn
    apply validUtf8SequenceLength_iff hp hn
  · intro n n' v v' h h'
    apply h.unique h'
  · intro input position value position' h
    apply ConfigJsonParser.encode_of_parseString h

/-- The three bytes of U+20AC after an ASCII character are a sequence. -/
theorem utf8_agreement_euro :
  ∃ v, IsSequence [0x61, 0xE2, 0x82, 0xAC] 1 3 v
  := by
  apply ((utf8_agreement (by decide)).1 3 (by decide)).mp
  decide

end OpcuaServer
