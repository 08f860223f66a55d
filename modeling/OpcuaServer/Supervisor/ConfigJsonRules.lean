import OpcuaServer.Supervisor.ConfigJsonParser

/-!
# Rules for the parser

`Accepts p a b rest` says that `p` consumes exactly `b` and returns `a` where `b` and then
`rest` are left of the input. `Yields p R` says that whenever `p` returns a value, it has
consumed bytes to which `R` relates the value. Both compose along the sequencing of member
functions.
-/

namespace OpcuaServer

namespace ConfigJsonParser

variable {α β σ : Type}

/-- Where `b` and then `rest` are left of an input, `p` returns `a` and leaves `rest`. The size
of an input is far below the largest `std::size_t`. -/
def Accepts (p : ConfigJsonParser α) (a : α) (b rest : Bytes) : Prop :=
  ∀ input position, input.length + 4 < 2 ^ 64 → input.drop position = b ++ rest →
    p input position = .value a (position + b.length)

/-- Where `p` returns a value, it has consumed bytes to which `R` relates the value. -/
def Yields (p : ConfigJsonParser α) (R : α → Bytes → Prop) : Prop :=
  ∀ input position a position', p input position = .value a position' →
    ∃ b, input.drop position = b ++ input.drop position' ∧ R a b

/-! ### Functions at a position -/

@[simp]
theorem bind_apply (p : ConfigJsonParser α) (f : α → ConfigJsonParser β) (input : Bytes)
    (position : ℕ) :
  (p >>= f) input position
    = match p input position with
      | .value a position => f a input position
      | .error message position => .error message position
      | .fault f => .fault f
  := rfl

@[simp]
theorem pure_apply (a : α) (input : Bytes) (position : ℕ) :
  (pure a : ConfigJsonParser α) input position = .value a position
  := rfl

@[simp]
theorem fail_apply (message input : Bytes) (position : ℕ) :
  (fail message : ConfigJsonParser α) input position = .error message position
  := rfl

@[simp]
theorem position_apply (input : Bytes) (position : ℕ) :
  ConfigJsonParser.position input position = .value position position
  := rfl

@[simp]
theorem size_apply (input : Bytes) (position : ℕ) :
  size input position = .value input.length position
  := rfl

/-- Nothing is done after a member function. -/
theorem bind_return (p : ConfigJsonParser Unit) :
  (do p; return ()) = p
  := by
  funext input position
  rw [bind_apply]
  cases p input position <;> rfl

theorem setPosition_apply {target : ℕ} {input : Bytes} (h : target ≤ input.length)
    (position : ℕ) :
  setPosition target input position = .value () target
  := if_pos h

theorem advance_apply {input : Bytes} {position : ℕ} (h : position < input.length) :
  advance input position = .value () (position + 1)
  := setPosition_apply h position

/-- A position that is set lies inside of the input. -/
theorem setPosition_inv {target position position' : ℕ} {input : Bytes} {a : Unit}
    (h : setPosition target input position = .value a position') :
  position' = target ∧ target ≤ input.length
  := by
  rw [setPosition] at h
  split at h
  · next hle =>
    cases h
    exact ⟨rfl, hle⟩
  · cases h

@[simp]
theorem bytes_apply (length : ℕ) (input : Bytes) (position : ℕ) :
  bytes length input position = .value ((input.drop position).take length) position
  := rfl

/-- Inside of an input the sums do not wrap around. -/
theorem positionPlus_apply {n position : ℕ} {input : Bytes} (hsize : input.length + 4 < 2 ^ 64)
    (hn : n ≤ 4) (hposition : position ≤ input.length) :
  positionPlus n input position = .value (position + n) position
  := if_pos (by omega)

/-- A sum that does not wrap around. -/
theorem positionPlus_inv {n position sum position' : ℕ} {input : Bytes}
    (h : positionPlus n input position = .value sum position') :
  sum = position + n ∧ position' = position
  := by
  rw [positionPlus] at h
  split at h
  · cases h
    exact ⟨rfl, rfl⟩
  · cases h

theorem sequenceLength_apply {position length : ℕ} {input : Bytes}
    (hsize : input.length + 4 < 2 ^ 64) (hposition : position ≤ input.length)
    (h : validUtf8SequenceLength input position = some length) :
  sequenceLength input position = .value length position
  := by
  rw [sequenceLength, bind_apply, positionPlus_apply hsize (by decide) hposition]
  simp only [sequenceLengthAt, h]

/-- A length of a sequence is that of the sequence at the position. -/
theorem sequenceLength_inv {position length position' : ℕ} {input : Bytes}
    (h : sequenceLength input position = .value length position') :
  validUtf8SequenceLength input position = some length ∧ position' = position
  := by
  rw [sequenceLength, bind_apply] at h
  split at h
  · next sum q hsum =>
    obtain ⟨-, rfl⟩ := positionPlus_inv hsum
    rw [sequenceLengthAt] at h
    split at h
    · next hvalid =>
      cases h
      exact ⟨hvalid, rfl⟩
    · cases h
  · cases h
  · cases h

/-! ### Tests and single bytes -/

section

variable {input : Bytes} {position : ℕ} {ch : UInt8} {rest : Bytes}

/-- The first byte of what is left of an input is at the position. -/
theorem getElem?_of_drop (h : input.drop position = ch :: rest) :
  input[position]? = some ch
  := by
  rw [← Nat.add_zero position, ← List.getElem?_drop, h]
  rfl

/-- Where bytes are left, the position is inside of the input. -/
theorem lt_of_drop (h : input.drop position = ch :: rest) :
  position < input.length
  := by
  have := congrArg List.length h
  simp only [List.length_drop, List.length_cons] at this
  omega

/-- After the first byte of what is left, the others are left. -/
theorem drop_succ (h : input.drop position = ch :: rest) :
  input.drop (position + 1) = rest
  := by
  rw [← List.drop_drop, h]
  rfl

theorem atEnd_nil (h : input.drop position = []) :
  atEnd input position = .value true position
  := by
  have hle := List.drop_eq_nil_iff.mp h
  rw [atEnd, decide_eq_true hle]

theorem atEnd_cons (h : input.drop position = ch :: rest) :
  atEnd input position = .value false position
  := by
  have hlt := lt_of_drop h
  rw [atEnd, decide_eq_false (by omega)]

theorem current_cons (h : input.drop position = ch :: rest) :
  current input position = .value ch position
  := by
  rw [current, read, getElem?_of_drop h]

/-- There is no byte at the end. -/
theorem current_nil (h : input.drop position = []) :
  current input position = .fault (.outOfBounds position)
  := by
  have hle := List.drop_eq_nil_iff.mp h
  rw [current, read, List.getElem?_eq_none hle]

theorem next_cons (h : input.drop position = ch :: rest) :
  next input position = .value ch (position + 1)
  := by
  rw [next, bind_apply, current_cons h]
  simp only [bind_apply, advance_apply (lt_of_drop h), pure_apply]

theorem atByte_nil (t : UInt8 → Bool) (h : input.drop position = []) :
  atByte t input position = .value false position
  := by
  rw [atByte, bind_apply, atEnd_nil h]
  rfl

theorem atByte_cons (t : UInt8 → Bool) (h : input.drop position = ch :: rest) :
  atByte t input position = .value (t ch) position
  := by
  rw [atByte, bind_apply, atEnd_cons h]
  simp only [Bool.false_eq_true, if_false, bind_apply, current_cons h]
  rfl

/-- An iteration of the loop of `parseString` reads a byte and treats it. -/
theorem stringStep_apply {value : Bytes} (h : input.drop position = ch :: rest) :
  stringStep value input position = stringByte value position ch input (position + 1)
  := by
  simp only [stringStep, bind_apply, atEnd_cons h, Bool.false_eq_true, if_false, position_apply,
    next_cons h]

/-- Where two bytes are left, they are at the position. -/
theorem exists_drop_of_two (h : position + 2 ≤ input.length) :
  ∃ c₀ c₁ rest, input.drop position = c₀ :: c₁ :: rest
  := by
  have hlength : 2 ≤ (input.drop position).length := by
    rw [List.length_drop]
    omega
  match hdrop : input.drop position with
  | c₀ :: c₁ :: rest => exact ⟨c₀, c₁, rest, rfl⟩
  | [_] | [] =>
    rw [hdrop] at hlength
    simp at hlength

end

/-! ### Acceptance -/

namespace Accepts

theorem pure (a : α) (rest : Bytes) :
  Accepts (Pure.pure a) a [] rest
  := by
  intro input position _ _
  rfl

/-- Bytes consumed by `p` and then bytes consumed by what follows it. -/
theorem bind {p : ConfigJsonParser α} {f : α → ConfigJsonParser β} {a : α} {c : β}
    {b b' rest : Bytes} (hp : Accepts p a b (b' ++ rest)) (hf : Accepts (f a) c b' rest) :
  Accepts (p >>= f) c (b ++ b') rest
  := by
  intro input position hsize hrest
  rw [List.append_assoc] at hrest
  have hdrop : input.drop (position + b.length) = b' ++ rest := by
    rw [← List.drop_drop, hrest, List.drop_left]
  rw [bind_apply, hp input position hsize hrest]
  simp only [hf input _ hsize hdrop, List.length_append, Nat.add_assoc]

/-- A test that consumes nothing, and then bytes consumed by what follows it. -/
theorem test {p : ConfigJsonParser α} {f : α → ConfigJsonParser β} {a : α} {c : β}
    {b rest : Bytes} (hp : Accepts p a [] (b ++ rest)) (hf : Accepts (f a) c b rest) :
  Accepts (p >>= f) c b rest
  := bind hp hf

/-- Bytes consumed by `p`, with nothing consumed after it. -/
theorem last {p : ConfigJsonParser α} {f : α → ConfigJsonParser β} {a : α} {c : β}
    {b rest : Bytes} (hp : Accepts p a b rest) (hf : Accepts (f a) c [] rest) :
  Accepts (p >>= f) c b rest
  := by
  have h : Accepts (p >>= f) c (b ++ []) rest := bind hp hf
  rw [List.append_nil] at h
  apply h

theorem next (ch : UInt8) (rest : Bytes) :
  Accepts next ch [ch] rest
  := by
  intro input position _ h
  apply next_cons h

theorem advance (ch : UInt8) (rest : Bytes) :
  Accepts advance () [ch] rest
  := by
  intro input position _ h
  apply advance_apply (lt_of_drop h)

theorem current (ch : UInt8) (rest : Bytes) :
  Accepts current ch [] (ch :: rest)
  := by
  intro input position _ h
  apply current_cons h

theorem atEnd (ch : UInt8) (rest : Bytes) :
  Accepts atEnd false [] (ch :: rest)
  := by
  intro input position _ h
  apply atEnd_cons h

/-- A byte that passes a test. -/
theorem atByte {t : UInt8 → Bool} {ch : UInt8} (rest : Bytes) (ht : t ch = true) :
  Accepts (atByte t) true [] (ch :: rest)
  := by
  intro input position _ h
  rw [← ht]
  apply atByte_cons t h

/-- What is left does not start with a byte that passes a test. -/
theorem atByte_not {t : UInt8 → Bool} {rest : Bytes}
    (ht : ∀ ch ∈ rest.head?, t ch = false) :
  Accepts (ConfigJsonParser.atByte t) false [] rest
  := by
  intro input position _ h
  cases rest with
  | nil => apply atByte_nil t h
  | cons ch rest =>
    rw [← ht ch rfl]
    apply atByte_cons t h

/-- One iteration of a loop that goes on. -/
theorem iterate_inl {body : σ → ConfigJsonParser (σ ⊕ β)} {s t : σ} {fuel : ℕ} {c : β}
    {b b' rest : Bytes} (hbody : Accepts (body s) (.inl t) b (b' ++ rest))
    (hrest : Accepts (iterate body fuel t) c b' rest) :
  Accepts (iterate body (fuel + 1) s) c (b ++ b') rest
  := bind hbody hrest

/-- The last iteration of a loop. -/
theorem iterate_inr {body : σ → ConfigJsonParser (σ ⊕ β)} {s : σ} {fuel : ℕ} {c : β}
    {b rest : Bytes} (hbody : Accepts (body s) (.inr c) b rest) :
  Accepts (iterate body (fuel + 1) s) c b rest
  := last hbody (pure c rest)

/-- A loop consumes what as many of its iterations as there are bytes consume. -/
theorem loop {body : σ → ConfigJsonParser (σ ⊕ β)} {s : σ} {c : β} {b rest : Bytes}
    (h : ∀ fuel, b.length ≤ fuel → Accepts (iterate body (fuel + 1) s) c b rest) :
  Accepts (ConfigJsonParser.loop body s) c b rest
  := by
  intro input position hsize hrest
  apply h input.length _ input position hsize hrest
  have := congrArg List.length hrest
  simp only [List.length_drop, List.length_append] at this
  omega

end Accepts

/-! ### Soundness -/

namespace Yields

theorem pure {R : α → Bytes → Prop} {a : α} (h : R a []) :
  Yields (Pure.pure a) R
  := by
  intro input position c position' hrun
  cases hrun
  exact ⟨[], rfl, h⟩

theorem fail (message : Bytes) (R : α → Bytes → Prop) :
  Yields (ConfigJsonParser.fail message) R
  := by
  intro input position a position' hrun
  cases hrun

theorem mono {p : ConfigJsonParser α} {R S : α → Bytes → Prop} (hp : Yields p R)
    (h : ∀ a b, R a b → S a b) :
  Yields p S
  := by
  intro input position a position' hrun
  obtain ⟨b, hb, hR⟩ := hp input position a position' hrun
  exact ⟨b, hb, h a b hR⟩

/-- The bytes of `p` and then those of what follows it. -/
theorem bind {p : ConfigJsonParser α} {f : α → ConfigJsonParser β} {R : α → Bytes → Prop}
    {S : β → Bytes → Prop} (hp : Yields p R)
    (hf : ∀ a b, R a b → Yields (f a) fun c b' => S c (b ++ b')) :
  Yields (p >>= f) S
  := by
  intro input position c position' hrun
  rw [bind_apply] at hrun
  split at hrun
  · next a q hq =>
    obtain ⟨b, hb, hR⟩ := hp input position a q hq
    obtain ⟨b', hb', hS⟩ := hf a b hR input q c position' hrun
    use b ++ b'
    rw [hb, hb', List.append_assoc]
    exact ⟨rfl, hS⟩
  · cases hrun
  · cases hrun

/-- The next byte. -/
theorem next :
  Yields ConfigJsonParser.next fun ch b => b = [ch]
  := by
  intro input position ch position' hrun
  cases hdrop : input.drop position with
  | nil =>
    rw [ConfigJsonParser.next, bind_apply, current_nil hdrop] at hrun
    cases hrun
  | cons c rest =>
    rw [next_cons hdrop] at hrun
    cases hrun
    exact ⟨[ch], by rw [drop_succ hdrop]; rfl, rfl⟩

theorem size :
  Yields ConfigJsonParser.size fun _ b => b = []
  := by
  intro input position n position' hrun
  cases hrun
  exact ⟨[], rfl, rfl⟩

theorem atEnd :
  Yields ConfigJsonParser.atEnd fun _ b => b = []
  := by
  intro input position r position' hrun
  cases hrun
  exact ⟨[], rfl, rfl⟩

theorem positionPlus (n : ℕ) :
  Yields (ConfigJsonParser.positionPlus n) fun _ b => b = []
  := by
  intro input position n position' hrun
  obtain ⟨-, rfl⟩ := positionPlus_inv hrun
  exact ⟨[], rfl, rfl⟩

/-- A test of the next byte that consumes it where it passes. -/
theorem ifByte {t : UInt8 → Bool} {p q : ConfigJsonParser α} {R : α → Bytes → Prop}
    (hp : ∀ ch, t ch = true → Yields p fun a b => R a (ch :: b)) (hq : Yields q R) :
  Yields (do
    if ← ConfigJsonParser.atByte t then
      ConfigJsonParser.advance
      p
    else q) R
  := by
  intro input position a position' hrun
  cases hdrop : input.drop position with
  | nil =>
    rw [bind_apply, atByte_nil t hdrop] at hrun
    rw [← hdrop]
    apply hq input position a position' hrun
  | cons ch rest =>
    rw [bind_apply, atByte_cons t hdrop] at hrun
    cases ht : t ch with
    | false =>
      rw [ht] at hrun
      rw [← hdrop]
      apply hq input position a position' hrun
    | true =>
      rw [ht] at hrun
      simp only [if_true, bind_apply, advance_apply (lt_of_drop hdrop)] at hrun
      obtain ⟨b, hb, hR⟩ := hp ch ht input (position + 1) a position' hrun
      rw [drop_succ hdrop] at hb
      exact ⟨ch :: b, by rw [hb]; rfl, hR⟩

/-- A test of the next byte. -/
theorem atByte (t : UInt8 → Bool) :
  Yields (ConfigJsonParser.atByte t) fun _ b => b = []
  := by
  intro input position a position' hrun
  cases hdrop : input.drop position with
  | nil =>
    rw [atByte_nil t hdrop] at hrun
    cases hrun
    exact ⟨[], hdrop.symm, rfl⟩
  | cons ch rest =>
    rw [atByte_cons t hdrop] at hrun
    cases hrun
    exact ⟨[], hdrop.symm, rfl⟩

/-- A relation that every iteration preserves. -/
theorem iterate {body : σ → ConfigJsonParser (σ ⊕ β)} {R : σ → β → Bytes → Prop}
    (hbody : ∀ s, Yields (body s) fun r b =>
      match r with
      | .inl s' => ∀ c b', R s' c b' → R s c (b ++ b')
      | .inr c => R s c b)
    (fuel : ℕ) (s : σ) :
  Yields (ConfigJsonParser.iterate body fuel s) (R s)
  := by
  induction fuel generalizing s with
  | zero =>
    intro input position c position' hrun
    cases hrun
  | succ fuel ih =>
    apply bind (hbody s)
    rintro (s' | c) b hR
    · apply mono (ih s')
      intro c b' hc
      apply hR c b' hc
    · apply pure
      rw [List.append_nil]
      apply hR

/-- A relation that every iteration of a loop preserves. -/
theorem loop {body : σ → ConfigJsonParser (σ ⊕ β)} {R : σ → β → Bytes → Prop}
    (hbody : ∀ s, Yields (body s) fun r b =>
      match r with
      | .inl s' => ∀ c b', R s' c b' → R s c (b ++ b')
      | .inr c => R s c b)
    (s : σ) :
  Yields (ConfigJsonParser.loop body s) (R s)
  := by
  intro input position c position' hrun
  apply iterate hbody _ s input position c position' hrun

end Yields

end ConfigJsonParser

end OpcuaServer
