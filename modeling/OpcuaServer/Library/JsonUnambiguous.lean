import OpcuaServer.Library.Json

/-!
# The grammar of JSON texts is unambiguous

A text has at most one value (`Text.unique`). Each production is shown to end at one place only,
whatever follows it: of two derivations from the front of one byte string, the values are the same
and so is what is left, for values up to white space.
-/

namespace Json

/-! ### Strings -/

theorem HexDigit.unique {b : UInt8} {n n' : ℕ} (h : HexDigit b n) (h' : HexDigit b n') :
  n = n'
  := by
  cases h with
  | decimal h₁ h₂ | upper h₁ h₂ | lower h₁ h₂ =>
    cases h' with
    | decimal h₃ h₄ | upper h₃ h₄ | lower h₃ h₄ =>
      simp only [UInt8.le_iff_toNat_le, UInt8.reduceToNat] at h₁ h₂ h₃ h₄
      omega

theorem CodeUnit.unique {b b' r r' : List UInt8} {n n' : ℕ} (h : CodeUnit b n)
    (h' : CodeUnit b' n') (heq : b ++ r = b' ++ r') :
  n = n' ∧ r = r'
  := by
  cases h with
  | mk h₁ h₂ h₃ h₄ =>
    cases h' with
    | mk h₁' h₂' h₃' h₄' =>
      obtain ⟨rfl, rfl, rfl, rfl, rfl⟩ : _ ∧ _ ∧ _ ∧ _ ∧ _ := by simpa using heq
      rw [h₁.unique h₁', h₂.unique h₂', h₃.unique h₃', h₄.unique h₄']
      exact ⟨rfl, rfl⟩

theorem SimpleEscape.unique {e : UInt8} {c c' : Char} (h : SimpleEscape e c)
    (h' : SimpleEscape e c') :
  c = c'
  := by
  cases h <;> cases h' <;> rfl

theorem SimpleEscape.ne {e : UInt8} {c : Char} (h : SimpleEscape e c) :
  e ≠ 0x75
  := by
  cases h <;> decide

/-- An unescaped character does not start with a backslash or a quotation mark. -/
theorem head_unescaped {c : Char} (hquote : c ≠ '"') (hback : c ≠ '\\') :
  ∃ b bs, String.utf8EncodeChar c = b :: bs ∧ b ≠ 0x5C ∧ b ≠ 0x22
  := by
  obtain ⟨b, bs, hb⟩ := List.exists_cons_of_ne_nil (String.utf8EncodeChar_ne_nil (c := c))
  have hne : ∀ d : Char, String.utf8EncodeChar d = [b] → c = d := by
    intro d hd
    apply (Utf8.utf8EncodeChar_append_inj (r := []) (s := bs) _).1
    rw [hb, hd]
    simp
  use b, bs, hb
  constructor
  · rintro rfl
    apply hback (hne _ (by decide))
  · rintro rfl
    apply hquote (hne _ (by decide))

theorem unescaped_ne_escape {c : Char} {r r' : List UInt8} (hquote : c ≠ '"') (hback : c ≠ '\\') :
  String.utf8EncodeChar c ++ r ≠ 0x5C :: r'
  := by
  obtain ⟨b, bs, hb, hne, -⟩ := head_unescaped hquote hback
  rw [hb]
  intro heq
  apply hne (List.cons.inj heq).1

/-- A `\u` escape of a scalar value is not the first half of a pair. -/
theorem CodeUnit.not_high {h h' r r' : List UInt8} {c : Char} {hi : ℕ} (hc : CodeUnit h c.toNat)
    (hhi : CodeUnit h' hi) (h₁ : 0xD800 ≤ hi) (h₂ : hi ≤ 0xDBFF) :
  h ++ r ≠ h' ++ r'
  := by
  intro heq
  have hrange := Utf8.toNat_range c
  have := (hc.unique hhi heq).1
  omega

/-- A character has one form at the front of a byte string. -/
theorem CharForm.unique {p p' r r' : List UInt8} {c c' : Char} (h : CharForm p c)
    (h' : CharForm p' c') (heq : p ++ r = p' ++ r') :
  c = c' ∧ r = r'
  := by
  cases h with
  | unescaped h₁ h₂ h₃ =>
    cases h' with
    | unescaped h₁' h₂' h₃' => apply Utf8.utf8EncodeChar_append_inj heq
    | escaped h' | unicode h' | surrogatePair h' =>
      cases unescaped_ne_escape h₂ h₃ heq
  | escaped h =>
    cases h' with
    | unescaped _ h₂' h₃' => cases unescaped_ne_escape h₂' h₃' heq.symm
    | escaped h' =>
      obtain ⟨rfl, rfl⟩ : _ ∧ _ := by simpa using heq
      exact ⟨h.unique h', rfl⟩
    | unicode h' | surrogatePair h' =>
      cases h.ne (List.cons.inj (List.cons.inj heq).2).1
  | unicode h =>
    cases h' with
    | unescaped _ h₂' h₃' => cases unescaped_ne_escape h₂' h₃' heq.symm
    | escaped h' => cases h'.ne (List.cons.inj (List.cons.inj heq).2).1.symm
    | unicode h' =>
      have hrest := (List.cons.inj (List.cons.inj heq).2).2
      obtain ⟨hc, hr⟩ := h.unique h' hrest
      exact ⟨Char.toNat_inj.mp hc, hr⟩
    | surrogatePair h' hl h₁ h₂ h₃ h₄ hc =>
      rw [List.append_assoc] at heq
      have hrest := (List.cons.inj (List.cons.inj heq).2).2
      cases h.not_high h' h₁ h₂ hrest
  | surrogatePair h hl h₁ h₂ h₃ h₄ hc =>
    rw [List.append_assoc] at heq
    cases h' with
    | unescaped _ h₂' h₃' => cases unescaped_ne_escape h₂' h₃' heq.symm
    | escaped h' => cases h'.ne (List.cons.inj (List.cons.inj heq).2).1.symm
    | unicode h' =>
      have hrest := (List.cons.inj (List.cons.inj heq).2).2
      cases h'.not_high h h₁ h₂ hrest.symm
    | surrogatePair h' hl' h₁' h₂' h₃' h₄' hc' =>
      rw [List.append_assoc] at heq
      have hrest := (List.cons.inj (List.cons.inj heq).2).2
      obtain ⟨rfl, hrest⟩ := h.unique h' hrest
      have hrest := (List.cons.inj (List.cons.inj hrest).2).2
      obtain ⟨rfl, hr⟩ := hl.unique hl' hrest
      exact ⟨Char.toNat_inj.mp (hc.trans hc'.symm), hr⟩

/-- No form of a character starts with a quotation mark. -/
theorem CharForm.head {p : List UInt8} {c : Char} (h : CharForm p c) :
  ∃ b bs, p = b :: bs ∧ b ≠ 0x22
  := by
  cases h with
  | unescaped h₁ h₂ h₃ =>
    obtain ⟨b, bs, hb, -, hne⟩ := head_unescaped h₂ h₃
    exact ⟨b, bs, hb, hne⟩
  | escaped h | unicode h | surrogatePair h => exact ⟨0x5C, _, rfl, by decide⟩

/-- The characters of a string end at the first quotation mark between two of them. -/
theorem Chars.unique :
  ∀ {body body' r r' : List UInt8} {cs cs' : List Char}, Chars body cs → Chars body' cs' →
    body ++ 0x22 :: r = body' ++ 0x22 :: r' → cs = cs' ∧ r = r'
  | _, _, _, _, _, _, .nil, .nil, heq => ⟨rfl, (List.cons.inj heq).2⟩
  | _, _, _, _, _, _, .nil, .cons hp hb, heq => by
    obtain ⟨b, bs, rfl, hne⟩ := hp.head
    cases hne (List.cons.inj heq).1.symm
  | _, _, _, _, _, _, .cons hp hb, .nil, heq => by
    obtain ⟨b, bs, rfl, hne⟩ := hp.head
    cases hne (List.cons.inj heq).1
  | _, _, _, _, _, _, .cons hp hb, .cons hp' hb', heq => by
    rw [List.append_assoc, List.append_assoc] at heq
    obtain ⟨rfl, hrest⟩ := hp.unique hp' heq
    obtain ⟨rfl, hr⟩ := Chars.unique hb hb' hrest
    exact ⟨rfl, hr⟩

theorem StringLit.unique {b b' r r' : List UInt8} {cs cs' : List Char} (h : StringLit b cs)
    (h' : StringLit b' cs') (heq : b ++ r = b' ++ r') :
  cs = cs' ∧ r = r'
  := by
  obtain ⟨body, hbody, rfl⟩ := h
  obtain ⟨body', hbody', rfl⟩ := h'
  apply hbody.unique hbody'
  simpa using heq

/-! ### Numbers -/

/-- No digit, decimal point or exponent follows. -/
def NumberEnd (r : List UInt8) : Prop :=
  ∀ c ∈ r.head?, ¬ Decimal.IsDigit c ∧ c ≠ 0x2E ∧ c ≠ 0x65 ∧ c ≠ 0x45

/-- Digits up to the first byte that is no digit. -/
theorem digits_unique :
  ∀ {ds ds' r r' : List UInt8}, (∀ d ∈ ds, Decimal.IsDigit d) → (∀ d ∈ ds', Decimal.IsDigit d) →
    (∀ c ∈ r.head?, ¬ Decimal.IsDigit c) → (∀ c ∈ r'.head?, ¬ Decimal.IsDigit c) →
    ds ++ r = ds' ++ r' → ds = ds' ∧ r = r'
  | [], [], _, _, _, _, _, _, heq => ⟨rfl, heq⟩
  | [], d :: ds, r, _, _, hds', hr, _, heq => by
    rw [List.nil_append] at heq
    subst heq
    cases hr d rfl (hds' d List.mem_cons_self)
  | d :: ds, [], _, r', hds, _, _, hr', heq => by
    rw [List.nil_append] at heq
    subst heq
    cases hr' d rfl (hds d List.mem_cons_self)
  | d :: ds, d' :: ds', _, _, hds, hds', hr, hr', heq => by
    obtain ⟨rfl, hrest⟩ := List.cons.inj heq
    obtain ⟨rfl, hr⟩ := digits_unique (fun b hb => hds b (List.mem_cons_of_mem _ hb))
      (fun b hb => hds' b (List.mem_cons_of_mem _ hb)) hr hr' hrest
    exact ⟨rfl, hr⟩

/-- What a byte string of digits starts with is a digit. -/
theorem isDigit_head {ds r : List UInt8} (hne : ds ≠ []) (hds : ∀ d ∈ ds, Decimal.IsDigit d) :
  ∃ d rest, ds ++ r = d :: rest ∧ Decimal.IsDigit d
  := by
  cases ds with
  | nil => cases hne rfl
  | cons d ds => exact ⟨d, ds ++ r, rfl, hds d List.mem_cons_self⟩

/-- A sign in front of digits, and what follows it. -/
theorem sign_unique {sign sign' ds ds' r r' : List UInt8}
    (hsign : sign = [] ∨ sign = [0x2B] ∨ sign = [0x2D])
    (hsign' : sign' = [] ∨ sign' = [0x2B] ∨ sign' = [0x2D]) (hne : ds ≠ []) (hne' : ds' ≠ [])
    (hds : ∀ d ∈ ds, Decimal.IsDigit d) (hds' : ∀ d ∈ ds', Decimal.IsDigit d)
    (heq : sign ++ (ds ++ r) = sign' ++ (ds' ++ r')) :
  sign = sign' ∧ ds ++ r = ds' ++ r'
  := by
  obtain ⟨d, rest, hd, hdigit⟩ := isDigit_head (r := r) hne hds
  obtain ⟨d', rest', hd', hdigit'⟩ := isDigit_head (r := r') hne' hds'
  have hplus : ¬ Decimal.IsDigit 0x2B := by decide
  have hminus : ¬ Decimal.IsDigit 0x2D := by decide
  rw [hd, hd'] at heq ⊢
  rcases hsign with rfl | rfl | rfl <;> rcases hsign' with rfl | rfl | rfl
  · exact ⟨rfl, heq⟩
  · cases hplus ((List.cons.inj heq).1 ▸ hdigit)
  · cases hminus ((List.cons.inj heq).1 ▸ hdigit)
  · cases hplus ((List.cons.inj heq).1 ▸ hdigit')
  · exact ⟨rfl, (List.cons.inj heq).2⟩
  · cases (List.cons.inj heq).1
  · cases hminus ((List.cons.inj heq).1 ▸ hdigit')
  · cases (List.cons.inj heq).1
  · exact ⟨rfl, (List.cons.inj heq).2⟩

theorem IsExponent.unique {b b' r r' : List UInt8} (h : IsExponent b) (h' : IsExponent b')
    (hr : ∀ c ∈ r.head?, ¬ Decimal.IsDigit c) (hr' : ∀ c ∈ r'.head?, ¬ Decimal.IsDigit c)
    (heq : b ++ r = b' ++ r') :
  b = b' ∧ r = r'
  := by
  obtain ⟨sign, ds, hsign, ⟨hne, hds⟩, rfl⟩ := h
  obtain ⟨sign', ds', hsign', ⟨hne', hds'⟩, rfl⟩ := h'
  rw [List.append_assoc, List.append_assoc] at heq
  obtain ⟨rfl, hrest⟩ := sign_unique hsign hsign' hne hne' hds hds' heq
  obtain ⟨rfl, hr⟩ := digits_unique hds hds' hr hr' hrest
  exact ⟨rfl, hr⟩

/-- An optional part is there if the byte that leads it is. -/
theorem IsPart.unique {lead : UInt8 → Prop} {P : List UInt8 → Prop} {b b' r r' : List UInt8}
    {part part' : Option (List UInt8)} (h : IsPart lead P b part) (h' : IsPart lead P b' part')
    (hr : ∀ c ∈ r.head?, ¬ lead c) (hr' : ∀ c ∈ r'.head?, ¬ lead c)
    (hP : ∀ {ds ds'}, P ds → P ds' → ds ++ r = ds' ++ r' → ds = ds' ∧ r = r')
    (heq : b ++ r = b' ++ r') :
  part = part' ∧ r = r'
  := by
  cases h with
  | none =>
    cases h' with
    | none => exact ⟨rfl, heq⟩
    | some hc' hb' =>
      rw [List.nil_append] at heq
      subst heq
      cases hr _ rfl hc'
  | some hc hb =>
    cases h' with
    | none =>
      rw [List.nil_append] at heq
      subst heq
      cases hr' _ rfl hc
    | some hc' hb' =>
      obtain ⟨rfl, hrest⟩ := hP hb hb' (List.cons.inj heq).2
      exact ⟨rfl, hrest⟩

/-- After an optional part comes what leads it, or what follows the part. -/
theorem IsPart.head {lead : UInt8 → Prop} {P : List UInt8 → Prop} {b r : List UInt8}
    {part : Option (List UInt8)} (h : IsPart lead P b part) {c : UInt8}
    (hc : c ∈ (b ++ r).head?) :
  lead c ∨ c ∈ r.head?
  := by
  cases h with
  | none => exact .inr hc
  | some hlead =>
    cases hc
    exact .inl hlead

/-- A number ends at the first byte that is not one of a number. -/
theorem NumberLit.unique {b b' r r' : List UInt8} {n n' : Number} (h : NumberLit b n)
    (h' : NumberLit b' n') (hr : NumberEnd r) (hr' : NumberEnd r') (heq : b ++ r = b' ++ r') :
  n = n' ∧ r = r'
  := by
  obtain ⟨negative, int, frac, exp⟩ := n
  obtain ⟨negative', int', frac', exp'⟩ := n'
  obtain ⟨hint, hfrac, hexp⟩ := h
  obtain ⟨hint', hfrac', hexp'⟩ := h'
  rename_i f e f' e'
  simp only [List.append_assoc] at heq hint hfrac hexp hint' hfrac' hexp'
  have hdot : ¬ Decimal.IsDigit 0x2E := by decide
  have he : ∀ c, c = 0x65 ∨ c = 0x45 → ¬ Decimal.IsDigit c ∧ c ≠ 0x2E := by
    rintro c (rfl | rfl) <;> decide
  have hexpEnd : ∀ {e r : List UInt8} {exp}, IsPart (fun c => c = 0x65 ∨ c = 0x45) IsExponent e exp →
      NumberEnd r → ∀ c ∈ (e ++ r).head?, ¬ Decimal.IsDigit c ∧ c ≠ 0x2E := by
    intro e r exp hexp hr c hc
    rcases hexp.head hc with hc | hc
    · apply he c hc
    · exact ⟨(hr c hc).1, (hr c hc).2.1⟩
  have hfracEnd : ∀ {f r : List UInt8} {frac}, IsPart (fun c => c = 0x2E) IsFraction f frac →
      (∀ c ∈ r.head?, ¬ Decimal.IsDigit c ∧ c ≠ 0x2E) →
      ∀ c ∈ (f ++ r).head?, ¬ Decimal.IsDigit c := by
    intro f r frac hfrac hr c hc
    rcases hfrac.head hc with rfl | hc
    · apply hdot
    · apply (hr c hc).1
  have hsign : ∀ negative : Bool, (if negative then [(0x2D : UInt8)] else []) = [] ∨
      (if negative then [(0x2D : UInt8)] else []) = [0x2B] ∨
      (if negative then [(0x2D : UInt8)] else []) = [0x2D] := by
    rintro (_ | _) <;> decide
  obtain ⟨hneg, hrest₁⟩ := sign_unique (hsign negative) (hsign negative') hint.ne_nil hint'.ne_nil
    hint.isDigit hint'.isDigit heq
  obtain ⟨rfl, hrest₂⟩ := digits_unique hint.isDigit hint'.isDigit
    (hfracEnd hfrac (hexpEnd hexp hr)) (hfracEnd hfrac' (hexpEnd hexp' hr')) hrest₁
  obtain ⟨rfl, hrest₃⟩ := hfrac.unique hfrac' (fun c hc => (hexpEnd hexp hr c hc).2)
    (fun c hc => (hexpEnd hexp' hr' c hc).2)
    (fun hds hds' => digits_unique hds.2 hds'.2 (fun c hc => (hexpEnd hexp hr c hc).1)
      (fun c hc => (hexpEnd hexp' hr' c hc).1)) hrest₂
  obtain ⟨rfl, hrest₄⟩ := hexp.unique hexp' (fun c hc => not_or.mpr (hr c hc).2.2)
    (fun c hc => not_or.mpr (hr' c hc).2.2)
    (fun hds hds' => hds.unique hds' (fun c hc => (hr c hc).1) (fun c hc => (hr' c hc).1)) hrest₃
  have hnegative : negative = negative' := by
    revert hneg
    cases negative <;> cases negative' <;> simp
  exact ⟨by rw [hnegative], hrest₄⟩

/-! ### White space -/

instance (b : UInt8) : Decidable (IsWs b) :=
  inferInstanceAs (Decidable (_ ∨ _))

/-- A byte string without the white space in front. -/
def skip (b : List UInt8) : List UInt8 :=
  b.dropWhile (IsWs ·)

theorem skip_append {w : List UInt8} (hw : Ws w) (r : List UInt8) :
  skip (w ++ r) = skip r
  := by
  apply List.dropWhile_append_of_pos
  intro b hb
  apply decide_eq_true (hw b hb)

theorem skip_cons {c : UInt8} (hc : ¬ IsWs c) (r : List UInt8) :
  skip (c :: r) = c :: r
  := List.dropWhile_cons_of_neg (by simpa using hc)

theorem skip_structural {c : UInt8} {b : List UInt8} (h : Structural c b) (hc : ¬ IsWs c)
    (r : List UInt8) :
  ∃ r', skip (b ++ r) = c :: r' ∧ skip r' = skip r
  := by
  obtain ⟨w₁, w₂, hw₁, hw₂, rfl⟩ := h
  use w₂ ++ r
  rw [List.append_assoc, skip_append hw₁, List.cons_append, skip_cons hc, skip_append hw₂]
  exact ⟨rfl, rfl⟩

/-- After a structural character, what is left is the same up to white space. -/
theorem Structural.unique {c c' : UInt8} {b b' r r' : List UInt8} (h : Structural c b)
    (h' : Structural c' b') (hc : ¬ IsWs c) (hc' : ¬ IsWs c')
    (heq : skip (b ++ r) = skip (b' ++ r')) :
  c = c' ∧ skip r = skip r'
  := by
  obtain ⟨s, hs, hskip⟩ := skip_structural h hc r
  obtain ⟨s', hs', hskip'⟩ := skip_structural h' hc' r'
  rw [hs, hs'] at heq
  obtain ⟨rfl, rfl⟩ := List.cons.inj heq
  exact ⟨rfl, hskip.symm.trans hskip'⟩

/-! ### Values -/

/-- What may follow a value. -/
def ValueEnd (r : List UInt8) : Prop :=
  ∀ c ∈ r.head?, IsWs c ∨ c = 0x2C ∨ c = 0x5D ∨ c = 0x7D

theorem ValueEnd.numberEnd {r : List UInt8} (h : ValueEnd r) :
  NumberEnd r
  := by
  intro c hc
  rcases h c hc with (rfl | rfl | rfl | rfl) | rfl | rfl | rfl <;> decide

theorem ValueEnd.structural {c : UInt8} {b : List UInt8} (h : Structural c b)
    (hc : c = 0x2C ∨ c = 0x5D ∨ c = 0x7D) (r : List UInt8) :
  ValueEnd (b ++ r)
  := by
  obtain ⟨w₁, w₂, hw₁, hw₂, rfl⟩ := h
  cases w₁ with
  | nil =>
    rintro _ ⟨⟩
    apply Or.inr hc
  | cons b w₁ =>
    rintro _ ⟨⟩
    apply Or.inl (hw₁ b List.mem_cons_self)

/-- What the first byte of a value tells about it. -/
inductive Kind where
  | null
  | true
  | false
  | number
  | string
  | array
  | object

def Value.kind : Value → Kind
  | .null => .null
  | .boolean true => .true
  | .boolean false => .false
  | .number _ => .number
  | .string _ => .string
  | .array _ => .array
  | .object _ => .object

/-- The kind of the values that start with a byte. -/
def startKind (c : UInt8) : Option Kind :=
  if c = 0x2D ∨ Decimal.IsDigit c then some .number
  else if c = 0x6E then some .null
  else if c = 0x74 then some .true
  else if c = 0x66 then some .false
  else if c = 0x22 then some .string
  else if c = 0x5B then some .array
  else if c = 0x7B then some .object
  else none

/-- A number starts with a minus sign or a digit. -/
theorem NumberLit.head {b : List UInt8} {n : Number} (h : NumberLit b n) :
  ∃ c q, b = c :: q ∧ (c = 0x2D ∨ Decimal.IsDigit c)
  := by
  cases h with
  | mk hint =>
    cases n.negative with
    | true => exact ⟨0x2D, _, rfl, .inl rfl⟩
    | false =>
      obtain ⟨d, q, hd, hdigit⟩ := isDigit_head hint.ne_nil hint.isDigit
      exact ⟨d, q, hd, .inr hdigit⟩

theorem not_isWs_of_number {c : UInt8} (h : c = 0x2D ∨ Decimal.IsDigit c) :
  ¬ IsWs c
  := by
  rintro (rfl | rfl | rfl | rfl)
  all_goals
    revert h
    decide

/-- A value starts with a byte of its kind. -/
theorem Derives.starts {b : List UInt8} {v : Value} (h : Derives b v) :
  ∃ c q, startKind c = some v.kind ∧ ¬ IsWs c ∧ ∀ r, skip (b ++ r) = c :: (q ++ r)
  := by
  have hstructural : ∀ {c : UInt8} {a q : List UInt8}, Structural c a → ¬ IsWs c →
      ∃ q', ∀ r, skip (a ++ q ++ r) = c :: (q' ++ r) := by
    rintro c a q ⟨w₁, w₂, hw₁, -, rfl⟩ hc
    use w₂ ++ q
    intro r
    simp only [List.append_assoc, skip_append hw₁, List.cons_append, skip_cons hc]
  cases h with
  | null => exact ⟨0x6E, _, rfl, by decide, fun r => skip_cons (by decide) _⟩
  | true => exact ⟨0x74, _, rfl, by decide, fun r => skip_cons (by decide) _⟩
  | false => exact ⟨0x66, _, rfl, by decide, fun r => skip_cons (by decide) _⟩
  | string h =>
    obtain ⟨body, -, rfl⟩ := h
    refine ⟨0x22, body ++ [0x22], rfl, by decide, fun r => ?_⟩
    apply skip_cons (by decide)
  | number h =>
    obtain ⟨c, q, rfl, hc⟩ := h.head
    have hws := not_isWs_of_number hc
    refine ⟨c, q, if_pos hc, hws, fun r => ?_⟩
    apply skip_cons hws
  | emptyArray ha hz =>
    obtain ⟨q, hq⟩ := hstructural ha (by decide)
    exact ⟨0x5B, q, rfl, by decide, hq⟩
  | array ha hb hz =>
    obtain ⟨q, hq⟩ := hstructural ha (by decide)
    refine ⟨0x5B, q, rfl, by decide, ?_⟩
    rw [List.append_assoc]
    apply hq
  | emptyObject ha hz =>
    obtain ⟨q, hq⟩ := hstructural ha (by decide)
    exact ⟨0x7B, q, rfl, by decide, hq⟩
  | object ha hb hz =>
    obtain ⟨q, hq⟩ := hstructural ha (by decide)
    refine ⟨0x7B, q, rfl, by decide, ?_⟩
    rw [List.append_assoc]
    apply hq

/-- Two values at the front of one byte string are of one kind. -/
theorem Derives.kind_eq {b b' r r' : List UInt8} {v v' : Value} (h : Derives b v)
    (h' : Derives b' v') (heq : skip (b ++ r) = skip (b' ++ r')) :
  v.kind = v'.kind
  := by
  obtain ⟨c, q, hc, -, hskip⟩ := h.starts
  obtain ⟨c', q', hc', -, hskip'⟩ := h'.starts
  rw [hskip, hskip'] at heq
  obtain ⟨rfl, -⟩ := List.cons.inj heq
  apply Option.some.inj (hc.symm.trans hc')

/-- A value does not start with a byte of no kind, such as a closing bracket. -/
theorem Derives.not_structural {b b' r r' : List UInt8} {v : Value} {c : UInt8} (h : Derives b v)
    (h' : Structural c b') (hc : startKind c = none) (hws : ¬ IsWs c) :
  skip (b ++ r) ≠ skip (b' ++ r')
  := by
  intro heq
  obtain ⟨d, q, hd, -, hskip⟩ := h.starts
  obtain ⟨s, hs, -⟩ := skip_structural h' hws r'
  rw [hskip, hs] at heq
  obtain ⟨rfl, -⟩ := List.cons.inj heq
  rw [hc] at hd
  cases hd

theorem Elements.not_structural {b b' r r' : List UInt8} {vs : List Value} (h : Elements b vs)
    (h' : Structural 0x5D b') :
  skip (b ++ r) ≠ skip (b' ++ r')
  := by
  cases h with
  | last h => apply h.not_structural h' rfl (by decide)
  | more h hs ht =>
    rw [List.append_assoc, List.append_assoc]
    apply h.not_structural h' rfl (by decide)

theorem Members.not_structural {b b' r r' : List UInt8} {ms : List (List Char × Value)}
    (h : Members b ms) (h' : Structural 0x7D b') :
  skip (b ++ r) ≠ skip (b' ++ r')
  := by
  intro heq
  obtain ⟨body, rfl⟩ := h.head
  obtain ⟨s, hs, -⟩ := skip_structural h' (by decide) r'
  rw [hs, List.cons_append, skip_cons (by decide)] at heq
  cases (List.cons.inj heq).1

/-- The same bytes in front of what is left. -/
theorem skip_cancel {c : UInt8} {b r r' : List UInt8} (hc : ¬ IsWs c)
    (heq : skip (c :: b ++ r) = skip (c :: b ++ r')) :
  r = r'
  := by
  rw [List.cons_append, List.cons_append, skip_cons hc, skip_cons hc] at heq
  apply List.append_cancel_left (List.cons.inj heq).2

theorem StringLit.skip_append {b : List UInt8} {cs : List Char} (h : StringLit b cs)
    (r : List UInt8) :
  skip (b ++ r) = b ++ r
  := by
  obtain ⟨body, -, rfl⟩ := h
  apply skip_cons (by decide)

theorem NumberLit.skip_append {b : List UInt8} {n : Number} (h : NumberLit b n) (r : List UInt8) :
  skip (b ++ r) = b ++ r
  := by
  obtain ⟨c, q, rfl, hc⟩ := h.head
  apply skip_cons (not_isWs_of_number hc)

mutual

/-- A value at the front of a byte string is determined by the bytes, and so is what is left after
it, up to white space. -/
theorem Derives.unique {b b' r r' : List UInt8} {v v' : Value} :
  Derives b v → Derives b' v' → ValueEnd r → ValueEnd r' → skip (b ++ r) = skip (b' ++ r') →
    v = v' ∧ skip r = skip r'
  | .null, h', hr, hr', heq => by
    have hkind := Derives.null.kind_eq h' heq
    cases h' with
    | null => exact ⟨rfl, congrArg skip (skip_cancel (by decide) heq)⟩
    | _ => cases hkind
  | .true, h', hr, hr', heq => by
    have hkind := Derives.true.kind_eq h' heq
    cases h' with
    | true => exact ⟨rfl, congrArg skip (skip_cancel (by decide) heq)⟩
    | _ => cases hkind
  | .false, h', hr, hr', heq => by
    have hkind := Derives.false.kind_eq h' heq
    cases h' with
    | false => exact ⟨rfl, congrArg skip (skip_cancel (by decide) heq)⟩
    | _ => cases hkind
  | .number h, h', hr, hr', heq => by
    have hkind := (Derives.number h).kind_eq h' heq
    cases h' with
    | number h' =>
      rw [h.skip_append, h'.skip_append] at heq
      obtain ⟨rfl, rfl⟩ := h.unique h' hr.numberEnd hr'.numberEnd heq
      exact ⟨rfl, rfl⟩
    | _ => cases hkind
  | .string h, h', hr, hr', heq => by
    have hkind := (Derives.string h).kind_eq h' heq
    cases h' with
    | string h' =>
      rw [h.skip_append, h'.skip_append] at heq
      obtain ⟨rfl, rfl⟩ := h.unique h' heq
      exact ⟨rfl, rfl⟩
    | _ => cases hkind
  | .emptyArray ha hz, h', hr, hr', heq => by
    have hkind := (Derives.emptyArray ha hz).kind_eq h' heq
    cases h' with
    | emptyArray ha' hz' =>
      simp only [List.append_assoc] at heq
      have hrest := (ha.unique ha' (by decide) (by decide) heq).2
      exact ⟨rfl, (hz.unique hz' (by decide) (by decide) hrest).2⟩
    | array ha' hb' hz' =>
      simp only [List.append_assoc] at heq
      have hrest := (ha.unique ha' (by decide) (by decide) heq).2
      cases hb'.not_structural hz hrest.symm
    | _ => cases hkind
  | .array ha hb hz, h', hr, hr', heq => by
    have hkind := (Derives.array ha hb hz).kind_eq h' heq
    cases h' with
    | emptyArray ha' hz' =>
      simp only [List.append_assoc] at heq
      have hrest := (ha.unique ha' (by decide) (by decide) heq).2
      cases hb.not_structural hz' hrest
    | array ha' hb' hz' =>
      simp only [List.append_assoc] at heq
      have hrest := (ha.unique ha' (by decide) (by decide) heq).2
      obtain ⟨rfl, hend⟩ := Elements.unique hz hz' hb hb' hrest
      exact ⟨rfl, hend⟩
    | _ => cases hkind
  | .emptyObject ha hz, h', hr, hr', heq => by
    have hkind := (Derives.emptyObject ha hz).kind_eq h' heq
    cases h' with
    | emptyObject ha' hz' =>
      simp only [List.append_assoc] at heq
      have hrest := (ha.unique ha' (by decide) (by decide) heq).2
      exact ⟨rfl, (hz.unique hz' (by decide) (by decide) hrest).2⟩
    | object ha' hb' hz' =>
      simp only [List.append_assoc] at heq
      have hrest := (ha.unique ha' (by decide) (by decide) heq).2
      cases hb'.not_structural hz hrest.symm
    | _ => cases hkind
  | .object ha hb hz, h', hr, hr', heq => by
    have hkind := (Derives.object ha hb hz).kind_eq h' heq
    cases h' with
    | emptyObject ha' hz' =>
      simp only [List.append_assoc] at heq
      have hrest := (ha.unique ha' (by decide) (by decide) heq).2
      cases hb.not_structural hz' hrest
    | object ha' hb' hz' =>
      simp only [List.append_assoc] at heq
      have hrest := (ha.unique ha' (by decide) (by decide) heq).2
      obtain ⟨rfl, hend⟩ := Members.unique hz hz' hb hb' hrest
      exact ⟨rfl, hend⟩
    | _ => cases hkind

theorem Elements.unique {b b' z z' r r' : List UInt8} {vs vs' : List Value}
    (hz : Structural 0x5D z) (hz' : Structural 0x5D z') :
  Elements b vs → Elements b' vs' → skip (b ++ (z ++ r)) = skip (b' ++ (z' ++ r')) →
    vs = vs' ∧ skip r = skip r'
  | .last h, .last h', heq => by
    obtain ⟨rfl, hrest⟩ := h.unique h' (.structural hz (by decide) r) (.structural hz' (by decide) r')
      heq
    exact ⟨rfl, (hz.unique hz' (by decide) (by decide) hrest).2⟩
  | .last h, .more h' hs' ht', heq => by
    simp only [List.append_assoc] at heq
    have hrest := (h.unique h' (.structural hz (by decide) r) (.structural hs' (by decide) _) heq).2
    cases (hz.unique hs' (by decide) (by decide) hrest).1
  | .more h hs ht, .last h', heq => by
    simp only [List.append_assoc] at heq
    have hrest := (h.unique h' (.structural hs (by decide) _) (.structural hz' (by decide) r') heq).2
    cases (hs.unique hz' (by decide) (by decide) hrest).1
  | .more h hs ht, .more h' hs' ht', heq => by
    simp only [List.append_assoc] at heq
    obtain ⟨rfl, hrest⟩ := h.unique h' (.structural hs (by decide) _) (.structural hs' (by decide) _)
      heq
    obtain ⟨rfl, hr⟩ := Elements.unique hz hz' ht ht' (hs.unique hs' (by decide) (by decide) hrest).2
    exact ⟨rfl, hr⟩

theorem Members.unique {b b' z z' r r' : List UInt8} {ms ms' : List (List Char × Value)}
    (hz : Structural 0x7D z) (hz' : Structural 0x7D z') :
  Members b ms → Members b' ms' → skip (b ++ (z ++ r)) = skip (b' ++ (z' ++ r')) →
    ms = ms' ∧ skip r = skip r'
  | .last hk hs h, .last hk' hs' h', heq => by
    simp only [List.append_assoc, hk.skip_append, hk'.skip_append] at heq
    obtain ⟨rfl, hrest₁⟩ := hk.unique hk' heq
    obtain ⟨rfl, hrest₂⟩ := h.unique h' (.structural hz (by decide) r)
      (.structural hz' (by decide) r')
      (hs.unique hs' (by decide) (by decide) (congrArg skip hrest₁)).2
    exact ⟨rfl, (hz.unique hz' (by decide) (by decide) hrest₂).2⟩
  | .last hk hs h, .more hk' hs' h' ht' hm', heq => by
    simp only [List.append_assoc, hk.skip_append, hk'.skip_append] at heq
    obtain ⟨rfl, hrest₁⟩ := hk.unique hk' heq
    have hrest₂ := (h.unique h' (.structural hz (by decide) r) (.structural ht' (by decide) _)
      (hs.unique hs' (by decide) (by decide) (congrArg skip hrest₁)).2).2
    cases (hz.unique ht' (by decide) (by decide) hrest₂).1
  | .more hk hs h ht hm, .last hk' hs' h', heq => by
    simp only [List.append_assoc, hk.skip_append, hk'.skip_append] at heq
    obtain ⟨rfl, hrest₁⟩ := hk.unique hk' heq
    have hrest₂ := (h.unique h' (.structural ht (by decide) _) (.structural hz' (by decide) r')
      (hs.unique hs' (by decide) (by decide) (congrArg skip hrest₁)).2).2
    cases (ht.unique hz' (by decide) (by decide) hrest₂).1
  | .more hk hs h ht hm, .more hk' hs' h' ht' hm', heq => by
    simp only [List.append_assoc, hk.skip_append, hk'.skip_append] at heq
    obtain ⟨rfl, hrest₁⟩ := hk.unique hk' heq
    obtain ⟨rfl, hrest₂⟩ := h.unique h' (.structural ht (by decide) _) (.structural ht' (by decide) _)
      (hs.unique hs' (by decide) (by decide) (congrArg skip hrest₁)).2
    obtain ⟨rfl, hr⟩ := Members.unique hz hz' hm hm'
      (ht.unique ht' (by decide) (by decide) hrest₂).2
    exact ⟨rfl, hr⟩

end

/-- A JSON text has one value. -/
theorem Text.unique {b : List UInt8} {v v' : Value} (h : Text b v) (h' : Text b v') :
  v = v'
  := by
  obtain ⟨w₁, w₂, body, hw₁, hw₂, hbody, rfl⟩ := h
  obtain ⟨w₁', w₂', body', hw₁', hw₂', hbody', heq⟩ := h'
  have hend : ∀ {w : List UInt8}, Ws w → ValueEnd w := by
    intro w hw c hc
    cases w with
    | nil => cases hc
    | cons b w =>
      cases hc
      apply Or.inl (hw _ List.mem_cons_self)
  have hskip := congrArg skip heq
  simp only [List.append_assoc, skip_append hw₁, skip_append hw₁'] at hskip
  apply (hbody.unique hbody' (hend hw₂) (hend hw₂') hskip).1

end Json
