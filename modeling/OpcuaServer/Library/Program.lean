import Mathlib.Logic.Relation
import Mathlib.Tactic.Common

/-!
# Programs that issue calls

A `Prog Op Ans α` issues calls `op : Op`, goes on with their answers `Ans op`, repeats loops and
ends in a value of type `α`. What a call does is given by a relation `step op w a w'` between the
world before it, its answer and the world after it.

`Runs step p w a w'` says that `p` can run from `w` to its end, and `wp` is the weakest
precondition under interference: between two calls the world moves along `rely`, and each call is
made only where its `guard` holds.
-/

/-- A program with results of type `α`. -/
inductive Prog (Op : Type) (Ans : Op → Type) : Type → Type 1 where
  | ret {α : Type} (a : α) : Prog Op Ans α
  | call {α : Type} (op : Op) (k : Ans op → Prog Op Ans α) : Prog Op Ans α
  /-- Repeat the body, from the state `s` on, until it gives a result, and go on with it. -/
  | loop {α σ β : Type} (body : σ → Prog Op Ans (σ ⊕ β)) (s : σ) (k : β → Prog Op Ans α) :
      Prog Op Ans α

namespace Prog

variable {Op : Type} {Ans : Op → Type} {W α β σ : Type}

/-- Go on with the result of a program. -/
protected def bind : Prog Op Ans α → (α → Prog Op Ans β) → Prog Op Ans β
  | .ret a, f => f a
  | .call op k, f => .call op fun a => (k a).bind f
  | .loop body s k, f => .loop body s fun b => (k b).bind f

instance : Monad (Prog Op Ans) where
  pure := .ret
  bind := .bind

/-- Issue a call and return its answer. -/
def perform (op : Op) : Prog Op Ans (Ans op) :=
  .call op .ret

/-- Repeat the body, from the state `s` on, until it gives a result. -/
def repeatUntil (body : σ → Prog Op Ans (σ ⊕ β)) (s : σ) : Prog Op Ans β :=
  .loop body s .ret

/-- A loop goes on with what its body results in. -/
def resume (body : σ → Prog Op Ans (σ ⊕ β)) (k : β → Prog Op Ans α) :
    σ ⊕ β → Prog Op Ans α
  | .inl s => .loop body s k
  | .inr b => k b

@[simp]
theorem pure_eq (a : α) :
  (pure a : Prog Op Ans α) = .ret a
  := rfl

@[simp]
theorem ret_bind (a : α) (f : α → Prog Op Ans β) :
  (Prog.ret a >>= f) = f a
  := rfl

@[simp]
theorem call_bind (op : Op) (k : Ans op → Prog Op Ans α) (f : α → Prog Op Ans β) :
  (Prog.call op k >>= f) = .call op fun a => k a >>= f
  := rfl

@[simp]
theorem loop_bind {γ : Type} (body : σ → Prog Op Ans (σ ⊕ γ)) (s : σ) (k : γ → Prog Op Ans α)
    (f : α → Prog Op Ans β) :
  (Prog.loop body s k >>= f) = .loop body s fun b => k b >>= f
  := rfl

theorem bind_assoc {γ : Type} (p : Prog Op Ans α) (f : α → Prog Op Ans β)
    (g : β → Prog Op Ans γ) :
  (p >>= f >>= g) = p >>= fun a => f a >>= g
  := by
  induction p with
  | ret a => rfl
  | call op k ih =>
    simp only [call_bind, ih]
  | loop body s k _ ih =>
    simp only [loop_bind, ih]

theorem bind_ret (p : Prog Op Ans α) :
  (p >>= .ret) = p
  := by
  induction p with
  | ret a => rfl
  | call op k ih => exact congrArg (Prog.call op) (funext ih)
  | loop body s k _ ih => exact congrArg (Prog.loop body s) (funext ih)

/-! ### Runs -/

/-- The program can run from one world to another and end in a value. -/
inductive Runs (step : (op : Op) → W → Ans op → W → Prop) :
    {α : Type} → Prog Op Ans α → W → α → W → Prop where
  | ret {α : Type} {a : α} {w : W} : Runs step (.ret a) w a w
  | call {α : Type} {op : Op} {k : Ans op → Prog Op Ans α} {a : Ans op} {b : α} {w w₁ w₂ : W} :
      step op w a w₁ → Runs step (k a) w₁ b w₂ → Runs step (.call op k) w b w₂
  | loop {α σ β : Type} {body : σ → Prog Op Ans (σ ⊕ β)} {s : σ} {k : β → Prog Op Ans α}
      {r : σ ⊕ β} {b : α} {w w₁ w₂ : W} :
      Runs step (body s) w r w₁ → Runs step (Prog.resume body k r) w₁ b w₂ →
      Runs step (.loop body s k) w b w₂

section

variable {step : (op : Op) → W → Ans op → W → Prop}

/-- A run of a program and then a run of what follows it. -/
theorem Runs.bind {p : Prog Op Ans α} {f : α → Prog Op Ans β} {a : α} {b : β} {w w₁ w₂ : W}
    (hp : Runs step p w a w₁) (hf : Runs step (f a) w₁ b w₂) :
  Runs step (p >>= f) w b w₂
  := by
  induction hp with
  | ret => apply hf
  | call hstep _ ih => apply Runs.call hstep (ih hf)
  | @loop α σ γ body s k r c w w₁ w₃ hbody hrest ihbody ih =>
    apply Runs.loop hbody
    cases r with
    | inl s' => apply ih hf
    | inr d => apply ih hf

/-- A run of two programs is a run of the first and then a run of the second. -/
theorem Runs.of_bind {p : Prog Op Ans α} {f : α → Prog Op Ans β} {b : β} {w w₂ : W}
    (h : Runs step (p >>= f) w b w₂) :
  ∃ a w₁, Runs step p w a w₁ ∧ Runs step (f a) w₁ b w₂
  := by
  generalize hq : p >>= f = q at h
  induction h generalizing p with
  | @ret γ c w =>
    cases p with
    | ret a =>
      rw [ret_bind] at hq
      exact ⟨a, w, .ret, hq ▸ .ret⟩
    | call => cases hq
    | loop => cases hq
  | @call γ op k a b w w₁ w₂ hstep hrest ih =>
    cases p with
    | ret c =>
      rw [ret_bind] at hq
      exact ⟨c, w, .ret, hq ▸ .call hstep hrest⟩
    | call op' k' =>
      cases hq
      obtain ⟨c, w₃, hp, hf⟩ := ih rfl
      exact ⟨c, w₃, .call hstep hp, hf⟩
    | loop => cases hq
  | @loop γ σ δ body s k r b w w₁ w₂ hbody hrest ihbody ih =>
    cases p with
    | ret c =>
      rw [ret_bind] at hq
      exact ⟨c, w, .ret, hq ▸ .loop hbody hrest⟩
    | call => cases hq
    | loop body' s' k' =>
      cases hq
      cases r with
      | inl s'' =>
        obtain ⟨c, w₃, hp, hf⟩ := ih (p := .loop body s'' k') rfl
        exact ⟨c, w₃, .loop hbody hp, hf⟩
      | inr d =>
        obtain ⟨c, w₃, hp, hf⟩ := ih (p := k' d) rfl
        exact ⟨c, w₃, .loop hbody hp, hf⟩

/-- A run in one world is a run in another whose calls follow those of the first. -/
theorem Runs.simulate {V : Type} {step' : (op : Op) → V → Ans op → V → Prop} {R : W → V → Prop}
    (hsim : ∀ op w a w' v, step op w a w' → R w v → ∃ v', step' op v a v' ∧ R w' v')
    {p : Prog Op Ans α} {a : α} {w w' : W} (h : Runs step p w a w') {v : V} (hv : R w v) :
  ∃ v', Runs step' p v a v' ∧ R w' v'
  := by
  induction h generalizing v with
  | ret => exact ⟨v, .ret, hv⟩
  | call hstep _ ih =>
    obtain ⟨v₁, hstep', hv₁⟩ := hsim _ _ _ _ _ hstep hv
    obtain ⟨v₂, hrest, hv₂⟩ := ih hv₁
    exact ⟨v₂, .call hstep' hrest, hv₂⟩
  | loop _ _ ihbody ih =>
    obtain ⟨v₁, hbody, hv₁⟩ := ihbody hv
    obtain ⟨v₂, hrest, hv₂⟩ := ih hv₁
    exact ⟨v₂, .loop hbody hrest, hv₂⟩

theorem runs_ret {a b : α} {w w' : W} :
  Runs step (.ret a) w b w' ↔ b = a ∧ w' = w
  := by
  constructor
  · rintro ⟨⟩
    exact ⟨rfl, rfl⟩
  · rintro ⟨rfl, rfl⟩
    exact .ret

/-- A run of a program that issues a call. -/
theorem runs_call {op : Op} {k : Ans op → Prog Op Ans α} {b : α} {w w' : W} :
  Runs step (.call op k) w b w' ↔ ∃ a w₁, step op w a w₁ ∧ Runs step (k a) w₁ b w'
  := by
  constructor
  · rintro (_ | ⟨hstep, hrest⟩)
    exact ⟨_, _, hstep, hrest⟩
  · rintro ⟨a, w₁, hstep, hrest⟩
    exact .call hstep hrest

/-- A run of a program is a run where its calls can do more. -/
theorem Runs.mono {step' : (op : Op) → W → Ans op → W → Prop}
    (hstep : ∀ op w a w', step op w a w' → step' op w a w') {p : Prog Op Ans α} {a : α} {w w' : W}
    (h : Runs step p w a w') :
  Runs step' p w a w'
  := by
  induction h with
  | ret => exact .ret
  | call hcall _ ih => exact .call (hstep _ _ _ _ hcall) ih
  | loop _ _ ihbody ih => exact .loop ihbody ih

end

/-! ### Weakest preconditions -/

section

variable (step : (op : Op) → W → Ans op → W → Prop) (rely : W → W → Prop) (guard : Op → W → Prop)

/-- The worlds from which the program only makes calls whose guards hold, and from which it ends
only in values and worlds that satisfy `Q`, while the world moves along `rely` between its calls.
A loop has an invariant that these moves preserve. -/
def wp : {α : Type} → Prog Op Ans α → (α → W → Prop) → W → Prop
  | _, .ret a, Q, w => ∀ w', rely w w' → Q a w'
  | _, .call op k, Q, w =>
      ∀ w', rely w w' → guard op w' ∧ ∀ a w'', step op w' a w'' → (k a).wp Q w''
  | _, .loop (σ := σ) body s k, Q, w =>
      ∃ I : σ → W → Prop, (∀ s w w', rely w w' → I s w → I s w') ∧ I s w ∧
        ∀ s w, I s w → (body s).wp (fun r => r.elim I fun b => (k b).wp Q) w

variable {step rely guard}

theorem wp_mono {p : Prog Op Ans α} {Q Q' : α → W → Prop} {w : W} (hQ : ∀ a w, Q a w → Q' a w)
    (h : p.wp step rely guard Q w) :
  p.wp step rely guard Q' w
  := by
  induction p generalizing w with
  | ret a =>
    intro w' hw'
    apply hQ a w' (h w' hw')
  | call op k ih =>
    intro w' hw'
    obtain ⟨hguard, hcall⟩ := h w' hw'
    use hguard
    intro a w'' hstep
    apply ih a hQ (hcall a w'' hstep)
  | loop body s k ihbody ih =>
    obtain ⟨I, hstable, hs, hbody⟩ := h
    use I, hstable, hs
    intro s w hI
    apply ihbody s _ (hbody s w hI)
    rintro (s' | b) w'
    · exact id
    · apply ih b hQ

/-- The precondition is preserved while the world moves on its own. -/
theorem wp_stable (htrans : ∀ w₁ w₂ w₃, rely w₁ w₂ → rely w₂ w₃ → rely w₁ w₃)
    {p : Prog Op Ans α} {Q : α → W → Prop} {w w' : W} (h : p.wp step rely guard Q w)
    (hw : rely w w') :
  p.wp step rely guard Q w'
  := by
  cases p with
  | ret a =>
    intro w'' hw'
    apply h w'' (htrans w w' w'' hw hw')
  | call op k =>
    intro w'' hw'
    apply h w'' (htrans w w' w'' hw hw')
  | loop body s k =>
    obtain ⟨I, hstable, hs, hbody⟩ := h
    use I, hstable, hstable s w w' hw hs

/-- The first program ends where the second can start. -/
theorem wp_bind (hrefl : ∀ w, rely w w) {p : Prog Op Ans α} {f : α → Prog Op Ans β}
    {Q : β → W → Prop} {w : W} (h : p.wp step rely guard (fun a => (f a).wp step rely guard Q) w) :
  (p >>= f).wp step rely guard Q w
  := by
  induction p generalizing w with
  | ret a => apply h w (hrefl w)
  | call op k ih =>
    intro w' hw'
    obtain ⟨hguard, hcall⟩ := h w' hw'
    use hguard
    intro a w'' hstep
    apply ih a (hcall a w'' hstep)
  | loop body s k ihbody ih =>
    obtain ⟨I, hstable, hs, hbody⟩ := h
    use I, hstable, hs
    intro s w hI
    apply wp_mono _ (hbody s w hI)
    rintro (s' | b) w'
    · exact id
    · apply ih b

/-- What the world keeps while it moves, and over the calls of the program, holds at its end too. -/
theorem wp_frame {J : W → Prop} (hrely : ∀ w w', rely w w' → J w → J w')
    (hstep : ∀ op w a w', guard op w → step op w a w' → J w → J w') {p : Prog Op Ans α}
    {Q : α → W → Prop} {w : W} (h : p.wp step rely guard Q w) (hJ : J w) :
  p.wp step rely guard (fun a w => Q a w ∧ J w) w
  := by
  induction p generalizing w with
  | ret a =>
    intro w' hw'
    exact ⟨h w' hw', hrely w w' hw' hJ⟩
  | call op k ih =>
    intro w' hw'
    obtain ⟨hguard, hcall⟩ := h w' hw'
    use hguard
    intro a w'' hcalled
    apply ih a (hcall a w'' hcalled) (hstep op w' a w'' hguard hcalled (hrely w w' hw' hJ))
  | loop body s k ihbody ih =>
    obtain ⟨I, hstable, hs, hbody⟩ := h
    refine ⟨fun s w => I s w ∧ J w, ?_, ⟨hs, hJ⟩, ?_⟩
    · rintro s w w' hw ⟨hI, hJ⟩
      exact ⟨hstable s w w' hw hI, hrely w w' hw hJ⟩
    · rintro s w ⟨hI, hJ⟩
      apply wp_mono _ (ihbody s (hbody s w hI) hJ)
      rintro (s' | b) w' ⟨hr, hJ'⟩
      · exact ⟨hr, hJ'⟩
      · apply ih b hr hJ'

/-- The program only makes calls that satisfy `P`. -/
def Only (P : Op → Prop) : {α : Type} → Prog Op Ans α → Prop
  | _, .ret _ => True
  | _, .call op k => P op ∧ ∀ a, (k a).Only P
  | _, .loop body _ k => (∀ s, (body s).Only P) ∧ ∀ b, (k b).Only P

theorem Only.bind {P : Op → Prop} {p : Prog Op Ans α} {f : α → Prog Op Ans β} (hp : p.Only P)
    (hf : ∀ a, (f a).Only P) :
  (p >>= f).Only P
  := by
  induction p with
  | ret a => apply hf a
  | call op k ih => exact ⟨hp.1, fun a => ih a (hp.2 a) hf⟩
  | loop body s k _ ih => exact ⟨hp.1, fun b => ih b (hp.2 b) hf⟩

theorem Only.mono {P P' : Op → Prop} (hP : ∀ op, P op → P' op) {p : Prog Op Ans α}
    (hp : p.Only P) :
  p.Only P'
  := by
  induction p with
  | ret a => trivial
  | call op k ih => exact ⟨hP op hp.1, fun a => ih a (hp.2 a)⟩
  | loop body s k ihbody ih => exact ⟨fun s => ihbody s (hp.1 s), fun b => ih b (hp.2 b)⟩

theorem only_true (p : Prog Op Ans α) :
  p.Only fun _ => True
  := by
  induction p with
  | ret a => trivial
  | call op k ih => exact ⟨trivial, ih⟩
  | loop body s k ihbody ih => exact ⟨ihbody, ih⟩

/-- A program keeps what the world keeps while it moves, and over the calls that the program makes,
where it is enough for these calls to be made. -/
theorem Only.wp {P : Op → Prop} {J : W → Prop} (hrely : ∀ w w', rely w w' → J w → J w')
    (hguard : ∀ op w, P op → J w → guard op w)
    (hstep : ∀ op w a w', P op → step op w a w' → J w → J w') {p : Prog Op Ans α} (hp : p.Only P)
    {w : W} (hJ : J w) :
  p.wp step rely guard (fun _ w => J w) w
  := by
  induction p generalizing w with
  | ret a => exact fun w' hw' => hrely w w' hw' hJ
  | call op k ih =>
    intro w' hw'
    have hJ' := hrely w w' hw' hJ
    use hguard op w' hp.1 hJ'
    intro a w'' hcall
    apply ih a (hp.2 a) (hstep op w' a w'' hp.1 hcall hJ')
  | loop body s k ihbody ih =>
    refine ⟨fun _ => J, fun _ => hrely, hJ, ?_⟩
    intro s w hJ
    apply wp_mono _ (ihbody s (hp.1 s) hJ)
    rintro (s' | b) w' hJ'
    · exact hJ'
    · apply ih b (hp.2 b) hJ'

/-- Every call that a program makes satisfies what all of its calls do. -/
theorem Only.wp_guard {P : Op → Prop} {p : Prog Op Ans α} (hp : p.Only P) {Q : α → W → Prop} {w : W}
    (h : p.wp step rely guard Q w) :
  p.wp step rely (fun op w => guard op w ∧ P op) Q w
  := by
  induction p generalizing w with
  | ret a => exact h
  | call op k ih =>
    intro w' hw'
    obtain ⟨hguard, hcall⟩ := h w' hw'
    exact ⟨⟨hguard, hp.1⟩, fun a w'' hstep => ih a (hp.2 a) (hcall a w'' hstep)⟩
  | loop body s k ihbody ih =>
    obtain ⟨I, hstable, hs, hbody⟩ := h
    use I, hstable, hs
    intro s w hI
    apply wp_mono _ (ihbody s (hp.1 s) (hbody s w hI))
    rintro (s' | b) w' hr
    · exact hr
    · apply ih b (hp.2 b) hr

/-- A program keeps what the world keeps while it moves, and over the calls of the program, where it
is enough for the calls to be made. -/
theorem wp_invariant {J : W → Prop} (hrely : ∀ w w', rely w w' → J w → J w')
    (hguard : ∀ op w, J w → guard op w) (hstep : ∀ op w a w', step op w a w' → J w → J w')
    (p : Prog Op Ans α) {w : W} (hJ : J w) :
  p.wp step rely guard (fun _ w => J w) w
  := p.only_true.wp hrely (fun op w _ => hguard op w) (fun op w a w' _ => hstep op w a w') hJ

/-- A program keeps what the world keeps while it moves, and over the calls of the program. -/
theorem wp_keeps {J : W → Prop} (hrely : ∀ w w', rely w w' → J w → J w')
    (hstep : ∀ op w a w', step op w a w' → J w → J w') (p : Prog Op Ans α) {w : W} (hJ : J w) :
  p.wp step rely (fun _ _ => True) (fun _ w => J w) w
  := by
  apply wp_invariant hrely _ hstep p hJ
  exact fun _ _ _ => trivial

/-- Two preconditions hold together, while the world moves as both allow. -/
theorem wp_and {rely' : W → W → Prop} {guard' : Op → W → Prop} {p : Prog Op Ans α}
    {Q Q' : α → W → Prop} {w : W} (h : p.wp step rely guard Q w) (h' : p.wp step rely' guard' Q' w) :
  p.wp step (fun w w' => rely w w' ∧ rely' w w') (fun op w => guard op w ∧ guard' op w)
    (fun a w => Q a w ∧ Q' a w) w
  := by
  induction p generalizing w with
  | ret a => exact fun w' hw' => ⟨h w' hw'.1, h' w' hw'.2⟩
  | call op k ih =>
    intro w' hw'
    obtain ⟨hguard, hcall⟩ := h w' hw'.1
    obtain ⟨hguard', hcall'⟩ := h' w' hw'.2
    exact ⟨⟨hguard, hguard'⟩, fun a w'' hstep => ih a (hcall a w'' hstep) (hcall' a w'' hstep)⟩
  | loop body s k ihbody ih =>
    obtain ⟨I, hstable, hs, hbody⟩ := h
    obtain ⟨I', hstable', hs', hbody'⟩ := h'
    refine ⟨fun s w => I s w ∧ I' s w, ?_, ⟨hs, hs'⟩, ?_⟩
    · exact fun s w w' hw hI => ⟨hstable s w w' hw.1 hI.1, hstable' s w w' hw.2 hI.2⟩
    · rintro s w ⟨hI, hI'⟩
      apply wp_mono _ (ihbody s (hbody s w hI) (hbody' s w hI'))
      rintro (s' | b) w' ⟨hr, hr'⟩
      · exact ⟨hr, hr'⟩
      · apply ih b hr hr'

/-- A program that works in a part of the world, where `J` says that the part is its own. -/
theorem wp_focus {V : Type} {stepV : (op : Op) → V → Ans op → V → Prop} {relyV : V → V → Prop}
    {guardV : Op → V → Prop} (f : W → V) {J : W → Prop}
    (hrely : ∀ w w', rely w w' → J w → relyV (f w) (f w') ∧ J w')
    (hguard : ∀ op w, J w → guardV op (f w) → guard op w)
    (hstep : ∀ op w a w', J w → guardV op (f w) → step op w a w' →
      stepV op (f w) a (f w') ∧ J w')
    {p : Prog Op Ans α} {Q : α → V → Prop} {w : W} (h : p.wp stepV relyV guardV Q (f w))
    (hJ : J w) :
  p.wp step rely guard (fun a w => Q a (f w) ∧ J w) w
  := by
  induction p generalizing w with
  | ret a =>
    intro w' hw'
    obtain ⟨hmove, hJ'⟩ := hrely w w' hw' hJ
    exact ⟨h (f w') hmove, hJ'⟩
  | call op k ih =>
    intro w' hw'
    obtain ⟨hmove, hJ'⟩ := hrely w w' hw' hJ
    obtain ⟨hguardV, hcall⟩ := h (f w') hmove
    use hguard op w' hJ' hguardV
    intro a w'' hw''
    obtain ⟨hstepV, hJ''⟩ := hstep op w' a w'' hJ' hguardV hw''
    apply ih a (hcall a (f w'') hstepV) hJ''
  | loop body s k ihbody ih =>
    obtain ⟨I, hstable, hs, hbody⟩ := h
    refine ⟨fun s w => I s (f w) ∧ J w, ?_, ⟨hs, hJ⟩, ?_⟩
    · rintro s w w' hw ⟨hI, hJ⟩
      obtain ⟨hmove, hJ'⟩ := hrely w w' hw hJ
      exact ⟨hstable s (f w) (f w') hmove hI, hJ'⟩
    · rintro s w ⟨hI, hJ⟩
      apply wp_mono _ (ihbody s (hbody s (f w) hI) hJ)
      rintro (s' | b) w' ⟨hr, hJ'⟩
      · exact ⟨hr, hJ'⟩
      · apply ih b hr hJ'

/-- A single call. -/
theorem wp_perform {op : Op} {Q : Ans op → W → Prop} {w : W}
    (h : ∀ w', rely w w' → guard op w' ∧ ∀ a w'', step op w' a w'' → ∀ w₃, rely w'' w₃ → Q a w₃) :
  (perform op).wp step rely guard Q w
  := h

/-- What an iteration of a loop leaves is a precondition of the rest of the loop. -/
theorem wp_resume (hrefl : ∀ w, rely w w) {body : σ → Prog Op Ans (σ ⊕ β)} {s : σ}
    {k : β → Prog Op Ans α} {Q : α → W → Prop} {w : W}
    (h : (Prog.loop body s k).wp step rely guard Q w) :
  (body s >>= resume body k).wp step rely guard Q w
  := by
  obtain ⟨I, hstable, hs, hbody⟩ := h
  apply wp_bind hrefl
  apply wp_mono _ (hbody s w hs)
  rintro (s' | b) w' hr
  · exact ⟨I, hstable, hr, hbody⟩
  · apply hr

/-- A loop whose body preserves an invariant and ends in the postcondition. -/
theorem wp_repeatUntil {body : σ → Prog Op Ans (σ ⊕ β)} {s : σ} {Q : β → W → Prop} {w : W}
    (I : σ → W → Prop) (hstable : ∀ s w w', rely w w' → I s w → I s w') (hs : I s w)
    (hbody : ∀ s w, I s w →
      (body s).wp step rely guard (fun r => r.elim I fun b w => ∀ w', rely w w' → Q b w') w) :
  (repeatUntil body s).wp step rely guard Q w
  := ⟨I, hstable, hs, hbody⟩

/-- What a call does after the world has moved. -/
def After (rely : W → W → Prop) (step : (op : Op) → W → Ans op → W → Prop) (op : Op) (w : W)
    (a : Ans op) (w' : W) : Prop :=
  ∃ w₁, rely w w₁ ∧ step op w₁ a w'

/-- A run from a world of the precondition, during which the world moves before the calls, ends in
the postcondition, and stays in it. -/
theorem wp_runs_after {p : Prog Op Ans α} {a : α} {w w' : W} (hrefl : ∀ w, rely w w)
    (hrun : Runs (After rely step) p w a w') {Q : α → W → Prop} (h : p.wp step rely guard Q w) :
  ∀ w'', rely w' w'' → Q a w''
  := by
  induction hrun with
  | ret => apply h
  | call hcall _ ih =>
    obtain ⟨w₁, hw₁, hstep⟩ := hcall
    apply ih ((h w₁ hw₁).2 _ _ hstep)
  | @loop α σ β body s k r b w w₁ w₂ hbody hrest ihbody ih =>
    obtain ⟨I, hstable, hs, hloop⟩ := h
    have hr := ihbody (hloop s w hs) w₁ (hrefl w₁)
    apply ih
    cases r with
    | inl s' => exact ⟨I, hstable, hr, hloop⟩
    | inr c => apply hr

/-- A run from a world of the precondition ends in the postcondition, and stays in it. -/
theorem wp_runs (hrefl : ∀ w, rely w w) {p : Prog Op Ans α} {a : α} {w w' : W}
    (hrun : Runs step p w a w') {Q : α → W → Prop} (h : p.wp step rely guard Q w) :
  ∀ w'', rely w' w'' → Q a w''
  := by
  apply wp_runs_after hrefl (hrun.mono _) h
  exact fun _ w _ _ hstep => ⟨w, hrefl w, hstep⟩

end

/-! ### Records of calls -/

/-- A call with its answer. -/
abbrev Event (Op : Type) (Ans : Op → Type) := (op : Op) × Ans op

/-- What a call does to the calls that have been made. It can have any answer. -/
def record (op : Op) (log : List (Event Op Ans)) (a : Ans op) (log' : List (Event Op Ans)) : Prop :=
  log' = log ++ [⟨op, a⟩]

/-- A program goes on with any answer. -/
theorem runs_record {op : Op} {k : Ans op → Prog Op Ans α} {b : α} {log log' : List (Event Op Ans)}
    (a : Ans op) (h : Runs record (k a) (log ++ [⟨op, a⟩]) b log') :
  Runs record (.call op k) log b log'
  := .call rfl h

/-! ### Further calls -/

section

variable {Op' : Type} {Ans' : Op' → Type}

/-- The program as one that can also issue further calls. -/
def lift {α : Type} : Prog Op Ans α → Prog (Op ⊕ Op') (Sum.elim Ans Ans') α
  | .ret a => .ret a
  | .call op k => .call (.inl op) fun a => (k a).lift
  | .loop body s k => .loop (fun s => (body s).lift) s fun b => (k b).lift

theorem only_lift (p : Prog Op Ans α) :
  (p.lift : Prog (Op ⊕ Op') (Sum.elim Ans Ans') α).Only fun op => ∃ op', op = .inl op'
  := by
  induction p with
  | ret a => trivial
  | call op k ih => exact ⟨⟨op, rfl⟩, ih⟩
  | loop body s k ihbody ih => exact ⟨ihbody, ih⟩

theorem lift_bind (p : Prog Op Ans α) (f : α → Prog Op Ans β) :
  ((p >>= f).lift : Prog (Op ⊕ Op') (Sum.elim Ans Ans') β) = p.lift >>= fun a => (f a).lift
  := by
  induction p with
  | ret a => rfl
  | call op k ih => exact congrArg (Prog.call (Sum.inl op)) (funext fun a => ih a f)
  | loop body s k _ ih => exact congrArg (Prog.loop _ s) (funext fun b => ih b f)

theorem lift_resume (body : σ → Prog Op Ans (σ ⊕ β)) (k : β → Prog Op Ans α) (r : σ ⊕ β) :
  ((resume body k r).lift : Prog (Op ⊕ Op') (Sum.elim Ans Ans') α) =
    resume (fun s => (body s).lift) (fun b => (k b).lift) r
  := by
  cases r with
  | inl s => rfl
  | inr b => rfl

variable {step : (op : Op ⊕ Op') → W → Sum.elim Ans Ans' op → W → Prop}

theorem wp_lift {rely : W → W → Prop} {guard : Op ⊕ Op' → W → Prop} {p : Prog Op Ans α}
    {Q : α → W → Prop} {w : W}
    (h : p.wp (fun op => step (.inl op)) rely (fun op => guard (.inl op)) Q w) :
  p.lift.wp step rely guard Q w
  := by
  induction p generalizing w with
  | ret a => apply h
  | call op k ih =>
    intro w' hw'
    obtain ⟨hguard, hcall⟩ := h w' hw'
    use hguard
    intro a w'' hstep
    apply ih a (hcall a w'' hstep)
  | loop body s k ihbody ih =>
    obtain ⟨I, hstable, hs, hbody⟩ := h
    use I, hstable, hs
    intro s w hI
    apply wp_mono _ (ihbody s (hbody s w hI))
    rintro (s' | b) w'
    · exact id
    · apply ih b

theorem Runs.lift {p : Prog Op Ans α} {a : α} {w w' : W}
    (h : Runs (fun op => step (.inl op)) p w a w') :
  Runs step p.lift w a w'
  := by
  induction h with
  | ret => exact .ret
  | @call α op k a b w w₁ w₂ hstep _ ih =>
    change Runs step (.call (.inl op) fun a => (k a).lift) w b w₂
    apply Runs.call hstep ih
  | @loop α σ β body s k r b w w₁ w₂ _ _ ihbody ih =>
    apply Runs.loop ihbody
    cases r with
    | inl s' => apply ih
    | inr c => apply ih

end

end Prog
