import OpcuaServer.Library.Program
import Mathlib.Tactic.Simps.Basic

/-!
# Refinement of programs

A program of a lower level simulates one of an upper level if it has a precondition wherever the other
one does: it keeps to the guards of its level where the other one keeps to those of its own, and it
ends where the other one has come to a program that is left for it to do. It refines the other one
if nothing is left to do. The world of the lower level has a view in that of the upper level. Calls
of the lower level either leave the view as it is or do to it what a call of the upper level does.
-/

/-- What the calls of a level do, what its programs rely on, and where they make their calls. -/
structure Level (Op : Type) (Ans : Op → Type) (W : Type) where
  step : (op : Op) → W → Ans op → W → Prop
  rely : W → W → Prop
  guard : Op → W → Prop
  refl : ∀ w, rely w w
  trans : ∀ w₁ w₂ w₃, rely w₁ w₂ → rely w₂ w₃ → rely w₁ w₃

namespace Level

variable {Op : Type} {Ans : Op → Type} {W : Type}

/-- The weakest precondition of a program of a level. -/
abbrev wp (level : Level Op Ans W) {α : Type} (p : Prog Op Ans α) (Q : α → W → Prop) (w : W) :
    Prop :=
  p.wp level.step level.rely level.guard Q w

variable {Op' : Type} {Ans' : Op' → Type}

/-- A level without its further calls. -/
@[simps]
def inl (level : Level (Op ⊕ Op') (Sum.elim Ans Ans') W) : Level Op Ans W where
  step op := level.step (.inl op)
  rely := level.rely
  guard op := level.guard (.inl op)
  refl := level.refl
  trans := level.trans

end Level

namespace Prog

variable {Op : Type} {Ans : Op → Type} {W α β γ : Type}

/-- Where two programs can start, the first one ends where the second one can start. -/
theorem wp_of_bind {level : Level Op Ans W} {p : Prog Op Ans α} {f : α → Prog Op Ans β}
    {Q : β → W → Prop} {w : W} (h : level.wp (p >>= f) Q w) :
  level.wp p (fun a => level.wp (f a) Q) w
  := by
  induction p generalizing w with
  | ret a => exact fun w' hw => wp_stable level.trans h hw
  | call op k ih =>
    intro w' hw
    obtain ⟨hguard, hcall⟩ := h w' hw
    exact ⟨hguard, fun a w'' hstep => ih a (hcall a w'' hstep)⟩
  | loop body s k _ ih =>
    obtain ⟨I, hstable, hs, hbody⟩ := h
    use I, hstable, hs
    intro s w hI
    apply wp_mono _ (hbody s w hI)
    rintro (s' | b) w' hr
    · apply hr
    · apply ih b hr

/-- A program that makes none of the further calls. -/
theorem wp_of_lift {Op' : Type} {Ans' : Op' → Type}
    {level : Level (Op ⊕ Op') (Sum.elim Ans Ans') W} {p : Prog Op Ans α} {Q : α → W → Prop} {w : W}
    (h : level.wp p.lift Q w) :
  level.inl.wp p Q w
  := by
  induction p generalizing w with
  | ret a => apply h
  | call op k ih =>
    intro w' hw
    obtain ⟨hguard, hcall⟩ := h w' hw
    exact ⟨hguard, fun a w'' hstep => ih a (hcall a w'' hstep)⟩
  | loop body s k ihbody ih =>
    obtain ⟨I, hstable, hs, hbody⟩ := h
    use I, hstable, hs
    intro s w hI
    apply wp_mono _ (ihbody s (hbody s w hI))
    rintro (s' | b) w' hr
    · apply hr
    · apply ih b hr

end Prog

variable {OpL OpU : Type} {AnsL : OpL → Type} {AnsU : OpU → Type} {WL WU : Type}

/-- A lower level with a view in an upper level. -/
structure Lowering (low : Level OpL AnsL WL) (up : Level OpU AnsU WU) where
  view : WL → WU
  rely : ∀ w w', low.rely w w' → up.rely (view w) (view w')

namespace Lowering

variable {low : Level OpL AnsL WL} {up : Level OpU AnsU WU} (l : Lowering low up) {α β γ δ : Type}

/-- Where the upper program can start and `J` holds, the lower one can. It ends where the upper one
has come to another program that can start, which `S` relates to its result. -/
def Simulates (J : WL → Prop) (p : Prog OpL AnsL α) (q : Prog OpU AnsU β)
    (S : α → Prog OpU AnsU β → WL → Prop) : Prop :=
  ∀ (Q : β → WU → Prop) (w : WL), J w → up.wp q Q (l.view w) →
    low.wp p (fun a w => ∃ q', S a q' w ∧ up.wp q' Q (l.view w)) w

/-- The lower program ends where the upper one does, with results that `R` relates. -/
abbrev Refines (J : WL → Prop) (p : Prog OpL AnsL α) (q : Prog OpU AnsU β)
    (R : α → β → WL → Prop) : Prop :=
  l.Simulates J p q fun a q' w => ∃ b, q' = .ret b ∧ R a b w

variable {l} {J J' : WL → Prop} {S S' : α → Prog OpU AnsU β → WL → Prop}
variable {p : Prog OpL AnsL α} {q : Prog OpU AnsU β}

theorem Simulates.mono (h : l.Simulates J p q S) (hJ : ∀ w, J' w → J w)
    (hS : ∀ a q w, S a q w → S' a q w) :
  l.Simulates J' p q S'
  := by
  intro Q w hw hq
  apply Prog.wp_mono _ (h Q w (hJ w hw) hq)
  rintro a w ⟨q', hqS, hq'⟩
  exact ⟨q', hS a q' w hqS, hq'⟩

/-- It is enough to know more at each world. -/
theorem simulates_of_exists (h : ∀ w, J w → ∃ J', J' w ∧ l.Simulates J' p q S) :
  l.Simulates J p q S
  := by
  intro Q w hw hq
  obtain ⟨J', hw', hsimulates⟩ := h w hw
  apply hsimulates Q w hw' hq

/-- All of the upper program is left to do. -/
theorem simulates_ret {a : α} (h : ∀ w w', low.rely w w' → J w → S a q w') :
  l.Simulates J (.ret a) q S
  := by
  intro Q w hw hq w' hrely
  use q, h w w' hrely hw
  exact Prog.wp_stable up.trans hq (l.rely w w' hrely)

/-- A program goes on with what is left to do. -/
theorem simulates_bind {g : α → Prog OpL AnsL γ} {S' : γ → Prog OpU AnsU β → WL → Prop}
    (hp : l.Simulates J p q S) (hg : ∀ a q', l.Simulates (S a q') (g a) q' S') :
  l.Simulates J (p >>= g) q S'
  := by
  intro Q w hw hq
  apply Prog.wp_bind low.refl
  apply Prog.wp_mono _ (hp Q w hw hq)
  rintro a w ⟨q', hS, hq'⟩
  exact hg a q' Q w hS hq'

/-- What follows the upper program is left to do. -/
theorem Simulates.frame (hp : l.Simulates J p q S) (h : β → Prog OpU AnsU γ) :
  l.Simulates J p (q >>= h) fun a q' w => ∃ q₀, q' = q₀ >>= h ∧ S a q₀ w
  := by
  intro Q w hw hq
  apply Prog.wp_mono _ (hp _ w hw (Prog.wp_of_bind hq))
  rintro a w ⟨q', hS, hq'⟩
  exact ⟨_, ⟨q', rfl, hS⟩, Prog.wp_bind up.refl hq'⟩

/-- A call of the lower level that does what a call of the upper level does. -/
theorem simulates_call {op : OpL} {k : AnsL op → Prog OpL AnsL α} {op' : OpU}
    {k' : AnsU op' → Prog OpU AnsU β} {A : AnsL op → AnsU op' → WL → Prop}
    (hstable : ∀ w w', low.rely w w' → J w → J w')
    (hguard : ∀ w, J w → up.guard op' (l.view w) → low.guard op w)
    (hstep : ∀ w a w', J w → up.guard op' (l.view w) → low.step op w a w' →
      ∃ a', up.step op' (l.view w) a' (l.view w') ∧ A a a' w')
    (hk : ∀ a a', l.Simulates (A a a') (k a) (k' a') S) :
  l.Simulates J (.call op k) (.call op' k') S
  := by
  intro Q w hw hq w₁ hrely
  obtain ⟨hguard', hcall⟩ := hq _ (l.rely w w₁ hrely)
  have hw₁ := hstable w w₁ hrely hw
  use hguard w₁ hw₁ hguard'
  intro a w₂ hcalled
  obtain ⟨a', hup, hA⟩ := hstep w₁ a w₂ hw₁ hguard' hcalled
  exact hk a a' Q w₂ hA (hcall a' _ hup)

/-- A call of the lower level that leaves the view as it is. -/
theorem simulates_hidden {op : OpL} {k : AnsL op → Prog OpL AnsL α} {A : AnsL op → WL → Prop}
    (hstable : ∀ w w', low.rely w w' → J w → J w') (hguard : ∀ w, J w → low.guard op w)
    (hstep : ∀ w a w', J w → low.step op w a w' → l.view w' = l.view w ∧ A a w')
    (hk : ∀ a, l.Simulates (A a) (k a) q S) :
  l.Simulates J (.call op k) q S
  := by
  intro Q w hw hq w₁ hrely
  have hw₁ := hstable w w₁ hrely hw
  use hguard w₁ hw₁
  intro a w₂ hcalled
  obtain ⟨hview, hA⟩ := hstep w₁ a w₂ hw₁ hcalled
  apply hk a Q w₂ hA
  rw [hview]
  exact Prog.wp_stable up.trans hq (l.rely w w₁ hrely)

/-- A loop whose body simulates what is left to do before it. -/
theorem simulates_loop {σ : Type} {body : σ → Prog OpL AnsL (σ ⊕ α)} {s : σ}
    {I : σ → Prog OpU AnsU β → WL → Prop}
    (hstable : ∀ s q w w', low.rely w w' → I s q w → I s q w')
    (hstable' : ∀ a q w w', low.rely w w' → S a q w → S a q w')
    (hbody : ∀ s q, l.Simulates (I s q) (body s) q fun r q w => r.elim (I · q w) (S · q w)) :
  l.Simulates (I s q) (Prog.repeatUntil body s) q S
  := by
  intro Q w hw hq
  refine ⟨fun s w => ∃ q, I s q w ∧ up.wp q Q (l.view w), ?_, ⟨q, hw, hq⟩, ?_⟩
  · rintro s w w' hrely ⟨q, hI, hq⟩
    exact ⟨q, hstable s q w w' hrely hI, Prog.wp_stable up.trans hq (l.rely w w' hrely)⟩
  · rintro s w ⟨q, hI, hq⟩
    apply Prog.wp_mono _ (hbody s q Q w hI hq)
    rintro (s | a) w ⟨q', hr, hq'⟩
    · exact ⟨q', hr, hq'⟩
    · intro w' hrely
      exact ⟨q', hstable' a q' w w' hrely hr, Prog.wp_stable up.trans hq' (l.rely w w' hrely)⟩

/-- An iteration of a loop of the upper program. -/
theorem simulates_resume {σ τ : Type} {body : σ → Prog OpU AnsU (σ ⊕ τ)} {s : σ}
    {k : τ → Prog OpU AnsU β} (h : l.Simulates J p (body s >>= Prog.resume body k) S) :
  l.Simulates J p (.loop body s k) S
  := fun Q w hw hq => h Q w hw (Prog.wp_resume up.refl hq)

/-! ### Refinement -/

/-- Programs that follow each other. -/
theorem refines_bind {R : α → β → WL → Prop} {g : α → Prog OpL AnsL γ} {h : β → Prog OpU AnsU δ}
    {S : γ → Prog OpU AnsU δ → WL → Prop} (hp : l.Refines J p q R)
    (hg : ∀ a b, l.Simulates (R a b) (g a) (h b) S) :
  l.Simulates J (p >>= g) (q >>= h) S
  := by
  apply simulates_bind (hp.frame h)
  intro a q'
  apply simulates_of_exists
  rintro w ⟨_, rfl, b, rfl, hR⟩
  exact ⟨R a b, hR, hg a b⟩

/-! ### Further calls -/

section

variable {OpL' OpU' : Type} {AnsL' : OpL' → Type} {AnsU' : OpU' → Type}
variable {low : Level (OpL ⊕ OpL') (Sum.elim AnsL AnsL') WL}
variable {up : Level (OpU ⊕ OpU') (Sum.elim AnsU AnsU') WU}

/-- The levels without their further calls. -/
@[simps]
def inl (l : Lowering low up) : Lowering low.inl up.inl where
  view := l.view
  rely := l.rely

/-- Programs that make none of the further calls. -/
theorem Refines.lift {l : Lowering low up} {p : Prog OpL AnsL α} {q : Prog OpU AnsU β}
    {R : α → β → WL → Prop} (h : l.inl.Refines J p q R) :
  l.Refines J p.lift q.lift R
  := by
  intro Q w hw hq
  apply Prog.wp_mono _ (Prog.wp_lift (h Q w hw (Prog.wp_of_lift hq)))
  rintro a w ⟨_, ⟨b, rfl, hR⟩, hq'⟩
  exact ⟨_, ⟨b, rfl, hR⟩, hq'⟩

end

end Lowering
