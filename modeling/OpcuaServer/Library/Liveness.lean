import Mathlib.Data.Nat.Find
import Mathlib.Data.Nat.Init
import OpcuaServer.Library.Forking

/-!
# Liveness of threads

A thread ends if the loops of its program end. A program is `Steady` if each iteration of its loops
ends the loop as soon as the calls have the answers of an urgent mode, so that the program ends from
wherever it is by then (`inevitable_of_halts`). What is inevitable happens in every fair run
(`Inevitable.eventually`).
-/

namespace Prog

variable {Op : Type} {Ans : Op → Type} {α β σ X : Type}

/-- The program ends, without a loop and in a value that satisfies `Q`, while its calls have the
answers. -/
def StraightTo (along : (op : Op) → Ans op → Prop) : {α : Type} → Prog Op Ans α → (α → Prop) → Prop
  | _, .ret a, Q => Q a
  | _, .call op k, Q => ∀ a, along op a → (k a).StraightTo along Q
  | _, .loop _ _ _, _ => False

/-- The program ends while its calls have the answers. -/
inductive Halts (along : (op : Op) → Ans op → Prop) : {α : Type} → Prog Op Ans α → Prop where
  | ret {α : Type} {a : α} : Halts along (.ret a)
  | call {α : Type} {op : Op} {k : Ans op → Prog Op Ans α} :
      (∀ a, along op a → Halts along (k a)) → Halts along (.call op k)
  | loop {α σ β : Type} {body : σ → Prog Op Ans (σ ⊕ β)} {s : σ} {k : β → Prog Op Ans α} :
      Halts along (body s >>= resume body k) → Halts along (.loop body s k)

theorem StraightTo.bind {along : (op : Op) → Ans op → Prop} {p : Prog Op Ans α} {Q : α → Prop}
    {f : α → Prog Op Ans β} (hp : p.StraightTo along Q) (hf : ∀ a, Q a → (f a).Halts along) :
  (p >>= f).Halts along
  := by
  induction p with
  | ret a => apply hf a hp
  | call op k ih => exact .call fun a ha => ih a (hp a ha) hf
  | loop => cases hp

/-! ### Modes -/

/-- The modes in which threads go on. A call that is allowed can take a thread to another mode. In an
urgent mode the loops end when the calls have the answers. -/
structure Modes (Op : Type) (Ans : Op → Type) (X : Type) where
  allowed : Op → X → Prop
  moves : (op : Op) → X → Ans op → X → Prop
  urgent : X → Prop
  along : X → (op : Op) → Ans op → Prop
  stays : ∀ {x op a}, urgent x → along x op a → moves op x a x

/-- The program makes the calls that are allowed, from the mode on, and ends as `Q` says. Each
iteration of its loops stays in the mode and, if the mode is urgent, ends the loop. -/
def Steady (m : Modes Op Ans X) : {α : Type} → Prog Op Ans α → (α → X → Prop) → X → Prop
  | _, .ret a, Q, x => Q a x
  | _, .call op k, Q, x => m.allowed op x ∧ ∀ a x', m.moves op x a x' → (k a).Steady m Q x'
  | _, .loop body _ k, Q, x =>
      ∀ s, (m.urgent x → (body s).StraightTo (m.along x) fun r => r.isRight) ∧
        (body s).Steady m (fun r x' => x' = x ∧ ∀ b, r = .inr b → (k b).Steady m Q x) x

variable {m : Modes Op Ans X} {x : X}

theorem Steady.mono {p : Prog Op Ans α} {Q Q' : α → X → Prop} (hQ : ∀ a x, Q a x → Q' a x)
    (h : p.Steady m Q x) :
  p.Steady m Q' x
  := by
  induction p generalizing x with
  | ret a => apply hQ a x h
  | call op k ih => exact ⟨h.1, fun a x' hmove => ih a hQ (h.2 a x' hmove)⟩
  | loop body s k ihbody ih =>
    intro s'
    use (h s').1
    apply ihbody s' _ (h s').2
    rintro r x' ⟨hx, hr⟩
    exact ⟨hx, fun b hb => ih b hQ (hr b hb)⟩

theorem Steady.bind {p : Prog Op Ans α} {f : α → Prog Op Ans β} {Q : β → X → Prop}
    (h : p.Steady m (fun a => (f a).Steady m Q) x) :
  (p >>= f).Steady m Q x
  := by
  induction p generalizing x with
  | ret a => apply h
  | call op k ih => exact ⟨h.1, fun a x' hmove => ih a (h.2 a x' hmove)⟩
  | loop body s k ihbody ih =>
    intro s'
    use (h s').1
    apply (h s').2.mono
    rintro r x' ⟨hx, hr⟩
    exact ⟨hx, fun b hb => ih b (hr b hb)⟩

/-- A loop is steady as long as it goes on. -/
theorem Steady.resume {body : σ → Prog Op Ans (σ ⊕ β)} {s : σ} {k : β → Prog Op Ans α}
    {Q : α → X → Prop} (h : (Prog.loop body s k).Steady m Q x) :
  (body s >>= Prog.resume body k).Steady m Q x
  := by
  apply Steady.bind
  apply (h s).2.mono
  rintro (s' | b) x' ⟨rfl, hr⟩
  · exact h
  · apply hr b rfl

theorem steady_repeatUntil {body : σ → Prog Op Ans (σ ⊕ β)} {s : σ} {Q : β → X → Prop}
    (hstraight : m.urgent x → ∀ s, (body s).StraightTo (m.along x) fun r => r.isRight)
    (hbody : ∀ s, (body s).Steady m (fun _ x' => x' = x) x) (hQ : ∀ b, Q b x) :
  (repeatUntil body s).Steady m Q x
  := by
  intro s'
  use fun hurgent => hstraight hurgent s'
  apply (hbody s').mono
  rintro _ _ rfl
  exact ⟨rfl, fun b _ => hQ b⟩

/-- The end of a steady program that stays in an urgent mode. -/
theorem StraightTo.and {p : Prog Op Ans α} {Q : α → Prop} {Q' : α → X → Prop} (hurgent : m.urgent x)
    (hstraight : p.StraightTo (m.along x) Q) (h : p.Steady m Q' x) :
  p.StraightTo (m.along x) fun a => Q a ∧ Q' a x
  := by
  induction p with
  | ret a => exact ⟨hstraight, h⟩
  | call op k ih => exact fun a ha => ih a (hstraight a ha) (h.2 a x (m.stays hurgent ha))
  | loop => cases hstraight

/-- A steady program ends in an urgent mode. -/
theorem Steady.halts {p : Prog Op Ans α} {Q : α → X → Prop} (h : p.Steady m Q x)
    (hurgent : m.urgent x) :
  p.Halts (m.along x)
  := by
  induction p with
  | ret a => exact .ret
  | call op k ih => exact .call fun a ha => ih a (h.2 a x (m.stays hurgent ha))
  | loop body s k _ ih =>
    apply Halts.loop
    apply (((h s).1 hurgent).and hurgent (h s).2).bind
    rintro (s' | b) ⟨hright, -, hr⟩
    · cases hright
    · apply ih b (hr b rfl)

end Prog

namespace Forking

variable {Tid Op : Type} {Ans : Op → Type} {W α X : Type} [DecidableEq Tid]

/-! ### Steady threads -/

/-- The modes of the threads follow from the world. -/
structure Follows (sys : System Tid Op Ans W) (m : Prog.Modes Op Ans X) (mode : Tid → W → X) :
    Prop where
  step : ∀ {t op w a w'}, m.allowed op (mode t w) → sys.step t op w a w' →
    m.moves op (mode t w) a (mode t w') ∧ ∀ u, u ≠ t → mode u w' = mode u w
  fork : ∀ {t t' op w a b w'}, m.allowed op (mode t w) → sys.fork t t' op w a b w' →
    m.moves op (mode t w) a (mode t w') ∧ m.moves op (mode t w) b (mode t' w') ∧
      ∀ u, u ≠ t → u ≠ t' → mode u w' = mode u w
  leave : ∀ {t op w w'}, sys.leave t op w w' → ∀ u, u ≠ t → mode u w' = mode u w
  env : ∀ {l w w'}, sys.env l w w' → ∀ u, mode u w' = mode u w

/-- Every thread is at a program that is steady in its mode. -/
def AllSteady (m : Prog.Modes Op Ans X) (mode : Tid → W → X) (c : Config Tid Op Ans W α) : Prop :=
  ∀ t p, c.progs t = some p → p.Steady m (fun _ _ => True) (mode t c.world)

variable {sys : System Tid Op Ans W} {m : Prog.Modes Op Ans X} {mode : Tid → W → X}

theorem AllSteady.step (hm : Follows sys m mode) {l : Option Tid} {c c' : Config Tid Op Ans W α}
    (h : AllSteady m mode c) (hstep : Step sys l c c') :
  AllSteady m mode c'
  := by
  intro u q hq
  cases hstep with
  | @call progs w w' t op k a hprog hcall =>
    obtain ⟨hallowed, hk⟩ := h t _ hprog
    obtain ⟨hmoves, hothers⟩ := hm.step hallowed hcall
    by_cases hut : u = t
    · subst hut
      cases (Function.update_self ..).symm.trans hq
      apply hk a _ hmoves
    · rw [hothers u hut]
      apply h u q ((Function.update_of_ne hut ..).symm.trans hq)
  | @fork progs w w' t t' op k a b hprog hnone hfork =>
    obtain ⟨hallowed, hk⟩ := h t _ hprog
    obtain ⟨hparent, hchild, hothers⟩ := hm.fork hallowed hfork
    by_cases hut' : u = t'
    · subst hut'
      cases (Function.update_self ..).symm.trans hq
      apply hk b _ hchild
    have hq := (Function.update_of_ne hut' ..).symm.trans hq
    by_cases hut : u = t
    · subst hut
      cases (Function.update_self ..).symm.trans hq
      apply hk a _ hparent
    · rw [hothers u hut hut']
      apply h u q ((Function.update_of_ne hut ..).symm.trans hq)
  | @leave progs w w' t op k hprog hleave =>
    by_cases hut : u = t
    · subst hut
      cases (Function.update_self ..).symm.trans hq
    · rw [hm.leave hleave u hut]
      apply h u q ((Function.update_of_ne hut ..).symm.trans hq)
  | @loop progs w t σ β body s k hprog =>
    by_cases hut : u = t
    · subst hut
      cases (Function.update_self ..).symm.trans hq
      apply (h u _ hprog).resume
    · apply h u q ((Function.update_of_ne hut ..).symm.trans hq)
  | env henv =>
    rw [hm.env henv u]
    apply h u q hq

theorem AllSteady.reaches (hm : Follows sys m mode) {c c' : Config Tid Op Ans W α}
    (h : AllSteady m mode c) (hreach : Reaches sys c c') :
  AllSteady m mode c'
  := by
  induction hreach with
  | refl => exact h
  | tail _ hstep ih =>
    obtain ⟨_, hstep⟩ := hstep
    apply ih.step hm hstep

/-! ### Threads that end -/

/-- The step of a thread that starts an iteration. -/
theorem Step.of_loop {t : Tid} {c c' : Config Tid Op Ans W α} {σ β : Type}
    {body : σ → Prog Op Ans (σ ⊕ β)} {s : σ} {k : β → Prog Op Ans α}
    (henv : ∀ w w', ¬ sys.env (some t) w w') (hprog : c.progs t = some (.loop body s k))
    (h : Step sys (some t) c c') :
  c'.progs t = some (body s >>= Prog.resume body k)
  := by
  cases h with
  | call hcall => cases hprog.symm.trans hcall
  | fork hcall => cases hprog.symm.trans hcall
  | leave hcall => cases hprog.symm.trans hcall
  | loop hloop =>
    cases hprog.symm.trans hloop
    apply Function.update_self
  | env hmove => apply absurd hmove (henv _ _)

/-- A thread that has returned does not move. -/
theorem Step.of_ret {t : Tid} {c c' : Config Tid Op Ans W α} {a : α}
    (henv : ∀ w w', ¬ sys.env (some t) w w') (hprog : c.progs t = some (.ret a)) :
  ¬ Step sys (some t) c c'
  := by
  intro h
  cases h with
  | call hcall => cases hprog.symm.trans hcall
  | fork hcall => cases hprog.symm.trans hcall
  | leave hcall => cases hprog.symm.trans hcall
  | loop hloop => cases hprog.symm.trans hloop
  | env hmove => apply henv _ _ hmove

/-- A thread that there is not does not move. -/
theorem Step.of_none {t : Tid} {c c' : Config Tid Op Ans W α}
    (henv : ∀ w w', ¬ sys.env (some t) w w') (hprog : c.progs t = none) :
  ¬ Step sys (some t) c c'
  := by
  intro h
  cases h with
  | call hcall => cases hprog.symm.trans hcall
  | fork hcall => cases hprog.symm.trans hcall
  | leave hcall => cases hprog.symm.trans hcall
  | loop hloop => cases hprog.symm.trans hloop
  | env hmove => apply henv _ _ hmove

section

variable {t : Tid} {J Q : Config Tid Op Ans W α → Prop}
  (hJ : ∀ {u c c'}, J c → Step sys u c c' → J c')
  (hQ : ∀ {u c c'}, J c → Q c → Step sys u c c' → Q c')

include hJ hQ

/-- A thread whose program ends along the answers meets the goal if it can move until then and its
calls have the answers until then. -/
theorem inevitable_of_halts {along : (op : Op) → Ans op → Prop}
    (henv : ∀ w w', ¬ sys.env (some t) w w')
    (hmove : ∀ {c}, J c → ¬ Q c → ∃ c', Step sys (some t) c c')
    (hcall : ∀ {c c' op k}, J c → c.progs t = some (.call op k) → Step sys (some t) c c' → ¬ Q c' →
      ∃ a, along op a ∧ c'.progs t = some (k a))
    {p : Prog Op Ans α} (hp : p.Halts along) {c : Config Tid Op Ans W α} (hc : J c)
    (hprog : c.progs t = some p) :
  Inevitable sys t Q c
  := by
  have hnext : ∀ {p : Prog Op Ans α} {c : Config Tid Op Ans W α}, J c → c.progs t = some p →
      (∀ c₁ c₂, J c₁ → c₁.progs t = some p → Step sys (some t) c₁ c₂ → ¬ Q c₂ →
        Inevitable sys t Q c₂) → Inevitable sys t Q c := by
    intro p c hc hprog hrest
    constructor
    · intro c₁ hothers hnot
      apply hmove (hothers.invariant hJ hc) hnot
    · intro c₁ c₂ hothers _ hstep
      have hc₁ := hothers.invariant hJ hc
      by_cases hQc : Q c₂
      · apply inevitable_of_met hJ hQ (hJ hc₁ hstep) hQc
      · apply hrest c₁ c₂ hc₁ (hothers.progs_eq hprog) hstep hQc
  -- by induction on how the program ends
  induction hp generalizing c with
  | ret =>
    apply hnext hc hprog
    intro c₁ c₂ _ hprog hstep
    apply absurd hstep (Step.of_ret henv hprog)
  | call _ ih =>
    apply hnext hc hprog
    intro c₁ c₂ hc₁ hprog hstep hnot
    obtain ⟨a, ha, hk⟩ := hcall hc₁ hprog hstep hnot
    apply ih a ha (hJ hc₁ hstep) hk
  | loop _ ih =>
    apply hnext hc hprog
    intro c₁ c₂ hc₁ hprog hstep _
    apply ih (hJ hc₁ hstep) (hstep.of_loop henv hprog)

end

/-! ### Fair runs -/

/-- An infinite run, in which nothing happens or a thread or the environment moves. -/
structure Run (sys : System Tid Op Ans W) (α : Type) where
  config : ℕ → Config Tid Op Ans W α
  mover : ℕ → Option Tid
  moves : ∀ i, config (i + 1) = config i ∧ mover i = none ∨
    Step sys (mover i) (config i) (config (i + 1))

namespace Run

/-- A thread that can move from some time on moves. -/
def Fair (r : Run sys α) (t : Tid) : Prop :=
  ∀ i, (∀ j, i ≤ j → ∃ c, Step sys (some t) (r.config j) c) → ∃ j, i ≤ j ∧ r.mover j = some t

theorem reaches (r : Run sys α) {i j : ℕ} (hij : i ≤ j) :
  Reaches sys (r.config i) (r.config j)
  := by
  induction j, hij using Nat.le_induction with
  | base => exact .refl
  | succ j _ ih =>
    rcases r.moves j with ⟨hsame, -⟩ | hstep
    · rw [hsame]
      apply ih
    · apply ih.tail ⟨_, hstep⟩

/-- The others move as long as a thread does not. -/
theorem others (r : Run sys α) {t : Tid} {i j : ℕ} (hij : i ≤ j)
    (hnot : ∀ n, i ≤ n → n < j → r.mover n ≠ some t) :
  Others sys t (r.config i) (r.config j)
  := by
  induction j, hij using Nat.le_induction with
  | base => exact .refl
  | succ j hij ih =>
    have hothers := ih fun n hin hnj => hnot n hin (by omega)
    rcases r.moves j with ⟨hsame, -⟩ | hstep
    · rw [hsame]
      apply hothers
    · apply hothers.tail ⟨_, hnot j hij (by omega), hstep⟩

/-- A thread that moves after some time moves for a first time after it. -/
theorem first_move (r : Run sys α) {t : Tid} {i : ℕ} (h : ∃ j, i ≤ j ∧ r.mover j = some t) :
  ∃ j, i ≤ j ∧ r.mover j = some t ∧ Others sys t (r.config i) (r.config j)
  := by
  classical
  obtain ⟨hij, hmover⟩ := Nat.find_spec h
  refine ⟨Nat.find h, hij, hmover, r.others hij ?_⟩
  intro n hin hn hmoves
  apply Nat.find_min h hn ⟨hin, hmoves⟩

/-- A step and then a run. -/
def cons (r : Run sys α) {c : Config Tid Op Ans W α} {t : Option Tid}
    (h : Step sys t c (r.config 0)) : Run sys α where
  config := fun
    | 0 => c
    | i + 1 => r.config i
  mover := fun
    | 0 => t
    | i + 1 => r.mover i
  moves := fun
    | 0 => .inr h
    | i + 1 => r.moves i

theorem Fair.cons {r : Run sys α} {u : Tid} (hfair : r.Fair u) {c : Config Tid Op Ans W α}
    {t : Option Tid} (h : Step sys t c (r.config 0)) :
  (r.cons h).Fair u
  := by
  intro i hcan
  obtain ⟨j, hij, hmover⟩ := hfair i fun j hij => hcan (j + 1) (by omega)
  exact ⟨j + 1, by omega, hmover⟩

/-- A run to a configuration in which every thread has ended is the start of a fair one. -/
theorem exists_fair (henv : ∀ t w w', ¬ sys.env (some t) w w') {c c' : Config Tid Op Ans W α}
    (hreach : Reaches sys c c')
    (hend : ∀ t, c'.progs t = none ∨ ∃ a, c'.progs t = some (.ret a)) :
  ∃ r : Run sys α, r.config 0 = c ∧ ∀ t, r.Fair t
  := by
  induction hreach using Relation.ReflTransGen.head_induction_on with
  | refl =>
    refine ⟨⟨fun _ => c', fun _ => none, fun _ => .inl ⟨rfl, rfl⟩⟩, rfl, ?_⟩
    intro t i hcan
    obtain ⟨c'', hstep⟩ := hcan i le_rfl
    rcases hend t with hnone | ⟨a, hret⟩
    · apply absurd hstep (Step.of_none (henv t) hnone)
    · apply absurd hstep (Step.of_ret (henv t) hret)
  | head hstep _ ih =>
    obtain ⟨t, hstep⟩ := hstep
    obtain ⟨r, rfl, hfair⟩ := ih
    exact ⟨r.cons hstep, rfl, fun u => (hfair u).cons hstep⟩

end Run

/-- What is inevitable happens in every run that is fair to the thread. -/
theorem Inevitable.eventually {t : Tid} {Q : Config Tid Op Ans W α → Prop} {r : Run sys α}
    (hfair : r.Fair t) {c : Config Tid Op Ans W α} (h : Inevitable sys t Q c) {i : ℕ}
    (hc : r.config i = c) :
  ∃ j, i ≤ j ∧ Q (r.config j)
  := by
  induction h generalizing i with
  | @intro c hcan _ ih =>
    subst hc
    by_contra hnever
    push Not at hnever
    -- the thread moves, and its first move leads on
    have hmoves : ∃ j, i ≤ j ∧ r.mover j = some t := by
      by_contra hidle
      push Not at hidle
      obtain ⟨j, hij, hmover⟩ := hfair i fun j hij =>
        hcan _ (r.others hij fun n hin _ => hidle n hin) (hnever j hij)
      apply hidle j hij hmover
    obtain ⟨j, hij, hmover, hothers⟩ := r.first_move hmoves
    rcases r.moves j with ⟨-, hnone⟩ | hstep
    · cases hnone.symm.trans hmover
    · rw [hmover] at hstep
      obtain ⟨n, hjn, hn⟩ := ih _ _ hothers (hnever j hij) hstep rfl
      apply hnever n (by omega) hn

end Forking
