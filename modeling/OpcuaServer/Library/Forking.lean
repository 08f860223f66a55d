import OpcuaServer.Library.Program

/-!
# Threads that fork

A system of threads over one world, in which a call of a thread can come back twice, in the thread
and in one that it forks, or not at all. The environment moves in between, on behalf of a thread (an
interrupt) or not.

Whatever a program does after it has forked, in either thread, is a run of that program from the
point of view of one thread. A thread therefore keeps to its contract and makes the threads that it
forks keep to theirs if the weakest precondition of its program holds where the world is seen
together with the thread that goes on (`Follow`).

`Inevitable` says that a thread comes to a goal, however the others move, if it goes on to move
itself.
-/

namespace Forking

variable {Tid Op : Type} {Ans : Op → Type} {W α β : Type}

/-- The programs of the threads that there are, and the world. -/
structure Config (Tid : Type) (Op : Type) (Ans : Op → Type) (W α : Type) where
  progs : Tid → Option (Prog Op Ans α)
  world : W

/-- What the calls of the threads do to the world: those that come back, those that come back in two
threads, with the answers in the one that makes the call and in the one that is forked, and those
that do not come back. -/
structure System (Tid : Type) (Op : Type) (Ans : Op → Type) (W : Type) where
  step : Tid → (op : Op) → W → Ans op → W → Prop
  fork : Tid → Tid → (op : Op) → W → Ans op → Ans op → W → Prop
  leave : Tid → Op → W → W → Prop
  env : Option Tid → W → W → Prop

variable [DecidableEq Tid]

/-- A step of the system, and the thread that moves. -/
inductive Step (sys : System Tid Op Ans W) :
    Option Tid → Config Tid Op Ans W α → Config Tid Op Ans W α → Prop where
  /-- A thread makes a call and goes on with its answer. -/
  | call {progs : Tid → Option (Prog Op Ans α)} {w w' : W} {t : Tid} {op : Op}
      {k : Ans op → Prog Op Ans α} {a : Ans op} :
      progs t = some (.call op k) → sys.step t op w a w' →
      Step sys (some t) ⟨progs, w⟩ ⟨Function.update progs t (some (k a)), w'⟩
  /-- A thread forks another, and both go on. -/
  | fork {progs : Tid → Option (Prog Op Ans α)} {w w' : W} {t t' : Tid} {op : Op}
      {k : Ans op → Prog Op Ans α} {a b : Ans op} :
      progs t = some (.call op k) → progs t' = none → sys.fork t t' op w a b w' →
      Step sys (some t) ⟨progs, w⟩
        ⟨Function.update (Function.update progs t (some (k a))) t' (some (k b)), w'⟩
  /-- A thread makes a call that does not come back. -/
  | leave {progs : Tid → Option (Prog Op Ans α)} {w w' : W} {t : Tid} {op : Op}
      {k : Ans op → Prog Op Ans α} :
      progs t = some (.call op k) → sys.leave t op w w' →
      Step sys (some t) ⟨progs, w⟩ ⟨Function.update progs t none, w'⟩
  /-- A thread starts an iteration of a loop. -/
  | loop {progs : Tid → Option (Prog Op Ans α)} {w : W} {t : Tid} {σ β : Type}
      {body : σ → Prog Op Ans (σ ⊕ β)} {s : σ} {k : β → Prog Op Ans α} :
      progs t = some (.loop body s k) →
      Step sys (some t) ⟨progs, w⟩
        ⟨Function.update progs t (some (body s >>= Prog.resume body k)), w⟩
  /-- The environment moves. -/
  | env {progs : Tid → Option (Prog Op Ans α)} {w w' : W} {t : Option Tid} :
      sys.env t w w' → Step sys t ⟨progs, w⟩ ⟨progs, w'⟩

/-- The system can come from one configuration to another. -/
def Reaches (sys : System Tid Op Ans W) : Config Tid Op Ans W α → Config Tid Op Ans W α → Prop :=
  Relation.ReflTransGen fun c c' => ∃ t, Step sys t c c'

section

variable {sys : System Tid Op Ans W} {c : Config Tid Op Ans W α}
  {progs : Tid → Option (Prog Op Ans α)} {w w' : W} {t t' : Tid} {op : Op}
  {k : Ans op → Prog Op Ans α} {a b : Ans op}

/-- A run goes on with a call. -/
theorem Reaches.call (h : Reaches sys c ⟨progs, w⟩) (hprog : progs t = some (.call op k))
    (hstep : sys.step t op w a w') :
  Reaches sys c ⟨Function.update progs t (some (k a)), w'⟩
  := h.tail ⟨some t, .call hprog hstep⟩

/-- A run goes on with a fork. -/
theorem Reaches.fork (h : Reaches sys c ⟨progs, w⟩) (hprog : progs t = some (.call op k))
    (hnone : progs t' = none) (hfork : sys.fork t t' op w a b w') :
  Reaches sys c
    ⟨Function.update (Function.update progs t (some (k a))) t' (some (k b)), w'⟩
  := h.tail ⟨some t, .fork hprog hnone hfork⟩

/-- A run goes on with a call that does not come back. -/
theorem Reaches.leave (h : Reaches sys c ⟨progs, w⟩) (hprog : progs t = some (.call op k))
    (hleave : sys.leave t op w w') :
  Reaches sys c ⟨Function.update progs t none, w'⟩
  := h.tail ⟨some t, .leave hprog hleave⟩

/-- A run goes on with an iteration of a loop. -/
theorem Reaches.loop {σ β : Type} {body : σ → Prog Op Ans (σ ⊕ β)} {s : σ}
    {k' : β → Prog Op Ans α} (h : Reaches sys c ⟨progs, w⟩)
    (hprog : progs t = some (.loop body s k')) :
  Reaches sys c ⟨Function.update progs t (some (body s >>= Prog.resume body k')), w⟩
  := h.tail ⟨some t, .loop hprog⟩

/-- A run goes on with a move of the environment. -/
theorem Reaches.env (h : Reaches sys c ⟨progs, w⟩) {l : Option Tid} (henv : sys.env l w w') :
  Reaches sys c ⟨progs, w'⟩
  := h.tail ⟨l, .env henv⟩

/-- A run goes on with a run of the program of a thread. -/
theorem Reaches.runs {β : Type} {p : Prog Op Ans β} {f : β → Prog Op Ans α} {b : β}
    (h : Reaches sys c ⟨progs, w⟩) (hprog : progs t = some (p >>= f))
    (hrun : p.Runs (sys.step t) w b w') :
  Reaches sys c ⟨Function.update progs t (some (f b)), w'⟩
  := by
  induction hrun generalizing progs with
  | ret =>
    rw [Prog.ret_bind] at hprog
    rw [← hprog, Function.update_eq_self]
    exact h
  | call hstep _ ih =>
    have hrest := ih (h.call hprog hstep) (Function.update_self ..)
    rw [Function.update_idem] at hrest
    exact hrest
  | @loop β σ γ body s k r b w w₁ w₂ _ _ ihbody ih =>
    have hbody := ihbody (h.loop hprog) (Function.update_self ..)
    have hresume : (Prog.resume body k r >>= f) = Prog.resume body (fun c => k c >>= f) r := by
      cases r with
      | inl => rfl
      | inr => rfl
    have hrest := ih hbody ((Function.update_self ..).trans (congrArg some hresume.symm))
    rw [Function.update_idem, Function.update_idem] at hrest
    exact hrest

end

/-- What each thread relies on while others move, what it makes sure of at its calls, and what it
returns. -/
structure Contract (Tid Op W α : Type) where
  rely : Tid → W → W → Prop
  guard : Tid → Op → W → Prop
  post : Tid → α → W → Prop

/-- Calls that are made where their guards hold respect what the other threads rely on, and so does
the environment. -/
structure Respects (sys : System Tid Op Ans W) (con : Contract Tid Op W α) : Prop where
  refl : ∀ t w, con.rely t w w
  trans : ∀ t w₁ w₂ w₃, con.rely t w₁ w₂ → con.rely t w₂ w₃ → con.rely t w₁ w₃
  step : ∀ {t u op w a w'}, u ≠ t → con.guard t op w → sys.step t op w a w' → con.rely u w w'
  fork : ∀ {t t' u op w a b w'}, u ≠ t → u ≠ t' → con.guard t op w →
    sys.fork t t' op w a b w' → con.rely u w w'
  leave : ∀ {t u op w w'}, u ≠ t → con.guard t op w → sys.leave t op w w' → con.rely u w w'
  env : ∀ {t u w w'}, sys.env t w w' → con.rely u w w'

/-! ### Points of view -/

/-- What a call does to the world and to the thread that goes on with the answer. -/
inductive Follow (sys : System Tid Op Ans W) : (op : Op) → Tid × W → Ans op → Tid × W → Prop where
  | step {t : Tid} {op : Op} {w w' : W} {a : Ans op} :
      sys.step t op w a w' → Follow sys op (t, w) a (t, w')
  /-- The thread that forks goes on. -/
  | parent {t t' : Tid} {op : Op} {w w' : W} {a b : Ans op} :
      sys.fork t t' op w a b w' → Follow sys op (t, w) a (t, w')
  /-- The thread that is forked goes on. -/
  | child {t t' : Tid} {op : Op} {w w' : W} {a b : Ans op} :
      sys.fork t t' op w a b w' → Follow sys op (t, w) b (t', w')

namespace Contract

variable (con : Contract Tid Op W α)

/-- The thread that goes on stays the same while others move. -/
def View (x y : Tid × W) : Prop :=
  y.1 = x.1 ∧ con.rely x.1 x.2 y.2

/-- The guard of the thread that goes on. -/
def Guard (op : Op) (x : Tid × W) : Prop :=
  con.guard x.1 op x.2

/-- What the thread that goes on returns. -/
def Post (a : α) (x : Tid × W) : Prop :=
  con.post x.1 a x.2

end Contract

/-- A thread with the program keeps to the contract from the world on. -/
def Keeps (sys : System Tid Op Ans W) (con : Contract Tid Op W α) (t : Tid) (p : Prog Op Ans α)
    (w : W) : Prop :=
  p.wp (Follow sys) con.View con.Guard con.Post (t, w)

/-- Every thread is at a program that keeps to its contract from the world on. -/
def Safe (sys : System Tid Op Ans W) (con : Contract Tid Op W α) (c : Config Tid Op Ans W α) :
    Prop :=
  ∀ t p, c.progs t = some p → Keeps sys con t p c.world

variable {sys : System Tid Op Ans W} {con : Contract Tid Op W α}

section

variable (hcon : Respects sys con)

include hcon

omit [DecidableEq Tid] in
theorem view_refl (x : Tid × W) :
  con.View x x
  := ⟨rfl, hcon.refl x.1 x.2⟩

omit [DecidableEq Tid] in
theorem view_trans (x y z : Tid × W) (hxy : con.View x y) (hyz : con.View y z) :
  con.View x z
  := by
  obtain ⟨t, w⟩ := x
  obtain ⟨_, w₁⟩ := y
  obtain ⟨_, w₂⟩ := z
  obtain ⟨rfl, h₁⟩ := hxy
  obtain ⟨rfl, h₂⟩ := hyz
  exact ⟨rfl, hcon.trans _ _ _ _ h₁ h₂⟩

omit [DecidableEq Tid] in
theorem Keeps.stable {t : Tid} {p : Prog Op Ans α} {w w' : W} (h : Keeps sys con t p w)
    (hw : con.rely t w w') :
  Keeps sys con t p w'
  := Prog.wp_stable (view_trans hcon) h ⟨rfl, hw⟩

omit [DecidableEq Tid] in
theorem Keeps.call {t : Tid} {op : Op} {k : Ans op → Prog Op Ans α} {w : W}
    (h : Keeps sys con t (.call op k) w) :
  con.guard t op w ∧ ∀ a y, Follow sys op (t, w) a y → Keeps sys con y.1 (k a) y.2
  := h (t, w) (view_refl hcon (t, w))

/-- A step of the system keeps every thread to its contract. -/
theorem Safe.step {l : Option Tid} {c c' : Config Tid Op Ans W α} (h : Safe sys con c)
    (hstep : Step sys l c c') :
  Safe sys con c'
  := by
  intro u q hq
  cases hstep with
  | @call progs w w' t op k a hprog hcall =>
    obtain ⟨hguard, hk⟩ := (h t _ hprog).call hcon
    by_cases hut : u = t
    · subst hut
      cases (Function.update_self ..).symm.trans hq
      apply hk a _ (.step hcall)
    · have hq := (Function.update_of_ne hut ..).symm.trans hq
      apply (h u q hq).stable hcon (hcon.step hut hguard hcall)
  | @fork progs w w' t t' op k a b hprog hnone hfork =>
    obtain ⟨hguard, hk⟩ := (h t _ hprog).call hcon
    by_cases hut' : u = t'
    · subst hut'
      cases (Function.update_self ..).symm.trans hq
      apply hk b _ (.child hfork)
    have hq := (Function.update_of_ne hut' ..).symm.trans hq
    by_cases hut : u = t
    · subst hut
      cases (Function.update_self ..).symm.trans hq
      apply hk a _ (.parent hfork)
    · have hq := (Function.update_of_ne hut ..).symm.trans hq
      apply (h u q hq).stable hcon (hcon.fork hut hut' hguard hfork)
  | @leave progs w w' t op k hprog hleave =>
    obtain ⟨hguard, _⟩ := (h t _ hprog).call hcon
    by_cases hut : u = t
    · subst hut
      cases (Function.update_self ..).symm.trans hq
    · have hq := (Function.update_of_ne hut ..).symm.trans hq
      apply (h u q hq).stable hcon (hcon.leave hut hguard hleave)
  | @loop progs w t σ β body s k hprog =>
    by_cases hut : u = t
    · subst hut
      cases (Function.update_self ..).symm.trans hq
      apply Prog.wp_resume (view_refl hcon) (h u _ hprog)
    · have hq := (Function.update_of_ne hut ..).symm.trans hq
      apply h u q hq
  | @env progs w w' t henv => apply (h u q hq).stable hcon (hcon.env henv)

theorem Safe.reaches {c c' : Config Tid Op Ans W α} (h : Safe sys con c)
    (hreach : Reaches sys c c') :
  Safe sys con c'
  := by
  induction hreach with
  | refl => apply h
  | tail _ hstep ih =>
    obtain ⟨_, hstep⟩ := hstep
    apply ih.step hcon hstep

omit [DecidableEq Tid] in
/-- A thread that is about to make a call makes it where its guard holds. -/
theorem Safe.guard {c : Config Tid Op Ans W α} (h : Safe sys con c) {t : Tid} {op : Op}
    {k : Ans op → Prog Op Ans α} (hprog : c.progs t = some (.call op k)) :
  con.guard t op c.world
  := ((h t _ hprog).call hcon).1

omit [DecidableEq Tid] in
/-- A thread that has returned has returned what it should. -/
theorem Safe.post {c : Config Tid Op Ans W α} (h : Safe sys con c) {t : Tid} {a : α}
    (hprog : c.progs t = some (.ret a)) :
  con.post t a c.world
  := h t _ hprog (t, c.world) (view_refl hcon (t, c.world))

/-- What is preserved by calls that are made where their guards hold and by the environment is
preserved by every step of a system whose threads keep to their contracts. -/
theorem Safe.invariant {J : W → Prop}
    (hstep : ∀ {t op w a w'}, con.guard t op w → sys.step t op w a w' → J w → J w')
    (hfork : ∀ {t t' op w a b w'}, con.guard t op w → sys.fork t t' op w a b w' → J w → J w')
    (hleave : ∀ {t op w w'}, con.guard t op w → sys.leave t op w w' → J w → J w')
    (henv : ∀ {t w w'}, sys.env t w w' → J w → J w')
    {l : Option Tid} {c c' : Config Tid Op Ans W α} (h : Safe sys con c) (hmove : Step sys l c c')
    (hJ : J c.world) :
  J c'.world
  := by
  cases hmove with
  | call hprog hcall => apply hstep (h.guard hcon hprog) hcall hJ
  | fork hprog _ hforked => apply hfork (h.guard hcon hprog) hforked hJ
  | leave hprog hleft => apply hleave (h.guard hcon hprog) hleft hJ
  | loop => apply hJ
  | env hmoved => apply henv hmoved hJ

end

/-! ### Progress of one thread -/

/-- The others move. -/
def Others (sys : System Tid Op Ans W) (t : Tid) :
    Config Tid Op Ans W α → Config Tid Op Ans W α → Prop :=
  Relation.ReflTransGen fun c c' => ∃ u, u ≠ some t ∧ Step sys u c c'

/-- However the others move, the thread can move until the goal is met, and each of its moves leads
to the goal. -/
inductive Inevitable (sys : System Tid Op Ans W) (t : Tid) (Q : Config Tid Op Ans W α → Prop) :
    Config Tid Op Ans W α → Prop where
  | intro {c : Config Tid Op Ans W α} :
      (∀ c₁, Others sys t c c₁ → ¬ Q c₁ → ∃ c₂, Step sys (some t) c₁ c₂) →
      (∀ c₁ c₂, Others sys t c c₁ → ¬ Q c₁ → Step sys (some t) c₁ c₂ → Inevitable sys t Q c₂) →
      Inevitable sys t Q c

/-- The program comes to no loop while its calls have the answers. -/
def Straight (along : (op : Op) → Ans op → Prop) : {α : Type} → Prog Op Ans α → Prop
  | _, .ret _ => True
  | _, .call _ k => ∀ a, along _ a → Straight along (k a)
  | _, .loop _ _ _ => False

theorem Straight.bind {along : (op : Op) → Ans op → Prop} {p : Prog Op Ans α}
    {f : α → Prog Op Ans β} (hp : Straight along p) (hf : ∀ a, Straight along (f a)) :
  Straight along (p >>= f)
  := by
  induction p with
  | ret a => apply hf
  | call op k ih => exact fun a ha => ih a (hp a ha) hf
  | loop => cases hp

/-- The moves of the others leave the program of a thread as it is. -/
theorem Step.progs_eq {u : Option Tid} {c c' : Config Tid Op Ans W α} (h : Step sys u c c') {t : Tid}
    (hu : u ≠ some t) {p : Prog Op Ans α} (hp : c.progs t = some p) :
  c'.progs t = some p
  := by
  have hne : ∀ {s : Tid}, u = some s → t ≠ s := by
    rintro s rfl rfl
    apply hu rfl
  cases h with
  | call | leave | loop =>
    apply (Function.update_of_ne (hne rfl) ..).trans hp
  | fork hprog hnone =>
    apply (Function.update_of_ne _ ..).trans
    · apply (Function.update_of_ne (hne rfl) ..).trans hp
    · rintro rfl
      cases hnone.symm.trans hp
  | env => apply hp

theorem Others.progs_eq {c c' : Config Tid Op Ans W α} {t : Tid} (h : Others sys t c c')
    {p : Prog Op Ans α} (hp : c.progs t = some p) :
  c'.progs t = some p
  := by
  induction h with
  | refl => apply hp
  | tail _ hstep ih =>
    obtain ⟨u, hu, hstep⟩ := hstep
    apply hstep.progs_eq hu ih

/-- What every step preserves is preserved while the others move. -/
theorem Others.invariant {t : Tid} {J : Config Tid Op Ans W α → Prop}
    (hJ : ∀ {u c c'}, J c → Step sys u c c' → J c') {c c' : Config Tid Op Ans W α}
    (h : Others sys t c c') (hc : J c) :
  J c'
  := by
  induction h with
  | refl => apply hc
  | tail _ hstep ih =>
    obtain ⟨_, _, hstep⟩ := hstep
    apply hJ ih hstep

section

variable {t : Tid} {J Q : Config Tid Op Ans W α → Prop}
  (hJ : ∀ {u c c'}, J c → Step sys u c c' → J c')
  (hQ : ∀ {u c c'}, J c → Q c → Step sys u c c' → Q c')

include hJ hQ

/-- A goal that has been met stays met. -/
theorem inevitable_of_met {c : Config Tid Op Ans W α} (hc : J c) (h : Q c) :
  Inevitable sys t Q c
  := by
  have hmet : ∀ c₁, Others sys t c c₁ → Q c₁ := by
    intro c₁ hothers
    have hboth : J c₁ ∧ Q c₁ := by
      apply hothers.invariant (J := fun c => J c ∧ Q c) _ ⟨hc, h⟩
      rintro u c c' ⟨hc, h⟩ hstep
      exact ⟨hJ hc hstep, hQ hc h hstep⟩
    apply hboth.2
  constructor
  · intro c₁ hothers hnot
    apply absurd (hmet c₁ hothers) hnot
  · intro c₁ _ hothers hnot
    apply absurd (hmet c₁ hothers) hnot

/-- A thread that comes to no loop meets the goal if it can move until then and each of its moves is
a call that brings it on or meets the goal. -/
theorem inevitable_of_straight {along : (op : Op) → Ans op → Prop}
    (hmove : ∀ {c}, J c → ¬ Q c → ∃ c', Step sys (some t) c c')
    (hcall : ∀ {c c'}, J c → Step sys (some t) c c' → ¬ Q c' →
      ∃ (op : Op) (k : Ans op → Prog Op Ans α) (a : Ans op),
        c.progs t = some (.call op k) ∧ along op a ∧ c'.progs t = some (k a))
    {p : Prog Op Ans α} (hp : Straight along p) {c : Config Tid Op Ans W α} (hc : J c)
    (hprog : c.progs t = some p) :
  Inevitable sys t Q c
  := by
  have hnext : ∀ {p c}, J c → c.progs t = some p →
      (∀ op k a c', p = .call op k → along op a → J c' → c'.progs t = some (k a) →
        Inevitable sys t Q c') → Inevitable sys t Q c := by
    intro p c hc hprog hrest
    constructor
    · intro c₁ hothers hnot
      apply hmove (hothers.invariant hJ hc) hnot
    · intro c₁ c₂ hothers _ hstep
      have hc₁ := hothers.invariant hJ hc
      by_cases hQc : Q c₂
      · apply inevitable_of_met hJ hQ (hJ hc₁ hstep) hQc
      · obtain ⟨op, k, a, hk, ha, hk'⟩ := hcall hc₁ hstep hQc
        apply hrest op k a c₂ _ ha (hJ hc₁ hstep) hk'
        apply Option.some.inj ((hothers.progs_eq hprog).symm.trans hk)
  -- by induction on the program: a move that does not meet the goal is a call of it
  induction p with
  | ret a =>
    apply hnext hc hprog
    rintro _ _ _ _ ⟨⟩
  | call op k ih =>
    apply hnext hc hprog
    rintro _ _ a c' ⟨⟩ ha hc' hk'
    apply ih a hJ hQ hmove hcall (hp a ha) hc' hk' hnext
  | loop => cases hp

end

end Forking
