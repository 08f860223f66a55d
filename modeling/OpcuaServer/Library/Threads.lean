import OpcuaServer.Library.Program

/-!
# Threads

A system of threads that run programs over one world, in any interleaving of their calls with each
other and with the moves of the environment. A thread can also come to a halt between two calls.

If every call that is made where its guard holds respects what the other threads rely on, then a
system in which every thread is started from its weakest precondition only ever makes calls whose
guards hold (`guard_of_reaches`).
-/

namespace Threads

variable {Tid Op : Type} {Ans : Op → Type} {W : Type}

/-- The programs of the threads and the world. -/
structure Config (Tid : Type) (Op : Type) (Ans : Op → Type) (W : Type) where
  progs : Tid → Prog Op Ans Unit
  world : W

/-- What the calls of the threads do to the world, what the environment does to it, and what the
halt of a thread does to it. -/
structure System (Tid : Type) (Op : Type) (Ans : Op → Type) (W : Type) where
  step : Tid → (op : Op) → W → Ans op → W → Prop
  env : W → W → Prop
  halt : Tid → W → W → Prop

variable [DecidableEq Tid]

/-- A step of the system. -/
inductive Step (sys : System Tid Op Ans W) : Config Tid Op Ans W → Config Tid Op Ans W → Prop where
  /-- A thread makes a call and goes on with its answer. -/
  | call {progs : Tid → Prog Op Ans Unit} {w w' : W} {t : Tid} {op : Op}
      {k : Ans op → Prog Op Ans Unit} {a : Ans op} :
      progs t = .call op k → sys.step t op w a w' →
      Step sys ⟨progs, w⟩ ⟨Function.update progs t (k a), w'⟩
  /-- A thread starts an iteration of a loop. -/
  | loop {progs : Tid → Prog Op Ans Unit} {w : W} {t : Tid} {σ β : Type}
      {body : σ → Prog Op Ans (σ ⊕ β)} {s : σ} {k : β → Prog Op Ans Unit} :
      progs t = .loop body s k →
      Step sys ⟨progs, w⟩ ⟨Function.update progs t (body s >>= Prog.resume body k), w⟩
  /-- The environment moves. -/
  | env {progs : Tid → Prog Op Ans Unit} {w w' : W} :
      sys.env w w' → Step sys ⟨progs, w⟩ ⟨progs, w'⟩
  /-- A thread comes to a halt. -/
  | halt {progs : Tid → Prog Op Ans Unit} {w w' : W} {t : Tid} :
      sys.halt t w w' → Step sys ⟨progs, w⟩ ⟨Function.update progs t (.ret ()), w'⟩

/-- The system can come from one configuration to another. -/
def Reaches (sys : System Tid Op Ans W) : Config Tid Op Ans W → Config Tid Op Ans W → Prop :=
  Relation.ReflTransGen (Step sys)

/-- What each thread relies on while others move, and what it makes sure of at its calls. -/
structure Contract (Tid Op W : Type) where
  rely : Tid → W → W → Prop
  guard : Tid → Op → W → Prop

/-- Calls that are made where their guards hold respect what the other threads rely on, and so do
the environment and the halt of a thread. -/
structure Respects (sys : System Tid Op Ans W) (con : Contract Tid Op W) : Prop where
  refl : ∀ t w, con.rely t w w
  trans : ∀ t w₁ w₂ w₃, con.rely t w₁ w₂ → con.rely t w₂ w₃ → con.rely t w₁ w₃
  step : ∀ {t t' op w a w'}, t' ≠ t → con.guard t op w → sys.step t op w a w' → con.rely t' w w'
  env : ∀ {t w w'}, sys.env w w' → con.rely t w w'
  halt : ∀ {t t' w w'}, t' ≠ t → sys.halt t w w' → con.rely t' w w'

/-- Every thread is at a program that keeps to its contract from the world on. -/
def Safe (sys : System Tid Op Ans W) (con : Contract Tid Op W) (c : Config Tid Op Ans W) : Prop :=
  ∀ t, (c.progs t).wp (sys.step t) (con.rely t) (con.guard t) (fun _ _ => True) c.world

/-- Every thread is at a program that keeps to its contract from the world on, and ends so that its
postcondition holds. -/
def Meets (sys : System Tid Op Ans W) (con : Contract Tid Op W) (post : Tid → W → Prop)
    (c : Config Tid Op Ans W) : Prop :=
  ∀ t, (c.progs t).wp (sys.step t) (con.rely t) (con.guard t) (fun _ => post t) c.world

variable {sys : System Tid Op Ans W} {con : Contract Tid Op W} {post : Tid → W → Prop}

/-- A step of the system keeps every thread to its contract and its postcondition, where those that
come to a halt satisfy theirs. -/
theorem Meets.step (hcon : Respects sys con)
    (hhalt : ∀ t w w', sys.halt t w w' → ∀ w'', con.rely t w' w'' → post t w'')
    {c c' : Config Tid Op Ans W} (h : Meets sys con post c) (hstep : Step sys c c') :
  Meets sys con post c'
  := by
  intro t
  cases hstep with
  | @call progs w w' s op k a hprog hcall =>
    have hs := h s
    simp only [hprog] at hs
    obtain ⟨hguard, hk⟩ := hs w (hcon.refl s w)
    by_cases hts : t = s
    · subst hts
      simp only [Function.update_self]
      apply hk a w' hcall
    · simp only [Function.update_of_ne hts]
      apply Prog.wp_stable (hcon.trans t) (h t) (hcon.step hts hguard hcall)
  | @loop progs w s σ β body x k hprog =>
    by_cases hts : t = s
    · subst hts
      have ht := h t
      simp only [hprog] at ht
      simp only [Function.update_self]
      apply Prog.wp_resume (hcon.refl t) ht
    · simp only [Function.update_of_ne hts]
      apply h t
  | @env progs w w' henv => apply Prog.wp_stable (hcon.trans t) (h t) (hcon.env henv)
  | @halt progs w w' s hstop =>
    by_cases hts : t = s
    · subst hts
      simp only [Function.update_self]
      exact hhalt t w w' hstop
    · simp only [Function.update_of_ne hts]
      apply Prog.wp_stable (hcon.trans t) (h t) (hcon.halt hts hstop)

/-- In every configuration that the system reaches, the postcondition of a thread that has ended
holds. -/
theorem post_of_reaches (hcon : Respects sys con)
    (hhalt : ∀ t w w', sys.halt t w w' → ∀ w'', con.rely t w' w'' → post t w'')
    {c c' : Config Tid Op Ans W} (h : Meets sys con post c) (hreach : Reaches sys c c') {t : Tid}
    (hprog : c'.progs t = .ret ()) :
  post t c'.world
  := by
  have hmeets : Meets sys con post c' := by
    clear hprog
    induction hreach with
    | refl => exact h
    | tail _ hstep ih => exact ih.step hcon hhalt hstep
  have ht := hmeets t
  rw [hprog] at ht
  exact ht _ (hcon.refl t _)

/-- A step of the system keeps every thread to its contract. -/
theorem Safe.step (hcon : Respects sys con) {c c' : Config Tid Op Ans W} (h : Safe sys con c)
    (hstep : Step sys c c') :
  Safe sys con c'
  := by
  apply Meets.step hcon _ h hstep
  exact fun _ _ _ _ _ _ => trivial

theorem Safe.reaches (hcon : Respects sys con) {c c' : Config Tid Op Ans W} (h : Safe sys con c)
    (hreach : Reaches sys c c') :
  Safe sys con c'
  := by
  induction hreach with
  | refl => apply h
  | tail _ hstep ih => apply ih.step hcon hstep

/-- In every configuration that the system reaches, a thread that is about to make a call makes it
where its guard holds. -/
theorem guard_of_reaches (hcon : Respects sys con) {c c' : Config Tid Op Ans W}
    (h : Safe sys con c) (hreach : Reaches sys c c') {t : Tid} {op : Op}
    {k : Ans op → Prog Op Ans Unit} (hprog : c'.progs t = .call op k) :
  con.guard t op c'.world
  := by
  have ht := h.reaches hcon hreach t
  rw [hprog] at ht
  apply (ht c'.world (hcon.refl t _)).1

/-- What is preserved by calls that are made where their guards hold, by the environment and by
halts holds in every configuration that the system reaches. -/
theorem invariant_of_reaches (hcon : Respects sys con) {J : W → Prop}
    (hstep : ∀ t op w a w', con.guard t op w → sys.step t op w a w' → J w → J w')
    (henv : ∀ w w', sys.env w w' → J w → J w') (hhalt : ∀ t w w', sys.halt t w w' → J w → J w')
    {c c' : Config Tid Op Ans W} (h : Safe sys con c) (hJ : J c.world) (hreach : Reaches sys c c') :
  J c'.world
  := by
  induction hreach with
  | refl => apply hJ
  | @tail c₁ c₂ hreach hstep₁ ih =>
    cases hstep₁ with
    | call hprog hcall => apply hstep _ _ _ _ _ (guard_of_reaches hcon h hreach hprog) hcall ih
    | loop => apply ih
    | env hmove => apply henv _ _ hmove ih
    | halt hstop => apply hhalt _ _ _ hstop ih

/-! ### Runs of one thread -/

theorem step_call {progs : Tid → Prog Op Ans Unit} {t : Tid} {op : Op}
    {k : Ans op → Prog Op Ans Unit} {a : Ans op} {w w' : W} (hstep : sys.step t op w a w') :
  Step sys ⟨Function.update progs t (.call op k), w⟩ ⟨Function.update progs t (k a), w'⟩
  := by
  have h : Step sys ⟨Function.update progs t (.call op k), w⟩
      ⟨Function.update (Function.update progs t (.call op k)) t (k a), w'⟩ :=
    .call (Function.update_self ..) hstep
  rw [Function.update_idem] at h
  apply h

theorem step_loop {progs : Tid → Prog Op Ans Unit} {t : Tid} {σ β : Type}
    {body : σ → Prog Op Ans (σ ⊕ β)} {s : σ} {k : β → Prog Op Ans Unit} {w : W} :
  Step sys ⟨Function.update progs t (.loop body s k), w⟩
    ⟨Function.update progs t (body s >>= Prog.resume body k), w⟩
  := by
  have h : Step sys ⟨Function.update progs t (.loop body s k), w⟩
      ⟨Function.update (Function.update progs t (.loop body s k)) t
        (body s >>= Prog.resume body k), w⟩ := .loop (Function.update_self ..)
  rw [Function.update_idem] at h
  apply h

theorem reaches_env {progs : Tid → Prog Op Ans Unit} {w w' : W}
    (henv : Relation.ReflTransGen sys.env w w') :
  Reaches sys ⟨progs, w⟩ ⟨progs, w'⟩
  := by
  induction henv with
  | refl => exact .refl
  | tail _ hmove ih => exact ih.tail (.env hmove)

/-- What a call of a thread does after the environment has moved. -/
abbrev AfterEnv (sys : System Tid Op Ans W) (t : Tid) : (op : Op) → W → Ans op → W → Prop :=
  Prog.After (Relation.ReflTransGen sys.env) (sys.step t)

/-- A thread can run its program to its end while only the environment moves before its calls. -/
theorem reaches_of_runs_afterEnv {α : Type} {p : Prog Op Ans α} {a : α} {t : Tid} {w w' : W}
    (hrun : p.Runs (AfterEnv sys t) w a w') (k : α → Prog Op Ans Unit)
    (progs : Tid → Prog Op Ans Unit) :
  Reaches sys ⟨Function.update progs t (p >>= k), w⟩ ⟨Function.update progs t (k a), w'⟩
  := by
  induction hrun with
  | ret => exact .refl
  | @call α op k' a b w w₁ w₂ hcall _ ih =>
    obtain ⟨w₃, henv, hstep⟩ := hcall
    rw [Prog.call_bind]
    apply (reaches_env henv).trans
    apply Relation.ReflTransGen.head (step_call hstep)
    apply ih k
  | @loop α σ β body s k' r b w w₁ w₂ _ _ ihbody ih =>
    rw [Prog.loop_bind]
    apply Relation.ReflTransGen.head step_loop
    apply (ihbody (Prog.resume body fun b => k' b >>= k)).trans
    cases r with
    | inl s' => apply ih k
    | inr b => apply ih k

omit [DecidableEq Tid] in
theorem afterEnv_of_step {t : Tid} {op : Op} {a : Ans op} {w w' : W} (h : sys.step t op w a w') :
  AfterEnv sys t op w a w'
  := ⟨w, .refl, h⟩

/-- A thread can run its program to its end while the others stand still. -/
theorem reaches_of_runs {α : Type} {p : Prog Op Ans α} {a : α} {t : Tid} {w w' : W}
    (hrun : p.Runs (sys.step t) w a w') (k : α → Prog Op Ans Unit)
    (progs : Tid → Prog Op Ans Unit) :
  Reaches sys ⟨Function.update progs t (p >>= k), w⟩ ⟨Function.update progs t (k a), w'⟩
  := by
  apply reaches_of_runs_afterEnv
  apply hrun.mono
  exact fun _ _ _ _ => afterEnv_of_step

section

variable {c : Config Tid Op Ans W} {progs : Tid → Prog Op Ans Unit} {w w' : W} {t : Tid}

/-- A run of the system goes on with a call. -/
theorem Reaches.call {op : Op} {k : Ans op → Prog Op Ans Unit} {a : Ans op}
    (h : Reaches sys c ⟨progs, w⟩) (hprog : progs t = .call op k) (hstep : sys.step t op w a w') :
  Reaches sys c ⟨Function.update progs t (k a), w'⟩
  := h.tail (.call hprog hstep)

/-- A run of the system goes on with an iteration of a loop. -/
theorem Reaches.loop {σ β : Type} {body : σ → Prog Op Ans (σ ⊕ β)} {s : σ}
    {k : β → Prog Op Ans Unit} (h : Reaches sys c ⟨progs, w⟩) (hprog : progs t = .loop body s k) :
  Reaches sys c ⟨Function.update progs t (body s >>= Prog.resume body k), w⟩
  := h.tail (.loop hprog)

/-- A run of the system goes on with a run of the program of a thread. -/
theorem Reaches.runs {α : Type} {p : Prog Op Ans α} {f : α → Prog Op Ans Unit} {a : α}
    (h : Reaches sys c ⟨progs, w⟩) (hprog : progs t = (p >>= f))
    (hrun : p.Runs (sys.step t) w a w') :
  Reaches sys c ⟨Function.update progs t (f a), w'⟩
  := by
  have hrest := reaches_of_runs hrun f progs
  rw [← hprog, Function.update_eq_self] at hrest
  exact h.trans hrest

end

end Threads
