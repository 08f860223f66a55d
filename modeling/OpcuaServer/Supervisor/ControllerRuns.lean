import OpcuaServer.Supervisor.ControllerContract
import OpcuaServer.Supervisor.LockedRules

/-!
# What the functions of the controller do

How each function of the controller ends that a thread runs while it holds the mutex, whatever the
other threads and the children do meanwhile (`Host.Keeps`). All that is known before and after it
is `Host.Holds`, or, once a child has been forked, `Host.Done`.
-/

namespace OpcuaServer

open Children Controller

namespace Host

variable {Tid : Type} [DecidableEq Tid] {faults : WaitFaults} {t : Tid}

/-- A program of the controller, run by a thread that has locked the mutex, keeps to the contract
and ends as `Q` says. -/
def Keeps {α : Type} (faults : WaitFaults) (t : Tid) (p : PosixLocked α)
    (Q : α → Controller → Host Tid → Prop) (ctl : Controller) (w : Host Tid) : Prop :=
  (p ctl).wp (fun call => Step faults t (.inl call)) (Rely t)
    (fun call w => w.Inv ∧ Guard faults t w (.inl call)) (fun r w => Q r.1 r.2 w) w

variable {α β σ : Type} {Q : α → Controller → Host Tid → Prop} {ctl : Controller} {w : Host Tid}

theorem keeps_mono {p : PosixLocked α} {Q' : α → Controller → Host Tid → Prop}
    (hQ : ∀ a ctl w, Q a ctl w → Q' a ctl w) (h : Keeps faults t p Q ctl w) :
  Keeps faults t p Q' ctl w
  := Locked.Keeps.mono hQ h

theorem keeps_pure {a : α} (h : ∀ w', Rely t w w' → Q a ctl w') :
  Keeps faults t (pure a) Q ctl w
  := h

theorem keeps_set {Q : Unit → Controller → Host Tid → Prop} {ctl' : Controller}
    (h : ∀ w', Rely t w w' → Q () ctl' w') :
  Keeps faults t (set ctl') Q ctl w
  := h

theorem keeps_bind {p : PosixLocked β} {f : β → PosixLocked α}
    (h : Keeps faults t p (fun b ctl w => Keeps faults t (f b) Q ctl w) ctl w) :
  Keeps faults t (p >>= f) Q ctl w
  := Locked.keeps_bind (Rely.refl t) h

theorem keeps_get {f : Controller → PosixLocked α} (h : Keeps faults t (f ctl) Q ctl w) :
  Keeps faults t (get >>= f) Q ctl w
  := h

theorem keeps_set_bind {ctl' : Controller} {f : PUnit → PosixLocked α}
    (h : Keeps faults t (f ()) Q ctl' w) :
  Keeps faults t (set ctl' >>= f) Q ctl w
  := h

/-- A call of the system is made where the invariant holds and `A` does, which the thread can rely
on. -/
theorem keeps_posix {call : PosixCall} {f : call.Answer → PosixLocked α} {A : Host Tid → Prop}
    (hstable : ∀ w w', Rely t w w' → A w → A w')
    (hguard : ∀ w, A w → Guard faults t w (.inl (.inr call)))
    (hstep : ∀ w a w', A w → Step faults t (.inl (.inr call)) w a w' → w'.Inv →
      Keeps faults t (f a) Q ctl w')
    (hinv : w.Inv) (hA : A w) :
  Keeps faults t (posix call >>= f) Q ctl w
  := by
  intro w₁ hrely
  have hinv₁ := hrely.inv hinv
  have hA₁ := hstable w w₁ hrely hA
  have hguard₁ := hguard w₁ hA₁
  use ⟨hinv₁, hguard₁⟩
  intro a w₂ hcall
  apply hstep w₁ a w₂ hA₁ hcall (hinv₁.step hguard₁ hcall)

/-- A call that affects neither the controller nor its children. -/
theorem keeps_quiet {call : PosixCall} {f : call.Answer → PosixLocked α} {A : Host Tid → Prop}
    (hquiet : quietPosix call = true) (hstable : ∀ w w', Rely t w w' → A w → A w')
    (hguard : ∀ w, A w → Guard faults t w (.inl (.inr call)))
    (hf : ∀ w a, w.Inv → A w → Keeps faults t (f a) Q ctl w) (hinv : w.Inv) (hA : A w) :
  Keeps faults t (posix call >>= f) Q ctl w
  := by
  apply keeps_posix hstable hguard _ hinv hA
  intro w a w' hA hstep hinv'
  cases hstep with
  | posix => apply hf w a hinv' hA
  | _ => cases hquiet

/-- A loop whose body preserves an invariant and ends in the postcondition. -/
theorem keeps_repeatUntil {body : σ → PosixLocked (σ ⊕ α)} {s : σ}
    (I : σ → Controller → Host Tid → Prop)
    (hstable : ∀ s ctl w w', Rely t w w' → I s ctl w → I s ctl w') (hs : I s ctl w)
    (hbody : ∀ s ctl w, I s ctl w →
      Keeps faults t (body s) (fun r ctl w => r.elim (fun s => I s ctl w) fun a =>
        ∀ w', Rely t w w' → Q a ctl w') ctl w) :
  Keeps faults t (Locked.repeatUntil body s) Q ctl w
  := Locked.keeps_repeatUntil (Rely.refl t) (fun _ _ _ => Rely.trans) I hstable hs hbody

/-! ### Holding the mutex -/

/-- The thread holds the mutex, with members that track the child of the controller. -/
structure Done (t : Tid) (ctl : Controller) (w : Host Tid) : Prop where
  inv : w.Inv
  mutex : w.mutex = some t
  tracks : ctl.Tracks w.children
  recorded : Recorded ctl w

/-- The thread holds the mutex and has not forked a child. -/
structure Holds (t : Tid) (ctl : Controller) (w : Host Tid) : Prop extends Done t ctl w where
  synced : Synced ctl w

omit [DecidableEq Tid] in
theorem Done.rely {w' : Host Tid} (hrely : Rely t w w') (h : Done t ctl w) :
  Done t ctl w'
  := by
  have hage := hrely.children h.mutex
  refine ⟨hrely.inv h.inv, hrely.mutex.mpr h.mutex, h.tracks.age hage, ?_⟩
  intro hpid n status howned hlife
  rw [hrely.owned h.mutex] at howned
  apply h.recorded hpid n status howned (hage.reaped hlife)

omit [DecidableEq Tid] in
theorem Holds.rely {w' : Host Tid} (hrely : Rely t w w') (h : Holds t ctl w) :
  Holds t ctl w'
  := by
  refine ⟨h.toDone.rely hrely, ?_⟩
  intro n hrefers
  rw [hrely.owned h.mutex]
  apply h.synced n ((hrely.children h.mutex).refers_iff.mp hrefers)

omit [DecidableEq Tid] in
/-- A controller that does not run a child has none. -/
theorem Done.nobody (h : Done t ctl w) (hstate : ctl.status.state ≠ .running) :
  ctl.childPid = -1 ∧ w.children.Sole none
  := by
  cases h.tracks with
  | nobody _ hpid hsole => exact ⟨hpid, hsole⟩
  | child hrunning => cases hstate hrunning

omit [DecidableEq Tid] in
/-- A controller that runs a child has it. -/
theorem Done.child (h : Done t ctl w) (hstate : ctl.status.state = .running) :
  0 < ctl.childPid ∧ ∃ n, w.children.Sole (some n) ∧ w.children.Refers ctl.childPid n
  := by
  cases h.tracks with
  | nobody hstate' => cases hstate' hstate
  | child _ hpid hsole hrefers => exact ⟨hpid, _, hsole, hrefers⟩

/-- The child of the controller has been reaped, and the members are set accordingly. -/
theorem Holds.reap {children : Children Reaper WaitStatus} (h : Holds t ctl w) {reaper : Reaper}
    {n : ℕ} {waitStatus : WaitStatus} {status : ProcessStatus} {life : Life Reaper WaitStatus}
    (hreaps : Reaps reaper n ctl.childPid waitStatus w.children children)
    (hinv : Inv { w.wait t n life with children })
    (hstate : status.state ≠ .running)
    (hstatus : reaper = .reapExitedUnlocked → status = decodeExitedStatus waitStatus false) :
  Holds t { status, childPid := -1 } { w.wait t n life with children }
  := by
  have howned := h.synced n hreaps.refers
  obtain ⟨-, hsole⟩ := (h.tracks.sole).choose_spec.reap hreaps
  refine ⟨⟨hinv, h.mutex, .nobody hstate rfl hsole, ?_⟩, ?_⟩
  · intro _ m waitStatus' hm hlife
    obtain rfl := Option.some.inj (howned.symm.trans hm)
    obtain ⟨rfl, rfl⟩ := Life.reaped.inj (Option.some.inj (hreaps.life.1.symm.trans hlife))
    apply hstatus rfl
  · intro m hm
    cases hsole.not_refers _ _ hm

/-! ### Reaping -/

/-- What is known once the controller has looked after its child. -/
inductive Looked (faults : WaitFaults) (t : Tid) (ctl : Controller) (w : Host Tid) : Prop where
  | idle : (w.trace t).waited = none → ctl.status.state ≠ .running → Looked faults t ctl w
  | waited {n : ℕ} {life : Life Reaper WaitStatus} : (w.trace t).waited = some (n, life) →
      w.owned = some n → (w.children.life n).isSome = true →
      (ctl.status.state = .running ↔ life = .alive) → Looked faults t ctl w
  | failed {errno : Errno} : (w.trace t).waited = none → faults .noHang errno →
      Looked faults t ctl w

omit [DecidableEq Tid] in
theorem Looked.rely {w' : Host Tid} (hmutex : w.mutex = some t) (hrely : Rely t w w')
    (h : Looked faults t ctl w) :
  Looked faults t ctl w'
  := by
  cases h with
  | idle hwaited hstate => exact .idle (hrely.trace ▸ hwaited) hstate
  | waited hwaited howned hsome hstate =>
    exact .waited (hrely.trace ▸ hwaited) ((hrely.owned hmutex).trans howned)
      ((hrely.children hmutex).isSome_life.trans hsome) hstate
  | failed hwaited hfault => exact .failed (hrely.trace ▸ hwaited) hfault

theorem wait_waited (w : Host Tid) (t : Tid) (n : ℕ) (life : Life Reaper WaitStatus) :
  ((w.wait t n life).trace t).waited = some (n, life)
  := congrArg Trace.waited (note_trace_self _)

theorem wait_check (w : Host Tid) (t : Tid) (n : ℕ) (life : Life Reaper WaitStatus) :
  ((w.wait t n life).trace t).check = (w.trace t).check
  := by rw [Host.wait, note_trace_self]

theorem Holds.wait (h : Holds t ctl w) {n : ℕ} {life : Life Reaper WaitStatus}
    (hinv : (w.wait t n life).Inv) :
  Holds t ctl (w.wait t n life)
  := ⟨⟨hinv, h.mutex, h.tracks, h.recorded⟩, h.synced⟩

/-- How the controller ends looking after its child: it was in `w` before. -/
structure LookedAfter (faults : WaitFaults) (t : Tid) (w : Host Tid) (ctl : Controller)
    (w' : Host Tid) : Prop where
  holds : Holds t ctl w'
  looked : (w.trace t).waited = none → Looked faults t ctl w'
  cleared : Cleared t w → Cleared t w'

omit [DecidableEq Tid] in
theorem LookedAfter.rely {w₀ w' : Host Tid} (hrely : Rely t w w')
    (h : LookedAfter faults t w₀ ctl w) :
  LookedAfter faults t w₀ ctl w'
  := ⟨h.holds.rely hrely, fun hnone => (h.looked hnone).rely h.holds.mutex hrely,
    hrely.cleared ∘ h.cleared⟩

/-- Waiting for a child does not keep the thread from forking one. -/
theorem Cleared.wait (h : Cleared t w) (n : ℕ) (life : Life Reaper WaitStatus)
    (children : Children Reaper WaitStatus) :
  Cleared t { w.wait t n life with children }
  := ⟨h.mutex, (wait_check w t n life).trans h.check, h.pending, h.forkedLate⟩

/-- A controller reaps its child if it has ended. -/
theorem keeps_reapExitedUnlocked (h : Holds t ctl w) :
  Keeps faults t reapExitedUnlocked (fun _ ctl' w' => LookedAfter faults t w ctl' w') ctl w
  := by
  unfold reapExitedUnlocked
  apply keeps_get
  split
  · rename_i hstate
    apply keeps_pure
    intro w' hrely
    exact ⟨h.rely hrely, fun hnone => .idle (hrely.trace ▸ hnone) hstate, hrely.cleared⟩
  · rename_i hstate
    have hrunning := not_not.mp hstate
    obtain ⟨hpid, -⟩ := h.child hrunning
    rw [if_neg (by omega)]
    apply keeps_posix (A := fun w' => Holds t ctl w' ∧ w'.trace t = w.trace t ∧
      (Cleared t w → Cleared t w'))
    · rintro w₁ w₂ hrely ⟨hholds, htrace, hcleared⟩
      exact ⟨hholds.rely hrely, hrely.trace.trans htrace, hrely.cleared ∘ hcleared⟩
    · rintro w₁ ⟨hholds, -⟩
      obtain ⟨hpid, n, -, hrefers⟩ := hholds.child hrunning
      exact ⟨hholds.mutex, hpid, n, hrefers⟩
    · rintro w₁ a w₂ ⟨hholds, htrace, hcleared⟩ hstep hinv
      cases hstep with
      | posix hquiet => cases hquiet
      | @waitNotYet _ _ n _ hchild =>
        apply keeps_pure
        intro w₃ hrely
        apply LookedAfter.rely hrely
        refine ⟨hholds.wait hinv, fun _ => ?_, fun h => (hcleared h).wait n _ _⟩
        refine .waited (wait_waited w₁ t _ _) (hholds.synced _ ⟨_, hchild, rfl, rfl⟩) ?_
          (iff_of_true hrunning rfl)
        change (w₁.children.life n).isSome = true
        rw [Children.life, hchild]
        rfl
      | @waitChild _ _ n _ _ waitStatus children hreaps =>
        simp only [if_true]
        apply keeps_set
        intro w₃ hrely
        apply LookedAfter.rely hrely
        have hended := decodeExitedStatus_state_ne waitStatus false
        refine ⟨hholds.reap hreaps hinv hended fun _ => rfl, fun _ => ?_,
          fun h => (hcleared h).wait n _ _⟩
        refine .waited (wait_waited w₁ t _ _) (hholds.synced _ hreaps.refers) ?_
          (iff_of_false hended ?_)
        · rw [hreaps.life.1]
          rfl
        · rintro ⟨⟩
      | waitFails herrno hfault =>
        simp only [herrno, if_false]
        apply keeps_pure
        intro w₃ hrely
        apply LookedAfter.rely hrely
        exact ⟨hholds, fun hnone => .failed (htrace ▸ hnone) hfault, hcleared⟩
      | waitNobody _ hnobody =>
        obtain ⟨-, n, -, hrefers⟩ := hholds.child hrunning
        cases hnobody n hrefers
    · exact h.inv
    · exact ⟨h, rfl, id⟩

/-! ### Stopping -/

omit [DecidableEq Tid] in
/-- A controller that runs a child can send signals to it and wait for it. -/
theorem Holds.refers (h : Holds t ctl w) (hstate : ctl.status.state = .running) :
  w.mutex = some t ∧ 0 < ctl.childPid ∧ ∃ n, w.children.Refers ctl.childPid n
  := by
  obtain ⟨hpid, n, -, hrefers⟩ := h.child hstate
  exact ⟨h.mutex, hpid, n, hrefers⟩

/-- A signal is sent to a child. -/
theorem keeps_killChild {pid : ℤ} {signal : Signal} {A : Host Tid → Prop}
    (hstable : ∀ w w', Rely t w w' → A w → A w')
    (hchild : ∀ w, A w → w.mutex = some t ∧ 0 < pid ∧ ∃ n, w.children.Refers pid n)
    (hinv : w.Inv) (hA : A w) :
  Keeps faults t (killChild pid signal) (fun _ ctl' w => ctl' = ctl ∧ A w) ctl w
  := by
  unfold killChild
  apply keeps_quiet rfl hstable _ _ hinv hA
  · intro w hA
    exact (hchild w hA).2
  · rintro w (error | _) - hA
    · apply keeps_pure
      intro w' hrely
      exact ⟨rfl, hstable w w' hrely hA⟩
    · apply keeps_pure
      intro w' hrely
      exact ⟨rfl, hstable w w' hrely hA⟩

/-- A child is waited for until it has been reaped, or the wait fails. -/
theorem keeps_awaitChild {reaper : Reaper} {pid : ℤ} {A B : Host Tid → Prop}
    (hstable : ∀ w w', Rely t w w' → A w → A w') (hstable' : ∀ w w', Rely t w w' → B w → B w')
    (hchild : ∀ w, A w → w.mutex = some t ∧ 0 < pid ∧ ∃ n, w.children.Refers pid n)
    (hinv : ∀ w, A w → w.Inv)
    (hreap : ∀ (w : Host Tid) n status children life, A w →
      Reaps reaper n pid status w.children children →
      Inv { w.wait t n life with children } → B { w.wait t n life with children })
    (hA : A w) :
  Keeps faults t (Locked.repeatUntil (awaitChild reaper pid) ())
    (fun r ctl' w => ctl' = ctl ∧ match r with
      | .ok () => B w
      | .error _ => A w) ctl w
  := by
  apply keeps_repeatUntil fun _ ctl' w => ctl' = ctl ∧ A w
  · rintro _ ctl' w w' hrely ⟨rfl, hA⟩
    exact ⟨rfl, hstable w w' hrely hA⟩
  · exact ⟨rfl, hA⟩
  · rintro _ ctl' w ⟨rfl, hA⟩
    unfold awaitChild
    apply keeps_posix hstable _ _ (hinv w hA) hA
    · exact hchild
    intro w₁ a w₂ hA₁ hstep hinv₂
    cases hstep with
    | posix hquiet => cases hquiet
    | waitChild hreaps =>
      apply keeps_pure
      intro w₃ hrely w₄ hrely'
      exact ⟨rfl, hstable' _ w₄ (hrely.trans hrely') (hreap w₁ _ _ _ _ hA₁ hreaps hinv₂)⟩
    | waitFails herrno hfault =>
      simp only [herrno, if_false]
      split
      · apply keeps_pure
        intro w₃ hrely
        exact ⟨rfl, hstable w₁ w₃ hrely hA₁⟩
      · apply keeps_pure
        intro w₃ hrely w₄ hrely'
        exact ⟨rfl, hstable w₁ w₄ (hrely.trans hrely') hA₁⟩
    | waitNobody _ hnobody =>
      obtain ⟨-, -, n, hrefers⟩ := hchild w₁ hA₁
      cases hnobody n hrefers

/-- How a stop ends: where it is ok, the controller runs no child. -/
def Stopped (t : Tid) (status : Status) (ctl : Controller) (w : Host Tid) : Prop :=
  Holds t ctl w ∧ (status = .ok () → ctl.status.state ≠ .running)

omit [DecidableEq Tid] in
theorem Stopped.rely {status : Status} {w' : Host Tid} (hrely : Rely t w w')
    (h : Stopped t status ctl w) :
  Stopped t status ctl w'
  := ⟨h.1.rely hrely, h.2⟩

omit [DecidableEq Tid] in
/-- A stop has failed. -/
theorem Holds.stopped_error (h : Holds t ctl w) {message : Bytes} :
  Stopped t (.error message) ctl w
  := ⟨h, by rintro ⟨⟩⟩

theorem stoppedStatus_state_ne :
  stoppedStatus.state ≠ .running
  := by rintro ⟨⟩

theorem keeps_forceStop (h : Holds t ctl w) (hstate : ctl.status.state = .running) :
  Keeps faults t forceStop (Stopped t) ctl w
  := by
  unfold forceStop
  apply keeps_get
  apply keeps_bind
  apply keeps_mono _ (keeps_killChild (fun _ _ => Holds.rely)
    (fun _ hholds => hholds.refers hstate) h.inv h)
  rintro (error | _) ctl' w ⟨rfl, h⟩
  · apply keeps_pure
    intro w' hrely
    exact (h.rely hrely).stopped_error
  · apply keeps_bind
    apply keeps_mono _ (keeps_awaitChild (fun _ _ => Holds.rely) (fun _ _ => Holds.rely)
      (fun _ hholds => hholds.refers hstate) (fun _ hholds => hholds.inv) _ h)
    · exact { status := stoppedStatus, childPid := -1 }
    · rintro (error | _) ctl'' w ⟨rfl, h⟩
      · apply keeps_pure
        intro w' hrely
        exact (h.rely hrely).stopped_error
      · apply keeps_set_bind
        apply keeps_pure
        intro w' hrely
        exact ⟨h.rely hrely, fun _ => stoppedStatus_state_ne⟩
    · intro w n waitStatus children life hholds hreaps hinv
      apply hholds.reap hreaps hinv stoppedStatus_state_ne
      rintro ⟨⟩

/-- The child is polled until it has been reaped, the deadline has passed, or the wait fails. -/
theorem keeps_pollChild {deadline : ℤ} (h : Holds t ctl w) (hstate : ctl.status.state = .running) :
  Keeps faults t (Locked.repeatUntil (pollChild deadline) ())
    (fun r ctl' w => match r with
      | none => ctl' = ctl ∧ Holds t ctl w
      | some status => Stopped t status ctl' w) ctl w
  := by
  apply keeps_repeatUntil fun _ ctl' w => ctl' = ctl ∧ Holds t ctl w
  · rintro _ ctl' w w' hrely ⟨rfl, h⟩
    exact ⟨rfl, h.rely hrely⟩
  · exact ⟨rfl, h⟩
  · rintro _ ctl' w ⟨rfl, h⟩
    unfold pollChild
    apply keeps_quiet rfl (fun _ _ => Holds.rely) _ _ h.inv h
    · intro _ _
      trivial
    intro w time _ h
    split
    · apply keeps_pure
      intro w₁ hrely w₂ hrely'
      exact ⟨rfl, h.rely (hrely.trans hrely')⟩
    · apply keeps_get
      have hsleep : ∀ w, Holds t ctl' w → Keeps faults t
          (posix (.sleepFor pollInterval) >>= fun _ => pure (Sum.inl ()))
          (fun r ctl'' w => r.elim (fun _ => ctl'' = ctl' ∧ Holds t ctl' w)
            fun a => ∀ w', Rely t w w' → match a with
              | none => ctl'' = ctl' ∧ Holds t ctl' w'
              | some status => Stopped t status ctl'' w') ctl' w := by
        intro w h
        apply keeps_quiet rfl (fun _ _ => Holds.rely) _ _ h.inv h
        · intro _ _
          trivial
        intro w _ _ h
        apply keeps_pure
        intro w' hrely
        exact ⟨rfl, h.rely hrely⟩
      apply keeps_posix (fun _ _ => Holds.rely) _ _ h.inv h
      · intro w hholds
        exact hholds.refers hstate
      intro w₁ a w₂ hholds hstep hinv
      cases hstep with
      | posix hquiet => cases hquiet
      | waitNotYet => apply hsleep _ (hholds.wait hinv)
      | waitChild hreaps =>
        simp only [if_true]
        apply keeps_set_bind
        apply keeps_pure
        intro w₃ hrely w₄ hrely'
        have hended := decodeExitedStatus_state_ne ‹_› true
        have hreaped := hholds.reap hreaps hinv hended (by rintro ⟨⟩)
        exact ⟨hreaped.rely (hrely.trans hrely'), fun _ => hended⟩
      | waitFails herrno hfault =>
        simp only [herrno, if_false]
        apply keeps_pure
        intro w₃ hrely w₄ hrely'
        exact (hholds.rely (hrely.trans hrely')).stopped_error
      | waitNobody _ hnobody =>
        obtain ⟨-, -, n, hrefers⟩ := hholds.refers hstate
        cases hnobody n hrefers

/-- A stop ends with no child, or fails and leaves the controller with its child. -/
theorem keeps_stopUnlocked {timeout : ℤ} (h : Holds t ctl w) :
  Keeps faults t (stopUnlocked timeout) (Stopped t) ctl w
  := by
  unfold stopUnlocked
  apply keeps_bind
  apply keeps_mono _ (keeps_reapExitedUnlocked h)
  rintro _ ctl w ⟨h, -, -⟩
  apply keeps_get
  split
  · rename_i hstate
    apply keeps_pure
    intro w' hrely
    exact ⟨h.rely hrely, fun _ => hstate⟩
  · rename_i hstate
    have hrunning := not_not.mp hstate
    apply keeps_bind
    apply keeps_mono _ (keeps_killChild (fun _ _ => Holds.rely)
      (fun _ hholds => hholds.refers hrunning) h.inv h)
    rintro (error | _) ctl' w ⟨rfl, h⟩
    · apply keeps_pure
      intro w' hrely
      exact (h.rely hrely).stopped_error
    · apply keeps_quiet rfl (fun _ _ => Holds.rely) _ _ h.inv h
      · intro _ _
        trivial
      intro w time _ h
      apply keeps_bind
      apply keeps_mono _ (keeps_pollChild h hrunning)
      rintro (_ | status) ctl'' w h
      · obtain ⟨rfl, h⟩ := h
        apply keeps_forceStop h hrunning
      · apply keeps_pure
        intro w' hrely
        exact h.rely hrely

/-! ### Starting -/

/-- The thread holds the mutex, the controller runs no child, and one may be forked. -/
structure Ready (t : Tid) (ctl : Controller) (w : Host Tid) : Prop where
  holds : Holds t ctl w
  cleared : Cleared t w
  idle : ctl.status.state ≠ .running

omit [DecidableEq Tid] in
theorem Ready.rely {w' : Host Tid} (hrely : Rely t w w') (h : Ready t ctl w) :
  Ready t ctl w'
  := ⟨h.holds.rely hrely, hrely.cleared h.cleared, h.idle⟩

/-- The thread holds the mutex and has forked a child that is not the controller's. -/
structure HasForked (t : Tid) (pid : ℤ) (ctl : Controller) (w : Host Tid) : Prop where
  inv : w.Inv
  mutex : w.mutex = some t
  pos : 0 < pid
  child : ∃ n, w.children.Sole (some n) ∧ w.children.Refers pid n
  idle : ctl.status.state ≠ .running
  nobody : ctl.childPid = -1
  recorded : Recorded ctl w

omit [DecidableEq Tid] in
theorem HasForked.rely {pid : ℤ} {w' : Host Tid} (hrely : Rely t w w')
    (h : HasForked t pid ctl w) :
  HasForked t pid ctl w'
  := by
  have hage := hrely.children h.mutex
  obtain ⟨n, hsole, hrefers⟩ := h.child
  refine ⟨hrely.inv h.inv, hrely.mutex.mpr h.mutex, h.pos,
    ⟨n, hsole.age hage, hage.refers_iff.mpr hrefers⟩, h.idle, h.nobody, ?_⟩
  intro hpid m status howned hlife
  rw [hrely.owned h.mutex] at howned
  apply h.recorded hpid m status howned (hage.reaped hlife)

omit [DecidableEq Tid] in
theorem HasForked.refers {pid : ℤ} (h : HasForked t pid ctl w) :
  w.mutex = some t ∧ 0 < pid ∧ ∃ n, w.children.Refers pid n
  := by
  obtain ⟨n, -, hrefers⟩ := h.child
  exact ⟨h.mutex, h.pos, n, hrefers⟩

omit [DecidableEq Tid] in
/-- The child is made that of the controller. -/
theorem HasForked.own {pid : ℤ} (h : HasForked t pid ctl w) (diagnostic : String) :
  Done t { status := runningStatus diagnostic, childPid := pid } w
  := by
  obtain ⟨n, hsole, hrefers⟩ := h.child
  refine ⟨h.inv, h.mutex, .child rfl h.pos hsole hrefers, ?_⟩
  intro hpid
  have hpos := h.pos
  simp only at hpid
  omega

/-- The child has been reaped without having been the controller's. -/
theorem HasForked.reap {pid : ℤ} {children : Children Reaper WaitStatus}
    (h : HasForked t pid ctl w) {n : ℕ} {waitStatus : WaitStatus} {life : Life Reaper WaitStatus}
    (hreaps : Reaps .startUnlocked n pid waitStatus w.children children)
    (hinv : Inv { w.wait t n life with children }) :
  Done t ctl { w.wait t n life with children }
  := by
  obtain ⟨m, hsole, -⟩ := h.child
  obtain ⟨-, hsole'⟩ := hsole.reap hreaps
  refine ⟨hinv, h.mutex, .nobody h.idle h.nobody hsole', ?_⟩
  intro hpid k status howned hlife
  apply h.recorded hpid k status howned
  rw [← hreaps.life.2 k]
  · apply hlife
  · rintro rfl
    cases hreaps.life.1.symm.trans hlife

omit [DecidableEq Tid] in
/-- A child has been forked. -/
theorem Ready.fork {pid : ℤ} (h : Ready t ctl w) (hfresh : w.children.Fresh pid)
    (hinv : (w.fork pid).Inv) :
  HasForked t pid ctl (w.fork pid)
  := by
  obtain ⟨hnobody, hsole⟩ := h.holds.nobody h.idle
  refine ⟨hinv, h.holds.mutex, hfresh.1, ⟨_, hsole.fork pid⟩, h.idle, hnobody, ?_⟩
  intro hpid n status howned hlife
  apply h.holds.recorded hpid n status howned (life_append hlife)

/-- The flag is read. -/
theorem keeps_loadShutdownRequested {f : Bool → PosixLocked α} {A : Host Tid → Prop}
    (hstable : ∀ w w', Rely t w w' → A w → A w')
    (hf : ∀ w : Host Tid, A w → Inv (w.note t fun trace =>
        { trace with check := some w.shutdownRequested }) →
      Keeps faults t (f w.shutdownRequested) Q ctl (w.note t fun trace =>
        { trace with check := some w.shutdownRequested }))
    (hinv : w.Inv) (hA : A w) :
  Keeps faults t (loadShutdownRequested >>= f) Q ctl w
  := by
  intro w₁ hrely
  have hinv₁ := hrely.inv hinv
  have hguard : Guard faults t w₁ (.inl (.inl .loadShutdownRequested)) := trivial
  use ⟨hinv₁, hguard⟩
  intro a w₂ hcall
  have hinv₂ := hinv₁.step hguard hcall
  cases hcall with
  | loadShutdownRequested => apply hf w₁ (hstable w w₁ hrely hA) hinv₂

/-- A program that ends where the thread is done. -/
theorem keeps_done {a : α} (h : Done t ctl w) :
  Keeps faults t (pure a) (fun _ ctl' w => Done t ctl' w) ctl w
  := by
  apply keeps_pure
  exact fun w' hrely => h.rely hrely

/-- A child that cannot be left alone is killed and waited for, or it is kept. -/
theorem keeps_abandonChild {pid : ℤ} {restoreError : OsError} (h : HasForked t pid ctl w) :
  Keeps faults t (abandonChild pid restoreError) (fun _ ctl' w => Done t ctl' w) ctl w
  := by
  unfold abandonChild
  apply keeps_bind
  apply keeps_mono _ (keeps_killChild (fun _ _ => HasForked.rely) (fun _ => HasForked.refers) h.inv h)
  rintro (error | _) ctl' w ⟨rfl, h⟩
  · apply keeps_set_bind
    apply keeps_done (h.own _)
  · apply keeps_bind
    apply keeps_mono _ (keeps_awaitChild (fun _ _ => HasForked.rely) (fun _ _ => Done.rely)
      (fun _ => HasForked.refers) (fun _ h => h.inv) _ h)
    · exact ctl'
    · rintro (error | _) ctl'' w ⟨rfl, h⟩
      · apply keeps_set_bind
        apply keeps_done (h.own _)
      · apply keeps_done h
    · intro w n waitStatus children life h hreaps hinv
      apply h.reap hreaps hinv

/-- A daemon is forked where the controller runs no child. -/
theorem keeps_forkDaemon {path : Bytes} {argv : List Bytes} {originalMask : SignalSet}
    (h : Ready t ctl w) :
  Keeps faults t (forkDaemon path argv originalMask) (fun _ ctl' w => Done t ctl' w) ctl w
  := by
  unfold forkDaemon
  apply keeps_posix (fun _ _ => Ready.rely) _ _ h.holds.inv h
  · intro w h
    exact ⟨(h.holds.nobody h.idle).2, h.cleared⟩
  intro w₁ a w₂ h₁ hstep hinv
  cases hstep with
  | posix hquiet => cases hquiet
  | forkFails =>
    apply keeps_quiet rfl (fun _ _ => Ready.rely) _ _ hinv h₁
    · intro _ _
      trivial
    rintro w (error | mask) _ h
    · apply keeps_done h.holds.toDone
    · apply keeps_done h.holds.toDone
  | fork hfresh =>
    apply keeps_quiet rfl (fun _ _ => HasForked.rely) _ _ hinv (h₁.fork hfresh hinv)
    · intro _ _
      trivial
    rintro w (error | mask) _ h
    · apply keeps_abandonChild h
    · apply keeps_set_bind
      apply keeps_done (h.own _)

theorem keeps_prepareShutdownSignals (h : Ready t ctl w) :
  Keeps faults t prepareShutdownSignals (fun _ ctl' w => ctl' = ctl ∧ Ready t ctl w) ctl w
  := by
  have hpure : ∀ {w : Host Tid} (r : Except OsError SignalSet), Ready t ctl w →
      Keeps faults t (pure r) (fun _ ctl' w => ctl' = ctl ∧ Ready t ctl w) ctl w := by
    intro w r h
    apply keeps_pure
    intro w' hrely
    exact ⟨rfl, h.rely hrely⟩
  unfold prepareShutdownSignals
  apply keeps_quiet rfl (fun _ _ => Ready.rely) _ _ h.holds.inv h
  · intro _ _
    trivial
  rintro w (error | _) _ h
  · apply hpure _ h
  · apply keeps_quiet rfl (fun _ _ => Ready.rely) _ _ h.holds.inv h
    · intro _ _
      trivial
    rintro w (error | _) _ h
    · apply hpure _ h
    · apply keeps_quiet rfl (fun _ _ => Ready.rely) _ _ h.holds.inv h
      · intro _ _
        trivial
      rintro w (error | _) _ h
      · apply hpure _ h
      · apply hpure _ h

theorem keeps_launch {executablePath : Bytes} {args : List Bytes} (h : Ready t ctl w) :
  Keeps faults t (launch executablePath args) (fun _ ctl' w => Done t ctl' w) ctl w
  := by
  unfold launch
  apply keeps_bind
  apply keeps_mono _ (keeps_prepareShutdownSignals h)
  rintro (error | shutdownSignals) ctl' w ⟨rfl, h⟩
  · apply keeps_done h.holds.toDone
  · apply keeps_quiet rfl (fun _ _ => Ready.rely) _ _ h.holds.inv h
    · intro _ _
      trivial
    rintro w (error | _) _ h
    · apply keeps_done h.holds.toDone
    · apply keeps_quiet rfl (fun _ _ => Ready.rely) _ _ h.holds.inv h
      · intro _ _
        trivial
      rintro w (error | originalMask) _ h
      · apply keeps_done h.holds.toDone
      · apply keeps_forkDaemon h

/-- The thread has read the flag. -/
theorem Holds.check (h : Holds t ctl w)
    (hinv : Inv (w.note t fun trace => { trace with check := some w.shutdownRequested })) :
  Holds t ctl (w.note t fun trace => { trace with check := some w.shutdownRequested })
  := ⟨⟨hinv, h.mutex, h.tracks, h.recorded⟩, h.synced⟩

/-- The flag is read: a shutdown is requested, or nobody has forked after a request. -/
theorem keeps_gate {f : Bool → PosixLocked α} (h : Holds t ctl w)
    (hrequested : ∀ w : Host Tid, Holds t ctl w → Keeps faults t (f true) Q ctl w)
    (hcleared : ∀ w : Host Tid, Holds t ctl w → Cleared t w → Keeps faults t (f false) Q ctl w) :
  Keeps faults t (loadShutdownRequested >>= f) Q ctl w
  := by
  apply keeps_loadShutdownRequested (fun _ _ => Holds.rely) _ h.inv h
  intro w h hinv
  have hchecked := h.check hinv
  cases hflag : w.shutdownRequested with
  | true =>
    rw [hflag] at hchecked
    apply hrequested _ hchecked
  | false =>
    have hclear : Cleared t (w.note t fun trace =>
        { trace with check := some w.shutdownRequested }) := by
      refine ⟨h.mutex, ?_, ?_, h.inv.early hflag⟩
      · rw [note_trace_self, hflag]
      · intro htrue
        cases hflag.symm.trans htrue
    rw [hflag] at hchecked hclear
    apply hcleared _ hchecked hclear

/-- A start leaves the controller with the child it has forked, if it has not been reaped. -/
theorem keeps_startUnlocked {executablePath : Bytes} {args : List Bytes} (h : Holds t ctl w) :
  Keeps faults t (startUnlocked executablePath args) (fun _ ctl' w => Done t ctl' w) ctl w
  := by
  unfold startUnlocked
  apply keeps_gate h
  · intro w h
    apply keeps_done h.toDone
  · intro w h hcleared
    apply keeps_bind
    apply keeps_mono _ (keeps_reapExitedUnlocked h)
    rintro _ ctl w h
    apply keeps_get
    split
    · apply keeps_done h.holds.toDone
    · rename_i hstate
      apply keeps_launch ⟨h.holds, h.cleared hcleared, hstate⟩

/-- A restart stops and starts. -/
theorem keeps_restartUnlocked {executablePath : Bytes} {args : List Bytes} {timeout : ℤ}
    (h : Holds t ctl w) :
  Keeps faults t ((processController executablePath args).restartUnlocked timeout)
    (fun _ ctl' w => Done t ctl' w) ctl w
  := by
  unfold Platform.restartUnlocked
  apply keeps_gate h
  · exact fun _ h => keeps_done h.toDone
  · intro w h _
    apply keeps_bind
    apply keeps_mono _ (keeps_stopUnlocked h)
    rintro (message | _) ctl w ⟨h, -⟩
    · apply keeps_done h.toDone
    · apply keeps_gate h
      · exact fun _ h => keeps_done h.toDone
      · exact fun _ h _ => keeps_startUnlocked h

end Host

end OpcuaServer
