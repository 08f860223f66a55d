import OpcuaServer.Supervisor.LaunchSystem
import OpcuaServer.Supervisor.LockedRules

/-!
# Rules for a launch

The contract of the calling thread and of the child, and the rules by which `StartUnlocked` keeps to
it: it forks while the shutdown signals are blocked, and the child sets the original mask and
executes the daemon once it has taken the default actions.
-/

namespace OpcuaServer

open Forking Signal Signals

namespace Launch

/-- What a thread of a launch relies on: the calling thread on its mask and on being the only one
that forks, the child on its own mask and actions. -/
def Rely : Side → Launch → Launch → Prop
  | .parent, w, w' =>
      w'.mask = w.mask ∧ w'.restoreFailed = w.restoreFailed ∧ (w.child = none → w'.child = none)
  | .child, w, w' =>
      w'.child.map (fun p => (p.mask, p.action)) = w.child.map fun p => (p.mask, p.action)

/-- The child has the default actions for the signals. -/
def Defaulted (D : SignalSet) (w : Launch) : Prop :=
  ∀ p, w.child = some p → ∀ s ∈ D, p.action s = .default

/-- The child has the original mask and the default actions. -/
def Handed (originalMask : SignalSet) (w : Launch) : Prop :=
  ∀ p, w.child = some p → Restored shutdownSignals originalMask p

/-- Where the threads of a launch make their calls. -/
def Guard (originalMask : SignalSet) : Side → LaunchCall → Launch → Prop
  | .parent, .inl .loadShutdownRequested, _ => True
  | .parent, .inr (.pthreadSigmask _ _), _ => True
  | .parent, .inr .fork, w => shutdownSignals ⊆ w.mask ∧ w.child = none
  | .parent, .inr (.kill _ s), w => s = sigKill ∧ w.restoreFailed = true
  | .parent, .inr call, _ => quiet call = true
  | .child, .inr (.sigaction _), _ => True
  | .child, .inr (.sigprocmask set), w => set = originalMask ∧ w.Defaulted shutdownSignals
  | .child, .inr (.execv _ _), w => w.Handed originalMask
  | .child, .inr (.exit code), _ => code = 126 ∨ code = 127
  | _, _, _ => False

/-- What the threads of a launch return with: the child does not return. -/
def Post (originalMask : SignalSet) : Side → Status × Controller → Launch → Prop
  | .parent, _, w => w.mask = originalMask ∨ w.restoreFailed = true
  | .child, _, _ => False

/-- The contract of the threads of a launch. -/
def contract (originalMask : SignalSet) : Contract Side LaunchCall Launch (Status × Controller) where
  rely := Rely
  guard := Guard originalMask
  post := Post originalMask

/-! ### The contract is respected -/

/-- A signal that is sent leaves the mask and the actions of the child as they are. -/
theorem signal_child (w : Launch) (pid : ℤ) (s : Signal) :
  (w.signal pid s).child.map (fun p => (p.mask, p.action)) = w.child.map fun p => (p.mask, p.action)
  := by
  rw [signal]
  split
  · cases w.child <;> rfl
  · rfl

/-- A signal that is delivered leaves the mask and the actions of the child as they are. -/
theorem deliver_setup (p : Process Signal) (s : Signal) :
  ((p.deliver sigKill s).mask, (p.deliver sigKill s).action) = (p.mask, p.action)
  := by
  rw [Process.deliver]
  split <;> rfl

theorem rely_env {l : Option Side} {u : Side} {w w' : Launch} (h : Env l w w') :
  Rely u w w'
  := by
  cases h with
  | @send _ p s _ hp _ =>
    cases u with
    | parent => exact ⟨rfl, rfl, fun hnone => nomatch hp.symm.trans hnone⟩
    | child =>
      rw [Rely, hp]
      rfl
  | @deliver _ p s hp _ _ =>
    cases u with
    | parent => exact ⟨rfl, rfl, fun hnone => nomatch hp.symm.trans hnone⟩
    | child =>
      rw [Rely, hp]
      apply congrArg some (deliver_setup p s)

theorem rely_step {t u : Side} {call : LaunchCall} {w w' : Launch} {a : LaunchAnswer call}
    (hne : u ≠ t) (h : Step t call w a w') :
  Rely u w w'
  := by
  cases u with
  | parent =>
    cases h with
    | sigactionFails | sigprocmaskFails | execvFails => exact ⟨rfl, rfl, id⟩
    | sigaction hacts | sigprocmask hacts =>
      exact ⟨rfl, rfl, fun hnone => nomatch hacts.1.symm.trans hnone⟩
    | _ => cases hne rfl
  | child =>
    cases h with
    | kill => apply signal_child
    | loadShutdownRequested | quiet | pthreadSigmaskFails | pthreadSigmask | forkFails |
      killFails => rfl
    | _ => cases hne rfl

theorem rely_leave {t u : Side} {call : LaunchCall} {w w' : Launch} (hne : u ≠ t)
    (h : Leave t call w w') :
  Rely u w w'
  := by
  cases u with
  | parent =>
    cases h with
    | execv hacts | exit hacts => exact ⟨rfl, rfl, fun hnone => nomatch hacts.1.symm.trans hnone⟩
  | child =>
    cases h with
    | execv | exit => cases hne rfl

theorem respects (action : Signal → Action) (originalMask : SignalSet) :
  Respects (launching action) (contract originalMask)
  where
  refl t w := by
    cases t with
    | parent => exact ⟨rfl, rfl, id⟩
    | child => rfl
  trans t w₁ w₂ w₃ h₁ h₂ := by
    cases t with
    | parent =>
      exact ⟨h₂.1.trans h₁.1, h₂.2.1.trans h₁.2.1, fun hnone => h₂.2.2 (h₁.2.2 hnone)⟩
    | child => apply Eq.trans h₂ h₁
  step hne _ h := rely_step hne h
  fork {_ _ u _ _ _ _ _} hne hne' _ h := by
    cases h with
    | fork =>
      cases u with
      | parent => cases hne rfl
      | child => cases hne' rfl
  leave hne _ h := rely_leave hne h
  env := rely_env

/-! ### Assertions -/

/-- The child has not been forked, and the calling thread has the mask. -/
def Alone (mask : SignalSet) (x : Side × Launch) : Prop :=
  x.1 = .parent ∧ x.2.mask = mask ∧ x.2.child = none

/-- The calling thread goes on, and could not set its mask again. -/
def Stranded (x : Side × Launch) : Prop :=
  x.1 = .parent ∧ x.2.restoreFailed = true

/-- The child goes on. -/
def InChild (A : Launch → Prop) (x : Side × Launch) : Prop :=
  x.1 = .child ∧ A x.2

variable {originalMask mask : SignalSet}

/-- The assertion is preserved by the moves of the other thread. -/
def Stable (originalMask : SignalSet) (A : Side × Launch → Prop) : Prop :=
  ∀ x y, (contract originalMask).View x y → A x → A y

theorem stable_alone :
  Stable originalMask (Alone mask)
  := by
  rintro ⟨_, w⟩ ⟨_, w'⟩ ⟨rfl, hrely⟩ ⟨rfl, hmask, hnone⟩
  exact ⟨rfl, hrely.1.trans hmask, hrely.2.2 hnone⟩

theorem stable_stranded :
  Stable originalMask Stranded
  := by
  rintro ⟨_, w⟩ ⟨_, w'⟩ ⟨rfl, hrely⟩ ⟨rfl, hfailed⟩
  exact ⟨rfl, hrely.2.1.trans hfailed⟩

/-- What is known of the mask and the actions of the child stays true. -/
theorem stable_inChild {P : SignalSet → (Signal → Action) → Prop} :
  Stable originalMask (InChild fun w => ∀ p, w.child = some p → P p.mask p.action)
  := by
  rintro ⟨_, w⟩ ⟨_, w'⟩ ⟨rfl, hrely⟩ ⟨rfl, hP⟩
  use rfl
  intro p' hp'
  change Option.map _ _ = _ at hrely
  dsimp only at hrely hp' hP
  rw [hp'] at hrely
  obtain ⟨p, hp, hsetup⟩ := Option.map_eq_some_iff.mp hrely.symm
  obtain ⟨hmask, haction⟩ := Prod.mk.inj hsetup
  rw [← hmask, ← haction]
  apply hP p hp

theorem stable_defaulted {D : SignalSet} :
  Stable originalMask (InChild (Defaulted D))
  := stable_inChild (P := fun _ action => ∀ s ∈ D, action s = .default)

theorem stable_handed :
  Stable originalMask (InChild (Handed originalMask))
  := stable_inChild (P := fun mask action => mask = originalMask ∧
      ∀ s ∈ shutdownSignals, action s = .default)

/-! ### Calls -/

/-- A program that has locked the mutex of a controller keeps to the contract of a launch. -/
def KeepsTo {α : Type} (action : Signal → Action) (originalMask : SignalSet) (p : PosixLocked α)
    (Q : α → Side × Launch → Prop) (self : Controller) (x : Side × Launch) : Prop :=
  Locked.Keeps (Follow (launching action)) (contract originalMask).View
    (contract originalMask).Guard p (fun a _ x => Q a x) self x

variable {α β : Type} {action : Signal → Action} {self : Controller} {x : Side × Launch}
  {A : Side × Launch → Prop}

theorem keeps_mono {p : PosixLocked α} {Q Q' : α → Side × Launch → Prop}
    (hQ : ∀ a x, Q a x → Q' a x) (h : KeepsTo action originalMask p Q self x) :
  KeepsTo action originalMask p Q' self x
  := Locked.Keeps.mono (fun a _ x => hQ a x) h

theorem keeps_pure {a : α} {Q : α → Side × Launch → Prop} (hstable : Stable originalMask (Q a))
    (h : Q a x) :
  KeepsTo action originalMask (pure a) Q self x
  := Locked.keeps_pure fun y hview => hstable x y hview h

theorem keeps_bind {p : PosixLocked β} {f : β → PosixLocked α} {Q : α → Side × Launch → Prop}
    (h : ∀ self, KeepsTo action originalMask p
      (fun b x => ∀ self, KeepsTo action originalMask (f b) Q self x) self x) :
  KeepsTo action originalMask (p >>= f) Q self x
  := by
  apply Locked.keeps_bind (view_refl (respects action originalMask))
  apply (h self).mono
  exact fun b self x hf => hf self

/-- A call of the system. -/
theorem keeps_call {call : PosixCall} {f : call.Answer → PosixLocked α}
    {Q : α → Side × Launch → Prop} (hstable : Stable originalMask A) (hA : A x)
    (h : ∀ x, A x → Guard originalMask x.1 (.inr call) x.2 ∧
      ∀ a y, Follow (launching action) (.inr call) x a y →
        KeepsTo action originalMask (f a) Q self y) :
  KeepsTo action originalMask (Controller.posix call >>= f) Q self x
  := Locked.keeps_systemCall fun y hview => h y (hstable x y hview hA)

/-- A call of the system that forks no child. -/
theorem keeps_single {call : PosixCall} {f : call.Answer → PosixLocked α}
    {Q : α → Side × Launch → Prop} (hstable : Stable originalMask A) (hA : A x) (hcall : call ≠ .fork)
    (h : ∀ t w, A (t, w) → Guard originalMask t (.inr call) w ∧
      ∀ a w', Step t (.inr call) w a w' → KeepsTo action originalMask (f a) Q self (t, w')) :
  KeepsTo action originalMask (Controller.posix call >>= f) Q self x
  := by
  apply keeps_call hstable hA
  rintro ⟨t, w⟩ hA
  use (h t w hA).1
  intro a y hfollow
  cases hfollow with
  | step hstep => apply (h t w hA).2 a _ hstep
  | parent hfork | child hfork =>
    cases hfork
    apply absurd rfl hcall

/-- A call of the calling thread that affects neither the mask nor the child. -/
theorem keeps_quiet {call : PosixCall} (hquiet : quiet call = true)
    {f : call.Answer → PosixLocked α} {Q : α → Side × Launch → Prop}
    (hstable : Stable originalMask A) (hparent : ∀ x, A x → x.1 = .parent) (hA : A x)
    (h : ∀ a x, A x → KeepsTo action originalMask (f a) Q self x) :
  KeepsTo action originalMask (Controller.posix call >>= f) Q self x
  := by
  apply keeps_single hstable hA
  · rintro rfl
    cases hquiet
  intro t w hA
  obtain rfl : t = .parent := hparent _ hA
  constructor
  · cases call with
    | sigemptyset | sigaddset | waitpid | now | sleepFor => rfl
    | _ => cases hquiet
  · intro a w' hstep
    cases hstep with
    | quiet => apply h a _ hA
    | _ => cases hquiet

/-- The child comes to a call that does not come back. -/
theorem keeps_exit {code : Int32} (hcode : code = 126 ∨ code = 127) {P : Launch → Prop}
    {f : Empty → PosixLocked α} {Q : α → Side × Launch → Prop}
    (hstable : Stable originalMask (InChild P)) (hP : InChild P x) :
  KeepsTo action originalMask (Controller.posix (.exit code) >>= f) Q self x
  := by
  apply keeps_single hstable hP
  · rintro ⟨⟩
  rintro _ w ⟨rfl, _⟩
  use hcode
  intro a
  cases a

/-! ### The child -/

/-- The child installs the default action for a signal, or fails to. -/
theorem keeps_sigaction {D : SignalSet} {s : Signal} {f : Except OsError Unit → PosixLocked α}
    {Q : α → Side × Launch → Prop} (h : InChild (Defaulted D) x)
    (hfails : ∀ error x, InChild (Defaulted D) x →
      KeepsTo action originalMask (f (.error error)) Q self x)
    (hok : ∀ x, InChild (Defaulted (insert s D)) x →
      KeepsTo action originalMask (f (.ok ())) Q self x) :
  KeepsTo action originalMask (Controller.posix (.sigaction s) >>= f) Q self x
  := by
  apply keeps_single stable_defaulted h
  · rintro ⟨⟩
  rintro _ w ⟨rfl, h⟩
  use trivial
  intro a w' hstep
  cases hstep with
  | sigactionFails => apply hfails _ _ ⟨rfl, h⟩
  | @sigaction _ p _ hacts =>
    apply hok
    use rfl
    rintro _ ⟨⟩ s' hs'
    change Function.update p.action s .default s' = .default
    by_cases heq : s' = s
    · rw [heq, Function.update_self]
    · rw [Function.update_of_ne heq]
      apply h p hacts.1 s' (Finset.mem_of_mem_insert_of_ne hs' heq)

/-- The child sets the original mask after it has taken the default actions, or fails to. -/
theorem keeps_sigprocmask {f : Except OsError Unit → PosixLocked α}
    {Q : α → Side × Launch → Prop} (h : InChild (Defaulted shutdownSignals) x)
    (hfails : ∀ error x, InChild (Defaulted shutdownSignals) x →
      KeepsTo action originalMask (f (.error error)) Q self x)
    (hok : ∀ x, InChild (Handed originalMask) x →
      KeepsTo action originalMask (f (.ok ())) Q self x) :
  KeepsTo action originalMask (Controller.posix (.sigprocmask originalMask) >>= f) Q self x
  := by
  apply keeps_single stable_defaulted h
  · rintro ⟨⟩
  rintro _ w ⟨rfl, h⟩
  use ⟨rfl, h⟩
  intro a w' hstep
  cases hstep with
  | sigprocmaskFails => apply hfails _ _ ⟨rfl, h⟩
  | @sigprocmask _ p _ hacts =>
    apply hok
    use rfl
    rintro _ ⟨⟩
    exact ⟨rfl, h p hacts.1⟩

/-- The child executes the daemon, or fails to. -/
theorem keeps_execv {path : Bytes} {argv : List Bytes} {f : OsError → PosixLocked α}
    {Q : α → Side × Launch → Prop} (h : InChild (Handed originalMask) x)
    (hfails : ∀ error x, InChild (Handed originalMask) x →
      KeepsTo action originalMask (f error) Q self x) :
  KeepsTo action originalMask (Controller.posix (.execv path argv) >>= f) Q self x
  := by
  apply keeps_single stable_handed h
  · rintro ⟨⟩
  rintro _ w ⟨rfl, h⟩
  use h
  intro a w' hstep
  cases hstep with
  | execvFails => apply hfails _ _ ⟨rfl, h⟩

/-- The child exits, or sets the original mask after it has taken the default actions and executes
the daemon. -/
theorem keeps_runChild {path : Bytes} {argv : List Bytes} {Q : Status → Side × Launch → Prop}
    (h : InChild (Defaulted ∅) x) :
  KeepsTo action originalMask (Controller.runChild path argv originalMask) Q self x
  := by
  unfold Controller.runChild
  apply keeps_sigaction h
  · intro error x h
    apply keeps_exit (.inl rfl) stable_defaulted h
  intro x h
  apply keeps_sigaction h
  · intro error x h
    apply keeps_exit (.inl rfl) stable_defaulted h
  intro x h
  rw [LawfulSingleton.insert_empty_eq, Finset.pair_comm] at h
  apply keeps_sigprocmask h
  · intro error x h
    apply keeps_exit (.inl rfl) stable_defaulted h
  intro x h
  apply keeps_execv h
  intro error x h
  apply keeps_exit (.inr rfl) stable_handed h

/-! ### The calling thread -/

/-- What a launch returns with. -/
def Returns (originalMask : SignalSet) (_ : Status) (x : Side × Launch) : Prop :=
  x.1 = .parent ∧ (x.2.mask = originalMask ∨ x.2.restoreFailed = true)

theorem stable_returns {status : Status} :
  Stable originalMask (Returns originalMask status)
  := by
  rintro ⟨_, w⟩ ⟨_, w'⟩ ⟨rfl, hrely⟩ ⟨rfl, hreturns⟩
  use rfl
  rw [hrely.1, hrely.2.1]
  apply hreturns

theorem Stranded.returns (h : Stranded x) (status : Status) :
  Returns originalMask status x
  := ⟨h.1, .inr h.2⟩

theorem Alone.returns (h : Alone originalMask x) (status : Status) :
  Returns originalMask status x
  := ⟨h.1, .inl h.2.1⟩

/-- The calling thread, which could not set its mask again, kills the child. -/
theorem keeps_killChild {pid : ℤ} (h : Stranded x) :
  KeepsTo action originalMask (Controller.killChild pid sigKill) (fun _ => Stranded) self x
  := by
  unfold Controller.killChild
  apply keeps_single stable_stranded h
  · rintro ⟨⟩
  rintro _ w ⟨rfl, h⟩
  use ⟨rfl, h⟩
  intro a w' hstep
  cases hstep with
  | quiet hquiet => cases hquiet
  | killFails => apply keeps_pure stable_stranded ⟨rfl, h⟩
  | kill =>
    apply keeps_pure stable_stranded
    use rfl
    change (w.signal pid sigKill).restoreFailed = true
    rw [signal]
    split
    · apply h
    · apply h

/-- The calling thread waits for the child. -/
theorem keeps_awaitChild {reaper : Reaper} {pid : ℤ} (h : Stranded x) :
  KeepsTo action originalMask (Locked.repeatUntil (Controller.awaitChild reaper pid) ())
    (fun _ => Stranded) self x
  := by
  have hresp := respects action originalMask
  have hbody : ∀ self x, Stranded x →
      KeepsTo action originalMask (Controller.awaitChild reaper pid ()) (fun _ => Stranded)
        self x := by
    intro self x h
    unfold Controller.awaitChild
    apply keeps_quiet rfl stable_stranded (fun _ h => h.1) h
    rintro (error | _ | _) x h
    · dsimp only
      split_ifs
      · apply keeps_pure stable_stranded h
      · apply keeps_pure stable_stranded h
      · apply keeps_pure stable_stranded h
    · apply keeps_pure stable_stranded h
    · apply keeps_pure stable_stranded h
  apply Locked.keeps_repeatUntil (view_refl hresp) (view_trans hresp) fun _ _ => Stranded
  · exact fun _ _ => stable_stranded
  · apply h
  · intro _ self x h
    apply (hbody self x h).mono
    rintro (_ | a) self x h
    · apply h
    · intro y hview
      apply stable_stranded x y hview h

/-- The calling thread, which could not set its mask again, abandons the child. -/
theorem keeps_abandonChild {pid : ℤ} {restoreError : OsError} (h : Stranded x) :
  KeepsTo action originalMask (Controller.abandonChild pid restoreError) (Returns originalMask)
    self x
  := by
  unfold Controller.abandonChild
  apply keeps_bind
  intro self
  apply keeps_mono _ (keeps_killChild h)
  rintro (error | _) x h self
  · apply Locked.keeps_set_bind
    apply keeps_pure stable_returns (h.returns _)
  apply keeps_bind
  intro self
  apply keeps_mono _ (keeps_awaitChild h)
  rintro (error | _) x h self
  · apply Locked.keeps_set_bind
    apply keeps_pure stable_returns (h.returns _)
  · apply keeps_pure stable_returns (h.returns _)

/-- The calling thread sets its mask again. -/
theorem keeps_restore {f : Except OsError SignalSet → PosixLocked Status} (h : x.1 = .parent)
    (hfails : ∀ error x, Stranded x →
      KeepsTo action originalMask (f (.error error)) (Returns originalMask) self x)
    (hok : ∀ old x, x.1 = .parent ∧ x.2.mask = originalMask →
      KeepsTo action originalMask (f (.ok old)) (Returns originalMask) self x) :
  KeepsTo action originalMask (Controller.posix (.pthreadSigmask .setMask originalMask) >>= f)
    (Returns originalMask) self x
  := by
  have hstable : Stable originalMask fun x => x.1 = .parent :=
    fun _ _ hview h => hview.1.trans h
  apply keeps_single hstable h
  · rintro ⟨⟩
  rintro _ w rfl
  use trivial
  intro a w' hstep
  cases hstep with
  | quiet hquiet => cases hquiet
  | pthreadSigmaskFails =>
    apply hfails
    exact ⟨rfl, Bool.or_true _⟩
  | pthreadSigmask =>
    apply hok
    exact ⟨rfl, rfl⟩

/-- The child is forked while the shutdown signals are blocked. -/
theorem keeps_forkDaemon {path : Bytes} {argv : List Bytes} (hmask : shutdownSignals ⊆ mask)
    (h : Alone mask x) :
  KeepsTo action originalMask (Controller.forkDaemon path argv originalMask)
    (Returns originalMask) self x
  := by
  unfold Controller.forkDaemon
  apply keeps_call stable_alone h
  rintro ⟨_, w⟩ ⟨rfl, hw, hnone⟩
  use ⟨hw ▸ hmask, hnone⟩
  intro a y hfollow
  cases hfollow with
  | step hstep =>
    cases hstep with
    | quiet hquiet => cases hquiet
    | forkFails =>
      apply keeps_restore rfl
      · intro error x h
        apply keeps_pure stable_returns (h.returns _)
      · rintro old x ⟨hparent, hmask⟩
        apply keeps_pure stable_returns ⟨hparent, .inl hmask⟩
  | parent hfork =>
    cases hfork
    apply keeps_restore rfl
    · intro error x h
      apply keeps_abandonChild h
    · rintro old x ⟨hparent, hmask⟩
      apply Locked.keeps_set_bind
      apply keeps_pure stable_returns ⟨hparent, .inl hmask⟩
  | child hfork =>
    cases hfork
    apply keeps_runChild
    use rfl
    intro p _ s hs
    cases hs

/-- The child has not been forked, and the set, if there is one, is that of the shutdown signals. -/
def Prepared (mask : SignalSet) (r : Except OsError SignalSet) (x : Side × Launch) : Prop :=
  Alone mask x ∧ ∀ set, r = .ok set → set = shutdownSignals

theorem stable_prepared {r : Except OsError SignalSet} :
  Stable originalMask (Prepared mask r)
  := fun x y hview h => ⟨stable_alone x y hview h.1, h.2⟩

/-- The set of the shutdown signals is prepared. -/
theorem keeps_prepareShutdownSignals (h : Alone mask x) :
  KeepsTo action originalMask Controller.prepareShutdownSignals (Prepared mask) self x
  := by
  have hfails : ∀ {self x} (error : OsError), Alone mask x →
      KeepsTo action originalMask (pure (.error error)) (Prepared mask) self x := by
    intro self x error h
    apply keeps_pure stable_prepared
    use h
    rintro _ ⟨⟩
  unfold Controller.prepareShutdownSignals
  apply keeps_quiet rfl stable_alone (fun _ h => h.1) h
  rintro (error | _) x h
  · apply hfails error h
  apply keeps_quiet rfl stable_alone (fun _ h => h.1) h
  rintro (error | _) x h
  · apply hfails error h
  apply keeps_quiet rfl stable_alone (fun _ h => h.1) h
  rintro (error | _) x h
  · apply hfails error h
  · apply keeps_pure stable_prepared
    use h
    rintro _ ⟨⟩
    rfl

/-- The calling thread blocks the shutdown signals, and learns what its mask was. -/
theorem keeps_launch {executablePath : Bytes} {args : List Bytes} (h : Alone originalMask x) :
  KeepsTo action originalMask (Controller.launch executablePath args) (Returns originalMask) self x
  := by
  unfold Controller.launch
  apply keeps_bind
  intro self
  apply keeps_mono _ (keeps_prepareShutdownSignals h)
  rintro (error | set) x ⟨h, hset⟩ self
  · apply keeps_pure stable_returns (h.returns _)
  obtain rfl := hset set rfl
  apply keeps_quiet rfl stable_alone (fun _ h => h.1) h
  rintro (error | _) x h
  · apply keeps_pure stable_returns (h.returns _)
  apply keeps_single stable_alone h
  · rintro ⟨⟩
  rintro _ w ⟨rfl, hw, hnone⟩
  use trivial
  intro a w' hstep
  cases hstep with
  | quiet hquiet => cases hquiet
  | pthreadSigmaskFails =>
    apply keeps_pure stable_returns
    exact ⟨rfl, .inl hw⟩
  | pthreadSigmask =>
    dsimp only at hw hnone
    subst hw
    have hmask : shutdownSignals ⊆ w.mask ∪ shutdownSignals := Finset.subset_union_right
    apply keeps_forkDaemon hmask
    exact ⟨rfl, rfl, hnone⟩

/-- A daemon that has exited is reaped. -/
theorem keeps_reapExitedUnlocked (h : Alone mask x) :
  KeepsTo action originalMask Controller.reapExitedUnlocked (fun _ => Alone mask) self x
  := by
  have hpure : ∀ {self x}, Alone mask x →
      KeepsTo action originalMask (pure ()) (fun _ => Alone mask) self x :=
    fun h => keeps_pure (Q := fun _ => Alone mask) stable_alone h
  have hset : ∀ {self x fields}, Alone mask x →
      KeepsTo action originalMask (set fields) (fun _ => Alone mask) self x :=
    fun {_ x _} h => Locked.keeps_set fun y hview => stable_alone x y hview h
  unfold Controller.reapExitedUnlocked
  apply Locked.keeps_get
  split_ifs
  · apply hpure h
  · apply hpure h
  apply keeps_quiet rfl stable_alone (fun _ h => h.1) h
  rintro (error | _ | ⟨pid, status⟩) x h
  · dsimp only
    split_ifs
    · apply hset h
    · apply hpure h
  · apply hpure h
  · dsimp only
    split_ifs
    · apply hset h
    · apply hpure h

/-- `StartUnlocked` keeps to the contract of a launch. -/
theorem keeps_startUnlocked {executablePath : Bytes} {args : List Bytes}
    (h : Alone originalMask x) :
  KeepsTo action originalMask (Controller.startUnlocked executablePath args)
    (Returns originalMask) self x
  := by
  unfold Controller.startUnlocked
  apply Locked.keeps_loadShutdownRequested
  intro y hview
  have h := stable_alone x y hview h
  obtain ⟨_, w⟩ := y
  obtain ⟨rfl, hw, hnone⟩ := h
  use trivial
  intro a y hfollow
  cases hfollow with
  | step hstep =>
    cases hstep with
    | loadShutdownRequested =>
      split
      · apply keeps_pure stable_returns
        exact ⟨rfl, .inl hw⟩
      · apply keeps_bind
        intro self
        apply keeps_mono _ (keeps_reapExitedUnlocked ⟨rfl, hw, hnone⟩)
        intro _ x h self
        apply Locked.keeps_get
        split_ifs
        · apply keeps_pure stable_returns (h.returns _)
        · apply keeps_launch h
  | parent hfork | child hfork => cases hfork

end Launch

end OpcuaServer
