import OpcuaServer.Supervisor.LockedRules
import OpcuaServer.Supervisor.WindowsSystem

/-!
# What the functions of the controller do on Windows

Between two operations the members track the handles and the processes
(`WindowsController.Tracks`), and so they do after each of the functions that run under the mutex,
whatever the system answers to their calls.
-/

namespace OpcuaServer

open WindowsController

/-! ### Processes that end -/

namespace WindowsProcess

theorem Ages.refl (p : WindowsProcess) :
  Ages p p
  := ⟨rfl, .inr rfl⟩

theorem Ages.trans {p₁ p₂ p₃ : WindowsProcess} (h : Ages p₁ p₂) (h' : Ages p₂ p₃) :
  Ages p₁ p₃
  := by
  refine ⟨h'.terminated.trans h.terminated, ?_⟩
  rcases h.ended with hnone | heq
  · exact .inl hnone
  · rw [← heq]
    apply h'.ended

/-- A process has not ended before it was alive. -/
theorem Ages.ended_eq_none {p p' : WindowsProcess} (h : Ages p p') (hended : p'.ended = none) :
  p.ended = none
  := by
  rcases h.ended with hnone | heq
  · apply hnone
  · rw [← heq]
    apply hended

theorem Ages.endsAsTold {p p' : WindowsProcess} (h : Ages p p') (hends : p'.EndsAsTold) :
  p.EndsAsTold
  := by
  obtain ⟨code, hterminated, hended⟩ := hends
  refine ⟨code, h.terminated.symm.trans hterminated, ?_⟩
  rcases h.ended with hnone | heq
  · exact .inl hnone
  · rw [← heq]
    apply hended

end WindowsProcess

namespace WindowsHost

variable {faults : ReapFaults} {w w' : WindowsHost}

theorem Rely.refl (w : WindowsHost) :
  Rely w w
  := ⟨rfl, id, rfl, fun _ p hp => ⟨p, hp, .refl p⟩, rfl, rfl⟩

theorem Rely.trans {w₁ w₂ w₃ : WindowsHost} (h : Rely w₁ w₂) (h' : Rely w₂ w₃) :
  Rely w₁ w₃
  where
  controller := h'.controller.trans h.controller
  requested := h'.requested ∘ h.requested
  length := h'.length.trans h.length
  ages n p₃ hp₃ := by
    obtain ⟨p₂, hp₂, hages'⟩ := h'.ages n p₃ hp₃
    obtain ⟨p₁, hp₁, hages⟩ := h.ages n p₂ hp₂
    exact ⟨p₁, hp₁, hages.trans hages'⟩
  handles := h'.handles.trans h.handles
  destroyed := h'.destroyed.trans h.destroyed

end WindowsHost

/-! ### The members between two operations -/

/-- All the processes have ended, unless the reap can lose one. -/
def WindowsHost.NoneAlive (faults : ReapFaults) (w : WindowsHost) : Prop :=
  ¬ faults.waitFails → ∀ (n : ℕ) (p : WindowsProcess), w.processes[n]? = some p → p.ended ≠ none

/-- All the processes but one have ended, unless the reap can lose one. -/
def WindowsHost.OnlyAlive (faults : ReapFaults) (w : WindowsHost) (n : ℕ) : Prop :=
  ¬ faults.waitFails → ∀ (m : ℕ) (p : WindowsProcess), w.processes[m]? = some p → p.ended = none → m = n

/-- The newest process does not end as a stop has told it, unless the reap can come upon that. -/
def WindowsHost.NotTold (faults : ReapFaults) (w : WindowsHost) : Prop :=
  ¬ faults.lateEnd → ∀ (n : ℕ) (p : WindowsProcess), n + 1 = w.processes.length →
    w.processes[n]? = some p → ¬ p.EndsAsTold

/-- The members know all that is open and all that is alive. -/
inductive WindowsController.Tracks (faults : ReapFaults) (ctl : WindowsController)
    (w : WindowsHost) : Prop where
  | nobody : ctl.status.state ≠ .running → ctl.processHandle = 0 → w.handles.AllClosed →
      w.NoneAlive faults → (ctl.status.state = .crashed → w.NotTold faults) → Tracks faults ctl w
  | child {n : ℕ} : ctl.status.state = .running → ctl.processHandle ≠ 0 →
      w.handles.Sole ctl.processHandle (.process n) → n + 1 = w.processes.length →
      w.OnlyAlive faults n → Tracks faults ctl w

namespace WindowsHost

variable {faults : ReapFaults} {w w' : WindowsHost} {ctl : WindowsController}

theorem NoneAlive.rely (hrely : Rely w w') (h : w.NoneAlive faults) :
  w'.NoneAlive faults
  := by
  intro hfault n p' hp' hended
  obtain ⟨p, hp, hages⟩ := hrely.ages _ p' hp'
  apply h hfault n p hp (hages.ended_eq_none hended)

theorem OnlyAlive.rely {n : ℕ} (hrely : Rely w w') (h : w.OnlyAlive faults n) :
  w'.OnlyAlive faults n
  := by
  intro hfault m p' hp' hended
  obtain ⟨p, hp, hages⟩ := hrely.ages _ p' hp'
  apply h hfault m p hp (hages.ended_eq_none hended)

theorem NotTold.rely (hrely : Rely w w') (h : w.NotTold faults) :
  w'.NotTold faults
  := by
  intro hfault n p' hn hp' hends
  obtain ⟨p, hp, hages⟩ := hrely.ages _ p' hp'
  rw [hrely.length] at hn
  apply h hfault n p hn hp (hages.endsAsTold hends)

end WindowsHost

namespace WindowsController

variable {faults : ReapFaults} {w w' : WindowsHost} {ctl : WindowsController}

open WindowsHost

theorem Tracks.rely (hrely : Rely w w') (h : ctl.Tracks faults w) :
  ctl.Tracks faults w'
  := by
  cases h with
  | nobody hstate hhandle hclosed hnone htold =>
    refine .nobody hstate hhandle ?_ (hnone.rely hrely) fun hcrashed => (htold hcrashed).rely hrely
    rw [hrely.handles]
    apply hclosed
  | child hstate hhandle hsole hn honly =>
    refine .child hstate hhandle ?_ ?_ (honly.rely hrely)
    · rw [hrely.handles]
      apply hsole
    · rw [hrely.length]
      apply hn

end WindowsController

namespace WindowsHost

/-! ### Guards -/

/-- The value of the handle that a call is made with. -/
def usedHandle : WindowsCall → Option HandleValue
  | .closeHandle handle | .terminateProcess handle _ | .waitForSingleObject _ handle _
  | .getExitCodeProcess handle => some handle
  | .createProcess _ _ | .getLastError => none

/-- What is known when an operation returns. -/
def Returns (faults : ReapFaults) (w : WindowsHost) :
    (operation : Operation) → operation.Reply → Prop
  | .destroy, _ => w.handles.AllClosed
  | .status, status => status = w.controller.status ∧ w.controller.Tracks faults w
  | _, _ => w.controller.Tracks faults w

/-- Where the calls of the client are made. -/
def Guard (faults : ReapFaults) (w : WindowsHost) :
    (ControllerCall WindowsController ⊕ WindowsCall) ⊕ SupervisorCall → Prop
  | .inl (.inr (.createProcess _ _)) => w.NoneAlive faults ∧ w.handles.AllClosed
  | .inl (.inr call) => ∀ handle, usedHandle call = some handle → w.handles.IsOpen handle
  | .inr (.returned operation reply) => Returns faults w operation reply
  | _ => True

/-- A program of the controller under its mutex keeps to the guards and ends as `Q` says. -/
abbrev Keeps {α : Type} (faults : ReapFaults) (p : WindowsLocked α)
    (Q : α → WindowsController → WindowsHost → Prop) (ctl : WindowsController) (w : WindowsHost) :
    Prop :=
  Locked.Keeps (fun call => Step faults (.inl call)) Rely (fun call w => Guard faults w (.inl call))
    p Q ctl w

variable {faults : ReapFaults} {w : WindowsHost} {ctl : WindowsController} {α : Type}
  {Q : α → WindowsController → WindowsHost → Prop}

/-- A call of the system with an open handle. -/
theorem keeps_windows {call : WindowsCall} {f : call.Answer → WindowsLocked α}
    {A : WindowsHost → Prop} (hstable : ∀ w w', Rely w w' → A w → A w')
    (hguard : ∀ w, A w → Guard faults w (.inl (.inr call)))
    (hstep : ∀ w a w', A w → Step faults (.inl (.inr call)) w a w' → Keeps faults (f a) Q ctl w')
    (hA : A w) :
  Keeps faults (windows call >>= f) Q ctl w
  := by
  apply Locked.keeps_systemCall
  intro w₁ hrely
  have hA₁ := hstable w w₁ hrely hA
  use hguard w₁ hA₁
  intro a w₂ hcall
  apply hstep w₁ a w₂ hA₁ hcall

/-- `GetLastError` changes nothing. -/
theorem keeps_getLastError {f : UInt32 → WindowsLocked α} {A : WindowsHost → Prop}
    (hstable : ∀ w w', Rely w w' → A w → A w') (hf : ∀ error w, A w → Keeps faults (f error) Q ctl w)
    (hA : A w) :
  Keeps faults (windows .getLastError >>= f) Q ctl w
  := by
  apply keeps_windows hstable _ _ hA
  · rintro w _ handle ⟨⟩
  · intro w error w' hA hstep
    cases hstep
    apply hf error w hA

theorem keeps_lastErrorMessage {context : Bytes} {A : WindowsHost → Prop}
    (hstable : ∀ w w', Rely w w' → A w → A w') (hA : A w) :
  Keeps faults (lastErrorMessage context) (fun _ ctl' w => ctl' = ctl ∧ A w) ctl w
  := by
  apply keeps_getLastError hstable _ hA
  intro error w hA
  apply Locked.keeps_pure
  exact fun w' hrely => ⟨rfl, hstable w w' hrely hA⟩

/-! ### The handle of the child -/

/-- The controller runs a process whose handle is the only open one. -/
structure Holds (faults : ReapFaults) (ctl : WindowsController) (n : ℕ) (w : WindowsHost) :
    Prop where
  running : ctl.status.state = .running
  handle : ctl.processHandle ≠ 0
  sole : w.handles.Sole ctl.processHandle (.process n)
  newest : n + 1 = w.processes.length
  only : w.OnlyAlive faults n

theorem Holds.rely {w' : WindowsHost} {n : ℕ} (hrely : Rely w w') (h : Holds faults ctl n w) :
  Holds faults ctl n w'
  := by
  refine ⟨h.running, h.handle, ?_, ?_, h.only.rely hrely⟩
  · rw [hrely.handles]
    apply h.sole
  · rw [hrely.length]
    apply h.newest

theorem Holds.tracks {n : ℕ} (h : Holds faults ctl n w) :
  ctl.Tracks faults w
  := .child h.running h.handle h.sole h.newest h.only

/-- A controller whose state is `kRunning` holds a process. -/
theorem exists_holds (h : ctl.Tracks faults w) (hstate : ctl.status.state = .running) :
  ∃ n, Holds faults ctl n w
  := by
  cases h with
  | nobody hne => apply absurd hstate hne
  | child hstate hhandle hsole hn honly => exact ⟨_, hstate, hhandle, hsole, hn, honly⟩

/-- The handle that the controller holds is open. -/
theorem Holds.isOpen {n : ℕ} (h : Holds faults ctl n w) :
  w.handles.IsOpen ctl.processHandle
  := ⟨_, h.sole.refers⟩

/-- The process that the handle refers to is the one that the controller runs. -/
theorem Holds.eq {n m : ℕ} {p : WindowsProcess} (h : Holds faults ctl n w)
    (hp : w.RefersTo ctl.processHandle m p) :
  n = m ∧ w.processes[n]? = some p
  := by
  have heq := h.sole.refers.unique hp.1
  cases heq
  exact ⟨rfl, hp.2⟩

/-- The process is no longer alive, unless the reap can lose it. -/
def Gone (faults : ReapFaults) (n : ℕ) (w : WindowsHost) : Prop :=
  ¬ faults.waitFails → ∀ p : WindowsProcess, w.processes[n]? = some p → p.ended ≠ none

/-- The process does not end as a stop has told it, unless the reap can come upon that. -/
def Untold (faults : ReapFaults) (n : ℕ) (w : WindowsHost) : Prop :=
  ¬ faults.lateEnd → ∀ p : WindowsProcess, w.processes[n]? = some p → ¬ p.EndsAsTold

theorem gone_of_imp {n : ℕ} {p : WindowsProcess} (hp : w.processes[n]? = some p)
    (h : p.ended = none → faults.waitFails) :
  Gone faults n w
  := by
  intro hfault p' hp' hended
  obtain rfl := Option.some.inj (hp.symm.trans hp')
  apply hfault (h hended)

theorem gone_of_ended {n : ℕ} {p : WindowsProcess} {code : UInt32}
    (hp : w.processes[n]? = some p) (hended : p.ended = some code) :
  Gone faults n w
  := by
  apply gone_of_imp hp
  intro hnone
  rw [hended] at hnone
  cases hnone

theorem untold_of_imp {n : ℕ} {p : WindowsProcess} (hp : w.processes[n]? = some p)
    (h : p.EndsAsTold → faults.lateEnd) :
  Untold faults n w
  := by
  intro hfault p' hp' hends
  obtain rfl := Option.some.inj (hp.symm.trans hp')
  apply hfault (h hends)

theorem Gone.rely {w' : WindowsHost} {n : ℕ} (hrely : Rely w w') (h : Gone faults n w) :
  Gone faults n w'
  := by
  intro hfault p' hp' hended
  obtain ⟨p, hp, hages⟩ := hrely.ages _ p' hp'
  apply h hfault p hp (hages.ended_eq_none hended)

theorem Untold.rely {w' : WindowsHost} {n : ℕ} (hrely : Rely w w') (h : Untold faults n w) :
  Untold faults n w'
  := by
  intro hfault p' hp' hends
  obtain ⟨p, hp, hages⟩ := hrely.ages _ p' hp'
  apply h hfault p hp (hages.endsAsTold hends)

/-- The handle of a process that is gone is closed: the members can be set accordingly. -/
theorem keeps_closeProcess (status : ProcessStatus) {n : ℕ} {f : Bool → WindowsLocked α}
    (hstate : status.state ≠ .running)
    (hf : ∀ closed w, Tracks faults { status, processHandle := 0 } w → Keeps faults (f closed) Q ctl w)
    (h : Holds faults ctl n w) (hgone : Gone faults n w)
    (huntold : status.state = .crashed → Untold faults n w) :
  Keeps faults (windows (.closeHandle ctl.processHandle) >>= f) Q ctl w
  := by
  apply keeps_windows (A := fun w => Holds faults ctl n w ∧ Gone faults n w ∧
    (status.state = .crashed → Untold faults n w))
  · rintro w w' hrely ⟨h, hgone, huntold⟩
    exact ⟨h.rely hrely, hgone.rely hrely, fun hcrashed => (huntold hcrashed).rely hrely⟩
  · rintro w ⟨h, -⟩ handle ⟨⟩
    apply h.isOpen
  · rintro w closed w' ⟨h, hgone, huntold⟩ hstep
    cases hstep
    apply hf
    refine .nobody hstate rfl h.sole.close ?_ ?_
    · intro hfault m p hp hended
      obtain rfl := h.only hfault m p hp hended
      apply hgone hfault p hp hended
    · intro hcrashed hfault m p hm hp hends
      obtain rfl : m = n := Nat.succ.inj (hm.trans h.newest.symm)
      apply huntold hcrashed hfault p hp hends
  · exact ⟨h, hgone, huntold⟩

/-! ### Reaping -/

/-- The members track everything, and the mutex is about to be unlocked or more is done. -/
def Tracked (faults : ReapFaults) (_ : α) (ctl : WindowsController) (w : WindowsHost) : Prop :=
  ctl.Tracks faults w

/-- A program that ends where the members track everything. -/
theorem keeps_return {a : α} (h : ctl.Tracks faults w) :
  Keeps faults (pure a) (Tracked faults) ctl w
  := by
  apply Locked.keeps_pure
  exact fun w' hrely => h.rely hrely

theorem keeps_giveUpReaping {diagnostic : String} {n : ℕ} (h : Holds faults ctl n w)
    (hgone : Gone faults n w) (huntold : Untold faults n w) :
  Keeps faults (giveUpReaping diagnostic) (Tracked faults) ctl w
  := by
  apply keeps_getLastError (A := fun w => Holds faults ctl n w ∧ Gone faults n w ∧ Untold faults n w)
  · rintro w w' hrely ⟨h, hgone, huntold⟩
    exact ⟨h.rely hrely, hgone.rely hrely, huntold.rely hrely⟩
  · rintro error w ⟨h, hgone, huntold⟩
    apply Locked.keeps_get
    apply keeps_closeProcess ⟨.crashed, error.toInt32, ascii diagnostic⟩ _ _ h hgone
      fun _ => huntold
    · rintro ⟨⟩
    · intro closed w htracks
      apply Locked.keeps_set
      exact fun w' hrely => htracks.rely hrely
  · exact ⟨h, hgone, huntold⟩

/-- A controller that has looked after its process tracks everything. -/
theorem keeps_reapExitedUnlocked (h : ctl.Tracks faults w) :
  Keeps faults reapExitedUnlocked (Tracked faults) ctl w
  := by
  apply Locked.keeps_get
  split
  · apply keeps_return h
  · rename_i hstate
    obtain ⟨n, h⟩ := exists_holds h (not_not.mp hstate)
    rw [if_neg h.handle]
    apply keeps_windows (A := Holds faults ctl n) (fun w w' => Holds.rely)
    · rintro w h handle ⟨⟩
      apply h.isOpen
    · intro w result w' h hstep
      cases hstep with
      | waitTimeout =>
        apply keeps_return h.tracks
      | waitFailed hrefers halive htold =>
        obtain ⟨rfl, hp⟩ := h.eq hrefers
        apply keeps_giveUpReaping h (gone_of_imp hp (halive rfl)) (untold_of_imp hp (htold rfl))
      | waitObject hrefers hended htold =>
        obtain ⟨rfl, hp⟩ := h.eq hrefers
        apply keeps_windows
          (A := fun w => Holds faults ctl n w ∧ Gone faults n w ∧ Untold faults n w)
        · rintro w w' hrely ⟨h, hgone, huntold⟩
          exact ⟨h.rely hrely, hgone.rely hrely, huntold.rely hrely⟩
        · rintro w ⟨h, -⟩ handle ⟨⟩
          apply h.isOpen
        · rintro w exitCode w' ⟨h, hgone, huntold⟩ hstep
          cases hstep with
          | exitCodeFails => apply keeps_giveUpReaping h hgone huntold
          | @exitCode _ _ _ _ code =>
            apply keeps_closeProcess _ (exitedStatus_state_ne code) _ h hgone fun _ => huntold
            intro closed w htracks
            apply Locked.keeps_set
            exact fun w' hrely => htracks.rely hrely
        · exact ⟨h, gone_of_ended hp hended, untold_of_imp hp (htold rfl)⟩
    · exact h

/-! ### Stopping -/

/-- A process that is told to end is still the one that the controller runs. -/
theorem Holds.terminate {n m : ℕ} {exitCode : UInt32} (h : Holds faults ctl n w) :
  Holds faults ctl n (w.terminate m exitCode)
  := by
  refine ⟨h.running, h.handle, h.sole, ?_, ?_⟩
  · rw [WindowsHost.terminate, List.length_modify]
    apply h.newest
  · intro hfault k p hp hended
    simp only [WindowsHost.terminate, List.getElem?_modify] at hp
    obtain ⟨p', hp', rfl⟩ := Option.map_eq_some_iff.mp hp
    apply h.only hfault k p' hp'
    split at hended
    · apply hended
    · apply hended

theorem keeps_stopUnlocked (timeout : ℤ) (h : ctl.Tracks faults w) :
  Keeps faults (stopUnlocked timeout) (Tracked faults) ctl w
  := by
  apply Locked.keeps_bind Rely.refl
  apply Locked.Keeps.mono _ (keeps_reapExitedUnlocked h)
  intro _ ctl w h
  apply Locked.keeps_get
  split
  · apply keeps_return h
  · rename_i hstate
    obtain ⟨n, h⟩ := exists_holds h (not_not.mp hstate)
    have hfails : ∀ (context : Bytes) w, Holds faults ctl n w →
        Keeps faults (do return .error (← lastErrorMessage context)) (Tracked (α := Status) faults)
          ctl w := by
      intro context w h
      apply Locked.keeps_bind Rely.refl
      apply Locked.Keeps.mono _ (keeps_lastErrorMessage (fun _ _ => Holds.rely) h)
      rintro message _ w ⟨rfl, h⟩
      apply keeps_return h.tracks
    apply keeps_windows (A := Holds faults ctl n) (fun w w' => Holds.rely)
    · rintro w h handle ⟨⟩
      apply h.isOpen
    · rintro w terminated w' h hstep
      cases hstep with
      | terminateFails => apply hfails _ w h
      | @terminate _ _ _ m p hrefers =>
        apply keeps_windows (A := Holds faults ctl n) (fun w w' => Holds.rely)
        · rintro w h handle ⟨⟩
          apply h.isOpen
        · intro w result w' h hstep
          cases hstep with
          | waitTimeout =>
            apply keeps_return h.tracks
          | waitFailed => apply hfails _ w h
          | waitObject hrefers hended =>
            obtain ⟨rfl, hp⟩ := h.eq hrefers
            apply keeps_closeProcess ⟨.stopped, 0, ascii "process stopped"⟩ _ _ h
              (gone_of_ended hp hended)
            · rintro ⟨⟩
            · rintro ⟨⟩
            · intro closed w htracks
              apply Locked.keeps_set_bind
              apply keeps_return htracks
        · apply h.terminate
    · exact h

/-! ### Starting -/

/-- A controller without a process can create one. -/
theorem keeps_createDaemon {applicationPath commandLine : CommandLine.Wide}
    (h : ctl.Tracks faults w) (hstate : ctl.status.state ≠ .running) :
  Keeps faults (createDaemon applicationPath commandLine) (Tracked faults) ctl w
  := by
  apply keeps_windows (A := fun w => ctl.Tracks faults w) (fun w w' => Tracks.rely)
  · intro w h
    cases h with
    | nobody _ _ hclosed hnone => exact ⟨hnone, hclosed⟩
    | child hrunning => cases hstate hrunning
  · intro w created w' h hstep
    cases hstep with
    | createFails =>
      apply Locked.keeps_bind Rely.refl
      apply Locked.Keeps.mono _ (keeps_lastErrorMessage (fun _ _ => Tracks.rely) h)
      rintro message _ w ⟨rfl, h⟩
      apply keeps_return h
    | @create _ _ _ info hfresh =>
      obtain ⟨hprocess, -, hthread, -, -⟩ := hfresh
      cases h with
      | child hrunning => cases hstate hrunning
      | nobody _ _ hclosed hnone =>
        have honly : (w.create info).OnlyAlive faults w.processes.length := by
          intro hfault m p hp hended
          by_contra hne
          rw [WindowsHost.create, List.getElem?_append] at hp
          split at hp
          · apply hnone hfault m p hp hended
          · obtain ⟨hlt, -⟩ := List.getElem?_eq_some_iff.mp hp
            simp only [List.length_singleton] at hlt
            omega
        apply keeps_windows (A := fun w' => w'.handles = (w.create info).handles ∧
          w'.processes.length = w.processes.length + 1 ∧ w'.OnlyAlive faults w.processes.length)
        · rintro w₁ w₂ hrely ⟨hhandles, hlength, honly⟩
          exact ⟨hrely.handles.trans hhandles, hrely.length.trans hlength, honly.rely hrely⟩
        · rintro w₁ ⟨hhandles, -⟩ handle ⟨⟩
          rw [hhandles]
          exact ⟨_, Handles.refers_newest⟩
        · rintro w₁ closed w₂ ⟨hhandles, hlength, honly⟩ hstep
          cases hstep
          apply Locked.keeps_set_bind
          apply Locked.keeps_pure
          intro w₃ hrely
          refine Tracks.rely hrely (.child rfl hprocess ?_ hlength.symm honly)
          rw [hhandles]
          apply (hclosed.obtain _ _).closeNewest hthread
        · exact ⟨rfl, by simp [WindowsHost.create], honly⟩
  · exact h

/-- Reading the flag changes nothing. -/
theorem keeps_loadShutdownRequested {f : Bool → WindowsLocked α} {A : WindowsHost → Prop}
    (hstable : ∀ w w', Rely w w' → A w → A w') (hf : ∀ b w, A w → Keeps faults (f b) Q ctl w)
    (hA : A w) :
  Keeps faults (loadShutdownRequested >>= f) Q ctl w
  := by
  apply Locked.keeps_loadShutdownRequested
  intro w₁ hrely
  use trivial
  intro b w₂ hstep
  cases hstep with
  | loadShutdownRequested => apply hf _ w₁ (hstable w w₁ hrely hA)

section

variable (multiByteToWideChar : Bytes → Option CommandLine.Wide) (executablePath : Bytes)
  (args : List Bytes)

theorem keeps_startUnlocked (h : ctl.Tracks faults w) :
  Keeps faults (startUnlocked multiByteToWideChar executablePath args) (Tracked faults) ctl w
  := by
  apply keeps_loadShutdownRequested (fun _ _ => Tracks.rely) _ h
  intro requested w h
  split
  · apply keeps_return h
  · apply Locked.keeps_bind Rely.refl
    apply Locked.Keeps.mono _ (keeps_reapExitedUnlocked h)
    intro _ ctl w h
    apply Locked.keeps_get
    split
    · apply keeps_return h
    · rename_i hstate
      split
      · apply keeps_return h
      · apply keeps_createDaemon h hstate

theorem keeps_restartUnlocked (timeout : ℤ) (h : ctl.Tracks faults w) :
  Keeps faults
    ((processController multiByteToWideChar executablePath args).restartUnlocked timeout)
    (Tracked faults) ctl w
  := by
  apply keeps_loadShutdownRequested (fun _ _ => Tracks.rely) _ h
  intro requested w h
  split
  · apply keeps_return h
  · apply Locked.keeps_bind Rely.refl
    apply Locked.Keeps.mono _ (keeps_stopUnlocked timeout h)
    rintro (message | _) ctl w h
    · apply keeps_return h
    · apply keeps_loadShutdownRequested (fun _ _ => Tracks.rely) _ h
      intro requested w h
      split
      · apply keeps_return h
      · apply keeps_startUnlocked multiByteToWideChar executablePath args h

end

/-! ### The end of the destructor -/

theorem keeps_close (h : ctl.Tracks faults w) :
  Keeps faults close (fun _ _ w => w.handles.AllClosed) ctl w
  := by
  apply Locked.keeps_get
  split
  · rename_i hhandle
    cases h with
    | nobody _ hzero => cases hhandle hzero
    | @child n hstate hne hsole hn honly =>
      apply keeps_windows (A := Holds faults ctl n) (fun _ _ => Holds.rely)
      · rintro w h handle ⟨⟩
        apply h.isOpen
      · rintro w closed w' h hstep
        cases hstep
        apply Locked.keeps_set
        intro w' hrely
        rw [hrely.handles]
        apply h.sole.close
      · exact ⟨hstate, hne, hsole, hn, honly⟩
  · rename_i hhandle
    apply Locked.keeps_pure
    intro w' hrely
    rw [hrely.handles]
    cases h with
    | nobody _ _ hclosed => apply hclosed
    | child _ hne => cases hhandle hne

end WindowsHost

end OpcuaServer
