import OpcuaServer.Supervisor.LockedRules
import OpcuaServer.Supervisor.PosixController
import OpcuaServer.Supervisor.WindowsController

/-!
# Stopping a child that ends by itself

The running child ends by itself after some number of calls of the system, and all calls succeed as
they are documented to do for a child that is alive or has ended. On POSIX a stop always succeeds
then. On Windows it fails if the child ends between the wait of `ReapExitedUnlocked` and
`TerminateProcess`.
-/

namespace OpcuaServer

/-! ### POSIX -/

/-- A child on POSIX while calls of the system are made. -/
structure PosixChild where
  /-- How many calls have been made. -/
  calls : ℕ := 0
  killed : Bool := false
  reaped : Bool := false
  /-- The child that has been forked after it. -/
  successor : Option ℤ := none

namespace PosixChild

open Controller Signal

/-- A call has been made. -/
def next (w : PosixChild) : PosixChild :=
  { w with calls := w.calls + 1 }

/-- The child, which ends by itself after `k` calls, has ended. -/
def Ended (k : ℕ) (w : PosixChild) : Prop :=
  k ≤ w.calls ∨ w.killed = true

/-- What the calls of a controller do, where the child with the pid ends by itself after `k` calls
and nothing fails. -/
inductive Step (k : ℕ) (pid : ℤ) :
    (call : ControllerCall Controller ⊕ PosixCall) → PosixChild →
      Sum.elim ControllerCall.Answer PosixCall.Answer call → PosixChild → Prop where
  | loadShutdownRequested {w : PosixChild} : Step k pid (.inl .loadShutdownRequested) w false w
  /-- A signal can be sent to a child that has ended until it is reaped. -/
  | kill {w : PosixChild} {signal : Signal} :
      w.reaped = false →
      Step k pid (.inr (.kill pid signal)) w (.ok ())
        { w.next with killed := w.killed || decide (signal = sigKill) }
  | waitChild {w : PosixChild} {reaper : Reaper} {options : WaitOptions} {status : WaitStatus} :
      w.Ended k → w.reaped = false →
      Step k pid (.inr (.waitpid reaper pid options)) w (.child pid status)
        { w.next with reaped := true }
  | waitNotYet {w : PosixChild} {reaper : Reaper} :
      ¬ w.Ended k → Step k pid (.inr (.waitpid reaper pid .noHang)) w .notYet w.next
  | now {w : PosixChild} {time : ℤ} : Step k pid (.inr .now) w time w.next
  | sleepFor {w : PosixChild} {duration : ℤ} : Step k pid (.inr (.sleepFor duration)) w () w.next
  | sigemptyset {w : PosixChild} : Step k pid (.inr .sigemptyset) w (.ok ()) w.next
  | sigaddset {w : PosixChild} {signal : Signal} :
      Step k pid (.inr (.sigaddset signal)) w (.ok ()) w.next
  | pthreadSigmask {w : PosixChild} {how : MaskChange} {set mask : SignalSet} :
      Step k pid (.inr (.pthreadSigmask how set)) w (.ok mask) w.next
  | fork {w : PosixChild} {pid' : ℤ} :
      0 < pid' →
      Step k pid (.inr .fork) w (.parent pid') { w.next with successor := some pid' }

variable {k : ℕ} {ctl : Controller} {w : PosixChild} {α : Type}
  {Q : α → Controller → PosixChild → Prop}

/-- The controller runs the child. -/
structure Runs (pid : ℤ) (ctl : Controller) (w : PosixChild) : Prop where
  running : ctl.status.state = .running
  childPid : ctl.childPid = pid
  reaped : w.reaped = false

/-- The controller has reaped the child and runs none. -/
structure Gone (ctl : Controller) (w : PosixChild) : Prop where
  state : ctl.status.state ≠ .running
  childPid : ctl.childPid = -1
  reaped : w.reaped = true

/-- A child that is waited for has ended or has not. -/
theorem exists_waited (k : ℕ) (pid : ℤ) (reaper : Reaper) (hreaped : w.reaped = false) :
  ∃ a w', Step k pid (.inr (.waitpid reaper pid .noHang)) w a w'
  := by
  by_cases hended : w.Ended k
  · exact ⟨.child pid (.exited 0), _, .waitChild hended hreaped⟩
  · exact ⟨.notYet, _, .waitNotYet hended⟩

theorem endsIn_reapExitedUnlocked {pid : ℤ} (hpid : 0 ≤ pid) (h : Runs pid ctl w) :
  Locked.EndsIn (Step k pid) (fun _ ctl' w' => (ctl = ctl' ∧ Runs pid ctl w') ∨ Gone ctl' w')
    reapExitedUnlocked ctl w
  := by
  obtain ⟨hrunning, rfl, hreaped⟩ := h
  apply Locked.endsIn_get
  rw [if_neg (not_not.mpr hrunning), if_neg (not_lt.mpr hpid)]
  apply Locked.endsIn_systemCall (exists_waited k _ _ hreaped)
  intro a w' hstep
  cases hstep with
  | waitChild =>
    simp only [if_true]
    apply Locked.endsIn_set
    exact .inr ⟨decodeExitedStatus_state_ne _ _, rfl, rfl⟩
  | waitNotYet =>
    apply Locked.endsIn_pure
    exact .inl ⟨rfl, hrunning, rfl, hreaped⟩

/-- A signal can be sent to the child. -/
theorem endsIn_killChild {pid : ℤ} (signal : Signal) (h : Runs pid ctl w) :
  Locked.EndsIn (Step k pid) (fun result ctl' w' => result = .ok () ∧ ctl = ctl' ∧ Runs pid ctl w' ∧
    (signal = sigKill → w'.killed = true)) (killChild pid signal) ctl w
  := by
  apply Locked.endsIn_systemCall ⟨_, _, .kill h.reaped⟩
  intro a w' hstep
  cases hstep
  apply Locked.endsIn_pure
  refine ⟨rfl, rfl, ⟨h.running, h.childPid, h.reaped⟩, ?_⟩
  intro hkill
  simp [hkill]

/-- An iteration of the loop reaps the child, or the child ends after more calls. -/
theorem endsIn_pollChild {pid deadline : ℤ} (h : Runs pid ctl w) :
  Locked.EndsIn (Step k pid) (fun r ctl' w' => r.elim
      (fun _ => k - w'.calls < k - w.calls ∧ ctl = ctl' ∧ Runs pid ctl w')
      fun result => (result = none ∧ ctl = ctl' ∧ Runs pid ctl w') ∨
        (result = some (.ok ()) ∧ Gone ctl' w'))
    (pollChild deadline ()) ctl w
  := by
  obtain ⟨hrunning, rfl, hreaped⟩ := h
  have hexists : ∃ a w', Step k ctl.childPid (.inr .now) w a w' := ⟨(0 : ℤ), _, .now⟩
  apply Locked.endsIn_systemCall hexists
  intro time w₁ hnow
  cases hnow
  split
  · apply Locked.endsIn_pure
    exact .inl ⟨rfl, rfl, hrunning, rfl, hreaped⟩
  · apply Locked.endsIn_get
    have hreaped' : w.next.reaped = false := hreaped
    apply Locked.endsIn_systemCall (exists_waited k _ _ hreaped')
    intro a w₂ hwait
    cases hwait with
    | waitChild =>
      simp only [if_true]
      apply Locked.endsIn_set_bind
      apply Locked.endsIn_pure
      exact .inr ⟨rfl, decodeExitedStatus_state_ne _ _, rfl, rfl⟩
    | waitNotYet hended =>
      apply Locked.endsIn_systemCall ⟨_, _, .sleepFor⟩
      intro _ w₃ hsleep
      cases hsleep
      apply Locked.endsIn_pure
      refine ⟨?_, rfl, hrunning, rfl, hreaped⟩
      simp only [Ended, next, not_or] at hended ⊢
      omega

/-- A child that has been killed is reaped. -/
theorem endsIn_forceStop (h : Runs ctl.childPid ctl w) :
  Locked.EndsIn (Step k ctl.childPid) (fun status ctl' w' => status = .ok () ∧ Gone ctl' w')
    forceStop ctl w
  := by
  apply Locked.endsIn_get
  apply Locked.endsIn_bind (endsIn_killChild sigKill h)
  rintro _ _ w ⟨rfl, rfl, h, hkilled⟩
  apply Locked.endsIn_bind (R := fun result ctl' w' => result = .ok () ∧ w'.reaped = true)
  · refine Locked.endsIn_repeatUntil (n := 0)
      (fun _ _ _ w' => Runs ctl.childPid ctl w' ∧ w'.killed = true) ?_ ⟨h, hkilled rfl⟩
    rintro _ _ ctl' w' ⟨h, hkilled⟩
    have hexists : ∃ a w₂, Step k ctl.childPid (.inr (.waitpid .stopUnlocked ctl.childPid .block)) w'
        a w₂ := ⟨.child _ (.signaled 9), _, .waitChild (.inr hkilled) h.reaped⟩
    apply Locked.endsIn_systemCall hexists
    intro a w₂ hwait
    cases hwait
    apply Locked.endsIn_pure
    exact ⟨rfl, rfl⟩
  · rintro _ ctl' w' ⟨rfl, hreaped⟩
    apply Locked.endsIn_set_bind
    apply Locked.endsIn_pure
    refine ⟨rfl, ?_, rfl, hreaped⟩
    rintro ⟨⟩

/-- A stop reaps the child. -/
theorem endsIn_stopUnlocked (timeout : ℤ) (hpid : 0 ≤ ctl.childPid) (h : Runs ctl.childPid ctl w) :
  Locked.EndsIn (Step k ctl.childPid) (fun status ctl' w' => status = .ok () ∧ Gone ctl' w')
    (stopUnlocked timeout) ctl w
  := by
  apply Locked.endsIn_bind (endsIn_reapExitedUnlocked hpid h)
  rintro _ ctl' w (⟨rfl, h⟩ | hgone)
  · apply Locked.endsIn_get
    rw [if_neg (not_not.mpr h.running)]
    apply Locked.endsIn_bind (endsIn_killChild sigTerm h)
    rintro _ _ w ⟨rfl, rfl, h, -⟩
    have hexists : ∃ a w', Step k ctl.childPid (.inr .now) w a w' := ⟨(0 : ℤ), _, .now⟩
    apply Locked.endsIn_systemCall hexists
    intro time w₁ hnow
    cases hnow
    apply Locked.endsIn_bind (R := fun result ctl' w' =>
      (result = none ∧ ctl = ctl' ∧ Runs ctl.childPid ctl w') ∨
        (result = some (.ok ()) ∧ Gone ctl' w'))
    · refine Locked.endsIn_repeatUntil
        (fun n _ ctl' w' => n = k - w'.calls ∧ ctl = ctl' ∧ Runs ctl.childPid ctl w') ?_
        ⟨rfl, rfl, h.running, rfl, h.reaped⟩
      rintro _ _ _ w' ⟨rfl, rfl, h⟩
      apply Locked.EndsIn.mono _ (endsIn_pollChild h)
      rintro (_ | result) ctl' w₂ hr
      · exact ⟨_, hr.1, rfl, hr.2⟩
      · exact hr
    · rintro _ ctl' w' (⟨rfl, rfl, h⟩ | ⟨rfl, hgone⟩)
      · apply endsIn_forceStop h
      · apply Locked.endsIn_pure
        exact ⟨rfl, hgone⟩
  · apply Locked.endsIn_get
    rw [if_pos hgone.state]
    apply Locked.endsIn_pure
    exact ⟨rfl, hgone⟩

/-- A flag that is not set is read. -/
theorem endsIn_loadShutdownRequested {pid : ℤ} {f : Bool → PosixLocked α}
    (hf : Locked.EndsIn (Step k pid) Q (f false) ctl w) :
  Locked.EndsIn (Step k pid) Q (loadShutdownRequested >>= f) ctl w
  := by
  apply Locked.endsIn_loadShutdownRequested ⟨_, _, .loadShutdownRequested⟩
  intro requested w' hstep
  cases hstep
  apply hf

/-- Where there is no child any more, another one is forked. -/
theorem endsIn_launch (pid : ℤ) (executablePath : Bytes) (args : List Bytes) :
  Locked.EndsIn (Step k pid) (fun status ctl' w' => status = .ok () ∧
    ctl'.status.state = .running ∧ w'.successor = some ctl'.childPid)
    (launch executablePath args) ctl w
  := by
  have hmask : ∀ how set w, ∃ a w', Step k pid (.inr (.pthreadSigmask how set)) w a w' :=
    fun how set w => ⟨.ok ∅, _, .pthreadSigmask⟩
  have hfork : ∀ w, ∃ a w', Step k pid (.inr .fork) w a w' :=
    fun w => ⟨.parent 1, _, .fork one_pos⟩
  apply Locked.endsIn_bind (R := fun result _ _ => result = .ok {sigTerm, sigInt})
  · apply Locked.endsIn_systemCall ⟨_, _, .sigemptyset⟩
    rintro _ _ ⟨⟩
    apply Locked.endsIn_systemCall ⟨_, _, .sigaddset⟩
    rintro _ _ ⟨⟩
    apply Locked.endsIn_systemCall ⟨_, _, .sigaddset⟩
    rintro _ _ ⟨⟩
    apply Locked.endsIn_pure rfl
  · rintro _ ctl w rfl
    apply Locked.endsIn_systemCall ⟨_, _, .sigemptyset⟩
    rintro _ _ ⟨⟩
    apply Locked.endsIn_systemCall (hmask _ _ _)
    rintro _ _ ⟨⟩
    apply Locked.endsIn_systemCall (hfork _)
    rintro _ _ ⟨⟩
    apply Locked.endsIn_systemCall (hmask _ _ _)
    rintro _ _ ⟨⟩
    apply Locked.endsIn_set_bind
    apply Locked.endsIn_pure
    exact ⟨rfl, rfl, rfl⟩

/-- A restart reaps the child and forks another one. -/
theorem endsIn_restartUnlocked (timeout : ℤ) (executablePath : Bytes) (args : List Bytes)
    (hpid : 0 ≤ ctl.childPid) (h : Runs ctl.childPid ctl w) :
  Locked.EndsIn (Step k ctl.childPid) (fun status ctl' w' => status = .ok () ∧
    ctl'.status.state = .running ∧ w'.successor = some ctl'.childPid)
    ((processController executablePath args).restartUnlocked timeout) ctl w
  := by
  apply endsIn_loadShutdownRequested
  apply Locked.endsIn_bind (endsIn_stopUnlocked timeout hpid h)
  rintro _ ctl' w ⟨rfl, hgone⟩
  apply endsIn_loadShutdownRequested
  apply endsIn_loadShutdownRequested
  apply Locked.endsIn_bind (R := fun _ ctl _ => ctl = ctl')
  · apply Locked.endsIn_get
    rw [if_pos hgone.state]
    apply Locked.endsIn_pure rfl
  · rintro _ _ w rfl
    apply Locked.endsIn_get
    rw [if_neg hgone.state]
    apply endsIn_launch

end PosixChild

/-! ### Windows -/

/-- A process on Windows while calls of the system are made. -/
structure WindowsChild where
  /-- How many calls have been made. -/
  calls : ℕ := 0
  terminated : Bool := false
  /-- The process that has been created after it. -/
  successor : Option HandleValue := none

namespace WindowsChild

open WindowsController

/-- A call has been made. -/
def next (w : WindowsChild) : WindowsChild :=
  { w with calls := w.calls + 1 }

/-- `ERROR_ACCESS_DENIED` -/
def errorAccessDenied : UInt32 := 5

/-- What the calls of a controller do, where the process with the handle ends by itself after `k`
calls and nothing else fails. A process that has been terminated can still be alive. -/
inductive Step (k : ℕ) (handle : HandleValue) :
    (call : ControllerCall WindowsController ⊕ WindowsCall) → WindowsChild →
      Sum.elim ControllerCall.Answer WindowsCall.Answer call → WindowsChild → Prop where
  | loadShutdownRequested {w : WindowsChild} : Step k handle (.inl .loadShutdownRequested) w false w
  | waitObject {w : WindowsChild} {waiter : Waiter} {milliseconds : UInt32} :
      k ≤ w.calls ∨ w.terminated = true →
      Step k handle (.inr (.waitForSingleObject waiter handle milliseconds)) w .object w.next
  | waitTimeout {w : WindowsChild} {waiter : Waiter} {milliseconds : UInt32} :
      w.calls < k →
      Step k handle (.inr (.waitForSingleObject waiter handle milliseconds)) w .timeout w.next
  | exitCode {w : WindowsChild} {code : UInt32} :
      k ≤ w.calls ∨ w.terminated = true →
      Step k handle (.inr (.getExitCodeProcess handle)) w (some code) w.next
  | terminate {w : WindowsChild} {exitCode : UInt32} :
      w.calls < k →
      Step k handle (.inr (.terminateProcess handle exitCode)) w true
        { w.next with terminated := true }
  /-- A process that has ended cannot be terminated. -/
  | terminateDenied {w : WindowsChild} {exitCode : UInt32} :
      k ≤ w.calls → Step k handle (.inr (.terminateProcess handle exitCode)) w false w.next
  | lastError {w : WindowsChild} : Step k handle (.inr .getLastError) w errorAccessDenied w.next
  | close {w : WindowsChild} {handle' : HandleValue} :
      Step k handle (.inr (.closeHandle handle')) w true w.next
  | create {w : WindowsChild} {applicationName commandLine : CommandLine.Wide}
      {info : ProcessInformation} :
      info.hProcess ≠ 0 →
      Step k handle (.inr (.createProcess applicationName commandLine)) w (some info)
        { w.next with successor := some info.hProcess }

variable {k : ℕ} {ctl : WindowsController} {w : WindowsChild} {α : Type}
  {Q : α → WindowsController → WindowsChild → Prop}

/-- How a stop ends whose first call finds the process that ends by itself after `k` calls. -/
inductive StopOutcome (k : ℕ) :
    Status → WindowsController → WindowsChild → Prop where
  | stopped {ctl : WindowsController} {w : WindowsChild} :
      k ≠ 1 → ctl.processHandle = 0 → ctl.status.state ≠ .running → StopOutcome k (.ok ()) ctl w
  /-- The process has ended before it is terminated. -/
  | denied {message : Bytes} {ctl : WindowsController} {w : WindowsChild} :
      k = 1 → StopOutcome k (.error message) ctl w
  /-- The process is alive at the last call. -/
  | alive {message : Bytes} {ctl : WindowsController} {w : WindowsChild} :
      w.calls ≤ k → StopOutcome k (.error message) ctl w

theorem endsIn_closeHandle {handle handle' : HandleValue} {f : Bool → WindowsLocked α}
    (hf : Locked.EndsIn (Step k handle) Q (f true) ctl w.next) :
  Locked.EndsIn (Step k handle) Q (windows (.closeHandle handle') >>= f) ctl w
  := by
  apply Locked.endsIn_systemCall ⟨_, _, .close⟩
  intro closed w' hstep
  cases hstep
  apply hf

/-- The first reap closes the handle if the process has ended before. -/
theorem endsIn_reapExitedUnlocked (hstate : ctl.status.state = .running)
    (hhandle : ctl.processHandle ≠ 0) :
  Locked.EndsIn (Step k ctl.processHandle) (fun _ ctl' w' =>
    (k ≠ 0 ∧ ctl = ctl' ∧ w' = ({} : WindowsChild).next) ∨
    (k = 0 ∧ ctl'.processHandle = 0 ∧ ctl'.status.state ≠ .running)) reapExitedUnlocked ctl {}
  := by
  have hwait : ∃ a w', Step k ctl.processHandle
      (.inr (.waitForSingleObject .reapExitedUnlocked ctl.processHandle 0)) {} a w' := by
    rcases Nat.eq_zero_or_pos k with hzero | hpos
    · exact ⟨_, _, .waitObject (.inl hzero.le)⟩
    · exact ⟨_, _, .waitTimeout hpos⟩
  apply Locked.endsIn_get
  rw [if_neg (not_not.mpr hstate), if_neg hhandle]
  apply Locked.endsIn_systemCall hwait
  intro result w' hstep
  cases hstep with
  | waitTimeout hpos =>
    apply Locked.endsIn_pure
    exact .inl ⟨hpos.ne', rfl, rfl⟩
  | waitObject hended =>
    have hzero : k = 0 := by
      rcases hended with hle | ⟨⟨⟩⟩
      apply Nat.le_zero.mp hle
    have hcode : ∃ a w', Step k ctl.processHandle (.inr (.getExitCodeProcess ctl.processHandle))
        ({} : WindowsChild).next a w' :=
      ⟨some 0, _, .exitCode (.inl (hzero.le.trans (Nat.zero_le _)))⟩
    apply Locked.endsIn_systemCall hcode
    intro code w' hstep
    cases hstep with
    | @exitCode _ code =>
      apply endsIn_closeHandle
      apply Locked.endsIn_set
      exact .inr ⟨hzero, rfl, exitedStatus_state_ne code⟩

theorem endsIn_lastErrorMessage {handle : HandleValue} {context : Bytes} :
  Locked.EndsIn (Step k handle) (fun _ ctl' w' => ctl = ctl' ∧ w' = w.next)
    (lastErrorMessage context) ctl w
  := by
  apply Locked.endsIn_systemCall ⟨_, _, .lastError⟩
  intro error w' hstep
  cases hstep
  apply Locked.endsIn_pure
  exact ⟨rfl, rfl⟩

theorem endsIn_stopUnlocked (timeout : ℤ) (hstate : ctl.status.state = .running)
    (hhandle : ctl.processHandle ≠ 0) :
  Locked.EndsIn (Step k ctl.processHandle) (StopOutcome k) (stopUnlocked timeout) ctl {}
  := by
  apply Locked.endsIn_bind (endsIn_reapExitedUnlocked hstate hhandle)
  rintro _ ctl' w (⟨hpos, rfl, rfl⟩ | ⟨hzero, hclosed, hstopped⟩)
  · have hterminate : ∃ a w', Step k ctl.processHandle
        (.inr (.terminateProcess ctl.processHandle kTerminatedExitCode)) ({} : WindowsChild).next a
        w' := by
      by_cases hone : k ≤ 1
      · exact ⟨_, _, .terminateDenied hone⟩
      · exact ⟨_, _, .terminate (not_le.mp hone)⟩
    apply Locked.endsIn_get
    rw [if_neg (not_not.mpr hstate)]
    apply Locked.endsIn_systemCall hterminate
    intro terminated w' hstep
    cases hstep with
    | terminateDenied hone =>
      apply Locked.endsIn_bind endsIn_lastErrorMessage
      rintro message _ _ ⟨rfl, rfl⟩
      apply Locked.endsIn_pure
      apply StopOutcome.denied
      have hle : k ≤ 1 := hone
      omega
    | terminate hone =>
      have hlt : 1 < k := hone
      apply Locked.endsIn_systemCall ⟨_, _, .waitObject (.inr rfl)⟩
      intro result w' hstep
      cases hstep with
      | waitObject =>
        apply endsIn_closeHandle
        apply Locked.endsIn_set_bind
        apply Locked.endsIn_pure
        exact .stopped hlt.ne' rfl (by rintro ⟨⟩)
      | waitTimeout htwo =>
        apply Locked.endsIn_pure
        exact .alive htwo
  · apply Locked.endsIn_get
    rw [if_pos hstopped]
    apply Locked.endsIn_pure
    exact .stopped (by omega) hclosed hstopped

theorem endsIn_loadShutdownRequested {handle : HandleValue} {f : Bool → WindowsLocked α}
    (hf : Locked.EndsIn (Step k handle) Q (f false) ctl w) :
  Locked.EndsIn (Step k handle) Q (loadShutdownRequested >>= f) ctl w
  := by
  apply Locked.endsIn_loadShutdownRequested ⟨_, _, .loadShutdownRequested⟩
  intro requested w' hstep
  cases hstep
  apply hf

/-- Where there is no process any more, another one is created. -/
theorem endsIn_createDaemon {handle : HandleValue} {applicationPath commandLine : CommandLine.Wide} :
  Locked.EndsIn (Step k handle) (fun status ctl' w' => status = .ok () ∧
    ctl'.status.state = .running ∧ w'.successor = some ctl'.processHandle)
    (createDaemon applicationPath commandLine) ctl w
  := by
  have hcreate : ∃ a w', Step k handle (.inr (.createProcess (wideCString applicationPath)
      (wideCString commandLine))) w a w' := ⟨some ⟨1, 2⟩, _, .create one_ne_zero⟩
  apply Locked.endsIn_systemCall hcreate
  intro created w' hstep
  cases hstep
  apply endsIn_closeHandle
  apply Locked.endsIn_set_bind
  apply Locked.endsIn_pure
  exact ⟨rfl, rfl, rfl⟩

/-- How a restart ends: another process has been created, or the stop has failed. -/
def RestartOutcome (k : ℕ) (status : Status) (ctl : WindowsController) (w : WindowsChild) : Prop :=
  (k ≠ 1 ∧ status = .ok () ∧ ctl.status.state = .running ∧
    w.successor = some ctl.processHandle) ∨
  ((k = 1 ∨ w.calls ≤ k) ∧ ∃ message, status = .error message)

theorem endsIn_restartUnlocked {multiByteToWideChar : Bytes → Option CommandLine.Wide}
    {executablePath : Bytes} {args : List Bytes} {paths : CommandLine.Wide × CommandLine.Wide}
    (hpaths : convertPaths multiByteToWideChar executablePath args = .ok paths) (timeout : ℤ)
    (hstate : ctl.status.state = .running) (hhandle : ctl.processHandle ≠ 0) :
  Locked.EndsIn (Step k ctl.processHandle) (RestartOutcome k)
    ((processController multiByteToWideChar executablePath args).restartUnlocked timeout) ctl {}
  := by
  apply endsIn_loadShutdownRequested
  apply Locked.endsIn_bind (endsIn_stopUnlocked timeout hstate hhandle)
  intro status ctl' w houtcome
  cases houtcome with
  | denied hone =>
    apply Locked.endsIn_pure
    exact .inr ⟨.inl hone, _, rfl⟩
  | alive hle =>
    apply Locked.endsIn_pure
    exact .inr ⟨.inr hle, _, rfl⟩
  | stopped hone hclosed hstopped =>
    apply endsIn_loadShutdownRequested
    apply endsIn_loadShutdownRequested
    apply Locked.endsIn_bind (R := fun _ ctl _ => ctl = ctl')
    · apply Locked.endsIn_get
      rw [if_pos hstopped]
      apply Locked.endsIn_pure rfl
    · rintro _ _ w rfl
      apply Locked.endsIn_get
      rw [if_neg hstopped, hpaths]
      apply Locked.EndsIn.mono _ endsIn_createDaemon
      exact fun _ _ _ h => .inl ⟨hone, h⟩

end WindowsChild

/-! ### Both platforms -/

/-- A stop of a running controller, whose child ends by itself after any number of calls of the
system, comes to an end. On POSIX it returns ok and leaves no child, and a restart forks another one.
On Windows, if the process ends between two of the calls, a stop returns ok and leaves no process,
and a restart creates another one, if and only if it does not end right after the first call, which
is the wait of `ReapExitedUnlocked`: the second one is `TerminateProcess`. -/
theorem stop_tolerates (k : ℕ) (timeout : ℤ) :
  (∀ ctl : Controller, ctl.status.state = .running → 0 ≤ ctl.childPid →
    Locked.EndsIn (PosixChild.Step k ctl.childPid)
      (fun status ctl' w => status = .ok () ∧ PosixChild.Gone ctl' w)
      (Controller.stopUnlocked timeout) ctl {} ∧
    ∀ executablePath args, Locked.EndsIn (PosixChild.Step k ctl.childPid)
      (fun status ctl' w => status = .ok () ∧ ctl'.status.state = .running ∧
        w.successor = some ctl'.childPid)
      ((Controller.processController executablePath args).restartUnlocked timeout) ctl {}) ∧
  ∀ ctl : WindowsController, ctl.status.state = .running → ctl.processHandle ≠ 0 →
    Locked.EndsIn (WindowsChild.Step k ctl.processHandle)
      (fun status ctl' w => k < w.calls →
        (status = .ok () ∧ ctl'.processHandle = 0 ∧ ctl'.status.state ≠ .running ↔ k ≠ 1))
      (WindowsController.stopUnlocked timeout) ctl {} ∧
    ∀ multiByteToWideChar executablePath args paths,
      WindowsController.convertPaths multiByteToWideChar executablePath args = .ok paths →
      Locked.EndsIn (WindowsChild.Step k ctl.processHandle)
        (fun status ctl' w => k < w.calls →
          (status = .ok () ∧ ctl'.status.state = .running ∧
            w.successor = some ctl'.processHandle ↔ k ≠ 1))
        ((WindowsController.processController multiByteToWideChar executablePath
          args).restartUnlocked timeout) ctl {}
  := by
  constructor
  · intro ctl hstate hpid
    have hruns : PosixChild.Runs ctl.childPid ctl {} := ⟨hstate, rfl, rfl⟩
    use PosixChild.endsIn_stopUnlocked timeout hpid hruns
    exact fun executablePath args =>
      PosixChild.endsIn_restartUnlocked timeout executablePath args hpid hruns
  · intro ctl hstate hhandle
    constructor
    · apply Locked.EndsIn.mono _ (WindowsChild.endsIn_stopUnlocked timeout hstate hhandle)
      intro status ctl' w houtcome hbetween
      cases houtcome with
      | stopped hone hclosed hstopped => exact iff_of_true ⟨rfl, hclosed, hstopped⟩ hone
      | denied hone => exact iff_of_false (by rintro ⟨⟨⟩, -⟩) (not_not.mpr hone)
      | alive hle => exact absurd hbetween (not_lt.mpr hle)
    · intro multiByteToWideChar executablePath args paths hpaths
      apply Locked.EndsIn.mono _
        (WindowsChild.endsIn_restartUnlocked hpaths timeout hstate hhandle)
      rintro status ctl' w (⟨hone, hcreated⟩ | ⟨hone | hle, message, rfl⟩) hbetween
      · exact iff_of_true hcreated hone
      · exact iff_of_false (by rintro ⟨⟨⟩, -⟩) (not_not.mpr hone)
      · exact absurd hbetween (not_lt.mpr hle)

/-- A controller on POSIX that runs a child with the pid 7. -/
def runningPosix : Controller :=
  { status := Controller.runningStatus "process running", childPid := 7 }

/-- A controller on Windows that runs a process with the handle 4. -/
def runningWindows : WindowsController :=
  { status := ⟨.running, 0, ascii "process running"⟩, processHandle := 4 }

/-- A restart replaces a child that ends by itself right after the first call on POSIX, and one that
ends right after the second call on Windows. -/
theorem stop_tolerates_restart :
  (∃ (ctl' : Controller) (w : PosixChild),
    (((Controller.processController [] []).restartUnlocked 500) runningPosix).Runs
      (PosixChild.Step 1 7) {} (.ok (), ctl') w ∧ w.successor = some ctl'.childPid) ∧
  Locked.EndsIn (WindowsChild.Step 2 4)
    (fun status ctl' w => 2 < w.calls → (status = .ok () ∧ ctl'.status.state = .running ∧
      w.successor = some ctl'.processHandle ↔ 2 ≠ 1))
    ((WindowsController.processController (fun _ => none) [] []).restartUnlocked 500)
    runningWindows {}
  := by
  constructor
  · have hends := ((stop_tolerates 1 500).1 runningPosix rfl (by decide)).2 [] []
    obtain ⟨⟨status, ctl'⟩, w, hrun, rfl, -, hsuccessor⟩ := Prog.EndsIn.exists_runs hends
    exact ⟨ctl', w, hrun, hsuccessor⟩
  · apply ((stop_tolerates 2 500).2 runningWindows rfl (by decide)).2
    rfl

/-- A process that ends by itself before `TerminateProcess` makes a stop fail. -/
theorem not_stop_tolerates :
  ∃ w : WindowsChild, ((WindowsController.stopUnlocked 500) runningWindows).Runs
    (WindowsChild.Step 1 4) {}
    (.error (ascii "TerminateProcess failed with error 5"), runningWindows) w ∧
    1 < w.calls
  := by
  refine ⟨⟨3, false, none⟩, ?_, by decide⟩
  refine .call (WindowsChild.Step.waitTimeout (by decide)) ?_
  refine .call (WindowsChild.Step.terminateDenied (by decide)) ?_
  refine .call WindowsChild.Step.lastError ?_
  have hmessage : ascii "TerminateProcess failed with error 5" =
      ascii "TerminateProcess" ++ ascii " failed with error " ++ Decimal.numeral 5 := by
    decide
  rw [hmessage]
  exact .ret

end OpcuaServer
