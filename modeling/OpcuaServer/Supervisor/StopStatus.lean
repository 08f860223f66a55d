import OpcuaServer.Supervisor.LockedRules
import OpcuaServer.Supervisor.PosixController

/-!
# The status after a stop on POSIX

A `StopUnlocked` can collect the child in three places, and sets the status in each of them in
another way (`Controller.CollectedAs`). The calls of the system are recorded with whatever they
answer.
-/

namespace OpcuaServer

/-- The child has ended with an exit code or by a signal, as `WIFEXITED` and `WIFSIGNALED` tell. -/
def WaitStatus.Ends : WaitStatus → Prop
  | .exited _ => True
  | .signaled signal => signal ≠ 0
  | .other _ => False

namespace Controller

open Signal

/-- The calls of a controller with their answers. -/
abbrev Log :=
  List (Prog.Event (ControllerCall Controller ⊕ PosixCall)
    (Sum.elim ControllerCall.Answer PosixCall.Answer))

/-- A `waitpid` has collected the child. -/
def Collects (log : Log) (reaper : Reaper) (options : WaitOptions) (pid : ℤ)
    (waitStatus : WaitStatus) : Prop :=
  ⟨.inr (.waitpid reaper pid options), Waited.child pid waitStatus⟩ ∈ log

/-- The status that is set where the child is collected. -/
inductive CollectedAs : Reaper → WaitOptions → WaitStatus → ProcessStatus → Prop where
  | first {waitStatus : WaitStatus} :
      CollectedAs .reapExitedUnlocked .noHang waitStatus (decodeExitedStatus waitStatus false)
  | polled {waitStatus : WaitStatus} :
      CollectedAs .stopUnlocked .noHang waitStatus (decodeExitedStatus waitStatus true)
  | forced {waitStatus : WaitStatus} :
      CollectedAs .stopUnlocked .block waitStatus stoppedStatus

/-- The child has not been collected. -/
def Uncollected (pid : ℤ) (log : Log) : Prop :=
  ∀ reaper options waitStatus, ¬ Collects log reaper options pid waitStatus

/-- If the child has been collected, the status is one that is set then. -/
def Accounts (pid : ℤ) (log : Log) (status : ProcessStatus) : Prop :=
  ∀ reaper options waitStatus, Collects log reaper options pid waitStatus →
    CollectedAs reaper options waitStatus status

variable {pid : ℤ} {log log' : Log} {status : ProcessStatus} {ctl : Controller} {α : Type}
  {Q : α → Controller → Log → Prop}

theorem Uncollected.accounts (h : Uncollected pid log) :
  Accounts pid log status
  := by
  intro reaper options waitStatus hcollects
  cases h reaper options waitStatus hcollects

theorem collects_append {e : Prog.Event _ _} {reaper : Reaper} {options : WaitOptions}
    {waitStatus : WaitStatus} :
  Collects (log ++ [e]) reaper options pid waitStatus ↔ Collects log reaper options pid waitStatus ∨
    e = ⟨.inr (.waitpid reaper pid options), Waited.child pid waitStatus⟩
  := by
  rw [Collects, List.mem_append, List.mem_singleton, eq_comm (a := e), Collects]

/-- A program of the controller ends as `Q` says, whatever its calls answer. -/
abbrev Ends (p : PosixLocked α) (Q : α → Controller → Log → Prop) (ctl : Controller) (log : Log) :
    Prop :=
  Locked.Keeps Prog.record Eq (fun _ _ => True) p Q ctl log

theorem ends_pure {a : α} (h : Q a ctl log) :
  Ends (pure a) Q ctl log
  := by
  rintro _ rfl
  apply h

theorem ends_posix {call : PosixCall} {f : call.Answer → PosixLocked α}
    (h : ∀ a, Ends (f a) Q ctl (log ++ [⟨.inr call, a⟩])) :
  Ends (posix call >>= f) Q ctl log
  := by
  apply Locked.keeps_systemCall
  rintro _ rfl
  use trivial
  rintro a _ rfl
  apply h a

theorem ends_bind {β : Type} {p : PosixLocked β} {f : β → PosixLocked α}
    {R : β → Controller → Log → Prop} (hp : Ends p R ctl log)
    (hf : ∀ b ctl log, R b ctl log → Ends (f b) Q ctl log) :
  Ends (p >>= f) Q ctl log
  := by
  apply Locked.keeps_bind Eq.refl
  apply Locked.Keeps.mono hf hp

/-- A loop whose body preserves an invariant and ends in the postcondition. -/
theorem ends_repeatUntil {σ : Type} {body : σ → PosixLocked (σ ⊕ α)} {s : σ}
    (I : σ → Controller → Log → Prop) (hs : I s ctl log)
    (hbody : ∀ s ctl log, I s ctl log →
      Ends (body s) (fun r ctl log => r.elim (fun s => I s ctl log) fun a => Q a ctl log) ctl log) :
  Ends (Locked.repeatUntil body s) Q ctl log
  := by
  apply Locked.keeps_repeatUntil Eq.refl (fun _ _ _ => Eq.trans) I _ hs
  · intro s ctl log hI
    apply Locked.Keeps.mono _ (hbody s ctl log hI)
    rintro (s' | a) ctl' log' h
    · exact h
    · rintro _ rfl
      exact h
  · rintro s ctl log _ rfl h
    exact h

/-- A call other than a `waitpid` does not collect the child. -/
theorem Uncollected.call {call : PosixCall} {a : call.Answer} (h : Uncollected pid log)
    (hcall : ∀ reaper options, call ≠ .waitpid reaper pid options) :
  Uncollected pid (log ++ [⟨.inr call, a⟩])
  := by
  intro reaper options waitStatus hcollects
  rcases collects_append.mp hcollects with hlog | heq
  · apply h reaper options waitStatus hlog
  · cases heq
    apply hcall reaper options rfl

/-- A `waitpid` that returns something else does not collect the child. -/
theorem Uncollected.waitpid {reaper : Reaper} {options : WaitOptions} {waited : Waited}
    (h : Uncollected pid log) (hwaited : ∀ waitStatus, waited ≠ .child pid waitStatus) :
  Uncollected pid (log ++ [⟨.inr (.waitpid reaper pid options), waited⟩])
  := by
  intro reaper' options' waitStatus hcollects
  rcases collects_append.mp hcollects with hlog | heq
  · apply h reaper' options' waitStatus hlog
  · cases heq
    apply hwaited waitStatus rfl

/-- A `waitpid` that returns the child collects it, for the first time. -/
theorem Uncollected.accounts_child {reaper : Reaper} {options : WaitOptions}
    {waitStatus : WaitStatus} (h : Uncollected pid log)
    (hstatus : CollectedAs reaper options waitStatus status) :
  Accounts pid (log ++ [⟨.inr (.waitpid reaper pid options), Waited.child pid waitStatus⟩]) status
  := by
  intro reaper' options' waitStatus' hcollects
  rcases collects_append.mp hcollects with hlog | heq
  · cases h reaper' options' waitStatus' hlog
  · cases heq
    apply hstatus

/-! ### The functions -/

/-- The first reap collects the child, or it leaves a running controller as it is. -/
theorem ends_reapExitedUnlocked (h : Uncollected ctl.childPid log)
    (hstate : ctl.status.state = .running) :
  Ends reapExitedUnlocked (fun _ ctl' log => (ctl = ctl' ∧ Uncollected ctl.childPid log) ∨
    (ctl'.status.state ≠ .running ∧ Accounts ctl.childPid log ctl'.status)) ctl log
  := by
  apply Locked.keeps_get
  rw [if_neg (not_not.mpr hstate)]
  split
  · apply ends_pure
    exact .inl ⟨rfl, h⟩
  · apply ends_posix
    rintro (error | _ | ⟨pid, waitStatus⟩)
    · have hfailed : ∀ waitStatus, Waited.failed error ≠ .child ctl.childPid waitStatus := by
        rintro _ ⟨⟩
      dsimp only
      split
      · rintro _ rfl
        exact .inr ⟨by rintro ⟨⟩, (h.waitpid hfailed).accounts⟩
      · rintro _ rfl
        exact .inl ⟨rfl, h.waitpid hfailed⟩
    · rintro _ rfl
      exact .inl ⟨rfl, h.waitpid (by rintro _ ⟨⟩)⟩
    · dsimp only
      split
      · rename_i hpid
        subst hpid
        rintro _ rfl
        exact .inr ⟨decodeExitedStatus_state_ne _ _, h.accounts_child .first⟩
      · rename_i hpid
        rintro _ rfl
        refine .inl ⟨rfl, h.waitpid ?_⟩
        rintro _ ⟨⟩
        apply hpid rfl

theorem ends_killChild (h : Uncollected pid log) (pid' : ℤ) (signal : Signal) :
  Ends (killChild pid' signal) (fun _ ctl' log => ctl = ctl' ∧ Uncollected pid log) ctl log
  := by
  have hkill : ∀ reaper options, PosixCall.kill pid' signal ≠ .waitpid reaper pid options := by
    rintro _ _ ⟨⟩
  apply ends_posix
  rintro (error | _)
  · apply ends_pure
    exact ⟨rfl, h.call hkill⟩
  · apply ends_pure
    exact ⟨rfl, h.call hkill⟩

/-- What the loop that waits until the deadline leaves. -/
def AfterPolling (ctl : Controller) : Option Status → Controller → Log → Prop
  | none, ctl', log => ctl = ctl' ∧ Uncollected ctl.childPid log
  | some status, ctl', log => status = .ok () → Accounts ctl.childPid log ctl'.status

/-- An iteration of the loop collects the child, or it leaves the controller as it is. -/
theorem ends_pollChild (h : Uncollected ctl.childPid log) (deadline : ℤ) :
  Ends (pollChild deadline ()) (fun r ctl' log =>
    r.elim (fun _ => ctl = ctl' ∧ Uncollected ctl.childPid log)
      fun result => AfterPolling ctl result ctl' log) ctl log
  := by
  have hsleep : ∀ log, Uncollected ctl.childPid log →
      Ends (do posix (.sleepFor pollInterval); return .inl ())
        (fun (r : Unit ⊕ Option Status) ctl' log =>
          r.elim (fun _ => ctl = ctl' ∧ Uncollected ctl.childPid log)
            fun result => AfterPolling ctl result ctl' log) ctl log := by
    intro log h
    apply ends_posix
    intro a
    apply ends_pure
    exact ⟨rfl, h.call (by rintro _ _ ⟨⟩)⟩
  apply ends_posix
  intro time
  have hnow : Uncollected ctl.childPid (log ++ [⟨.inr .now, time⟩]) := by
    apply h.call
    rintro _ _ ⟨⟩
  split
  · apply ends_pure
    exact ⟨rfl, hnow⟩
  · apply Locked.keeps_get
    apply ends_posix
    rintro (error | _ | ⟨pid, waitStatus⟩)
    · dsimp only
      split
      · rintro _ rfl
        intro _
        apply (hnow.waitpid (by rintro _ ⟨⟩)).accounts
      · apply ends_pure
        rintro ⟨⟩
    · apply hsleep _ (hnow.waitpid (by rintro _ ⟨⟩))
    · dsimp only
      split
      · rename_i hpid
        subst hpid
        rintro _ rfl
        intro _
        apply hnow.accounts_child .polled
      · rename_i hpid
        apply hsleep
        apply hnow.waitpid
        rintro _ ⟨⟩
        apply hpid rfl

/-- The wait after the deadline. -/
theorem ends_awaitChild (h : Uncollected pid log) :
  Ends (awaitChild .stopUnlocked pid ()) (fun r ctl' log =>
    r.elim (fun _ => ctl = ctl' ∧ Uncollected pid log)
      fun result => result = .ok () → Accounts pid log stoppedStatus) ctl log
  := by
  apply ends_posix
  rintro (error | _ | ⟨pid', waitStatus⟩)
  · have hfailed : ∀ waitStatus, Waited.failed error ≠ .child pid waitStatus := by
      rintro _ ⟨⟩
    dsimp only
    split
    · apply ends_pure
      exact ⟨rfl, h.waitpid hfailed⟩
    · split
      · apply ends_pure
        exact fun _ => (h.waitpid hfailed).accounts
      · apply ends_pure
        rintro ⟨⟩
  · apply ends_pure
    exact fun _ => (h.waitpid (by rintro _ ⟨⟩)).accounts
  · apply ends_pure
    intro _
    by_cases hpid : pid' = pid
    · subst hpid
      apply h.accounts_child .forced
    · apply Uncollected.accounts
      apply h.waitpid
      rintro _ ⟨⟩
      apply hpid rfl

theorem ends_forceStop (h : Uncollected ctl.childPid log) :
  Ends forceStop (fun status ctl' log => status = .ok () → Accounts ctl.childPid log ctl'.status)
    ctl log
  := by
  apply Locked.keeps_get
  apply ends_bind (ends_killChild h _ _)
  rintro (error | _) _ log ⟨rfl, h⟩
  · apply ends_pure
    rintro ⟨⟩
  · apply ends_bind (R := fun result _ log =>
      result = .ok () → Accounts ctl.childPid log stoppedStatus)
    · apply ends_repeatUntil (fun _ ctl' log => ctl = ctl' ∧ Uncollected ctl.childPid log) ⟨rfl, h⟩
      rintro _ _ log ⟨rfl, h⟩
      apply ends_awaitChild h
    · rintro (error | _) ctl' log haccounts
      · apply ends_pure
        rintro ⟨⟩
      · rintro _ rfl
        intro _
        apply haccounts rfl

/-- A stop that returns ok has set one of the statuses that are set where the child is collected. -/
theorem ends_stopUnlocked (timeout : ℤ) (h : Uncollected ctl.childPid log)
    (hstate : ctl.status.state = .running) :
  Ends (stopUnlocked timeout)
    (fun status ctl' log => status = .ok () → Accounts ctl.childPid log ctl'.status) ctl log
  := by
  apply ends_bind (ends_reapExitedUnlocked h hstate)
  rintro _ ctl' log (⟨rfl, h⟩ | ⟨hne, haccounts⟩)
  · apply Locked.keeps_get
    rw [if_neg (not_not.mpr hstate)]
    apply ends_bind (ends_killChild h _ _)
    rintro (error | _) _ log ⟨rfl, h⟩
    · apply ends_pure
      rintro ⟨⟩
    · apply ends_posix
      intro time
      apply ends_bind (R := AfterPolling ctl)
      · apply ends_repeatUntil (fun _ ctl' log => ctl = ctl' ∧ Uncollected ctl.childPid log)
        · exact ⟨rfl, h.call (by rintro _ _ ⟨⟩)⟩
        · rintro _ _ log ⟨rfl, h⟩
          apply ends_pollChild h
      · rintro (_ | status) ctl' log hpolled
        · obtain ⟨rfl, h⟩ := hpolled
          apply ends_forceStop h
        · apply ends_pure
          apply hpolled
  · apply Locked.keeps_get
    rw [if_pos hne]
    apply ends_pure
    exact fun _ => haccounts

/-! ### The status -/

/-- In every run of a stop of a running controller that returns ok and in which `waitpid` returns the
child, with an exit code or a signal: the status is that of an expected end with this wait status if
and only if the child has been collected by the loop that polls until the deadline, or has exited
with the code 0. -/
theorem stopUnlocked_status {timeout : ℤ} {ctl' : Controller} (hstate : ctl.status.state = .running)
    (hrun : (stopUnlocked timeout ctl).Runs Prog.record [] (.ok (), ctl') log) {reaper : Reaper}
    {options : WaitOptions} {waitStatus : WaitStatus} (hends : waitStatus.Ends)
    (hcollects : Collects log reaper options ctl.childPid waitStatus) :
  ctl'.status = decodeExitedStatus waitStatus true ↔
    reaper = .stopUnlocked ∧ options = .noHang ∨ waitStatus = .exited 0
  := by
  have hnone : Uncollected ctl.childPid [] := by
    rintro _ _ _ ⟨⟩
  have haccounts := Prog.wp_runs Eq.refl hrun (ends_stopUnlocked timeout hnone hstate) log rfl rfl
    reaper options waitStatus hcollects
  generalize hstatus : ctl'.status = status at haccounts
  cases haccounts with
  | polled => exact iff_of_true rfl (.inl ⟨rfl, rfl⟩)
  | first =>
    cases waitStatus with
    | other => cases hends
    | signaled signal => simp [decodeExitedStatus]
    | exited code => simp [decodeExitedStatus, eq_comm]
  | forced =>
    cases waitStatus with
    | other => cases hends
    | signaled signal =>
      have hne : signal ≠ 0 := hends
      simpa [decodeExitedStatus, stoppedStatus, eq_comm] using hne
    | exited code => simp [decodeExitedStatus, stoppedStatus, eq_comm]

/-- A controller that runs a child with the pid 7. -/
def runningController : Controller :=
  { status := runningStatus "process running", childPid := 7 }

/-- The calls of a stop until it looks at the clock for its deadline. -/
def stoppingLog : Log :=
  [⟨.inr (.waitpid .reapExitedUnlocked 7 .noHang), Waited.notYet⟩,
    ⟨.inr (.kill 7 sigTerm), (.ok () : Except OsError Unit)⟩, ⟨.inr .now, (0 : ℤ)⟩]

/-- A child that exits with the code 3 while the loop polls is reported with this code. -/
theorem stopUnlocked_status_polled :
  ∃ (ctl' : Controller) (log : Log),
    (stopUnlocked 500 runningController).Runs Prog.record [] (.ok (), ctl') log ∧
    ctl'.status = decodeExitedStatus (.exited 3) true
  := by
  let ctl' : Controller := { status := decodeExitedStatus (.exited 3) true, childPid := -1 }
  let log : Log := stoppingLog ++ [⟨.inr .now, (0 : ℤ)⟩,
    ⟨.inr (.waitpid .stopUnlocked 7 .noHang), Waited.child 7 (.exited 3)⟩]
  have hrun : (stopUnlocked 500 runningController).Runs Prog.record [] (.ok (), ctl') log := by
    apply Prog.runs_record Waited.notYet
    apply Prog.runs_record (.ok () : Except OsError Unit)
    apply Prog.runs_record (0 : ℤ)
    apply Prog.Runs.loop
    · apply Prog.runs_record (0 : ℤ)
      apply Prog.runs_record (Waited.child 7 (.exited 3))
      exact .ret
    · exact .ret
  have hends : WaitStatus.Ends (.exited 3) := trivial
  have hcollects : Collects log .stopUnlocked .noHang 7 (.exited 3) :=
    List.mem_append_right _ (.tail _ (.head _))
  refine ⟨ctl', log, hrun, ?_⟩
  apply (stopUnlocked_status rfl hrun hends hcollects).mpr
  exact .inl ⟨rfl, rfl⟩

/-- A child that is killed after the deadline is reported as if it had exited with the code 0. -/
theorem not_stopUnlocked_status :
  ∃ (ctl' : Controller) (log : Log),
    (stopUnlocked 0 runningController).Runs Prog.record [] (.ok (), ctl') log ∧
    Collects log .stopUnlocked .block 7 (.signaled sigKill) ∧
    ctl'.status ≠ decodeExitedStatus (.signaled sigKill) true
  := by
  let ctl' : Controller := { status := stoppedStatus, childPid := -1 }
  let log : Log := stoppingLog ++ [⟨.inr .now, (0 : ℤ)⟩,
    ⟨.inr (.kill 7 sigKill), (.ok () : Except OsError Unit)⟩,
    ⟨.inr (.waitpid .stopUnlocked 7 .block), Waited.child 7 (.signaled sigKill)⟩]
  have hrun : (stopUnlocked 0 runningController).Runs Prog.record [] (.ok (), ctl') log := by
    apply Prog.runs_record Waited.notYet
    apply Prog.runs_record (.ok () : Except OsError Unit)
    apply Prog.runs_record (0 : ℤ)
    apply Prog.Runs.loop
    · apply Prog.runs_record (0 : ℤ)
      exact .ret
    · apply Prog.runs_record (.ok () : Except OsError Unit)
      apply Prog.Runs.loop
      · apply Prog.runs_record (Waited.child 7 (.signaled sigKill))
        exact .ret
      · exact .ret
  have hcollects : Collects log .stopUnlocked .block 7 (.signaled sigKill) :=
    List.mem_append_right _ (.tail _ (.tail _ (.head _)))
  refine ⟨ctl', log, hrun, hcollects, ?_⟩
  decide

end Controller

end OpcuaServer
