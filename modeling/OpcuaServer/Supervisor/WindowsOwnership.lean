import OpcuaServer.Supervisor.ClientRuns
import OpcuaServer.Supervisor.WindowsSafety

/-!
# One daemon at a time on Windows

What holds of the controller, its handles and its processes in every configuration that a client
reaches: no handle is used once it has been closed, and all are closed once by the destructor
(`WindowsHost.handle_discipline`). Unless a reap's wait fails on a live process, a live process is
never forgotten (`WindowsHost.keepsLive`). Unless a reap comes upon the end of a process that a stop
has told to end, this process is not reported as crashed (`WindowsHost.reportsStop`).
-/

namespace OpcuaServer

open WindowsController

namespace WindowsHost

variable {faults : ReapFaults} {multiByteToWideChar : Bytes → Option CommandLine.Wide}
  {executablePath : Bytes} {args : List Bytes} {c : WindowsConfig}

/-! ### Runs -/

/-- The conversion of an ASCII string. -/
def widen (value : Bytes) : Option CommandLine.Wide :=
  some (value.map UInt8.toUInt16)

/-- A controller of a daemon with the path `d`. -/
abbrev daemon : Platform WindowsController WindowsCall WindowsCall.Answer :=
  processController widen [0x64] []

/-- A client of this controller in a world. -/
abbrev clientIn (w : WindowsHost) : WindowsConfig :=
  ⟨fun _ => Supervisor.client daemon, w⟩

/-- A client of this controller in a world, where an operation returns. -/
abbrev returningIn (operation : Operation) (reply : operation.Reply) (w : WindowsHost) :
    WindowsConfig :=
  ⟨fun _ => Supervisor.clientReturning daemon operation reply, w⟩

/-- A call of the client, before which processes may have ended. -/
abbrev Calls (faults : ReapFaults) (call : ControllerCall WindowsController ⊕ WindowsCall) :
    WindowsHost → Sum.elim ControllerCall.Answer WindowsCall.Answer call → WindowsHost → Prop :=
  Threads.AfterEnv (windowsControllers faults) () (.inl call)

theorem runs_calls {α : Type} {p : ControllerProg WindowsController WindowsCall WindowsCall.Answer α}
    {a : α} {w w' : WindowsHost} (h : p.Runs (fun call => Step faults (.inl call)) w a w') :
  p.Runs (Calls faults) w a w'
  := h.mono fun _ _ _ _ => Threads.afterEnv_of_step

section

variable {w w' : WindowsHost} {operation : Operation} {reply : operation.Reply}

/-- A client can run an operation until it returns. -/
theorem reaches_returning (hdestroyed : w.destroyed = false)
    (hrun : (daemon.run operation).Runs (Calls faults) w reply w') :
  Threads.Reaches (windowsControllers faults) (clientIn w) (returningIn operation reply w')
  := by
  have hnext : Step faults (.inr .nextOperation) w (some operation) w := by
    apply Step.nextOperation
    intro htrue
    rw [hdestroyed] at htrue
    cases htrue
  have hreach : Threads.Reaches (windowsControllers faults) ⟨Function.update _ () _, w⟩
      ⟨Function.update (fun _ => Supervisor.client daemon) () _, w'⟩ :=
    Supervisor.reaches_returning hnext Step.called hrun
  rw [Function.update_eq_self] at hreach
  have hprogs : Function.update (fun _ => Supervisor.client daemon) ()
      (Supervisor.clientReturning daemon operation reply) =
      fun _ => Supervisor.clientReturning daemon operation reply := by
    funext _
    apply Function.update_self
  rw [hprogs] at hreach
  apply hreach

/-- A client can run an operation and go on with the next one. -/
theorem reaches_returned (hdestroyed : w.destroyed = false)
    (hrun : (daemon.run operation).Runs (Calls faults) w reply w') :
  Threads.Reaches (windowsControllers faults) (clientIn w) (clientIn (w'.finish operation))
  := by
  have hstep : Threads.Step (windowsControllers faults) (returningIn operation reply w')
      ⟨Function.update _ () _, w'.finish operation⟩ := .call rfl Step.returned
  have hprogs : Function.update (fun _ => Supervisor.clientReturning daemon operation reply) ()
      (Supervisor.client daemon) = fun _ => Supervisor.client daemon := by
    funext _
    apply Function.update_self
  rw [hprogs] at hstep
  exact (reaches_returning hdestroyed hrun).tail hstep

end

/-- The host when the client has started the daemon. -/
def startedHost : WindowsHost where
  controller := ⟨⟨.running, 0, ascii "process running"⟩, 4⟩
  shutdownRequested := false
  processes := [{}]
  handles := [⟨8, .thread 0, 1⟩, ⟨4, .process 0, 0⟩]
  destroyed := false

theorem runs_start (faults : ReapFaults) :
  (daemon.run .start).Runs (fun call => Step faults (.inl call)) start (.ok ()) startedHost
  := by
  have hfresh : start.Fresh ⟨4, 8⟩ := by
    refine ⟨by decide, by decide, by decide, ?_, ?_⟩
    · apply Handles.allClosed_nil.not_isOpen
    · apply Handles.allClosed_nil.not_isOpen
  refine .call Step.lock ?_
  refine .call Step.loadShutdownRequested ?_
  refine .call (Step.create hfresh) ?_
  refine .call (@Step.close _ _ _ true) ?_
  refine .call Step.unlock ?_
  exact .ret

theorem reaches_started (faults : ReapFaults) :
  Threads.Reaches (windowsControllers faults) (windowsStart widen [0x64] []) (clientIn startedHost)
  := reaches_returned rfl (runs_calls (runs_start faults))

/-! ### Handles -/

/-- The members of a controller that tracks its handles. -/
theorem running_iff_of_tracks {ctl : WindowsController} {w : WindowsHost}
    (h : ctl.Tracks faults w) :
  (ctl.status.state = .running ↔ ctl.processHandle ≠ 0) ∧
    (ctl.processHandle = 0 → w.handles.AllClosed) ∧
    (ctl.processHandle ≠ 0 → ∃ n, w.handles.Sole ctl.processHandle (.process n))
  := by
  cases h with
  | nobody hstate hhandle hclosed =>
    exact ⟨iff_of_false hstate (not_not.mpr hhandle), fun _ => hclosed,
      fun hne => absurd hhandle hne⟩
  | @child n hstate hhandle hsole =>
    exact ⟨iff_of_true hstate hhandle, fun hzero => absurd hzero hhandle, fun _ => ⟨n, hsole⟩⟩

/-- Whatever an operation other than the destructor returns, the members track everything. -/
theorem Returns.tracks {w : WindowsHost} {operation : Operation} {reply : operation.Reply}
    (h : Returns faults w operation reply) (hne : operation ≠ .destroy) :
  w.controller.Tracks faults w
  := by
  cases operation with
  | destroy => exact absurd rfl hne
  | status => apply h.2
  | start | stop timeout | restart timeout | requestShutdown | reapExited => apply h

/-- In every configuration that a client of a controller reaches: a handle is closed, waited for,
terminated or queried only while it is open. A process is created only where every handle has been
closed exactly once. When an operation returns, the controller runs if and only if
`process_handle_` is not null, which is then the only open handle, and every other has been closed
exactly once. When the destructor returns, every handle has been closed exactly once. -/
theorem handle_discipline
    (hreach : Threads.Reaches (windowsControllers faults)
      (windowsStart multiByteToWideChar executablePath args) c) :
  (∀ call handle k, c.progs () = .call (.inl (.inr call)) k → usedHandle call = some handle →
    c.world.handles.IsOpen handle) ∧
  (∀ applicationName commandLine k,
    c.progs () = .call (.inl (.inr (.createProcess applicationName commandLine))) k →
    c.world.handles.AllClosed) ∧
  (∀ operation reply k, c.progs () = .call (.inr (.returned operation reply)) k →
    operation ≠ .destroy →
    (c.world.controller.status.state = .running ↔ c.world.controller.processHandle ≠ 0) ∧
    (c.world.controller.processHandle = 0 → c.world.handles.AllClosed) ∧
    (c.world.controller.processHandle ≠ 0 →
      ∃ n, c.world.handles.Sole c.world.controller.processHandle (.process n))) ∧
  ∀ reply k, c.progs () = .call (.inr (.returned .destroy reply)) k → c.world.handles.AllClosed
  := by
  refine ⟨?_, ?_, ?_, ?_⟩
  · intro call handle k hprog hused
    have hguard := guard_of_reaches hreach hprog
    cases call with
    | createProcess => cases hused
    | closeHandle | terminateProcess | waitForSingleObject | getExitCodeProcess | getLastError =>
      apply hguard handle hused
  · intro _ _ k hprog
    apply (guard_of_reaches hreach hprog).2
  · intro operation reply k hprog hne
    have hreturns : Returns faults c.world operation reply := guard_of_reaches hreach hprog
    apply running_iff_of_tracks (hreturns.tracks hne)
  · intro reply k hprog
    apply guard_of_reaches hreach hprog

/-- The handle of a started daemon is the only open one. -/
theorem handle_discipline_started :
  ∃ n, startedHost.handles.Sole 4 (.process n)
  := by
  have hreach : Threads.Reaches (windowsControllers ⟨True, True⟩) (windowsStart widen [0x64] [])
      (returningIn .start (.ok ()) startedHost) :=
        reaches_returning rfl (runs_calls (runs_start ⟨True, True⟩))
  have hstarted := (handle_discipline hreach).2.2.1 .start (.ok ()) _ rfl (by rintro ⟨⟩)
  apply hstarted.2.2
  decide

/-! ### Live processes -/

/-- When an operation returns, a live process is the one that `process_handle_` refers to, and the
state is `kRunning`. A process is created only where every other has ended. -/
structure KeepsLive (c : WindowsConfig) : Prop where
  returned : ∀ operation reply k, c.progs () = .call (.inr (.returned operation reply)) k →
    operation ≠ .destroy → ∀ (n : ℕ) (p : WindowsProcess), c.world.processes[n]? = some p → p.ended = none →
    c.world.controller.status.state = .running ∧
      c.world.RefersTo c.world.controller.processHandle n p
  created : ∀ applicationName commandLine k,
    c.progs () = .call (.inl (.inr (.createProcess applicationName commandLine))) k →
    ∀ (n : ℕ) (p : WindowsProcess), c.world.processes[n]? = some p → p.ended ≠ none

/-- In every configuration that a client of a controller reaches without a failed wait of a reap for
a live process, no live process is forgotten. -/
theorem keepsLive (hwait : ¬ faults.waitFails)
    (hreach : Threads.Reaches (windowsControllers faults)
      (windowsStart multiByteToWideChar executablePath args) c) :
  KeepsLive c
  := by
  constructor
  · intro operation reply k hprog hne n p hp hended
    have hreturns : Returns faults c.world operation reply := guard_of_reaches hreach hprog
    cases hreturns.tracks hne with
    | nobody _ _ _ hnone => cases hnone hwait n p hp hended
    | child hstate _ hsole _ honly =>
      obtain rfl := honly hwait n p hp hended
      exact ⟨hstate, hsole.refers, hp⟩
  · intro _ _ k hprog n p hp
    apply (guard_of_reaches hreach hprog).1 hwait n p hp

/-- A started daemon that lives is the controller's. -/
theorem keepsLive_started :
  startedHost.RefersTo 4 0 {}
  := by
  have hreach : Threads.Reaches (windowsControllers ⟨False, False⟩) (windowsStart widen [0x64] [])
      (returningIn .start (.ok ()) startedHost) :=
        reaches_returning rfl (runs_calls (runs_start ⟨False, False⟩))
  apply ((keepsLive id hreach).returned .start (.ok ()) _ rfl _ 0 {} rfl rfl).2
  rintro ⟨⟩

/-- A client starts a daemon and starts one again while the wait of the reap fails: the first one
lives and is forgotten. -/
theorem not_keepsLive :
  ∃ c, Threads.Reaches (windowsControllers ⟨True, True⟩) (windowsStart widen [0x64] []) c ∧
    ¬ KeepsLive c
  := by
  let faults : ReapFaults := ⟨True, True⟩
  let forgotten : Handles KernelObject := [⟨8, .thread 0, 1⟩, ⟨4, .process 0, 1⟩]
  let w₁ : WindowsHost := { startedHost with handles := forgotten }
  let w₂ : WindowsHost := { startedHost with
    controller := ⟨⟨.running, 0, ascii "process running"⟩, 12⟩
    processes := [{}, {}]
    handles := ⟨16, .thread 1, 1⟩ :: ⟨12, .process 1, 0⟩ :: forgotten }
  have hrefers : startedHost.RefersTo 4 0 {} := ⟨rfl, rfl⟩
  have hfresh : w₁.Fresh ⟨12, 16⟩ := by
    have hclosed : w₁.handles.AllClosed :=
      .cons rfl (.cons rfl Handles.allClosed_nil)
    exact ⟨by decide, by decide, by decide, hclosed.not_isOpen, hclosed.not_isOpen⟩
  have hrun : (daemon.run .start).Runs (fun call => Step faults (.inl call)) startedHost (.ok ())
      w₂ := by
    refine .call Step.lock ?_
    refine .call Step.loadShutdownRequested ?_
    refine .call (Step.waitFailed hrefers (fun _ _ => .intro) fun _ _ => .intro) ?_
    refine .call (@Step.lastError _ _ 6) ?_
    refine .call (@Step.close _ _ _ true) ?_
    refine .call (Step.create hfresh) ?_
    refine .call (@Step.close _ _ _ true) ?_
    refine .call Step.unlock ?_
    exact .ret
  have hreach : Threads.Reaches (windowsControllers faults) (windowsStart widen [0x64] [])
      (returningIn .start (.ok ()) w₂) :=
    (reaches_started faults).trans (reaches_returning rfl (runs_calls hrun))
  refine ⟨_, hreach, ?_⟩
  intro hkeeps
  have hlive := hkeeps.returned .start (.ok ()) _ rfl (by rintro ⟨⟩) 0 {} rfl rfl
  cases hlive.2.1

/-! ### Requested stops -/

/-- When `status` returns, it does not report as crashed a process to which a `TerminateProcess`
has given the code that it has ended with. -/
def ReportsStop (c : WindowsConfig) : Prop :=
  ∀ status k, c.progs () = .call (.inr (.returned .status status)) k →
    ∀ (n : ℕ) (p : WindowsProcess) code, n + 1 = c.world.processes.length → c.world.processes[n]? = some p →
      p.terminated = some code → p.ended = some code → status.state ≠ .crashed

/-- In every configuration that a client of a controller reaches without a reap that comes upon the
end of a process which a stop has told to end, no such process is reported as crashed. -/
theorem reportsStop (hlate : ¬ faults.lateEnd)
    (hreach : Threads.Reaches (windowsControllers faults)
      (windowsStart multiByteToWideChar executablePath args) c) :
  ReportsStop c
  := by
  intro status k hprog n p code hn hp hterminated hended hcrashed
  have hreturns : Returns faults c.world .status status := guard_of_reaches hreach hprog
  obtain ⟨rfl, htracks⟩ := hreturns
  cases htracks with
  | nobody _ _ _ _ htold => apply htold hcrashed hlate n p hn hp ⟨code, hterminated, .inr hended⟩
  | child hstate =>
    rw [hstate] at hcrashed
    cases hcrashed

/-- The host when a stop has told the daemon to end and has not waited for its end. -/
def toldHost : WindowsHost :=
  { startedHost with processes := [{ terminated := some 1 }] }

theorem reaches_told (faults : ReapFaults) :
  Threads.Reaches (windowsControllers faults) (windowsStart widen [0x64] []) (clientIn toldHost)
  := by
  have hrefers : startedHost.RefersTo 4 0 {} := ⟨rfl, rfl⟩
  have hrun : (daemon.run (.stop 0)).Runs (fun call => Step faults (.inl call)) startedHost
      (.error (ascii "process termination timed out")) toldHost := by
    refine .call Step.lock ?_
    refine .call Step.waitTimeout ?_
    refine .call (Step.terminate hrefers) ?_
    refine .call Step.waitTimeout ?_
    refine .call Step.unlock ?_
    exact .ret
  exact (reaches_started faults).trans (reaches_returned rfl (runs_calls hrun))

/-- The host when the daemon has ended as it was told. -/
def endedHost : WindowsHost :=
  { startedHost with processes := [⟨some 1, some 1⟩] }

theorem env_endedHost (faults : ReapFaults) :
  (windowsControllers faults).env toldHost endedHost
  := by
  refine ⟨rfl, id, rfl, ?_, rfl, rfl⟩
  rintro (_ | n) p hp
  · cases hp
    exact ⟨_, rfl, rfl, .inl rfl⟩
  · cases hp

/-- A stop that waits until the daemon has ended has it reported as stopped. -/
theorem reportsStop_stopped :
  ∃ (c : WindowsConfig) (status : ProcessStatus),
    Threads.Reaches (windowsControllers ⟨False, False⟩) (windowsStart widen [0x64] []) c ∧
    c.progs () = Supervisor.clientReturning daemon .status status ∧
    c.world.processes[0]? = some ⟨some 1, some 1⟩ ∧ status.state ≠ .crashed
  := by
  let faults : ReapFaults := ⟨False, False⟩
  let w : WindowsHost := { endedHost with
    controller := ⟨⟨.stopped, 0, ascii "process stopped"⟩, 0⟩
    handles := [⟨8, .thread 0, 1⟩, ⟨4, .process 0, 1⟩] }
  have hrefers : startedHost.RefersTo 4 0 {} := ⟨rfl, rfl⟩
  have hended : endedHost.RefersTo 4 0 ⟨some 1, some 1⟩ := ⟨rfl, rfl⟩
  have hwait : Calls faults (.inr (.waitForSingleObject .stopUnlocked 4 500)) toldHost .object
      endedHost :=
    ⟨endedHost, .single (env_endedHost faults), Step.waitObject hended rfl (by rintro ⟨⟩)⟩
  have hstop : (daemon.run (.stop 500)).Runs (Calls faults) startedHost (.ok ()) w := by
    refine .call (Threads.afterEnv_of_step Step.lock) ?_
    refine .call (Threads.afterEnv_of_step Step.waitTimeout) ?_
    refine .call (Threads.afterEnv_of_step (Step.terminate hrefers)) ?_
    refine .call hwait ?_
    refine .call (Threads.afterEnv_of_step (@Step.close _ _ _ true)) ?_
    refine .call (Threads.afterEnv_of_step Step.unlock) ?_
    exact .ret
  have hstatus : (daemon.run .status).Runs (fun call => Step faults (.inl call)) w
      ⟨.stopped, 0, ascii "process stopped"⟩ w := by
    refine .call Step.lock ?_
    refine .call Step.unlock ?_
    exact .ret
  have hreach : Threads.Reaches (windowsControllers faults) (windowsStart widen [0x64] [])
      (returningIn .status ⟨.stopped, 0, ascii "process stopped"⟩ w) :=
    ((reaches_started faults).trans (reaches_returned rfl hstop)).trans
      (reaches_returning rfl (runs_calls hstatus))
  refine ⟨_, _, hreach, rfl, rfl, ?_⟩
  apply reportsStop id hreach _ _ rfl 0 _ 1 rfl rfl rfl rfl

/-- A stop tells the daemon to end and does not wait long enough: when the daemon has ended, it is
reported as crashed. -/
theorem not_reportsStop :
  ∃ c, Threads.Reaches (windowsControllers ⟨True, True⟩) (windowsStart widen [0x64] []) c ∧
    ¬ ReportsStop c
  := by
  let faults : ReapFaults := ⟨True, True⟩
  let w : WindowsHost := { endedHost with
    controller := ⟨exitedStatus 1, 0⟩
    handles := [⟨8, .thread 0, 1⟩, ⟨4, .process 0, 1⟩] }
  have hrefers : endedHost.RefersTo 4 0 ⟨some 1, some 1⟩ := ⟨rfl, rfl⟩
  have hrun : (daemon.run .status).Runs (fun call => Step faults (.inl call)) endedHost
      (exitedStatus 1) w := by
    refine .call Step.lock ?_
    refine .call (Step.waitObject hrefers rfl fun _ _ => .intro) ?_
    refine .call (Step.exitCode hrefers rfl) ?_
    refine .call (@Step.close _ _ _ true) ?_
    refine .call Step.unlock ?_
    exact .ret
  have hreach : Threads.Reaches (windowsControllers faults) (windowsStart widen [0x64] [])
      (returningIn .status (exitedStatus 1) w) :=
    ((reaches_told faults).tail (.env (env_endedHost faults))).trans
      (reaches_returning rfl (runs_calls hrun))
  refine ⟨_, hreach, ?_⟩
  intro hreports
  apply hreports (exitedStatus 1) _ rfl 0 _ 1 rfl rfl rfl rfl
  decide

end WindowsHost

end OpcuaServer
