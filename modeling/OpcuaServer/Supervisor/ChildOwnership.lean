import OpcuaServer.Supervisor.ClientRuns
import OpcuaServer.Supervisor.ControllerSafety

/-!
# One daemon at a time

What holds of the controller and the children of its process in every configuration that its
threads reach: the controller owns the only child (`Host.child_ownership`), none is created once
the supervisor has shut down (`Host.shutdown_gate`), and the status tells how the owned child has
ended (`Host.status_of_owned`).
-/

namespace OpcuaServer

open Children Controller

namespace Host

variable {Tid : Type} [DecidableEq Tid] {faults : WaitFaults}

/-! ### Runs of a client -/

section

variable {executablePath : Bytes} {args : List Bytes} {t : Tid} {w w' : Host Tid}
  {operation : Operation} {reply : operation.Reply} {progs : Tid → PosixSupervisor Unit}

/-- A client before it asks for its next operation. -/
abbrev clientOf (executablePath : Bytes) (args : List Bytes) : PosixSupervisor Unit :=
  Supervisor.client (processController executablePath args)

/-- A client where an operation returns. -/
abbrev returning (executablePath : Bytes) (args : List Bytes) (operation : Operation)
    (reply : operation.Reply) : PosixSupervisor Unit :=
  .call (.inr (.returned operation reply)) fun _ => clientOf executablePath args

/-- A client can run an operation until it returns. -/
theorem reaches_returning
    (hrun : ((processController executablePath args).run operation).Runs
      (fun call => Step faults t (.inl call))
      (w.note t fun _ => { late := w.shutdownRequested }) reply w') :
  Threads.Reaches (controllers faults) ⟨Function.update progs t (clientOf executablePath args), w⟩
    ⟨Function.update progs t (returning executablePath args operation reply), w'⟩
  := Supervisor.reaches_returning (Step.supervisor rfl) Step.called
    (hrun.mono fun _ _ _ _ => Threads.afterEnv_of_step)

/-- A client can run an operation and go on with the next one. -/
theorem reaches_returned
    (hrun : ((processController executablePath args).run operation).Runs
      (fun call => Step faults t (.inl call))
      (w.note t fun _ => { late := w.shutdownRequested }) reply w') :
  Threads.Reaches (controllers faults) ⟨Function.update progs t (clientOf executablePath args), w⟩
    ⟨Function.update progs t (clientOf executablePath args), w'.finish t operation reply⟩
  := Supervisor.reaches_returned (Step.supervisor rfl) Step.called
    (hrun.mono fun _ _ _ _ => Threads.afterEnv_of_step) Step.returned

/-- The host when a thread has called an operation and locked the mutex. -/
abbrev entered (w : Host Tid) (t : Tid) : Host Tid :=
  (w.note t fun _ => { late := w.shutdownRequested }).acquire t

/-- The host when the thread has read the flag. -/
abbrev checked (w : Host Tid) (t : Tid) : Host Tid :=
  w.note t fun trace => { trace with check := some w.shutdownRequested }

/-- A start can fork a daemon. -/
theorem runs_start {pid : ℤ} (hpid : 0 < pid) :
  ((processController executablePath args).run .start).Runs (fun call => Step faults t (.inl call))
    ((start : Host Tid).note t fun _ => { late := false }) (.ok ())
    (((((start : Host Tid).entered t).checked t).fork pid).release t
      { status := runningStatus "process running", childPid := pid })
  := by
  let ok : Except OsError Unit := .ok ()
  let mask : Except OsError SignalSet := .ok ∅
  refine .call (Step.lock rfl) ?_
  refine .call Step.loadShutdownRequested ?_
  refine .call (Step.posix (a := ok) rfl) ?_
  refine .call (Step.posix (a := ok) rfl) ?_
  refine .call (Step.posix (a := ok) rfl) ?_
  refine .call (Step.posix (a := ok) rfl) ?_
  refine .call (Step.posix (a := mask) rfl) ?_
  refine .call (Step.fork ⟨hpid, sole_nil.not_refers pid⟩) ?_
  refine .call (Step.posix (a := mask) rfl) ?_
  refine .call (Step.unlock rfl) ?_
  exact .ret

end

/-! ### Ownership -/

omit [DecidableEq Tid] in
/-- The members of a controller that tracks its child. -/
theorem running_iff_of_tracks {ctl : Controller} {children : Children Reaper WaitStatus}
    (h : ctl.Tracks children) :
  (ctl.status.state = .running ↔ 0 < ctl.childPid ∧ ∃ n, children.Refers ctl.childPid n) ∧
    (ctl.status.state ≠ .running → ctl.childPid = -1) ∧
    ∀ m n, children.Unreaped m → children.Refers ctl.childPid n ∨ children.Unreaped n →
      children.Refers ctl.childPid m ∧ m = n
  := by
  cases h with
  | nobody hstate hpid hsole =>
    refine ⟨iff_of_false hstate ?_, fun _ => hpid, ?_⟩
    · rintro ⟨-, n, hrefers⟩
      apply hsole.not_refers _ _ hrefers
    · intro m n hm
      cases (hsole m).mp hm
  | @child k hstate hpid hsole hrefers =>
    refine ⟨iff_of_true hstate ⟨hpid, k, hrefers⟩, fun hne => (hne hstate).elim, ?_⟩
    intro m n hm hn
    obtain rfl := Option.some.inj ((hsole m).mp hm)
    refine ⟨hrefers, ?_⟩
    rcases hn with hn | hn
    · apply Option.some.inj (hsole.eq hn)
    · apply Option.some.inj ((hsole n).mp hn)

/-- In every configuration that clients of a controller reach, while no operation holds the mutex:
the controller runs if and only if `child_pid_` is the positive pid of a child that has not been
reaped, `child_pid_` is -1 otherwise, and every other child has been reaped. An operation that
returns does not hold the mutex. A child is forked only where all have been reaped, and a signal is
sent only to the positive pid of a child that has not been reaped. -/
theorem child_ownership {executablePath : Bytes} {args : List Bytes} {c : SupervisorConfig Tid}
    (hreach : Threads.Reaches (controllers faults) (clientsStart executablePath args) c) :
  (c.world.mutex = none →
    (c.world.controller.status.state = .running ↔
      0 < c.world.controller.childPid ∧
        ∃ n, c.world.children.Refers c.world.controller.childPid n) ∧
    (c.world.controller.status.state ≠ .running → c.world.controller.childPid = -1) ∧
    ∀ n, c.world.children.Unreaped n → c.world.children.Refers c.world.controller.childPid n ∧
      ∀ m, c.world.children.Unreaped m → m = n) ∧
  (∀ t operation reply k, c.progs t = .call (.inr (.returned operation reply)) k →
    c.world.mutex ≠ some t) ∧
  (∀ t k, c.progs t = .call (.inl (.inr .fork)) k → ∀ n, ¬ c.world.children.Unreaped n) ∧
  ∀ t pid signal k, c.progs t = .call (.inl (.inr (.kill pid signal))) k →
    0 < pid ∧ ∃ n, c.world.children.Refers pid n
  := by
  have hsafe : Threads.Safe (controllers faults) (contract faults)
      (clientsStart executablePath args : SupervisorConfig Tid) :=
    safe_clients faults executablePath args
  refine ⟨?_, ?_, ?_, ?_⟩
  · intro hmutex
    obtain ⟨htracks, -⟩ := (inv_of_reaches hsafe inv_start hreach).free hmutex
    obtain ⟨hrunning, hidle, hsole⟩ := running_iff_of_tracks htracks
    refine ⟨hrunning, hidle, ?_⟩
    intro n hn
    exact ⟨(hsole n n hn (.inr hn)).1, fun m hm => (hsole m n hm (.inr hn)).2⟩
  · intro t operation reply k hprog
    apply (Threads.guard_of_reaches (respects faults) hsafe hreach hprog).2.1
  · intro t k hprog n hn
    have hguard := Threads.guard_of_reaches (respects faults) hsafe hreach hprog
    cases (hguard.2.1 n).mp hn
  · intro t pid signal k hprog
    apply (Threads.guard_of_reaches (respects faults) hsafe hreach hprog).2

/-- The host of a client that has started a daemon with the pid 7. -/
def startedHost : Host Unit :=
  ((((start.entered ()).checked ()).fork 7).release ()
    { status := runningStatus "process running", childPid := 7 }).finish () .start (.ok ())

theorem reaches_started (faults : WaitFaults) :
  Threads.Reaches (controllers faults) (clientsStart [] [])
    ⟨Function.update (fun _ => clientOf [] []) () (clientOf [] []), startedHost⟩
  := by
  have hrun : ((processController [] []).run .start).Runs
      (fun call => Step faults () (.inl call)) _ (.ok ()) _ := runs_start (by decide : (0 : ℤ) < 7)
  have hreach : Threads.Reaches _ ⟨Function.update (fun _ => clientOf [] []) () _, _⟩ _ :=
    reaches_returned hrun
  rw [Function.update_eq_self] at hreach
  apply hreach

/-- A started daemon is the controller's. -/
theorem child_ownership_started :
  0 < startedHost.controller.childPid ∧
    ∃ n, startedHost.children.Refers startedHost.controller.childPid n
  := ((child_ownership (reaches_started fun _ _ => False)).1 rfl).1.mp rfl

/-! ### A run of the supervisor and a client -/

section

variable {c : SupervisorConfig (Option Unit)} {w w' : Host (Option Unit)}

/-- The programs of the supervisor and of its client. -/
def both (main client : PosixSupervisor Unit) : Option Unit → PosixSupervisor Unit
  | none => main
  | some _ => client

theorem update_both_none (main client p : PosixSupervisor Unit) :
  Function.update (both main client) none p = both p client
  := by
  funext t
  cases t with
  | none => rfl
  | some => rfl

theorem update_both_some (main client p : PosixSupervisor Unit) :
  Function.update (both main client) (some ()) p = both main p
  := by
  funext t
  cases t with
  | none => rfl
  | some => rfl

section

variable {main client : PosixSupervisor Unit}
  {call : (ControllerCall Controller ⊕ PosixCall) ⊕ SupervisorCall}
  {k : Sum.elim (Sum.elim ControllerCall.Answer PosixCall.Answer) SupervisorCall.Answer call →
    PosixSupervisor Unit}

/-- The supervisor makes a call. -/
theorem reaches_mainCall
    (h : Threads.Reaches (controllers faults) c ⟨both (.call call k) client, w⟩)
    {a : Sum.elim (Sum.elim ControllerCall.Answer PosixCall.Answer) SupervisorCall.Answer call}
    (hstep : Step faults none call w a w') :
  Threads.Reaches (controllers faults) c ⟨both (k a) client, w'⟩
  := by
  rw [← update_both_none (.call call k)]
  apply h.call rfl hstep

/-- The client makes a call. -/
theorem reaches_clientCall
    (h : Threads.Reaches (controllers faults) c ⟨both main (.call call k), w⟩)
    {a : Sum.elim (Sum.elim ControllerCall.Answer PosixCall.Answer) SupervisorCall.Answer call}
    (hstep : Step faults (some ()) call w a w') :
  Threads.Reaches (controllers faults) c ⟨both main (k a), w'⟩
  := by
  rw [← update_both_some main (.call call k)]
  apply h.call rfl hstep

end

section

variable {main client : PosixSupervisor Unit} {σ β : Type} {body : σ → PosixSupervisor (σ ⊕ β)}
  {s : σ} {k : β → PosixSupervisor Unit}

/-- The supervisor goes on with an iteration of a loop. -/
theorem reaches_mainLoop
    (h : Threads.Reaches (controllers faults) c ⟨both (.loop body s k) client, w⟩) :
  Threads.Reaches (controllers faults) c ⟨both (body s >>= Prog.resume body k) client, w⟩
  := by
  rw [← update_both_none (.loop body s k)]
  apply h.loop rfl

/-- The client goes on with an iteration of a loop. -/
theorem reaches_clientLoop
    (h : Threads.Reaches (controllers faults) c ⟨both main (.loop body s k), w⟩) :
  Threads.Reaches (controllers faults) c ⟨both main (body s >>= Prog.resume body k), w⟩
  := by
  rw [← update_both_some main (.loop body s k)]
  apply h.loop rfl

end

/-- The daemon's controller in the supervisor. -/
abbrev daemon : Platform Controller PosixCall PosixCall.Answer :=
  Supervisor.daemonController processController []

/-- The end of the supervisor: the controller is destroyed. -/
def ending (shutDown : PosixSupervisor Int32) : PosixSupervisor Unit := do
  let code ← (do
    let code ← shutDown
    Supervisor.invoke daemon .destroy
    return code : PosixSupervisor Int32)
  Supervisor.perform (.exited code)

/-- The host when the supervisor, which could not start the daemon, has read a signal. -/
def signalledHost : Host (Option Unit) :=
  let failed : Host (Option Unit) :=
    (((start.entered none).checked none).release none {}).finish none .start
      (.error (posixErrorMessage (ascii "sigemptyset") ⟨.eintr, []⟩))
  (((failed.entered none).release none {}).finish none .reapExited ())

/-- The supervisor can read a signal while its client has not yet called an operation. -/
theorem reaches_signalled (faults : WaitFaults) :
  Threads.Reaches (controllers faults) (supervisorStart [])
    ⟨both (ending (Supervisor.shutDown daemon .signal)) (Supervisor.client daemon), signalledHost⟩
  := by
  let opened : Status := .ok ()
  let interrupted : Except OsError Unit := .error ⟨.eintr, []⟩
  have hprogs : (supervisorStart []).progs =
      both (Supervisor.process processController []) (Supervisor.client daemon) := by
    funext t
    cases t with
    | none => rfl
    | some => rfl
  have h₀ : Threads.Reaches (controllers faults) (supervisorStart [])
      ⟨both (Supervisor.process processController []) (Supervisor.client daemon), start⟩ := by
    rw [← hprogs]
    exact .refl
  have h₁ := reaches_mainCall h₀ (a := true) (.supervisor rfl)
  have h₂ := reaches_mainCall h₁ (a := opened) (.supervisor rfl)
  have h₃ := reaches_mainCall h₂ (a := opened) (.supervisor rfl)
  have h₄ := reaches_mainCall h₃ .called
  have h₅ := reaches_mainCall h₄ (.lock rfl)
  have h₆ := reaches_mainCall h₅ .loadShutdownRequested
  have h₇ := reaches_mainCall h₆ (a := interrupted) (.posix rfl)
  have h₈ := reaches_mainCall h₇ (.unlock rfl)
  have h₉ := reaches_mainCall h₈ .returned
  have h₁₀ := reaches_mainCall h₉ (a := ()) (.supervisor rfl)
  have h₁₁ := reaches_mainCall h₁₀ (a := ()) (.supervisor rfl)
  have h₁₂ := reaches_mainLoop h₁₁
  have h₁₃ := reaches_mainCall h₁₂ .called
  have h₁₄ := reaches_mainCall h₁₃ (.lock rfl)
  have h₁₅ := reaches_mainCall h₁₄ (.unlock rfl)
  have h₁₆ := reaches_mainCall h₁₅ .returned
  have h₁₇ := reaches_mainCall h₁₆ (a := false) (.supervisor rfl)
  have h₁₈ := reaches_mainCall h₁₇ (a := (15 : Int32)) (.supervisor rfl)
  have h₁₉ := reaches_mainCall h₁₈ (a := false) (.supervisor rfl)
  exact h₁₉

/-- The host when the client, which had read the flag before the shutdown was requested, has forked
the daemon with the pid 7. -/
def lateHost : Host (Option Unit) :=
  let requested : Host (Option Unit) :=
    ((((signalledHost.entered (some ())).checked (some ())).note none fun _ =>
      { late := false }).request).finish none .requestShutdown ()
  ((requested.fork 7).release (some ())
    { status := runningStatus "process running", childPid := 7 }).finish (some ()) .start (.ok ())

/-- The client can fork the daemon after the supervisor has requested the shutdown. -/
theorem reaches_forkedLate (faults : WaitFaults) :
  Threads.Reaches (controllers faults) (supervisorStart [])
    ⟨both (ending (Supervisor.invoke daemon (.stop 5000) >>= Supervisor.conclude daemon .signal))
      (Supervisor.client daemon), lateHost⟩
  := by
  let ok : Except OsError Unit := .ok ()
  let mask : Except OsError SignalSet := .ok ∅
  have hfresh : Children.Fresh ([] : Children Reaper WaitStatus) 7 :=
    ⟨by decide, sole_nil.not_refers 7⟩
  have h₁ := reaches_clientLoop (reaches_signalled faults)
  have h₂ := reaches_clientCall h₁ (a := some Operation.start) (.supervisor rfl)
  have h₃ := reaches_clientCall h₂ .called
  have h₄ := reaches_clientCall h₃ (.lock rfl)
  have h₅ := reaches_clientCall h₄ .loadShutdownRequested
  -- the flag is set between the last check of it and the fork
  have h₆ := reaches_mainCall h₅ .called
  have h₇ := reaches_mainCall h₆ .storeShutdownRequested
  have h₈ := reaches_mainCall h₇ .returned
  have h₉ := reaches_mainCall h₈ (a := ()) (.supervisor rfl)
  have h₁₀ := reaches_clientCall h₉ (a := ok) (.posix rfl)
  have h₁₁ := reaches_clientCall h₁₀ (a := ok) (.posix rfl)
  have h₁₂ := reaches_clientCall h₁₁ (a := ok) (.posix rfl)
  have h₁₃ := reaches_clientCall h₁₂ (a := ok) (.posix rfl)
  have h₁₄ := reaches_clientCall h₁₃ (a := mask) (.posix rfl)
  have h₁₅ := reaches_clientCall h₁₄ (.fork hfresh)
  have h₁₆ := reaches_clientCall h₁₅ (a := mask) (.posix rfl)
  have h₁₇ := reaches_clientCall h₁₆ (.unlock rfl)
  have h₁₈ := reaches_clientCall h₁₇ .returned
  exact h₁₈

end

/-! ### The shutdown gate -/

/-- Where the gate is closed and no child is left, no child is created any more. -/
theorem children_of_sealed {c c' : SupervisorConfig Tid}
    (hsafe : Threads.Safe (controllers faults) (contract faults) c) (hsealed : c.world.Sealed)
    (hreach : Threads.Reaches (controllers faults) c c') :
  c'.world.children.length = c.world.children.length ∧ c'.world.Sealed
  := by
  apply invariant_of_reaches (J := fun w => w.children.length = c.world.children.length ∧ w.Sealed)
    _ _ hsafe ⟨rfl, hsealed⟩ hreach
  · rintro t call w a w' - hguard hstep ⟨hlength, hsealed⟩
    refine ⟨?_, hsealed.step hguard hstep⟩
    cases hstep with
    | fork =>
      have hpending := hguard.2.pending hsealed.1.1
      rw [hsealed.1.2] at hpending
      cases hpending
    | waitChild hreaps =>
      rw [← hlength, hreaps.2]
      apply List.length_set
    | _ => exact hlength
  · rintro w children hends ⟨hlength, hsealed⟩
    refine ⟨?_, hsealed.1, hsealed.2.age hends.age⟩
    obtain ⟨n, pid, status, -, rfl⟩ := hends
    rw [← hlength]
    apply List.length_set

/-- In every configuration that the supervisor and clients of its controller reach: at most one
child has been forked after a shutdown was first requested, and only by a thread that has held the
mutex since before and has last read the flag before. Once a `Stop` that was called after a
shutdown had been requested has returned ok, all children have been reaped and no further one is
ever created. When the supervisor returns 0, all children have been reaped. -/
theorem shutdown_gate {argv : List Bytes} {c : SupervisorConfig (Option Tid)}
    (hreach : Threads.Reaches (controllers faults) (supervisorStart argv) c) :
  c.world.forkedLate ≤ 1 ∧
  (∀ t k, c.progs t = .call (.inl (.inr .fork)) k → c.world.shutdownRequested = true →
    c.world.forkedLate = 0 ∧ c.world.mutex = some t ∧ c.world.pending = some t ∧
      (c.world.trace t).check = some false) ∧
  (c.world.stopped → (∀ n, ¬ c.world.children.Unreaped n) ∧
    ∀ c', Threads.Reaches (controllers faults) c c' →
      c'.world.children.length = c.world.children.length ∧
        ∀ n, ¬ c'.world.children.Unreaped n) ∧
  ∀ t k, c.progs t = .call (.inr (.exited 0)) k → ∀ n, ¬ c.world.children.Unreaped n
  := by
  have hsafe : Threads.Safe (controllers faults) (contract faults)
      (supervisorStart argv : SupervisorConfig (Option Tid)) := safe_supervisor faults argv
  have hinv := inv_of_reaches hsafe inv_start hreach
  refine ⟨hinv.forkedLate, ?_, ?_, ?_⟩
  · intro t k hprog hrequested
    have hcleared := (Threads.guard_of_reaches (respects faults) hsafe hreach hprog).2.2
    exact ⟨hcleared.forkedLate, hcleared.mutex, hcleared.pending hrequested, hcleared.check⟩
  · intro hstopped
    have hsealed := hinv.stopped hstopped
    constructor
    · intro n hn
      cases (hsealed.2 n).mp hn
    · intro c' hreach'
      obtain ⟨hlength, hsealed'⟩ :=
        children_of_sealed (hsafe.reaches (respects faults) hreach) hsealed hreach'
      use hlength
      intro n hn
      cases (hsealed'.2 n).mp hn
  · intro t k hprog n hn
    have hguard := Threads.guard_of_reaches (respects faults) hsafe hreach hprog
    cases (hguard.2 rfl n).mp hn

/-- A client forks a daemon after the shutdown has been requested. The supervisor stops it, and
returns 0. -/
theorem shutdown_gate_stop :
  ∃ (c : SupervisorConfig (Option Unit)) (k : Unit → PosixSupervisor Unit),
    Threads.Reaches (controllers fun _ _ => False) (supervisorStart []) c ∧
    c.world.forkedLate = 1 ∧ c.world.stopped ∧ c.progs none = .call (.inr (.exited 0)) k ∧
    ∀ n, ¬ c.world.children.Unreaped n
  := by
  let ok : Except OsError Unit := .ok ()
  let served : ApiOutcome := .returned (.ok ())
  have h₁ := reaches_mainCall (reaches_forkedLate fun _ _ => False) .called
  have h₂ := reaches_mainCall h₁ (.lock rfl)
  have h₃ := reaches_mainCall h₂ (.waitNotYet (n := 0) rfl)
  have h₄ := reaches_mainCall h₃ (a := ok) (.posix rfl)
  have h₅ := reaches_mainCall h₄ (a := (0 : ℤ)) (.posix rfl)
  have h₆ := reaches_mainLoop h₅
  have h₇ := reaches_mainCall h₆ (a := (0 : ℤ)) (.posix rfl)
  -- the daemon ends by the signal, and is reaped
  have h₈ := h₇.tail (.env ⟨_, ⟨0, 7, .signaled 15, rfl, rfl⟩, rfl⟩)
  have h₉ := reaches_mainCall h₈ (.waitChild (n := 0) ⟨rfl, rfl⟩)
  have h₁₀ := reaches_mainCall h₉ (.unlock rfl)
  have h₁₁ := reaches_mainCall h₁₀ .returned
  have h₁₂ := reaches_mainCall h₁₁ .called
  have h₁₃ := reaches_mainCall h₁₂ (.lock rfl)
  have h₁₄ := reaches_mainCall h₁₃ (.unlock rfl)
  have h₁₅ := reaches_mainCall h₁₄ .returned
  have h₁₆ := reaches_mainCall h₁₅ (a := ()) (.supervisor rfl)
  have h₁₇ := reaches_mainCall h₁₆ (a := served) (.supervisor rfl)
  have h₁₈ := reaches_mainCall h₁₇ .called
  have h₁₉ := reaches_mainCall h₁₈ (.lock rfl)
  have h₂₀ := reaches_mainCall h₁₉ (.unlock rfl)
  have h₂₁ := reaches_mainCall h₂₀ .returned
  refine ⟨_, _, h₂₁, rfl, .inl (.inl (.inr ⟨rfl, rfl⟩)), rfl, ?_⟩
  exact (shutdown_gate h₂₁).2.2.2 none _ rfl

/-! ### The status -/

/-- The status tells of a crash: of a code other than zero, or of a signal. -/
def TellsCrash (waitStatus : WaitStatus) (status : ProcessStatus) : Prop :=
  (∀ code, waitStatus = .exited code → code ≠ 0 →
    status.state = .crashed ∧ status.exitCode = code) ∧
  ∀ signal, waitStatus = .signaled signal → status.state = .crashed ∧ status.exitCode = signal

theorem tellsCrash_decodeExitedStatus (waitStatus : WaitStatus) :
  TellsCrash waitStatus (decodeExitedStatus waitStatus false)
  := by
  constructor
  · rintro code rfl hcode
    simp [decodeExitedStatus, hcode]
  · rintro signal rfl
    simp [decodeExitedStatus]

omit [DecidableEq Tid] in
/-- The status of a controller is that of the child it owned, if that one has been reaped as a child
that exited by itself. -/
theorem Inv.status_eq {w : Host Tid} (hinv : w.Inv) (hmutex : w.mutex = none) {n : ℕ}
    {waitStatus : WaitStatus} (howned : w.owned = some n)
    (hlife : w.children.life n = some (.reaped .reapExitedUnlocked waitStatus)) :
  w.controller.status = decodeExitedStatus waitStatus false
  := by
  obtain ⟨htracks, hrecorded, hsynced⟩ := hinv.free hmutex
  cases htracks with
  | nobody _ hpid => apply hrecorded hpid n waitStatus howned hlife
  | child _ _ _ hrefers =>
    obtain rfl := Option.some.inj (howned.symm.trans (hsynced _ hrefers))
    obtain ⟨child, hchild, -, hunreaped⟩ := hrefers
    rw [Children.life, hchild, Option.map_some, Option.some.injEq] at hlife
    rw [hlife] at hunreaped
    cases hunreaped

/-- A child that has been reaped stays so. -/
theorem life_of_reaches {c c' : SupervisorConfig Tid}
    (hsafe : Threads.Safe (controllers faults) (contract faults) c)
    (hreach : Threads.Reaches (controllers faults) c c') {n : ℕ} {reaper : Reaper}
    {waitStatus : WaitStatus} (hlife : c.world.children.life n = some (.reaped reaper waitStatus)) :
  c'.world.children.life n = some (.reaped reaper waitStatus)
  := by
  apply invariant_of_reaches (J := fun w => w.children.life n = some (.reaped reaper waitStatus))
    _ _ hsafe hlife hreach
  · intro t call w a w' _ _ hstep hlife
    cases hstep with
    | fork => exact life_append_of_some hlife
    | waitChild hreaps => exact hreaps.life_of_reaped hlife
    | _ => exact hlife
  · exact fun w children hends => hends.life_of_reaped

/-- In every configuration that clients of a controller reach, where `waitpid` does not fail with
`WNOHANG`: `status` returns that the daemon runs if and only if the child that it has waited for,
which is the one that is owned, had not ended then. If the owned child has ended with a code other
than zero or by a signal and has been reaped by `ReapExitedUnlocked`, it returns exactly this as a
crash, and so does the controller have it until it owns another child, with the same diagnostic. -/
theorem status_of_owned (hposix : ∀ errno, ¬ faults .noHang errno) {executablePath : Bytes}
    {args : List Bytes} {c : SupervisorConfig Tid}
    (hreach : Threads.Reaches (controllers faults) (clientsStart executablePath args) c) :
  (∀ t status k, c.progs t = .call (.inr (.returned .status status)) k →
    (status.state = .running ↔ ∃ n, (c.world.trace t).waited = some (n, .alive)) ∧
    (∀ n life, (c.world.trace t).waited = some (n, life) →
      ∃ life', (c.world.trace t).seen = some (n, life')) ∧
    ((c.world.trace t).waited = none → ∀ n life, (c.world.trace t).seen = some (n, life) →
      life.unreaped = false) ∧
    ∀ n waitStatus, (c.world.trace t).seen = some (n, .reaped .reapExitedUnlocked waitStatus) →
      TellsCrash waitStatus status) ∧
  (c.world.mutex = none → ∀ n waitStatus, c.world.owned = some n →
    c.world.children.life n = some (.reaped .reapExitedUnlocked waitStatus) →
    TellsCrash waitStatus c.world.controller.status ∧
      ∀ c', Threads.Reaches (controllers faults) c c' → c'.world.mutex = none →
        c'.world.owned = c.world.owned →
        c'.world.controller.status = c.world.controller.status)
  := by
  have hsafe : Threads.Safe (controllers faults) (contract faults)
      (clientsStart executablePath args : SupervisorConfig Tid) :=
    safe_clients faults executablePath args
  constructor
  · intro t status k hprog
    have hreported : Reported faults (c.world.trace t) status :=
      (Threads.guard_of_reaches (respects faults) hsafe hreach hprog).2.2
    refine ⟨hreported.running hposix, hreported.waited, hreported.reaped hposix, ?_⟩
    intro n waitStatus hseen
    rw [hreported.ended n waitStatus hseen]
    apply tellsCrash_decodeExitedStatus
  · intro hmutex n waitStatus howned hlife
    have hstatus := (inv_of_reaches hsafe inv_start hreach).status_eq hmutex howned hlife
    rw [hstatus]
    use tellsCrash_decodeExitedStatus waitStatus
    intro c' hreach' hmutex' howned'
    have hlife' := life_of_reaches (hsafe.reaches (respects faults) hreach) hreach' hlife
    have hinv' := inv_of_reaches hsafe inv_start (hreach.trans hreach')
    apply hinv'.status_eq hmutex' (howned'.trans howned) hlife'

/-- A daemon that exits with the code 3 is reported as a crash with this code. -/
theorem status_of_owned_exited :
  ∃ (c : SupervisorConfig Unit) (status : ProcessStatus),
    Threads.Reaches (controllers fun _ _ => False) (clientsStart [] []) c ∧
    c.progs () = returning [] [] .status status ∧ status.state = .crashed ∧ status.exitCode = 3
  := by
  let faults : WaitFaults := fun _ _ => False
  let w₁ : Host Unit := { startedHost with children := [⟨7, .zombie (.exited 3)⟩] }
  let ctl : Controller := { status := decodeExitedStatus (.exited 3) false, childPid := -1 }
  let w₂ : Host Unit := { (w₁.entered ()).wait () 0 (.zombie (.exited 3)) with
    children := [⟨7, .reaped .reapExitedUnlocked (.exited 3)⟩] }
  have hends : (controllers faults : Threads.System Unit _ _ _).env startedHost w₁ :=
    ⟨_, ⟨0, 7, .exited 3, rfl, rfl⟩, rfl⟩
  have hreaps : Reaps .reapExitedUnlocked 0 7 (.exited 3) (w₁.entered ()).children w₂.children :=
    ⟨rfl, rfl⟩
  have hstatus : ((processController [] []).run .status).Runs
      (fun call => Step faults () (.inl call)) (w₁.note () fun _ => { late := w₁.shutdownRequested })
      ctl.status (w₂.release () ctl) := by
    refine .call (Step.lock rfl) ?_
    refine .call (Step.waitChild (n := 0) hreaps) ?_
    refine .call (Step.unlock rfl) ?_
    exact .ret
  have hreach : Threads.Reaches (controllers faults) (clientsStart [] []) _ :=
    ((reaches_started faults).tail (.env hends)).trans (reaches_returning hstatus)
  have hprog : Function.update (fun _ => clientOf [] []) ()
      (returning [] [] .status ctl.status) () = returning [] [] .status ctl.status :=
    Function.update_self ..
  have hcrash := (status_of_owned (fun _ => id) hreach).1 () ctl.status _ hprog
  obtain ⟨hstate, hcode⟩ := (hcrash.2.2.2 0 (.exited 3) rfl).1 3 rfl (by decide)
  exact ⟨_, ctl.status, hreach, hprog, hstate, hcode⟩

end Host

end OpcuaServer
