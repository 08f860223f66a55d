import OpcuaServer.Daemon.DaemonRuns
import OpcuaServer.Library.Liveness

/-!
# The daemon stops

Once the thread that monitors the signals has been started and a signal has arrived, the process exits
in every fair run, unless another signal ends it (`DaemonHost.stops`). The monitor clears the flag and
ends, then the main thread comes back from the server, joins the monitor and returns.
-/

namespace OpcuaServer

open Forking Daemon

/-- What a thread of the daemon is at. -/
inductive DaemonMode where
  | loading
  | serving
  | monitoring

namespace DaemonMode

/-- The mode a call takes a thread to. -/
inductive Moves : (call : SqliteCall ⊕ DaemonCall) → DaemonMode →
    Sum.elim SqliteCall.Answer DaemonCall.Answer call → DaemonMode → Prop where
  | parent : Moves (.inr .startMonitor) .loading false .serving
  | child : Moves (.inr .startMonitor) .loading true .monitoring
  | stay {call : SqliteCall ⊕ DaemonCall} {mode : DaemonMode}
      {a : Sum.elim SqliteCall.Answer DaemonCall.Answer call} :
      (call = .inr .startMonitor → mode ≠ .loading) → Moves call mode a mode

/-- The answers that end the loops. -/
def Along : DaemonMode → (call : SqliteCall ⊕ DaemonCall) →
    Sum.elim SqliteCall.Answer DaemonCall.Answer call → Prop
  | .serving, .inr .loadRunning, running => running = false
  | .monitoring, .inr .shutdownRequested, requested => requested = true
  | _, _, _ => True

/-- The answer of a call that affects nothing ends the loops. -/
theorem along_of_quiet {mode : DaemonMode} {call : DaemonCall} {a : call.Answer}
    (h : DaemonHost.quiet call = true) :
  Along mode (.inr call) a
  := by
  cases mode with
  | loading => exact trivial
  | serving =>
    cases call with
    | loadRunning => cases h
    | _ => exact trivial
  | monitoring =>
    cases call with
    | shutdownRequested => cases h
    | _ => exact trivial

/-- The modes of the threads of the daemon. The thread that monitors the signals is started once. -/
def modes : Prog.Modes (SqliteCall ⊕ DaemonCall) (Sum.elim SqliteCall.Answer DaemonCall.Answer)
    DaemonMode where
  allowed call mode := call = .inr .startMonitor → mode = .loading
  moves := Moves
  urgent mode := mode ≠ .loading
  along := Along
  stays hurgent _ := .stay fun _ => hurgent

variable {α β : Type} {mode : DaemonMode} {Q : α → DaemonMode → Prop}

/-- A program of the daemon is steady. -/
abbrev SteadyIn (p : DaemonProg α) (Q : α → DaemonMode → Prop) (mode : DaemonMode) : Prop :=
  p.Steady modes Q mode

/-- A call that starts no thread. -/
theorem steady_perform {call : DaemonCall} {k : call.Answer → DaemonProg α}
    (hcall : call ≠ .startMonitor) (h : ∀ a, SteadyIn (k a) Q mode) :
  SteadyIn (perform call >>= k) Q mode
  := by
  constructor
  · intro hstart
    apply absurd (Sum.inr.inj hstart) hcall
  · intro a mode' hmoves
    cases hmoves with
    | stay => apply h
    | parent | child => apply absurd rfl hcall

/-- The programs of the repository start no thread. -/
theorem steady_repository (p : Repository β) {Q : β → DaemonMode → Prop}
    (h : ∀ b, Q b .loading) :
  SteadyIn p.lift Q .loading
  := by
  induction p with
  | ret b => apply h
  | call call k ih =>
    refine ⟨nofun, fun a mode' hmoves => ?_⟩
    cases hmoves with
    | stay => apply ih a h
  | loop body s k ihbody ih =>
    intro s'
    refine ⟨fun hurgent => absurd rfl hurgent, ?_⟩
    apply ihbody s'
    exact fun r => ⟨rfl, fun b _ => ih b h⟩

/-! ### The programs of the daemon -/

theorem steady_serve {server : UaServer} {Q : Status → DaemonMode → Prop}
    (h : ∀ status, Q status .serving) :
  SteadyIn (serve server) Q .serving
  := by
  apply Prog.Steady.bind
  apply Prog.steady_repeatUntil
  · rintro - ⟨⟩ running hrunning
    obtain rfl : running = false := hrunning
    exact rfl
  · rintro ⟨⟩
    apply steady_perform (by rintro ⟨⟩)
    intro running
    cases running with
    | false => exact rfl
    | true =>
      apply steady_perform (by rintro ⟨⟩)
      exact fun _ => rfl
  · rintro ⟨⟩
    change SteadyIn (perform (.uaServerRunShutdown server) >>= fun code =>
      .ret (statusFromOpen62541 code (ascii "UA_Server_run_shutdown"))) _ _
    apply steady_perform (by rintro ⟨⟩)
    exact fun _ => h _

theorem steady_configure {config : ServerConfig} {server : UaServer}
    {Q : Status → DaemonMode → Prop} (h : ∀ status, Q status .serving) :
  SteadyIn (configure config server) Q .serving
  := by
  apply steady_perform (by rintro ⟨⟩)
  rintro (_ | _)
  · apply h
  apply steady_perform (by rintro ⟨⟩)
  intro code
  dsimp only [statusFromOpen62541]
  split_ifs
  swap
  · apply h
  apply steady_perform (by rintro ⟨⟩)
  intro code
  split_ifs
  · apply steady_serve h
  · apply h

theorem steady_run {config : ServerConfig} {Q : Status → DaemonMode → Prop}
    (h : ∀ status, Q status .serving) :
  SteadyIn (run true config) Q .serving
  := by
  unfold run
  cases config.validate with
  | error => apply h
  | ok =>
    apply steady_perform (by rintro ⟨⟩)
    rintro (_ | server)
    · apply h
    apply Prog.Steady.bind
    apply steady_configure
    intro status
    apply steady_perform (by rintro ⟨⟩)
    exact fun _ => h status

theorem steady_signalMonitor {Q : Empty → DaemonMode → Prop} :
  SteadyIn signalMonitor Q .monitoring
  := by
  apply Prog.Steady.bind
  apply Prog.steady_repeatUntil
  · rintro - ⟨⟩ running -
    cases running with
    | false => exact rfl
    | true =>
      intro requested hrequested
      obtain rfl : requested = true := hrequested
      exact rfl
  · rintro ⟨⟩
    apply steady_perform (by rintro ⟨⟩)
    intro running
    cases running with
    | false => exact rfl
    | true =>
      apply steady_perform (by rintro ⟨⟩)
      intro requested
      cases requested with
      | true => exact rfl
      | false =>
        apply steady_perform (by rintro ⟨⟩)
        exact fun _ => rfl
  · rintro ⟨⟩
    apply steady_perform (by rintro ⟨⟩)
    rintro ⟨⟩
    exact ⟨nofun, nofun⟩

theorem steady_printError {message : Bytes} {Q : Int32 → DaemonMode → Prop} (h : Q 1 mode) :
  SteadyIn (Daemon.printError message) Q mode
  := by
  apply steady_perform (by rintro ⟨⟩)
  exact fun _ => h

theorem steady_startMonitor {config : ServerConfig} {Q : Int32 → DaemonMode → Prop}
    (h : ∀ code, Q code .serving) :
  SteadyIn (startMonitor config) Q .loading
  := by
  refine ⟨fun _ => rfl, fun a mode' hmoves => ?_⟩
  cases hmoves with
  | stay hstay => apply absurd rfl (hstay rfl)
  | child =>
    apply Prog.Steady.bind (p := signalMonitor)
    apply steady_signalMonitor
  | parent =>
    apply Prog.Steady.bind (p := run true config)
    apply steady_run
    intro status
    apply steady_perform (by rintro ⟨⟩)
    rintro ⟨⟩
    apply steady_perform (by rintro ⟨⟩)
    rintro ⟨⟩
    cases status with
    | error message => apply steady_printError (h 1)
    | ok => apply h

theorem steady_process (argv : List Bytes) :
  SteadyIn (Daemon.process argv) (fun _ _ => True) .loading
  := by
  have hexit : ∀ {code : Int32} {mode : DaemonMode},
      SteadyIn (perform (.exited code)) (fun _ _ => True) mode := by
    intro code mode
    change SteadyIn (perform (.exited code) >>= Prog.ret) _ _
    apply steady_perform (by rintro ⟨⟩)
    exact fun _ => trivial
  apply Prog.Steady.bind
  apply steady_perform (by rintro ⟨⟩)
  rintro ⟨⟩
  apply steady_perform (by rintro ⟨⟩)
  rintro ⟨⟩
  apply steady_perform (by rintro ⟨⟩)
  rintro (message | ⟨⟩)
  · apply steady_printError hexit
  apply Prog.Steady.bind
  apply Prog.Steady.bind
  apply steady_repository
  intro status
  apply steady_perform (by rintro ⟨⟩)
  rintro ⟨⟩
  cases status with
  | error message => apply steady_printError hexit
  | ok =>
    apply Prog.Steady.bind
    apply steady_perform (by rintro ⟨⟩)
    rintro ⟨⟩
    apply Prog.Steady.bind
    apply steady_repository
    intro result
    apply steady_perform (by rintro ⟨⟩)
    rintro ⟨⟩
    cases result with
    | error message => apply steady_printError hexit
    | ok config => apply steady_startMonitor fun _ => hexit

end DaemonMode

namespace DaemonHost

/-! ### Every run -/

/-- The mode of a thread. -/
def mode : DaemonThread → DaemonHost → DaemonMode
  | .main, w => if w.monitoring then .serving else .loading
  | .monitor, _ => .monitoring

theorem monitoring_step {t : DaemonThread} {call : SqliteCall ⊕ DaemonCall} {w w' : DaemonHost}
    {a : Sum.elim SqliteCall.Answer DaemonCall.Answer call} (h : Step t call w a w') :
  w'.monitoring = w.monitoring
  := by
  cases h with
  | _ => rfl

theorem mode_eq {w w' : DaemonHost} (h : w'.monitoring = w.monitoring) (t : DaemonThread) :
  mode t w' = mode t w
  := by
  cases t with
  | main => rw [mode, mode, h]
  | monitor => rfl

theorem follows :
  Follows daemonThreads DaemonMode.modes mode
  where
  step {t call w a w'} _ h := by
    have heq := mode_eq (monitoring_step h.2)
    refine ⟨?_, fun u _ => heq u⟩
    rw [heq t]
    apply DaemonMode.Moves.stay
    rintro rfl
    cases h.2 with
    | quiet hquiet => cases hquiet
  fork {_ _ _ w _ _ _} hallowed h := by
    cases h.2 with
    | startMonitor =>
      have hloading : mode .main w = .loading := hallowed rfl
      refine ⟨?_, ?_, ?_⟩
      · rw [hloading]
        exact .parent
      · rw [hloading]
        exact .child
      · intro u hmain hmonitor
        cases u with
        | main => cases hmain rfl
        | monitor => cases hmonitor rfl
  leave h u _ := by
    cases h.2 with
    | startMonitor | endMonitor =>
      apply mode_eq
      rfl
  env h u := by
    cases h.2 with
    | arrives | ends =>
      apply mode_eq
      rfl

theorem allSteady_start (argv : List Bytes) :
  AllSteady DaemonMode.modes mode (daemonStart argv)
  := by
  intro t p hp
  cases t with
  | main =>
    cases hp
    apply DaemonMode.steady_process
  | monitor => cases hp

/-- Where the threads are: there is a monitor once it has been started and until it has ended, and
then the flag has been cleared. The handlers had been installed before. -/
structure Monitored (c : DaemonConfig) : Prop where
  main : c.world.ended = none → c.progs .main ≠ none
  handles : c.world.monitoring = true → ∀ signal, c.world.handles signal = true
  monitor : c.progs .monitor ≠ none → c.world.monitoring = true
  started : c.world.monitoring = true → c.progs .monitor ≠ none ∨ c.world.monitorEnded = true
  ended : c.world.monitorEnded = true → c.world.monitoring = true ∧ c.world.running = false

theorem cleared_step {t : DaemonThread} {call : SqliteCall ⊕ DaemonCall}
    {w w' : DaemonHost} {a : Sum.elim SqliteCall.Answer DaemonCall.Answer call}
    (hguard : Guard t call w) (h : Step t call w a w') :
  w'.monitorEnded = w.monitorEnded ∧ (w.running = false → w'.running = false)
  := by
  cases h with
  | storeRunning => exact ⟨rfl, fun _ => (accounted_storeRunning hguard).2⟩
  | _ => exact ⟨rfl, id⟩

/-- A handler that has been installed stays so. -/
theorem handles_step {t : DaemonThread} {call : SqliteCall ⊕ DaemonCall} {w w' : DaemonHost}
    {a : Sum.elim SqliteCall.Answer DaemonCall.Answer call} (h : Step t call w a w')
    {signal : ShutdownSignal} (hhandles : w.handles signal = true) :
  w'.handles signal = true
  := by
  cases h with
  | @installHandler _ signal' =>
    by_cases hsignal : signal = signal'
    · subst hsignal
      exact Function.update_self ..
    · exact (Function.update_of_ne hsignal ..).trans hhandles
  | _ => exact hhandles

theorem monitored_of_reaches {argv : List Bytes} {c : DaemonConfig}
    (h : Reaches daemonThreads (daemonStart argv) c) :
  Monitored c
  := by
  induction h with
  | refl => exact ⟨nofun, nofun, fun h => absurd rfl h, nofun, nofun⟩
  | @tail c c' hreach hstep ih =>
    obtain ⟨_, hstep⟩ := hstep
    have hsafe := (safe_start argv).reaches respects hreach
    have hsome : ∀ {progs : DaemonThread → Option (DaemonProg Unit)} {t u : DaemonThread}
        {p q : DaemonProg Unit}, progs t = some p →
        (Function.update progs t (some q) u ≠ none ↔ progs u ≠ none) := by
      intro progs t u p q hprog
      by_cases hut : u = t
      · subst hut
        rw [Function.update_self, hprog]
        exact ⟨nofun, nofun⟩
      · rw [Function.update_of_ne hut]
    cases hstep with
    | call hprog hcall =>
      have hguard := hsafe.guard respects hprog
      obtain ⟨hnone, hcall⟩ := hcall
      have hmonitoring := monitoring_step hcall
      obtain ⟨hended, hcleared⟩ := cleared_step hguard hcall
      constructor
      · exact fun _ => (hsome hprog).mpr (ih.main hnone)
      · exact fun hstarted signal => handles_step hcall (ih.handles (hmonitoring ▸ hstarted) signal)
      · intro hmonitor
        exact hmonitoring.trans (ih.monitor ((hsome hprog).mp hmonitor))
      · intro hstarted
        apply (ih.started (hmonitoring.symm.trans hstarted)).imp (hsome hprog).mpr hended.trans
      · intro hover
        obtain ⟨hstarted, hrunning⟩ := ih.ended (hended.symm.trans hover)
        exact ⟨hmonitoring.trans hstarted, hcleared hrunning⟩
    | fork hprog hnone hfork =>
      have hguard := hsafe.guard respects hprog
      cases hfork.2 with
      | startMonitor =>
        constructor
        · exact fun _ => (hsome hprog).mpr (ih.main hfork.1)
        · exact fun _ => hguard.2.2
        · exact fun _ => rfl
        · exact fun _ => .inl nofun
        · exact fun hover => ⟨rfl, (ih.ended hover).2⟩
    | leave hprog hleave =>
      cases hleave.2 with
      | startMonitor => exact ⟨nofun, ih.handles, ih.monitor, ih.started, ih.ended⟩
      | endMonitor =>
        have hguard := hsafe.guard respects hprog
        have hstarted := ih.monitor fun hnone => nomatch hnone.symm.trans hprog
        constructor
        · exact ih.main
        · exact ih.handles
        · exact fun _ => hstarted
        · exact fun _ => .inr rfl
        · exact fun _ => ⟨hstarted, hguard.2⟩
    | loop hprog =>
      constructor
      · exact fun hnone => (hsome hprog).mpr (ih.main hnone)
      · exact ih.handles
      · exact fun hmonitor => ih.monitor ((hsome hprog).mp hmonitor)
      · exact fun hstarted => (ih.started hstarted).imp_left (hsome hprog).mpr
      · exact ih.ended
    | env henv =>
      cases henv.2 with
      | arrives => exact ⟨ih.main, ih.handles, ih.monitor, ih.started, ih.ended⟩
      | ends => exact ⟨nofun, ih.handles, ih.monitor, ih.started, ih.ended⟩

/-! ### The daemon stops -/

/-- What has happened stays so. -/
structure Goes (w w' : DaemonHost) : Prop where
  started : w.monitoring = true → w'.monitoring = true
  requested : w.shutdownRequested = true → w'.shutdownRequested = true
  monitorEnded : w.monitorEnded = true → w'.monitorEnded = true
  ended : w.ended.isSome → w'.ended.isSome

theorem goes_of_step {l : Option DaemonThread} {c c' : DaemonConfig}
    (h : Forking.Step daemonThreads l c c') :
  c.world.Goes c'.world
  := by
  cases h with
  | call _ hcall =>
    cases hcall.2 with
    | exited => exact ⟨id, id, id, fun _ => rfl⟩
    | _ => exact ⟨id, id, id, id⟩
  | fork _ _ hfork =>
    cases hfork.2 with
    | startMonitor => exact ⟨fun _ => rfl, id, id, id⟩
  | leave _ hleave =>
    cases hleave.2 with
    | startMonitor => exact ⟨id, id, id, fun _ => rfl⟩
    | endMonitor => exact ⟨id, id, fun _ => rfl, id⟩
  | loop => exact ⟨id, id, id, id⟩
  | env henv =>
    cases henv.2 with
    | arrives => exact ⟨id, fun _ => rfl, id, id⟩
    | ends => exact ⟨id, id, id, fun _ => rfl⟩

/-- The daemon has come to a configuration in which the monitor has been started and a signal has
arrived. -/
structure Stopping (argv : List Bytes) (c : DaemonConfig) : Prop where
  reaches : Reaches daemonThreads (daemonStart argv) c
  started : c.world.monitoring = true
  requested : c.world.shutdownRequested = true

theorem Stopping.step {argv : List Bytes} {l : Option DaemonThread} {c c' : DaemonConfig}
    (h : Stopping argv c) (hstep : Forking.Step daemonThreads l c c') :
  Stopping argv c'
  := by
  have hgoes := goes_of_step hstep
  exact ⟨h.reaches.tail ⟨l, hstep⟩, hgoes.started h.started, hgoes.requested h.requested⟩

/-- The monitor has ended, or the process has. -/
def MonitorOver (c : DaemonConfig) : Prop :=
  c.world.monitorEnded = true ∨ c.world.ended.isSome

theorem MonitorOver.step {l : Option DaemonThread} {c c' : DaemonConfig} (h : MonitorOver c)
    (hstep : Forking.Step daemonThreads l c c') :
  MonitorOver c'
  := h.imp (goes_of_step hstep).monitorEnded (goes_of_step hstep).ended

/-- An answer that a call can always have. -/
def someAnswer : (call : SqliteCall) → call.Answer
  | .exec _ | .prepare _ | .stepWrite _ _ _ => .ok ()
  | .bindText _ _ => .ok []
  | .stepRows => ([], .ok ())

/-- The thread that monitors the signals can move until it has ended, or the process has. -/
theorem Stopping.monitor_moves {argv : List Bytes} {c : DaemonConfig} (h : Stopping argv c)
    (hnot : ¬ MonitorOver c) :
  ∃ c', Forking.Step daemonThreads (some .monitor) c c'
  := by
  obtain ⟨progs, w⟩ := c
  obtain ⟨hmonitor, hended⟩ := not_or.mp hnot
  have hnone : w.ended = none := Option.not_isSome_iff_eq_none.mp hended
  have hsafe := (safe_start argv).reaches respects h.reaches
  have hsome := ((monitored_of_reaches h.reaches).started h.started).resolve_right hmonitor
  obtain ⟨p, hp⟩ := Option.ne_none_iff_exists'.mp hsome
  cases p with
  | ret =>
    obtain ⟨hmain, -⟩ := hsafe.post respects hp
    cases hmain
  | call call k =>
    have hguard := hsafe.guard respects hp
    cases call with
    | inl => cases hguard
    | inr call =>
      cases call with
      | loadRunning => exact ⟨_, .call hp ⟨hnone, .loadRunning⟩⟩
      | shutdownRequested => exact ⟨_, .call hp ⟨hnone, .shutdownRequested⟩⟩
      | sleepFor => exact ⟨_, .call (a := ()) hp ⟨hnone, .quiet rfl⟩⟩
      | storeRunning => exact ⟨_, .call hp ⟨hnone, .storeRunning⟩⟩
      | endMonitor => exact ⟨_, .leave hp ⟨hnone, .endMonitor⟩⟩
      | _ => cases hguard.2
  | loop => exact ⟨_, .loop hp⟩

/-- The monitor ends after a signal has arrived, or the process does, however the others move. -/
theorem Stopping.monitor_ends {argv : List Bytes} {c : DaemonConfig} (h : Stopping argv c) :
  Inevitable daemonThreads .monitor MonitorOver c
  := by
  by_cases hover : MonitorOver c
  · apply inevitable_of_met Stopping.step (fun _ => MonitorOver.step) h hover
  have hsome := ((monitored_of_reaches h.reaches).started h.started).resolve_right
    (not_or.mp hover).1
  obtain ⟨p, hp⟩ := Option.ne_none_iff_exists'.mp hsome
  have hsteady := (allSteady_start argv).reaches follows h.reaches .monitor p hp
  apply inevitable_of_halts Stopping.step (fun _ => MonitorOver.step) _ Stopping.monitor_moves _
    (hsteady.halts nofun) h hp
  · rintro _ _ ⟨-, ⟨⟩⟩
  · intro c c' call k hc hprog hstep hnot
    cases hstep with
    | @call _ _ _ _ _ _ a hprog' hcall =>
      cases hprog'.symm.trans hprog
      refine ⟨a, ?_, rfl⟩
      cases hcall.2 with
      | shutdownRequested => exact hc.requested
      | quiet hquiet => apply DaemonMode.along_of_quiet hquiet
      | _ => exact trivial
    | fork _ _ hfork => cases hfork.2
    | leave _ hleave =>
      cases hleave.2
      cases hnot (.inl rfl)
    | loop hprog' => cases hprog'.symm.trans hprog
    | env henv => cases henv.2

/-- The thread that monitors the signals has ended. -/
structure Joinable (argv : List Bytes) (c : DaemonConfig) : Prop where
  stopping : Stopping argv c
  ended : c.world.monitorEnded = true

theorem Joinable.step {argv : List Bytes} {l : Option DaemonThread} {c c' : DaemonConfig}
    (h : Joinable argv c) (hstep : Forking.Step daemonThreads l c c') :
  Joinable argv c'
  := ⟨h.stopping.step hstep, (goes_of_step hstep).monitorEnded h.ended⟩

/-- The main thread can move until the process has ended. -/
theorem Joinable.main_moves {argv : List Bytes} {c : DaemonConfig} (h : Joinable argv c)
    (hnot : ¬ c.world.ended.isSome) :
  ∃ c', Forking.Step daemonThreads (some .main) c c'
  := by
  obtain ⟨progs, w⟩ := c
  have hnone : w.ended = none := Option.not_isSome_iff_eq_none.mp hnot
  have hsafe := (safe_start argv).reaches respects h.stopping.reaches
  obtain ⟨p, hp⟩ :=
    Option.ne_none_iff_exists'.mp ((monitored_of_reaches h.stopping.reaches).main hnone)
  cases p with
  | ret =>
    obtain ⟨-, hexit⟩ := hsafe.post respects hp
    apply absurd hexit hnot
  | call call k =>
    cases call with
    | inl call =>
      have hcall : daemonThreads.step .main (.inl call) w (someAnswer call) w := ⟨hnone, .sqlite⟩
      exact ⟨_, .call hp hcall⟩
    | inr call =>
      have hguard := hsafe.guard respects hp
      have hsteady := (allSteady_start argv).reaches follows h.stopping.reaches .main _ hp
      suffices hcall : ∃ a w', Step .main (.inr call) w a w' by
        obtain ⟨a, w', hcall⟩ := hcall
        exact ⟨_, .call hp ⟨hnone, hcall⟩⟩
      cases call with
      | endMonitor => cases hguard.2.2
      | startMonitor =>
        -- the monitor has been started before
        have hloading : mode .main w = .loading := hsteady.1 rfl
        rw [mode, h.stopping.started] at hloading
        cases hloading
      | installHandler => exact ⟨_, _, .installHandler⟩
      | openRepository => exact ⟨.ok (), _, .quiet rfl⟩
      | called => exact ⟨(), _, .quiet rfl⟩
      | returned => exact ⟨(), _, .quiet rfl⟩
      | joinMonitor => exact ⟨_, _, .joinMonitor h.ended⟩
      | loadRunning => exact ⟨_, _, .loadRunning⟩
      | storeRunning => exact ⟨_, _, .storeRunning⟩
      | shutdownRequested => exact ⟨_, _, .shutdownRequested⟩
      | sleepFor => exact ⟨(), _, .quiet rfl⟩
      | uaServerNew => exact ⟨_, _, .uaServerNewFails⟩
      | uaServerGetConfig => exact ⟨true, _, .uaServerGetConfig⟩
      | uaServerConfigSetMinimal => exact ⟨.good, _, .uaServerConfigSetMinimal⟩
      | uaServerRunStartup => exact ⟨.good, _, .uaServerRunStartup⟩
      | uaServerRunIterate => exact ⟨(), _, .quiet rfl⟩
      | uaServerRunShutdown => exact ⟨.good, _, .uaServerRunShutdown⟩
      | uaServerDelete => exact ⟨_, _, .uaServerDelete⟩
      | printError => exact ⟨(), _, .quiet rfl⟩
      | exited => exact ⟨_, _, .exited⟩
  | loop => exact ⟨_, .loop hp⟩

/-- The process ends once the monitor has ended, however the others move. -/
theorem Joinable.ends {argv : List Bytes} {c : DaemonConfig} (h : Joinable argv c) :
  Inevitable daemonThreads .main (fun c => c.world.ended.isSome) c
  := by
  have hkept : ∀ {l : Option DaemonThread} {c c' : DaemonConfig}, Joinable argv c →
      c.world.ended.isSome → Forking.Step daemonThreads l c c' → c'.world.ended.isSome :=
    fun _ hended hstep => (goes_of_step hstep).ended hended
  by_cases hended : c.world.ended.isSome
  · apply inevitable_of_met Joinable.step hkept h hended
  obtain ⟨p, hp⟩ := Option.ne_none_iff_exists'.mp
    ((monitored_of_reaches h.stopping.reaches).main (Option.not_isSome_iff_eq_none.mp hended))
  have hsteady := (allSteady_start argv).reaches follows h.stopping.reaches .main p hp
  have hserving : mode .main c.world = .serving := by
    rw [mode, h.stopping.started]
    rfl
  rw [hserving] at hsteady
  apply inevitable_of_halts Joinable.step hkept _ Joinable.main_moves _ (hsteady.halts nofun) h hp
  · rintro _ _ ⟨-, ⟨⟩⟩
  · intro c c' call k hc hprog hstep hnot
    cases hstep with
    | @call _ _ _ _ _ _ a hprog' hcall =>
      cases hprog'.symm.trans hprog
      refine ⟨a, ?_, rfl⟩
      cases hcall.2 with
      | loadRunning => apply ((monitored_of_reaches hc.stopping.reaches).ended hc.ended).2
      | quiet hquiet => apply DaemonMode.along_of_quiet hquiet
      | _ => exact trivial
    | fork hprog' _ hfork =>
      cases hfork.2 with
      | startMonitor =>
        have hsteady := (allSteady_start argv).reaches follows hc.stopping.reaches .main _ hprog'
        have hloading : mode .main _ = .loading := hsteady.1 rfl
        rw [mode, hc.stopping.started] at hloading
        cases hloading
    | leave _ hleave =>
      cases hleave.2
      cases hnot rfl
    | loop hprog' => cases hprog'.symm.trans hprog
    | env henv => cases henv.2

theorem Stopping.of_reaches {argv : List Bytes} {c c' : DaemonConfig} (h : Stopping argv c)
    (hreach : Reaches daemonThreads c c') :
  Stopping argv c'
  := by
  induction hreach with
  | refl => exact h
  | tail _ hstep ih =>
    obtain ⟨_, hstep⟩ := hstep
    apply ih.step hstep

/-- The process has exited, or a signal that does not request a shutdown has ended it. -/
def Stopped (w : DaemonHost) : Prop :=
  (∃ code, w.ended = some (.exited code)) ∨
    ∃ signal : Signal, (∀ handled : ShutdownSignal, signal ≠ handled.number) ∧
      w.ended = some (.signaled signal)

/-- A process that has ended after the monitor had been started has stopped. -/
theorem Stopping.stopped {argv : List Bytes} {c : DaemonConfig} (h : Stopping argv c)
    (hended : c.world.ended.isSome) :
  c.world.Stopped
  := by
  obtain ⟨waitStatus, hstatus⟩ := Option.isSome_iff_exists.mp hended
  cases endsWith_of_reaches h.reaches waitStatus hstatus with
  | stopped => exact .inl ⟨0, hstatus⟩
  | failed => exact .inl ⟨1, hstatus⟩
  | @signaled signal hsignal =>
    have hhandles := (monitored_of_reaches h.reaches).handles h.started
    exact .inr ⟨signal, fun handled => hsignal handled (hhandles handled), hstatus⟩

/-- Once the monitor has been started and a signal has arrived, the process exits in every run that is
fair to both threads, unless a signal that does not request a shutdown ends it. -/
theorem stops {argv : List Bytes} {c : DaemonConfig}
    (h : Reaches daemonThreads (daemonStart argv) c) (hstarted : c.world.monitoring = true)
    (hrequested : c.world.shutdownRequested = true) {r : Run daemonThreads Unit}
    (hfair : ∀ t, r.Fair t) (hc : r.config 0 = c) :
  ∃ i, (r.config i).world.Stopped
  := by
  have hstopping : Stopping argv c := ⟨h, hstarted, hrequested⟩
  obtain ⟨i, hi, hover⟩ := hstopping.monitor_ends.eventually (hfair .monitor) hc
  have hstopping := hstopping.of_reaches (hc ▸ r.reaches hi)
  rcases hover with hmonitor | hended
  · have hjoinable : Joinable argv (r.config i) := ⟨hstopping, hmonitor⟩
    obtain ⟨j, hij, hended⟩ := hjoinable.ends.eventually (hfair .main) rfl
    exact ⟨j, (hstopping.of_reaches (r.reaches hij)).stopped hended⟩
  · exact ⟨i, hstopping.stopped hended⟩

/-- The daemon is sent `SIGTERM` before it has created a server, and it exits. -/
theorem stops_sigTerm :
  ∃ (c : DaemonConfig) (r : Run daemonThreads Unit),
    Reaches daemonThreads (daemonStart []) c ∧ c.world.shutdownRequested = true ∧
    (∀ t, r.Fair t) ∧ r.config 0 = c ∧ ∃ i, (r.config i).world.Stopped
  := by
  obtain ⟨progs, f, hstarted, hmain, hmonitor⟩ := reaches_started
  have harrived := hstarted.env ⟨rfl, @Env.arrives _ .sigTerm rfl⟩
  have h₀ : Reaches daemonThreads
      ⟨progs, { handles := fun _ => true, monitoring := true, shutdownRequested := true }⟩
      ⟨progs, { handles := fun _ => true, monitoring := true, shutdownRequested := true }⟩ := .refl
  -- the monitor ends
  have h₁ := h₀.loop (t := DaemonThread.monitor) hmonitor
  have h₂ := h₁.call (t := DaemonThread.monitor) rfl ⟨rfl, .loadRunning⟩
  have h₃ := h₂.call (t := DaemonThread.monitor) rfl ⟨rfl, .shutdownRequested⟩
  have h₄ := h₃.call (t := DaemonThread.monitor) rfl ⟨rfl, .storeRunning⟩
  have h₅ := h₄.leave (t := DaemonThread.monitor) rfl ⟨rfl, .endMonitor⟩
  -- the server is started, and shut down at once
  have h₆ := h₅.call (t := DaemonThread.main) hmain ⟨rfl, .uaServerNew⟩
  have h₇ := h₆.call (t := DaemonThread.main) (a := true) rfl ⟨rfl, .uaServerGetConfig⟩
  have h₈ := h₇.call (t := DaemonThread.main) (a := .good) rfl ⟨rfl, .uaServerConfigSetMinimal⟩
  have h₉ := h₈.call (t := DaemonThread.main) (a := .good) rfl ⟨rfl, .uaServerRunStartup⟩
  have h₁₀ := h₉.loop (t := DaemonThread.main) rfl
  have h₁₁ := h₁₀.call (t := DaemonThread.main) rfl ⟨rfl, .loadRunning⟩
  have h₁₂ := h₁₁.call (t := DaemonThread.main) (a := .good) rfl ⟨rfl, .uaServerRunShutdown⟩
  have h₁₃ := h₁₂.call (t := DaemonThread.main) rfl ⟨rfl, .uaServerDelete⟩
  -- the main thread ends
  have h₁₄ := h₁₃.call (t := DaemonThread.main) rfl ⟨rfl, .storeRunning⟩
  have h₁₅ := h₁₄.call (t := DaemonThread.main) rfl ⟨rfl, .joinMonitor rfl⟩
  have h₁₆ := h₁₅.call (t := DaemonThread.main) rfl ⟨rfl, .exited⟩
  obtain ⟨r, hr, hfair⟩ := Run.exists_fair (by rintro _ _ _ ⟨-, ⟨⟩⟩) h₁₆ fun
    | .main => .inr ⟨(), rfl⟩
    | .monitor => .inl rfl
  exact ⟨_, r, harrived, rfl, hfair, hr, stops harrived rfl rfl hfair hr⟩

end DaemonHost

end OpcuaServer
