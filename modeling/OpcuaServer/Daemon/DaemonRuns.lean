import OpcuaServer.Config.SaveLoad
import OpcuaServer.Daemon.DaemonRules
import OpcuaServer.Supervisor.PosixController

/-!
# Runs of the daemon

The programs of the daemon keep to the contract of its threads. So its servers are used in order, and
it exits with 0 only after a signal has arrived (`DaemonHost.exits`).
-/

namespace OpcuaServer

open Forking Daemon

namespace DaemonHost

variable {requested : Prop} {x : DaemonThread × DaemonHost}

/-! ### The server -/

/-- How the part of `Run` ends in which there is a server: it does not run, and a signal has arrived
if the part has returned ok. -/
def Served (server : UaServer) (status : Status) (x : DaemonThread × DaemonHost) : Prop :=
  InMain (Serving server .failed) (status = .ok ()) x ∨
    InMain (Serving server .shutDown) (status = .ok ()) x

theorem keeps_iterate {server : UaServer} (h : InMain (Serving server .started) False x) :
  KeepsTo (iterate server ())
    (fun r => r.elim (fun _ => InMain (Serving server .started) False)
      fun _ y => ∀ z, contract.View y z → InMain (Serving server .started) True z) x
  := by
  apply keeps_perform (by rintro ⟨⟩) h
  · exact fun _ _ => ⟨trivial, trivial⟩
  intro running w w' hw hstep
  cases hstep with
  | quiet hquiet => cases hquiet
  | loadRunning =>
    cases hrunning : w.running with
    | false =>
      have harrived : InMain (Serving server .started) True (.main, w) := by
        refine ⟨rfl, hw.accounted, hw.handles, hw.holds, fun _ => ?_⟩
        obtain ⟨_, _, _, _, hstopped⟩ := hw.holds
        apply (hw.accounted hrunning).resolve_right
        rw [hstopped]
        rintro ⟨⟩
      exact fun y hview z hview' => (harrived.view hview).view hview'
    | true =>
      apply keeps_quiet rfl hw
      · exact fun w hw => ⟨hw.holds.getElem?, trivial⟩
      · intro _ y hy
        apply keeps_ret hy
        exact fun z hz => hz

theorem keeps_serve {server : UaServer} (h : InMain (Serving server .started) False x) :
  KeepsTo (serve server) (Served server) x
  := by
  unfold serve
  apply keeps_bind
  apply Prog.wp_mono _ (Prog.wp_repeatUntil (fun _ => InMain (Serving server .started) False)
    (fun _ _ _ hview hy => hy.view hview) h fun _ y hy => keeps_iterate hy)
  rintro ⟨⟩ y hy
  -- the destructor finds no server any more
  change KeepsTo (perform (.uaServerRunShutdown server) >>= fun code =>
    .ret (statusFromOpen62541 code (ascii "UA_Server_run_shutdown"))) _ _
  apply keeps_perform (by rintro ⟨⟩) hy
  · exact fun w hw => ⟨hw.holds.getElem?, trivial⟩
  intro code w w' hw hstep
  cases hstep with
  | quiet hquiet => cases hquiet
  | uaServerRunShutdown =>
    have hshut : InMain (Serving server .shutDown) True (.main, w.enter server .shutDown) :=
      ⟨rfl, hw.accounted, hw.handles, hw.holds.enter _, hw.arrived⟩
    apply keeps_ret hshut
    intro z hz
    exact .inr ⟨hz.main, hz.accounted, hz.handles, hz.holds, fun _ => hz.arrived trivial⟩

/-- A server has been brought to a stage, or it has failed. -/
theorem InMain.advance {server : UaServer} {stage : ServerStage} {w : DaemonHost}
    (h : InMain (Serving server stage) False (.main, w)) (good : Bool) (stage' : ServerStage) :
  InMain (Serving server (if good then stage' else .failed)) False
    (.main, w.advance server good stage')
  := ⟨rfl, h.accounted, h.handles, h.holds.enter _, nofun⟩

theorem keeps_configure {config : ServerConfig} {server : UaServer}
    (h : InMain (Serving server .created) False x) :
  KeepsTo (configure config server) (Served server) x
  := by
  have herror : ∀ {message : Bytes} {y : DaemonThread × DaemonHost},
      InMain (Serving server .failed) False y →
      KeepsTo (.ret (.error message)) (Served server) y := by
    intro message y hy
    apply keeps_ret hy
    intro z hz
    exact .inl ⟨hz.main, hz.accounted, hz.handles, hz.holds, nofun⟩
  unfold configure
  apply keeps_perform (by rintro ⟨⟩) h
  · exact fun w hw => ⟨hw.holds.getElem?, trivial⟩
  intro found w w' hw hstep
  cases hstep with
  | quiet hquiet => cases hquiet
  | uaServerGetConfig =>
  have hconfigurable := hw.advance found .configurable
  cases found with
  | false => apply herror hconfigurable
  | true =>
  apply keeps_perform (by rintro ⟨⟩) hconfigurable
  · exact fun w hw => ⟨hw.holds.getElem?, trivial⟩
  intro code w w' hw hstep
  cases hstep with
  | quiet hquiet => cases hquiet
  | uaServerConfigSetMinimal =>
  have hconfigured := hw.advance (!code.isBad) .configured
  revert hconfigured
  dsimp only [statusFromOpen62541]
  cases code.isBad with
  | true => apply herror
  | false =>
  intro hconfigured
  apply keeps_perform (by rintro ⟨⟩) hconfigured
  · exact fun w hw => ⟨hw.holds.getElem?, trivial⟩
  intro code w w' hw hstep
  cases hstep with
  | quiet hquiet => cases hquiet
  | uaServerRunStartup =>
  have hstarted := hw.advance (!code.isBad) .started
  revert hstarted
  cases code.isBad with
  | true => apply herror
  | false => apply keeps_serve

/-- How `Run` ends: no server is left, and a signal has arrived if it has returned ok. -/
def Ran (status : Status) (x : DaemonThread × DaemonHost) : Prop :=
  InMain Unserved (status = .ok ()) x

theorem keeps_run {config : ServerConfig} (h : InMain Unserved False x) :
  KeepsTo (run true config) Ran x
  := by
  have herror : ∀ {message : Bytes} {y : DaemonThread × DaemonHost}, InMain Unserved False y →
      KeepsTo (.ret (.error message)) Ran y := by
    intro message y hy
    apply keeps_ret hy
    exact fun z hz => ⟨hz.main, hz.accounted, hz.handles, hz.holds, nofun⟩
  unfold run
  cases config.validate with
  | error message => apply herror h
  | ok =>
    apply keeps_perform (by rintro ⟨⟩) h
    · exact fun w hw => ⟨hw.holds.1, trivial⟩
    intro server w w' hw hstep
    cases hstep with
    | quiet hquiet => cases hquiet
    | uaServerNewFails => apply herror hw
    | uaServerNew =>
      apply keeps_bind
      have hcreated : InMain (Serving w.servers.length .created) False
          (.main, { w with servers := w.servers ++ [.created] }) :=
        ⟨rfl, hw.accounted, hw.handles, hw.holds.create, nofun⟩
      apply Prog.wp_mono _ (keeps_configure hcreated)
      · intro status y hserved
        -- the server is deleted whether it has been started or not
        have hdelete : ∀ {stage : ServerStage},
            (stage = .failed ∨ stage = .shutDown) →
            InMain (Serving w.servers.length stage) (status = .ok ()) y →
            KeepsTo (perform (.uaServerDelete w.servers.length) >>= fun _ => .ret status) Ran y := by
          intro stage hstage hy
          apply keeps_perform (by rintro ⟨⟩) hy
          · intro w' hw'
            rw [Permits, hw'.holds.getElem?]
            rcases hstage with rfl | rfl
            · exact ⟨.inl rfl, trivial⟩
            · exact ⟨.inr rfl, trivial⟩
          intro _ w₁ w₂ hw₁ hstep
          cases hstep with
          | quiet hquiet => cases hquiet
          | uaServerDelete =>
            have hdeleted : InMain Unserved (status = .ok ())
                (.main, w₁.enter w.servers.length .deleted) :=
              ⟨rfl, hw₁.accounted, hw₁.handles, (hw₁.holds.enter _).unserved, hw₁.arrived⟩
            apply keeps_ret hdeleted
            exact fun z hz => hz
        rcases hserved with hy | hy
        · apply hdelete (.inl rfl) hy
        · apply hdelete (.inr rfl) hy

/-! ### The monitor -/

/-- The thread that monitors the signals goes on. It can clear the flag if `settled` holds. -/
structure InMonitor (settled : Prop) (x : DaemonThread × DaemonHost) : Prop where
  monitor : x.1 = .monitor
  accounted : x.2.Accounted
  settles : settled → x.2.shutdownRequested = true ∨ x.2.running = false

variable {settled : Prop} {α : Type} {Q : α → DaemonThread × DaemonHost → Prop}

theorem InMonitor.view {y : DaemonThread × DaemonHost} (hview : contract.View x y)
    (h : InMonitor settled x) :
  InMonitor settled y
  := by
  obtain ⟨ht, hrely⟩ := hview
  refine ⟨ht.trans h.monitor, hrely.accounted h.accounted, fun hs => ?_⟩
  apply (h.settles hs).imp hrely.requested hrely.cleared

/-- A call of the thread that monitors the signals. -/
theorem keeps_monitor {call : DaemonCall} {k : call.Answer → DaemonProg α}
    (h : InMonitor settled x) (hguard : ∀ w, InMonitor settled (.monitor, w) → MonitorGuard call w)
    (hk : ∀ a w w', InMonitor settled (.monitor, w) → Step .monitor (.inr call) w a w' →
      KeepsTo (k a) Q (.monitor, w')) :
  KeepsTo (perform call >>= k) Q x
  := by
  rintro ⟨_, w⟩ hview
  obtain rfl : _ = DaemonThread.monitor := (h.view hview).monitor
  have hw := h.view hview
  use ⟨hw.accounted, hguard w hw⟩
  intro a y hfollow
  cases hfollow with
  | step hstep => apply hk a w _ hw hstep.2
  | parent hfork | child hfork => cases hfork.2

theorem keeps_monitorBody (h : InMonitor False x) :
  KeepsTo (monitor ())
    (fun r => r.elim (fun _ => InMonitor False)
      fun _ y => ∀ z, contract.View y z → InMonitor True z) x
  := by
  apply keeps_monitor h
  · exact fun _ _ => trivial
  intro running w w' hw hstep
  cases hstep with
  | quiet hquiet => cases hquiet
  | loadRunning =>
    cases hrunning : w.running with
    | false =>
      have hsettled : InMonitor True (.monitor, w) := ⟨rfl, hw.accounted, fun _ => .inr hrunning⟩
      exact fun y hview z hview' => (hsettled.view hview).view hview'
    | true =>
      apply keeps_monitor hw
      · exact fun _ _ => trivial
      intro requested w w' hw hstep
      cases hstep with
      | quiet hquiet => cases hquiet
      | shutdownRequested =>
        cases hrequested : w.shutdownRequested with
        | true =>
          have hsettled : InMonitor True (.monitor, w) :=
            ⟨rfl, hw.accounted, fun _ => .inl hrequested⟩
          exact fun y hview z hview' => (hsettled.view hview).view hview'
        | false =>
          apply keeps_monitor hw
          · exact fun _ _ => trivial
          intro _ w w' hw hstep
          cases hstep with
          | quiet => exact fun y hview => hw.view hview

theorem keeps_signalMonitor {Q : Empty → DaemonThread × DaemonHost → Prop}
    (h : InMonitor False x) :
  KeepsTo signalMonitor Q x
  := by
  unfold signalMonitor
  apply keeps_bind
  apply Prog.wp_mono _ (Prog.wp_repeatUntil (fun _ => InMonitor False)
    (fun _ _ _ hview hy => hy.view hview) h fun _ y hy => keeps_monitorBody hy)
  rintro ⟨⟩ y hy
  apply keeps_monitor hy
  · exact fun w hw => ⟨rfl, hw.settles trivial⟩
  intro _ w w' hw hstep
  cases hstep with
  | quiet hquiet => cases hquiet
  | storeRunning =>
    have hguard : Guard .monitor (.inr (.storeRunning false)) w :=
      ⟨hw.accounted, rfl, hw.settles trivial⟩
    obtain ⟨haccounted, hcleared⟩ := accounted_storeRunning hguard
    rintro ⟨_, w₁⟩ ⟨rfl, hrely⟩
    exact ⟨⟨hrely.accounted haccounted, hrely.cleared hcleared⟩, nofun⟩

/-! ### The main program -/

/-- No server is left. -/
def AllDeleted (servers : List ServerStage) (_ : Bool) : Prop :=
  ∀ stage ∈ servers, stage = .deleted

/-- How `main` ends. -/
def Exits (code : Int32) (x : DaemonThread × DaemonHost) : Prop :=
  InMain AllDeleted (code = 0) x ∧ (code = 0 ∨ code = 1)

theorem Unserved.allDeleted {P : Prop} (h : InMain Unserved P x) :
  InMain AllDeleted P x
  := ⟨h.main, h.accounted, h.handles, h.holds.1, h.arrived⟩

theorem keeps_printError {message : Bytes} {P : Prop} (h : InMain AllDeleted P x) :
  KeepsTo (Daemon.printError message) Exits x
  := by
  apply keeps_quiet rfl h
  · exact fun _ _ => ⟨trivial, trivial⟩
  · intro _ y hy
    apply keeps_ret hy
    exact fun z hz => ⟨⟨hz.main, hz.accounted, hz.handles, hz.holds, nofun⟩, .inr rfl⟩

theorem keeps_runServer {config : ServerConfig} (h : InMain Unserved False x) :
  KeepsTo (runServer config) Exits x
  := by
  unfold runServer
  apply keeps_bind
  apply Prog.wp_mono _ (keeps_run h)
  intro status y hy
  apply keeps_perform (by rintro ⟨⟩) hy
  · exact fun _ _ => ⟨trivial, rfl⟩
  intro _ w w' hw hstep
  cases hstep with
  | quiet hquiet => cases hquiet
  | storeRunning =>
    have hguard : Guard .main (.inr (.storeRunning false)) w := ⟨hw.accounted, trivial, rfl⟩
    have hcleared : InMain AllDeleted (status = .ok ()) (.main, w.storeRunning .main false) :=
      ⟨rfl, (accounted_storeRunning hguard).1, hw.handles, hw.holds.1, hw.arrived⟩
    apply keeps_perform (by rintro ⟨⟩) hcleared
    · exact fun _ _ => ⟨trivial, trivial⟩
    intro _ w w' hw hstep
    cases hstep with
    | quiet hquiet => cases hquiet
    | joinMonitor =>
      cases status with
      | error message => apply keeps_printError hw
      | ok =>
        apply keeps_ret hw
        intro z hz
        exact ⟨⟨hz.main, hz.accounted, hz.handles, hz.holds, fun _ => hz.arrived rfl⟩, .inl rfl⟩

theorem keeps_startMonitor {config : ServerConfig} (h : InMain Unserved False x) :
  KeepsTo (startMonitor config) Exits x
  := by
  rintro ⟨_, w⟩ hview
  obtain rfl : _ = DaemonThread.main := (h.view hview).main
  have hw := h.view hview
  use ⟨hw.accounted, trivial, hw.handles⟩
  intro a y hfollow
  cases hfollow with
  | step hstep =>
    cases hstep.2 with
    | quiet hquiet => cases hquiet
  | parent hfork =>
    cases hfork.2
    apply keeps_runServer
    exact ⟨rfl, hw.accounted, hw.handles, hw.holds, nofun⟩
  | child hfork =>
    cases hfork.2
    apply keeps_bind (p := signalMonitor)
    apply keeps_signalMonitor
    exact ⟨rfl, hw.accounted, nofun⟩

theorem keeps_loadConfig (h : InMain Unserved False x) :
  KeepsTo loadConfig Exits x
  := by
  apply keeps_bind
  apply keeps_quiet rfl h
  · exact fun _ _ => ⟨trivial, trivial⟩
  intro _ y hy
  apply keeps_repository hy
  intro result y hy
  apply keeps_quiet rfl hy
  · exact fun _ _ => ⟨trivial, trivial⟩
  intro _ y hy
  apply keeps_ret hy
  intro y hy
  cases result with
  | error message => apply keeps_printError (Unserved.allDeleted hy)
  | ok config => apply keeps_startMonitor hy

theorem keeps_start (h : InMain Unserved False x) :
  KeepsTo start Exits x
  := by
  unfold start callInitialize
  apply keeps_bind
  apply keeps_repository h
  intro status y hy
  apply keeps_quiet rfl hy
  · exact fun _ _ => ⟨trivial, trivial⟩
  intro _ y hy
  apply keeps_ret hy
  intro y hy
  cases status with
  | error message => apply keeps_printError (Unserved.allDeleted hy)
  | ok => apply keeps_loadConfig hy

/-- The main thread has installed some of the handlers, and has not created a server. -/
structure Starting (installed : ShutdownSignal → Prop) (x : DaemonThread × DaemonHost) : Prop where
  main : x.1 = .main
  accounted : x.2.Accounted
  handles : ∀ signal, installed signal → x.2.handles signal = true
  holds : Unserved x.2.servers x.2.stopped

theorem keeps_installHandler {installed : ShutdownSignal → Prop} {signal : ShutdownSignal}
    {p : DaemonProg α} (h : Starting installed x)
    (hp : ∀ y, Starting (fun s => installed s ∨ s = signal) y → KeepsTo p Q y) :
  KeepsTo (perform (.installHandler signal) >>= fun _ => p) Q x
  := by
  rintro ⟨_, w⟩ ⟨ht, hrely⟩
  obtain rfl : _ = DaemonThread.main := ht.trans h.main
  obtain ⟨hservers, hstopped, hhandles⟩ := hrely.main h.main
  use ⟨hrely.accounted h.accounted, trivial, trivial⟩
  intro a y hfollow
  cases hfollow with
  | step hstep =>
    cases hstep.2 with
    | quiet hquiet => cases hquiet
    | installHandler =>
      apply hp
      refine ⟨rfl, hrely.accounted h.accounted, ?_, ?_⟩
      · intro s hs
        by_cases hsignal : s = signal
        · subst hsignal
          exact Function.update_self ..
        · apply (Function.update_of_ne hsignal ..).trans
          rw [hhandles]
          apply h.handles s (hs.resolve_right hsignal)
      · change Unserved w.servers w.stopped
        rw [hservers, hstopped]
        exact h.holds
  | parent hfork | child hfork => cases hfork.2

theorem keeps_main {argv : List Bytes} (h : Starting (fun _ => False) x) :
  KeepsTo (Daemon.main argv) Exits x
  := by
  apply keeps_installHandler h
  intro y hy
  apply keeps_installHandler hy
  intro y hy
  have hinstalled : InMain Unserved False y := by
    refine ⟨hy.main, hy.accounted, fun signal => hy.handles signal ?_, hy.holds, nofun⟩
    cases signal with
    | sigInt => exact .inl (.inr rfl)
    | sigTerm => exact .inr rfl
  apply keeps_quiet rfl hinstalled
  · exact fun _ _ => ⟨trivial, trivial⟩
  intro status y hy
  cases status with
  | error message => apply keeps_printError (Unserved.allDeleted hy)
  | ok => apply keeps_start hy

theorem keeps_process (argv : List Bytes) :
  Keeps daemonThreads contract .main (Daemon.process argv) {}
  := by
  unfold Daemon.process
  apply keeps_bind
  have hstart : Starting (fun _ => False) (.main, {}) := ⟨rfl, nofun, nofun, nofun, rfl⟩
  apply Prog.wp_mono _ (keeps_main hstart)
  · rintro code y ⟨hy, hcode⟩
    rintro ⟨_, w⟩ hview
    obtain rfl : _ = DaemonThread.main := (hy.view hview).main
    have hw := hy.view hview
    refine ⟨⟨hw.accounted, hw.holds, ?_⟩, ?_⟩
    · rcases hcode with rfl | rfl
      · exact .inl ⟨rfl, hw.arrived rfl⟩
      · exact .inr rfl
    · intro a y hfollow
      cases hfollow with
      | step hstep =>
        cases hstep.2 with
        | quiet hquiet => cases hquiet
        | exited =>
          rintro ⟨_, w'⟩ ⟨rfl, hrely⟩
          exact ⟨rfl, hrely.ended rfl⟩
      | parent hfork | child hfork => cases hfork.2

/-! ### Every run -/

theorem safe_start (argv : List Bytes) :
  Safe daemonThreads contract (daemonStart argv)
  := by
  intro t p hp
  cases t with
  | main =>
    cases hp
    apply keeps_process
  | monitor => cases hp

/-- A run of the repository is a run of the main thread, which it leaves as it is. -/
theorem runs_repository {α : Type} {p : Repository α} {a : α} {assume : Assumptions}
    {db db' : Database Unit} (h : p.Runs (Database.Succeeds assume ()) db a db') {w : DaemonHost}
    (hended : w.ended = none) :
  Prog.Runs (daemonThreads.step .main) p.lift w a w
  := by
  have hsim : ∀ call (db : Database Unit) a db' (v : DaemonHost),
      Database.Succeeds assume () call db a db' → v = w →
      ∃ v', daemonThreads.step .main (.inl call) v a v' ∧ v' = w := by
    rintro call db a db' v - rfl
    exact ⟨v, ⟨hended, .sqlite⟩, rfl⟩
  obtain ⟨_, hrun, rfl⟩ := h.simulate hsim rfl
  apply hrun.lift

theorem start_bind {α : Type} (f : Int32 → DaemonProg α) :
  ∃ g : Status → DaemonProg α, (start >>= f) = ConfigRepository.initializeRepository.lift >>= g ∧
    g (.ok ()) = perform (.returned (.initialized (.ok ()))) >>= fun _ => loadConfig >>= f
  := by
  simp only [start, callInitialize, Prog.bind_assoc]
  exact ⟨_, rfl, rfl⟩

theorem loadConfig_bind {α : Type} (f : Int32 → DaemonProg α) :
  ∃ g : Result ServerConfig → DaemonProg α,
    (loadConfig >>= f) = (perform (.called .load) >>= fun _ => ConfigRepository.load.lift >>= g) ∧
    ∀ config, g (.ok config) =
      perform (.returned (.loaded (.ok config))) >>= fun _ => startMonitor config >>= f
  := by
  simp only [loadConfig, callLoad, Prog.bind_assoc]
  exact ⟨_, rfl, fun _ => rfl⟩

/-- The default entries are written to an empty database. -/
theorem runs_initialize_default :
  ConfigRepository.initializeRepository.Runs (Database.Succeeds ⟨true, false⟩ ())
    { committed := none, transaction := none } (.ok ())
    { committed := some (KeyedTable.empty.insertAll (boundEntries .default)), transaction := none }
  := Repository.runs_initializeRepository

/-- The default entries are loaded as the default configuration. -/
theorem runs_load_default :
  ConfigRepository.load.Runs (Database.Succeeds ⟨true, false⟩ ())
    { committed := some (KeyedTable.empty.insertAll (boundEntries .default)), transaction := none }
    (.ok .default)
    { committed := some (KeyedTable.empty.insertAll (boundEntries .default)), transaction := none }
  := by
  apply Repository.runs_load_iff.mpr
  refine ⟨rfl, _, .refl _, ?_⟩
  decide +kernel

/-- The main thread loads the default configuration, starts the monitor and is about to create a
server. -/
theorem reaches_started :
  ∃ progs f, Reaches daemonThreads (daemonStart [])
      ⟨progs, { handles := fun _ => true, monitoring := true }⟩ ∧
    progs .main = some (runServer .default >>= fun code => perform (.exited code)) ∧
    progs .monitor = some (signalMonitor >>= f)
  := by
  let f : Int32 → DaemonProg Unit := fun code => perform (.exited code)
  let handled : DaemonHost :=
    { handles := Function.update (Function.update (fun _ => false) .sigInt true) .sigTerm true }
  obtain ⟨g, hstart, hg⟩ := start_bind f
  obtain ⟨g', hload, hg'⟩ := loadConfig_bind f
  have h₀ : Reaches daemonThreads (daemonStart []) (daemonStart []) := .refl
  have h₁ := h₀.call (t := DaemonThread.main) rfl ⟨rfl, .installHandler⟩
  have h₂ := h₁.call (t := DaemonThread.main) rfl ⟨rfl, .installHandler⟩
  have h₃ := h₂.call (t := DaemonThread.main) (a := (.ok () : Status)) rfl ⟨rfl, .quiet rfl⟩
  have hinitialize : Prog.Runs (daemonThreads.step .main) _ handled _ handled :=
    runs_repository runs_initialize_default rfl
  have h₄ := h₃.runs (t := DaemonThread.main) (congrArg some hstart) hinitialize
  have h₅ := h₄.call (t := DaemonThread.main) (a := ()) (congrArg some hg) ⟨rfl, .quiet rfl⟩
  have h₆ := h₅.call (t := DaemonThread.main) (a := ()) (congrArg some hload) ⟨rfl, .quiet rfl⟩
  have h₇ := h₆.runs (t := DaemonThread.main) (f := g') rfl (runs_repository runs_load_default rfl)
  have h₈ := h₇.call (t := DaemonThread.main) (a := ()) (congrArg some (hg' .default))
    ⟨rfl, .quiet rfl⟩
  have hfork : Fork .main .monitor (.inr .startMonitor) handled false true
      { handled with monitoring := true } := .startMonitor
  have h₉ := h₈.fork rfl rfl ⟨rfl, hfork⟩
  have hhandled : handled.handles = fun _ => true := by
    funext signal
    cases signal with
    | sigInt => rfl
    | sigTerm => rfl
  rw [hhandled] at h₉
  exact ⟨_, _, h₉, rfl, rfl⟩

/-- In every run of the daemon, a server of open62541 is configured once, where its configuration has
been obtained, and started once, where it has been configured. It runs, and is shut down once, only
where it has been started. It has been deleted before the next one is created and before `main` has
returned, and not before it has been shut down, or before a call that configures or starts it has
failed. -/
theorem uaServer_permits {argv : List Bytes} {c : DaemonConfig}
    (h : Reaches daemonThreads (daemonStart argv) c) {t : DaemonThread} {call : DaemonCall}
    {k : call.Answer → DaemonProg Unit} (hcall : c.progs t = some (.call (.inr call) k)) :
  c.world.Permits call
  := by
  have hguard := ((safe_start argv).reaches respects h).guard respects hcall
  cases t with
  | main => apply hguard.2.1
  | monitor =>
    cases call with
    | loadRunning | shutdownRequested | sleepFor | endMonitor | storeRunning => exact trivial
    | _ => cases hguard.2

/-- A server that has been started runs. -/
theorem uaServer_permits_runIterate :
  ∃ (c : DaemonConfig) (k : Unit → DaemonProg Unit),
    Reaches daemonThreads (daemonStart []) c ∧
    c.progs .main = some (.call (.inr (.uaServerRunIterate 0 true)) k) ∧
    c.world.Permits (.uaServerRunIterate 0 true)
  := by
  obtain ⟨progs, f, h₀, hmain, -⟩ := reaches_started
  have h₁ := h₀.call (t := DaemonThread.main) hmain ⟨rfl, .uaServerNew⟩
  have h₂ := h₁.call (t := DaemonThread.main) (a := true) rfl ⟨rfl, .uaServerGetConfig⟩
  have h₃ := h₂.call (t := DaemonThread.main) (a := .good) rfl ⟨rfl, .uaServerConfigSetMinimal⟩
  have h₄ := h₃.call (t := DaemonThread.main) (a := .good) rfl ⟨rfl, .uaServerRunStartup⟩
  have h₅ := h₄.loop (t := DaemonThread.main) rfl
  have h₆ := h₅.call (t := DaemonThread.main) rfl ⟨rfl, .loadRunning⟩
  exact ⟨_, _, h₆, rfl, uaServer_permits h₆ (t := .main) rfl⟩

/-! ### The end of the process -/

/-- The process has exited with 0, after a signal has arrived, or with 1, or it has been ended by a
signal for which no handler had been installed. -/
inductive EndsWith (w : DaemonHost) : WaitStatus → Prop where
  | stopped : w.shutdownRequested = true → w.EndsWith (.exited 0)
  | failed : w.EndsWith (.exited 1)
  | signaled {signal : Signal} : w.Unhandled signal → w.EndsWith (.signaled signal)

theorem unhandled_sigAbrt {w : DaemonHost} :
  w.Unhandled .sigAbrt
  := by
  rintro (_ | _) - hnumber
  · cases hnumber
  · cases hnumber

theorem endsWith_of_reaches {argv : List Bytes} {c : DaemonConfig}
    (h : Reaches daemonThreads (daemonStart argv) c) :
  ∀ waitStatus, c.world.ended = some waitStatus → c.world.EndsWith waitStatus
  := by
  induction h with
  | refl => exact nofun
  | @tail c c' hreach hstep ih =>
    obtain ⟨_, hstep⟩ := hstep
    have hsafe := (safe_start argv).reaches respects hreach
    -- a process that has ended does not move
    have hrunning : ∀ {w w' : DaemonHost}, w.ended = none → w'.ended = w.ended →
        ∀ waitStatus, w'.ended = some waitStatus → w'.EndsWith waitStatus := by
      intro w w' hnone hended waitStatus h
      cases (hended.trans hnone).symm.trans h
    apply hsafe.invariant respects
      (J := fun w => ∀ waitStatus, w.ended = some waitStatus → w.EndsWith waitStatus) _ _ _ _ hstep ih
    · rintro t op w a w' hguard ⟨hnone, hcall⟩ -
      cases hcall with
      | exited =>
        rintro _ ⟨⟩
        cases t with
        | main =>
          rcases hguard.2.2 with ⟨rfl, hrequested⟩ | rfl
          · exact .stopped hrequested
          · exact .failed
        | monitor => cases hguard.2
      | _ => exact hrunning hnone rfl
    · rintro t t' op w a b w' _ ⟨hnone, hfork⟩ -
      cases hfork
      exact hrunning hnone rfl
    · rintro t op w w' _ ⟨hnone, hleave⟩ -
      cases hleave with
      | startMonitor =>
        rintro _ ⟨⟩
        exact .signaled unhandled_sigAbrt
      | endMonitor => exact hrunning hnone rfl
    · rintro t w w' ⟨hnone, henv⟩ -
      cases henv with
      | arrives => exact hrunning hnone rfl
      | ends hsignal =>
        rintro _ ⟨⟩
        exact .signaled hsignal

/-- A supervisor that reaps the daemon and has not stopped it reports it as stopped only if it has
exited with 0 after a signal has arrived. Otherwise it reports it as crashed, with 1 as its exit code,
or with the signal that has ended it, for which no handler had been installed. -/
theorem reaped_of_reaches {argv : List Bytes} {c : DaemonConfig}
    (h : Reaches daemonThreads (daemonStart argv) c) {waitStatus : WaitStatus}
    (hended : c.world.ended = some waitStatus) :
  let status := Controller.decodeExitedStatus waitStatus false
  (waitStatus = .exited 0 ∧ c.world.shutdownRequested = true ∧ status.state = .stopped) ∨
    (waitStatus = .exited 1 ∧ status.state = .crashed ∧ status.exitCode = 1 ∧
      status.diagnostic = ascii "process exited unexpectedly with code 1") ∨
    ∃ signal : Signal, waitStatus = .signaled signal ∧ c.world.Unhandled signal ∧
      status.state = .crashed ∧ status.exitCode = signal ∧
      status.diagnostic =
        ascii "process terminated unexpectedly by signal " ++ stdToString signal
  := by
  cases endsWith_of_reaches h waitStatus hended with
  | stopped hrequested => exact .inl ⟨rfl, hrequested, rfl⟩
  | failed => exact .inr (.inl ⟨rfl, rfl, rfl, by decide⟩)
  | signaled hsignal => exact .inr (.inr ⟨_, rfl, hsignal, rfl, rfl, rfl⟩)

/-- A daemon that is sent `SIGTERM` before it has installed a handler for it is reported as
crashed. -/
theorem reaped_sigTerm :
  ∃ c : DaemonConfig, Reaches daemonThreads (daemonStart []) c ∧
    c.world.handles .sigInt = true ∧ c.world.ended = some (.signaled Signal.sigTerm) ∧
    (Controller.decodeExitedStatus (.signaled Signal.sigTerm) false).state = .crashed
  := by
  have h₀ : Reaches daemonThreads (daemonStart []) (daemonStart []) := .refl
  have h₁ := h₀.call (t := DaemonThread.main) rfl ⟨rfl, .installHandler⟩
  have hunhandled : Unhandled { handles := Function.update (fun _ => false) .sigInt true }
      Signal.sigTerm := by
    rintro (_ | _) hhandles
    · decide
    · cases hhandles
  have h₂ := h₁.env ⟨rfl, .ends hunhandled⟩
  refine ⟨_, h₂, rfl, rfl, ?_⟩
  rcases reaped_of_reaches h₂ rfl with ⟨hexited, -⟩ | ⟨hexited, -⟩ | ⟨signal, -, -, hcrashed, -⟩
  · cases hexited
  · cases hexited
  · exact hcrashed

end DaemonHost

end OpcuaServer
