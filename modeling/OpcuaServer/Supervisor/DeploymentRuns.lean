import OpcuaServer.Config.Snapshots
import OpcuaServer.Supervisor.Deployment

/-!
# Runs of a deployment

A deployment whose calls succeed: the supervisor initializes the repository and runs the API server,
workers lock the mutex and handle requests, and daemons come to load the configuration.
-/

namespace OpcuaServer

open ConfigRepository ApiServer ServerConfig

namespace Deployment

variable {Worker Process : Type} [DecidableEq Worker] [DecidableEq Process] {assume : Assumptions}
  {t : HostThread Worker Process} {u : Worker} {w w' : Deployment Worker Process} {β : Type}

/-! ### Runs of one thread -/

/-- A run of the repository on a connection is a run of the thread that uses it. -/
theorem runs_repository {p : Repository β} {b : β} {s : World (Option Process)}
    (h : p.Runs (fun call => World.Step assume t.connection (.inl call)) w.store b s) :
  p.lift.lift.Runs (Step assume t) w b { w with store := s }
  := by
  have hsim : ∀ (call : SqliteCall) (s : World (Option Process)) (a : call.Answer)
      (s' : World (Option Process)) (v : Deployment Worker Process),
      World.Step assume t.connection (.inl call) s a s' → v = { w with store := s } →
      ∃ v', Step assume t (.inl (.inl call)) v a v' ∧ v' = { w with store := s' } := by
    rintro call s a s' _ hstep rfl
    exact ⟨_, .repository hstep, rfl⟩
  obtain ⟨_, hrun, rfl⟩ := h.simulate hsim rfl
  exact hrun.lift.lift

/-- A database without a table, or with one, can be initialized. -/
theorem exists_callInitialize (assume : Assumptions) (t : HostThread Worker Process)
    {committed : Option Table} (hdb : w.store.db = { committed, transaction := none }) :
  ∃ s, Daemon.callInitialize.lift.Runs (Step assume t) w (.ok ()) { w with store := s } ∧
    s.db = { committed := some ((committed.getD .empty).insertAll (boundEntries .default))
             transaction := none }
  := by
  obtain ⟨s, hrun, hdb, -⟩ := World.exists_initialized assume t.connection hdb
  refine ⟨s.tell t.connection (.initialized (.ok ())), ?_, hdb⟩
  rw [Daemon.callInitialize, Prog.lift_bind]
  exact (runs_repository (World.runs_of_succeeded hrun)).bind (.call .returned .ret)

/-- A run of `Load` is a run of the thread that calls it. -/
theorem runs_callLoad {result : Result ServerConfig} {s : World (Option Process)}
    (h : load.Runs (fun call => World.Step assume t.connection (.inl call))
      (w.store.ask t.connection (some .load)) result s) :
  Daemon.callLoad.lift.Runs (Step assume t) w result
    { w with store := s.tell t.connection (.loaded result) }
  := by
  refine .call .called ?_
  change Prog.Runs _ (load.lift >>= fun result => Daemon.perform (.returned (.loaded result)) >>=
    fun _ => return result : DaemonProg (Result ServerConfig)).lift _ _ _
  rw [Prog.lift_bind]
  apply (runs_repository (w := { w with store := w.store.ask t.connection (some .load) }) h).bind
  exact .call .returned .ret

/-- A configuration that has been saved can be loaded. -/
theorem exists_callLoad (assume : Assumptions) (t : HostThread Worker Process) {table : Table}
    (hdb : w.store.db = { committed := some table, transaction := none }) :
  ∃ s, Daemon.callLoad.lift.Runs (Step assume t) w (Repository.configOfRows table.rows)
    { w with store := s }
  := by
  obtain ⟨s, hrun, -⟩ := World.exists_run (w := w.store.ask t.connection (some .load))
    (Repository.runs_load_iff.mpr ⟨rfl, table.rows, .refl _, rfl⟩ :
      load.Runs (Database.Succeeds assume t.connection) _ _ _) hdb
  exact ⟨_, runs_callLoad (World.runs_of_succeeded hrun)⟩

/-- A run of the repository is a run of the handler that calls it. -/
theorem runs_callRepository {request : Request} {handler : Repository Response} {response : Response}
    {s : World (Option Process)}
    (h : handler.Runs (fun call => World.Step assume t.connection (.inl call))
      (w.store.ask t.connection (some request)) response s) :
  (callRepository request handler).lift.Runs (Step assume t) w response { w with store := s }
  := .call .called
    (runs_repository (w := { w with store := w.store.ask t.connection (some request) }) h)

/-- A handler can load the configuration. -/
theorem exists_getConfig (assume : Assumptions) (u : Worker) {table : Table} {config : ServerConfig}
    (hconfig : Repository.configOfRows table.rows = .ok config)
    (hdb : w.store.db = { committed := some table, transaction := none }) :
  ∃ s, (callRepository .load handleGetConfig).lift.Runs (Step assume (.worker u)) w
      (setJson 200 (configToJson config)) { w with store := s } ∧
    s.db = w.store.db
  := by
  have hload : load.Runs (Database.Succeeds assume (none : Option Process)) w.store.db (.ok config)
      w.store.db := by
    rw [hdb]
    exact Repository.runs_load_iff.mpr ⟨rfl, table.rows, .refl _, hconfig.symm⟩
  obtain ⟨s, hrun, hs, -, -⟩ := World.exists_run (w := w.store.ask none (some .load))
    (runs_handleGetConfig.mpr ⟨_, hload, rfl⟩) rfl
  exact ⟨s, runs_callRepository (World.runs_of_succeeded hrun), hs⟩

/-- A handler can save a valid configuration. -/
theorem exists_saveConfig (assume : Assumptions) (u : Worker) {table : Table} {config : ServerConfig}
    (hvalid : config.validate = .ok ())
    (hdb : w.store.db = { committed := some table, transaction := none }) :
  ∃ s, (callRepository (.save config) (saveConfig config)).lift.Runs (Step assume (.worker u)) w
      (setJson 200 (ascii "\x7b\"status\":\"ok\"\x7d")) { w with store := s } ∧
    s.db = { committed := some (table.upsertAll (boundEntries config)), transaction := none }
  := by
  have hsave : (saveConfig config).Runs (Database.Succeeds assume (none : Option Process)) w.store.db
      (setJson 200 (ascii "\x7b\"status\":\"ok\"\x7d"))
      { committed := some (table.upsertAll (boundEntries config)), transaction := none } := by
    rw [hdb]
    exact (Repository.runs_save hvalid table).bind .ret
  obtain ⟨s, hrun, hs, -, -⟩ := World.exists_run (w := w.store.ask none (some (.save config)))
    hsave rfl
  exact ⟨s, runs_callRepository (World.runs_of_succeeded hrun), hs⟩

/-- The handler of a PUT request with a valid configuration. -/
theorem handler_putConfig {body : Bytes} {config : ServerConfig}
    (hparse : ConfigJsonParser.run body = .ok config) (hvalid : config.validate = .ok ()) :
  handler .putConfig body = guardOperations (callRepository (.save config) (saveConfig config)).lift
  := by
  rw [handler, handlePutConfigWith, hparse]
  simp only [hvalid]

/-! ### Runs of a deployment -/

variable {c : DeploymentConfig Worker Process} {progs : HostThread Worker Process → HostProg Unit}
  {response : Response}

/-- The rows of the default configuration. -/
def defaultTable : Table :=
  KeyedTable.empty.insertAll (boundEntries ServerConfig.default)

/-- The rest of a worker whose handler has locked the mutex. -/
def respondLocked (response : Response) : HostProg Unit :=
  perform (.unlockOperations response) >>= fun _ =>
    perform (.respond (writeResponse response)) >>= fun _ => worker

/-- The supervisor initializes a database without a table and runs the API server, and the others
have not started. -/
theorem reaches_started (assume : Assumptions) (argv : Process → List Bytes) :
  ∃ (progs : HostThread Worker Process → HostProg Unit) (w : Deployment Worker Process),
    Threads.Reaches (deployment assume) (deploymentStart argv World.start) ⟨progs, w⟩ ∧
    (∀ u, progs (.worker u) = worker) ∧
    (∀ p, progs (.daemon p) = (Daemon.process (argv p)).lift) ∧
    w.apiStarted = true ∧ w.operations = none ∧ w.object.history = [] ∧
    w.store.db = { committed := some defaultTable, transaction := none }
  := by
  let start : DeploymentConfig Worker Process := deploymentStart argv World.start
  obtain ⟨s, hinitialize, hdb⟩ := exists_callInitialize assume .supervisor (w := start.world) rfl
  have h₀ : Threads.Reaches (deployment assume) start ⟨start.progs, start.world⟩ := .refl
  have h₁ := (h₀.runs (t := HostThread.supervisor) rfl hinitialize).call
    (Function.update_self ..) Step.startApi
  exact ⟨_, _, h₁, fun _ => rfl, fun _ => rfl, rfl, rfl, rfl, hdb⟩

/-- A worker is asked for something, and comes to the handler. -/
theorem reaches_asked (u : Worker) (request : ApiRequest)
    (h : Threads.Reaches (deployment assume) c ⟨progs, w⟩)
    (hprog : progs (.worker u) = worker) (hstarted : w.apiStarted = true)
    (hread : readContent request = .ok request.body) :
  Threads.Reaches (deployment assume) c ⟨Function.update progs (.worker u)
      (handler request.route request.body >>= fun response =>
        perform (.respond (writeResponse response)) >>= fun _ => worker),
    { w with object := w.object.ask u request }⟩
  := by
  have hnext : (deployment assume).step (.worker u) (.inr .nextRequest) w (some request)
      { w with object := w.object.ask u request } := Step.nextRequest hstarted
  have hasked := (h.loop hprog).call (Function.update_self ..) hnext
  rw [Function.update_idem] at hasked
  change Threads.Reaches _ _ ⟨Function.update progs (.worker u)
    (((handle request >>= fun response => perform (.respond response) >>= fun _ =>
      return .inl ()) : HostProg (Unit ⊕ Unit)) >>= Prog.resume serveRequest .ret), _⟩ at hasked
  rw [handle, hread, Prog.bind_assoc, Prog.bind_assoc] at hasked
  exact hasked

/-- The handler of a worker locks the mutex. -/
theorem reaches_locked {prog : HostProg Response} (u : Worker) (request : ApiRequest)
    (h : Threads.Reaches (deployment assume) c ⟨progs, w⟩)
    (hprog : progs (.worker u) = worker) (hstarted : w.apiStarted = true)
    (hfree : w.operations = none) (hread : readContent request = .ok request.body)
    (hhandler : handler request.route request.body = guardOperations prog) :
  Threads.Reaches (deployment assume) c ⟨Function.update progs (.worker u) (prog >>= respondLocked),
    { w with object := w.object.ask u request, operations := some u }⟩
  := by
  have hasked := reaches_asked u request h hprog hstarted hread
  rw [hhandler] at hasked
  have hlocked := hasked.call (Function.update_self ..) (Step.lockOperations hfree)
  rw [Function.update_idem] at hlocked
  change Threads.Reaches _ _ ⟨Function.update progs (.worker u)
    ((prog >>= fun response => perform (.unlockOperations response) >>= fun _ => return response) >>=
      fun response => perform (.respond (writeResponse response)) >>= fun _ => worker), _⟩ at hlocked
  rw [Prog.bind_assoc] at hlocked
  exact hlocked

/-- The object after a request that a worker has handled. -/
def served (w : Deployment Worker Process) (u : Worker) (request : ApiRequest) (response : Response)
    (config : ServerConfig) : AtomicObject.State Worker ServerConfig ApiRequest Response :=
  ((w.object.ask u request).effect u request response config).answer u (writeResponse response)

/-- A worker handles a request and is free for the next one. -/
theorem reaches_served {prog : HostProg Response} (u : Worker) (request : ApiRequest)
    {s : World (Option Process)} (h : Threads.Reaches (deployment assume) c ⟨progs, w⟩)
    (hprog : progs (.worker u) = worker) (hstarted : w.apiStarted = true)
    (hfree : w.operations = none) (hread : readContent request = .ok request.body)
    (hhandler : handler request.route request.body = guardOperations prog)
    (hrun : prog.Runs (Step assume (.worker u))
      { w with object := w.object.ask u request, operations := some u } response
      { w with object := w.object.ask u request, operations := some u, store := s }) :
  Threads.Reaches (deployment assume) c ⟨Function.update progs (.worker u) worker,
    { w with store := s, operations := none, object := w.served u request response s.current }⟩
  := by
  have hlocked := reaches_locked u request h hprog hstarted hfree hread hhandler
  have hreturned := hlocked.runs (Function.update_self ..) hrun
  have hunlocked := hreturned.call (Function.update_self ..) Step.unlockOperations
  have hresponded := hunlocked.call (Function.update_self ..) Step.respond
  simp only [Function.update_idem, finish, AtomicObject.State.phase_ask,
    AtomicObject.State.phase_effect, Function.update_self] at hresponded
  exact hresponded

/-- A worker saves a configuration. -/
theorem reaches_putConfig (u : Worker) {body : Bytes} {config : ServerConfig} {table : Table}
    (h : Threads.Reaches (deployment assume) c ⟨progs, w⟩) (hprog : progs (.worker u) = worker)
    (hstarted : w.apiStarted = true) (hfree : w.operations = none)
    (hparse : ConfigJsonParser.run body = .ok config) (hvalid : config.validate = .ok ())
    (hdb : w.store.db = { committed := some table, transaction := none }) :
  ∃ s, Threads.Reaches (deployment assume) c ⟨Function.update progs (.worker u) worker,
      { w with store := s, operations := none
               object := w.served u { route := .putConfig, body }
                 (setJson 200 (ascii "\x7b\"status\":\"ok\"\x7d")) s.current }⟩ ∧
    s.db = { committed := some (table.upsertAll (boundEntries config)), transaction := none }
  := by
  have hlength := (ConfigJsonParser.text_of_run hparse).1
  have hread : readContent { route := .putConfig, body } = .ok body := by
    apply readContent_eq_ok_iff.mpr ⟨_, rfl⟩
    rintro (hlarge | ⟨⟨⟩, -⟩)
    exact absurd (Nat.lt_of_succ_lt hlarge) (Nat.not_lt.mpr hlength)
  obtain ⟨s, hrun, hs⟩ := exists_saveConfig assume u hvalid (w := { w with
    object := w.object.ask u { route := .putConfig, body }, operations := some u }) hdb
  use s
  exact ⟨reaches_served u _ h hprog hstarted hfree hread (handler_putConfig hparse hvalid) hrun, hs⟩

/-- A worker loads the configuration. -/
theorem reaches_getConfig (u : Worker) {config : ServerConfig} {table : Table}
    (h : Threads.Reaches (deployment assume) c ⟨progs, w⟩) (hprog : progs (.worker u) = worker)
    (hstarted : w.apiStarted = true) (hfree : w.operations = none)
    (hconfig : Repository.configOfRows table.rows = .ok config)
    (hdb : w.store.db = { committed := some table, transaction := none }) :
  ∃ s, Threads.Reaches (deployment assume) c ⟨Function.update progs (.worker u) worker,
      { w with store := s, operations := none
               object := w.served u { route := .getConfig } (setJson 200 (configToJson config))
                 s.current }⟩ ∧
    s.db = w.store.db
  := by
  obtain ⟨s, hrun, hs⟩ := exists_getConfig assume u hconfig (w := { w with
    object := w.object.ask u { route := .getConfig }, operations := some u }) hdb
  exact ⟨s, reaches_served u _ h hprog hstarted hfree rfl rfl hrun, hs⟩

/-- A daemon loads the configuration and comes to set the port of its server. -/
theorem reaches_setMinimal (p : Process) {argv : List Bytes} {config : ServerConfig} {table : Table}
    (h : Threads.Reaches (deployment assume) c ⟨progs, w⟩)
    (hprog : progs (.daemon p) = (Daemon.process argv).lift)
    (hdb : w.store.db = { committed := some table, transaction := none })
    (hconfig : Repository.configOfRows (table.insertAll (boundEntries .default)).rows = .ok config)
    (hvalid : config.validate = .ok ()) :
  ∃ c' k, Threads.Reaches (deployment assume) c c' ∧ c'.progs (.daemon p) =
      .call (.inl (.inr (.uaServerConfigSetMinimal 0 config.serverPort.toUInt32.toUInt16))) k
  := by
  have hquiet : ∀ (call : DaemonCall) (a : call.Answer) (w : Deployment Worker Process),
      daemonQuiet call → (deployment assume).step (.daemon p) (.inl (.inr call)) w a w :=
    fun _ _ _ => Step.daemon
  let exit (code : Int32) : DaemonProg Unit := Daemon.perform (.exited code)
  have h₁ := h.call hprog (hquiet (.installHandler .sigInt) () _ trivial)
  have h₂ := h₁.call (Function.update_self ..) (hquiet (.installHandler .sigTerm) () _ trivial)
  have h₃ := h₂.call (Function.update_self ..) (hquiet (.openRepository _) (.ok ()) _ trivial)
  -- the daemon initializes the repository
  obtain ⟨s₁, hinitialize, hdb₁⟩ := exists_callInitialize assume (.daemon p) hdb
  obtain ⟨g, hstart, hg⟩ : ∃ g : Status → HostProg Unit,
      (Daemon.start >>= exit).lift = Daemon.callInitialize.lift >>= g ∧
        g (.ok ()) = (Daemon.loadConfig >>= exit).lift := by
    rw [Daemon.start, Prog.bind_assoc]
    exact ⟨_, Prog.lift_bind _ _, rfl⟩
  have h₄ := h₃.runs ((Function.update_self ..).trans hstart) hinitialize
  -- it loads the configuration
  obtain ⟨s₂, hload⟩ := exists_callLoad assume (.daemon p) (w := { w with store := s₁ }) hdb₁
  obtain ⟨g', hloadConfig, hg'⟩ : ∃ g : Result ServerConfig → HostProg Unit,
      (Daemon.loadConfig >>= exit).lift = Daemon.callLoad.lift >>= g ∧
        g (.ok config) = (Daemon.startMonitor config >>= exit).lift := by
    rw [Daemon.loadConfig, Prog.bind_assoc]
    exact ⟨_, Prog.lift_bind _ _, rfl⟩
  have h₅ := h₄.runs ((Function.update_self ..).trans (hg.trans hloadConfig)) hload
  rw [Option.getD_some, hconfig] at h₅
  -- it creates the server
  obtain ⟨g'', hrun, k, hk⟩ : ∃ g : Option UaServer → HostProg Unit,
      (Daemon.runServer config >>= exit).lift = .call (.inl (.inr .uaServerNew)) g ∧
        ∃ k, g (some 0) = .call (.inl (.inr (.uaServerGetConfig 0))) k ∧ ∃ k', k true = .call
          (.inl (.inr (.uaServerConfigSetMinimal 0 config.serverPort.toUInt32.toUInt16))) k' := by
    rw [Daemon.runServer, Daemon.run, hvalid]
    exact ⟨_, rfl, _, rfl, _, rfl⟩
  have h₆ := h₅.call ((Function.update_self ..).trans hg') (hquiet .startMonitor false _ trivial)
  have h₇ := h₆.call ((Function.update_self ..).trans hrun) (hquiet .uaServerNew (some 0) _ trivial)
  obtain ⟨hget, k', hset⟩ := hk
  have h₈ := h₇.call ((Function.update_self ..).trans hget)
    (hquiet (.uaServerGetConfig 0) true _ trivial)
  exact ⟨_, k', h₈, (Function.update_self ..).trans hset⟩

end Deployment

end OpcuaServer
