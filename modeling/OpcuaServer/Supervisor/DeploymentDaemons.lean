import OpcuaServer.Supervisor.DeploymentWorkers

/-!
# The supervisor and the daemons of a deployment

The main threads of the supervisor and of the daemons keep to the contract of the threads of a
deployment. They save nothing through their connections, which no other thread uses.
-/

namespace OpcuaServer

open ConfigRepository ApiServer

namespace Deployment

variable {Worker Process : Type} [DecidableEq Worker] [DecidableEq Process] {assume : Assumptions}
  {w w' : Deployment Worker Process} {t : HostThread Worker Process} {α β : Type}

/-! ### The supervisor -/

/-- While `J` holds, the thread can use its connection, and no other thread uses it. -/
structure Owns (assume : Assumptions) (t : HostThread Worker Process)
    (J : Deployment Worker Process → Prop) : Prop where
  rely : ∀ w w', Rely assume t w w' → J w →
    World.Rely t.connection w.store w'.store ∧ J w'
  uses : ∀ w, J w → w.Inv assume ∧ Uses t w
  store : ∀ w store, ({ w with store } : Deployment Worker Process).Inv assume → J w →
    J { w with store }

variable {J : Deployment Worker Process → Prop}

/-- A thread with a connection of its own calls a function of the repository that commits nothing. -/
theorem keeps_connection {p : Repository β} {R : β → World (Option Process) → Prop}
    (howns : Owns assume t J) (honly : p.Only (· ≠ .exec .commit))
    (hp : World.Keeps assume t.connection p R w.store) (h : J w) :
  Keeps assume t p.lift.lift (fun b w => R b w.store ∧ J w) w
  := by
  have hguard : ∀ (call : SqliteCall) (w : Deployment Worker Process), J w →
      World.Guard t.connection (.inl call) w.store → call ≠ .exec .commit →
      Guard assume t (.inl (.inl call)) w :=
    fun call w h hguard hcommit => ⟨(howns.uses w h).2, hguard, fun hcall => absurd hcall hcommit⟩
  apply Prog.wp_lift
  apply Prog.wp_lift
  apply Prog.wp_focus Deployment.store howns.rely _ _ (honly.wp_guard hp) h
  · rintro call w h ⟨⟨-, hstore⟩, hcommit⟩
    exact ⟨(howns.uses w h).1, hguard call w h hstore hcommit⟩
  · rintro call w a w' h ⟨⟨-, hstore⟩, hcommit⟩ hstep
    have hinv := inv_step (howns.uses w h).1 (hguard call w h hstore hcommit) hstep
    cases hstep with
    | repository hstep => exact ⟨hstep, howns.store w _ hinv h⟩

/-- A function of the repository has returned to a thread with a connection of its own. -/
theorem keeps_reply {reply : Reply} {R S : World (Option Process) → Prop} (howns : Owns assume t J)
    (hstable : ∀ s s', World.Rely t.connection s s' → R s → R s')
    (hguard : ∀ s, R s → World.Guard t.connection (.inr (.report reply)) s)
    (hstable' : ∀ s s', World.Rely t.connection s s' → S s → S s')
    (htell : ∀ s, R s → S (s.tell t.connection reply)) {b : β} (hR : R w.store) (h : J w) :
  Keeps assume t (.call (.inl (.inr (.returned reply))) fun _ => .ret b)
    (fun b' w => b' = b ∧ S w.store ∧ J w) w
  := by
  apply keeps_call (A := fun w => R w.store ∧ J w) _ _ _ (howns.uses w h).1 ⟨hR, h⟩
  · rintro w w' hrely ⟨hR, h⟩
    obtain ⟨hstore, h'⟩ := howns.rely w w' hrely h
    exact ⟨hstable _ _ hstore hR, h'⟩
  · rintro w - ⟨hR, h⟩
    exact ⟨(howns.uses w h).2, hguard _ hR⟩
  · rintro w a w' ⟨hR, h⟩ - hstep hinv
    cases hstep with
    | returned =>
      intro w₁ hrely
      obtain ⟨hstore, h'⟩ := howns.rely _ w₁ hrely (howns.store w _ hinv h)
      exact ⟨rfl, hstable' _ _ hstore (htell _ hR), h'⟩
    | daemon hquiet => cases hquiet

/-- A thread has initialized the repository. -/
def Prepared (conn : Option Process) (status : Status) (s : World (Option Process)) : Prop :=
  World.Idle conn s ∧ (status = .ok () → s.ready conn)

theorem Prepared.rely {conn : Option Process} {status : Status} {s s' : World (Option Process)}
    (hrely : World.Rely conn s s') (h : Prepared conn status s) :
  Prepared conn status s'
  := ⟨h.1.rely hrely, fun hok => hrely.ready ▸ h.2 hok⟩

theorem keeps_callInitialize (howns : Owns assume t J) (hidle : World.Idle t.connection w.store)
    (h : J w) :
  Keeps assume t Daemon.callInitialize.lift
    (fun status w => Prepared t.connection status w.store ∧ J w) w
  := by
  have hinitialize := keeps_connection howns World.only_initializeRepository
    (World.keeps_initializeRepository (howns.uses w h).1.store hidle) h
  rw [Daemon.callInitialize, Prog.lift_bind]
  apply keeps_bind
  apply Prog.wp_mono _ hinitialize
  rintro status w ⟨hinitialized, h⟩
  apply Prog.wp_mono _ (keeps_reply (b := status) (S := Prepared t.connection status) howns
    (fun _ _ => World.Initialized.rely) _ (fun _ _ => Prepared.rely) _ hinitialized h)
  · rintro _ w ⟨rfl, h⟩
    exact h
  · intro s h
    rcases status with message | ⟨⟩
    · trivial
    · exact h.2.2 rfl
  · intro s h
    use h.2.1
    rintro rfl
    simp [World.tell]

/-- The supervisor has not run the API server. -/
structure Opening (assume : Assumptions) (w : Deployment Worker Process) : Prop where
  inv : w.Inv assume
  closed : w.apiStarted = false

omit [DecidableEq Worker] in
theorem owns_opening :
  Owns assume .supervisor (Opening assume : Deployment Worker Process → Prop)
  where
  rely w w' hrely h := by
    obtain ⟨hstarted, hstore⟩ := hrely.supervisor rfl
    exact ⟨hstore h.closed, hrely.inv h.inv, hstarted.trans h.closed⟩
  uses w h := ⟨h.inv, h.closed⟩
  store w store hinv h := ⟨hinv, h.closed⟩

/-- The API server is run once the repository has been initialized. -/
theorem keeps_openApi (hidle : World.Idle none w.store) (h : Opening assume w) :
  Keeps assume .supervisor openApi (fun _ _ => True) w
  := by
  rw [openApi]
  apply keeps_bind
  apply Prog.wp_mono _ (keeps_callInitialize owns_opening hidle h)
  rintro (message | ⟨⟩) w ⟨hprepared, h⟩
  · exact fun _ _ => trivial
  · change Keeps assume .supervisor (.call (.inr .startApi) .ret) _ w
    apply keeps_call (A := fun w => Prepared none (.ok ()) w.store ∧ Opening assume w) _ _ _ h.inv
      ⟨hprepared, h⟩
    · rintro w w' hrely ⟨hprepared, h⟩
      obtain ⟨hstore, h'⟩ := owns_opening.rely w w' hrely h
      exact ⟨hprepared.rely hstore, h'⟩
    · rintro w - ⟨hprepared, h⟩
      exact ⟨h.closed, hprepared.2 rfl, .inr hprepared.1⟩
    · exact fun _ _ _ _ _ _ _ _ _ => trivial

/-! ### The daemons -/

variable {p : Process}

/-- The calls of a daemon beside those of the repository, where `P` holds of the port that it
sets. -/
def Serves (P : UInt16 → Prop) : SqliteCall ⊕ DaemonCall → Prop
  | .inl _ => False
  | .inr (.uaServerConfigSetMinimal _ portNumber) => P portNumber
  | .inr call => daemonQuiet call

/-- What a daemon relies on holds after its calls beside those of the repository. -/
theorem keeps_serves {P : UInt16 → Prop} {prog : DaemonProg α} (honly : prog.Only (Serves P))
    (hstable : ∀ w w', Rely assume (.daemon p) w w' → J w → J w')
    (hinv : ∀ w, J w → w.Inv assume) (hport : ∀ portNumber w, P portNumber → J w →
      w.Configures p portNumber) (h : J w) :
  Keeps assume (.daemon p) prog.lift (fun _ => J) w
  := by
  apply Prog.wp_lift
  apply honly.wp hstable _ _ h
  · rintro (call | call) w hcall h
    · cases hcall
    · use hinv w h
      cases call with
      | uaServerConfigSetMinimal _ portNumber => exact hport portNumber w hcall h
      | called | returned => cases hcall
      | _ => trivial
  · rintro (call | call) w a w' hcall hstep h
    · cases hcall
    · have hquiet : Step assume (.daemon p) (.inl (.inr call)) w a w' := hstep
      cases hquiet with
      | daemon => exact h
      | called | returned => cases hcall

/-- A daemon that runs a server for the configuration sets its port, if it is valid. -/
abbrev ServesFor (config : ServerConfig) : SqliteCall ⊕ DaemonCall → Prop :=
  Serves fun portNumber =>
    config.validate = .ok () ∧ (portNumber.toNat : ℤ) = config.serverPort.toInt

/-- The port of a valid configuration is not cut off. -/
theorem toNat_portNumber {config : ServerConfig} (hvalid : config.validate = .ok ()) :
  (config.serverPort.toUInt32.toUInt16.toNat : ℤ) = config.serverPort.toInt
  := by
  obtain ⟨hlower, hupper⟩ := ServerConfig.serverPort_of_validate hvalid
  have hcast : config.serverPort.toInt = (config.serverPort.toUInt32.toNat : ℤ) := by
    have hint : config.serverPort.toInt = config.serverPort.toUInt32.toBitVec.toInt := rfl
    rw [hint, BitVec.toInt_eq_toNat_cond] at hlower ⊢
    split_ifs at hlower ⊢ with hnonneg
    · rfl
    · omega
  rw [hcast] at hupper ⊢
  rw [UInt32.toNat_toUInt16, Nat.mod_eq_of_lt (by omega)]

theorem only_serve (config : ServerConfig) (server : UaServer) :
  (Daemon.serve server).Only (ServesFor config)
  := by
  unfold Daemon.serve
  refine Prog.Only.bind (p := Prog.repeatUntil (Daemon.iterate server) ())
    ⟨fun _ => ⟨trivial, ?_⟩, fun _ => trivial⟩ ?_
  · rintro (_ | _)
    · trivial
    · exact ⟨trivial, fun _ => trivial⟩
  · rintro ⟨⟩
    exact ⟨trivial, fun _ => trivial⟩

/-- A valid configuration is served. -/
theorem only_configure {config : ServerConfig} (hvalid : config.validate = .ok ())
    (server : UaServer) :
  (Daemon.configure config server).Only (ServesFor config)
  := by
  refine ⟨trivial, ?_⟩
  rintro (_ | _)
  · trivial
  refine ⟨⟨hvalid, toNat_portNumber hvalid⟩, fun code => ?_⟩
  dsimp only [Prog.bind, Daemon.statusFromOpen62541]
  split_ifs
  swap
  · trivial
  refine ⟨trivial, fun code => ?_⟩
  dsimp only [Prog.bind, Daemon.statusFromOpen62541]
  split_ifs
  swap
  · trivial
  apply only_serve

theorem only_run (config : ServerConfig) :
  (Daemon.run true config).Only (ServesFor config)
  := by
  unfold Daemon.run
  cases hvalid : config.validate with
  | error => trivial
  | ok =>
    refine ⟨trivial, ?_⟩
    rintro (_ | server)
    · trivial
    · apply Prog.Only.bind (only_configure hvalid server)
      exact fun _ => ⟨trivial, fun _ => trivial⟩

theorem only_startMonitor (config : ServerConfig) :
  (Daemon.startMonitor config).Only (ServesFor config)
  := by
  refine ⟨trivial, ?_⟩
  rintro (_ | _)
  · apply Prog.Only.bind (only_run config)
    intro status
    refine ⟨trivial, fun _ => ⟨trivial, fun _ => ?_⟩⟩
    rcases status with message | ⟨⟩
    · exact ⟨trivial, fun _ => trivial⟩
    · trivial
  · refine ⟨fun _ => ⟨trivial, ?_⟩, fun _ => ⟨trivial, fun _ => ⟨trivial, nofun⟩⟩⟩
    rintro (_ | _)
    · trivial
    · refine ⟨trivial, ?_⟩
      rintro (_ | _)
      · exact ⟨trivial, fun _ => trivial⟩
      · trivial

omit [DecidableEq Worker] in
theorem owns_daemon :
  Owns assume (.daemon p) (Inv assume : Deployment Worker Process → Prop)
  where
  rely _ _ hrely hinv := ⟨hrely.daemon p rfl, hrely.inv hinv⟩
  uses _ hinv := ⟨hinv, trivial⟩
  store _ _ hinv _ := hinv

/-- The result is the configuration of the snapshot. -/
def FromSnapshot (conn : Option Process) (result : Result ServerConfig)
    (s : World (Option Process)) : Prop :=
  ∀ config, result = .ok config → s.Saw conn config

theorem FromSnapshot.rely {conn : Option Process} {result : Result ServerConfig}
    {s s' : World (Option Process)} (hrely : World.Rely conn s s')
    (h : FromSnapshot conn result s) :
  FromSnapshot conn result s'
  := by
  intro config hconfig
  rw [World.Saw, hrely.snapshot]
  exact h config hconfig

theorem keeps_callLoad (hprepared : Prepared (some p) (.ok ()) w.store) (hinv : w.Inv assume) :
  Keeps assume (.daemon p) Daemon.callLoad.lift
    (fun result w => FromSnapshot (some p) result w.store ∧ w.Inv assume) w
  := by
  change Keeps _ _ (.call (.inl (.inr (.called .load))) fun _ => (load.lift >>= fun result =>
    Daemon.perform (.returned (.loaded result)) >>= fun _ => return result : DaemonProg _).lift) _ _
  apply keeps_call (A := fun w => Prepared (some p) (.ok ()) w.store) _ _ _ hinv hprepared
  · exact fun w w' hrely h => h.rely (hrely.daemon p rfl)
  · exact fun w _ _ => ⟨trivial, by rintro _ ⟨⟩⟩
  rintro w a w' ⟨hidle, hready⟩ - hstep hinv
  cases hstep with
  | daemon hquiet => cases hquiet
  | called =>
    rw [Prog.lift_bind]
    apply keeps_bind
    have hload := @World.keeps_load_ready _ _ assume _ _ hinv.store (.inr hidle) (hready rfl)
    apply Prog.wp_mono _ (keeps_connection owns_daemon World.only_load hload hinv)
    rintro result w ⟨⟨⟨-, -, hloaded⟩, hready⟩, hinv⟩
    apply Prog.wp_mono _ (keeps_reply (b := result)
      (R := fun s => s.Loaded (some p) result ∧ s.ready (some p))
      (S := FromSnapshot (some p) result) owns_daemon _ _ _ _ ⟨hloaded, hready⟩ hinv)
    · rintro _ w ⟨rfl, h⟩
      exact h
    · rintro s s' hrely ⟨hloaded, hready⟩
      exact ⟨hloaded.rely hrely, hrely.ready ▸ hready⟩
    · exact fun s h => h.1
    · exact fun _ _ => FromSnapshot.rely
    · rintro s ⟨hloaded, hready⟩
      exact (hloaded hready).2

/-- What a daemon prints. -/
theorem keeps_printError {message : Bytes} (hinv : w.Inv assume) :
  Keeps assume (.daemon p) (Daemon.printError message).lift (fun _ => Inv assume) w
  := by
  apply keeps_serves (P := fun _ => False) _ (fun _ _ hrely => hrely.inv) (fun _ => id) nofun hinv
  exact ⟨trivial, fun _ => trivial⟩

/-- The daemon runs the server for the configuration that it has loaded. -/
theorem keeps_startMonitor {config : ServerConfig}
    (hconfig : FromSnapshot (some p) (.ok config) w.store) (hinv : w.Inv assume) :
  Keeps assume (.daemon p) (Daemon.startMonitor config).lift (fun _ => Inv assume) w
  := by
  apply Prog.wp_mono (fun _ _ h => h.1) (keeps_serves
    (J := fun w => w.Inv assume ∧ FromSnapshot (some p) (.ok config) w.store)
    (only_startMonitor config) _ (fun _ h => h.1) _ ⟨hinv, hconfig⟩)
  · exact fun w w' hrely h => ⟨hrely.inv h.1, h.2.rely (hrely.daemon p rfl)⟩
  · rintro portNumber w hport ⟨-, hconfig⟩
    exact ⟨config, hconfig config rfl, hport⟩

/-- The part of the main program after the repository has been opened. -/
theorem keeps_start (hidle : World.Idle (some p) w.store) (hinv : w.Inv assume) :
  Keeps assume (.daemon p) Daemon.start.lift (fun _ => Inv assume) w
  := by
  rw [Daemon.start, Prog.lift_bind]
  apply keeps_bind
  apply Prog.wp_mono _ (keeps_callInitialize owns_daemon hidle hinv)
  rintro (message | ⟨⟩) w ⟨hprepared, hinv⟩
  · exact keeps_printError hinv
  change Keeps _ _ Daemon.loadConfig.lift _ _
  rw [Daemon.loadConfig, Prog.lift_bind]
  apply keeps_bind
  apply Prog.wp_mono _ (keeps_callLoad hprepared hinv)
  rintro (message | config) w ⟨hconfig, hinv⟩
  · exact keeps_printError hinv
  · exact keeps_startMonitor hconfig hinv

theorem keeps_process {argv : List Bytes} (hidle : World.Idle (some p) w.store)
    (hinv : w.Inv assume) :
  Keeps assume (.daemon p) (Daemon.process argv).lift (fun _ _ => True) w
  := by
  rw [Daemon.process, Prog.lift_bind]
  apply keeps_bind
  have hmain : Keeps assume (.daemon p) (Daemon.main argv).lift (fun _ => Inv assume) w := by
    change Keeps _ _ ((do
      Daemon.perform (.installHandler .sigInt)
      Daemon.perform (.installHandler .sigTerm)
      Daemon.perform (.openRepository (argv.getD 1 (ascii "opcua-server.db"))) :
        DaemonProg Status) >>= _ : DaemonProg Int32).lift _ _
    rw [Prog.lift_bind]
    apply keeps_bind
    apply Prog.wp_mono _ (keeps_serves (P := fun _ => False)
      (J := fun w => w.Inv assume ∧ World.Idle (some p) w.store)
      _ _ (fun _ h => h.1) _ ⟨hinv, hidle⟩)
    · rintro (message | ⟨⟩) w ⟨hinv, hidle⟩
      · exact keeps_printError hinv
      · exact keeps_start hidle hinv
    · exact ⟨trivial, fun _ => ⟨trivial, fun _ => ⟨trivial, fun _ => trivial⟩⟩⟩
    · exact fun w w' hrely h => ⟨hrely.inv h.1, h.2.rely (hrely.daemon p rfl)⟩
    · rintro _ _ ⟨⟩
  apply Prog.wp_mono _ hmain
  intro code w hinv
  apply Prog.wp_mono _ (keeps_serves (P := fun _ => False) _ (fun _ _ hrely => hrely.inv)
    (fun _ => id) _ hinv)
  · exact fun _ _ _ => trivial
  · exact ⟨trivial, fun _ => trivial⟩
  · rintro _ _ ⟨⟩

end Deployment

end OpcuaServer
