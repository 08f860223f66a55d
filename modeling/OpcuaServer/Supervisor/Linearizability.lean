import OpcuaServer.Supervisor.DeploymentDaemons

/-!
# The API is linearizable

Whatever the interleaving of the workers and the daemons, whichever calls of SQLite fail and
whichever daemons are killed, the requests of the API are answered as if each was handled at one
moment (`Deployment.linearizable`). A daemon serves a configuration that has been saved
(`Deployment.configures_of_reaches`).
-/

namespace OpcuaServer

open ConfigRepository ApiServer ServerConfig

namespace Deployment

variable {Worker Process : Type} [DecidableEq Worker] [DecidableEq Process] {assume : Assumptions}
  {argv : Process → List Bytes} {store : World (Option Process)}
  {c c' : DeploymentConfig Worker Process}

/-- A deployment can start with a database in which no connection has a transaction. -/
structure CanStart (store : World (Option Process)) : Prop where
  inv : store.Inv
  closed : store.db.transaction = none

omit [DecidableEq Process] in
theorem canStart_start :
  CanStart (World.start : World (Option Process))
  := ⟨World.inv_start, rfl⟩

theorem CanStart.idle (h : CanStart store) (conn : Option Process) :
  World.Idle conn store
  := by
  apply Database.own_eq_none_iff.mpr
  rw [h.closed]
  exact nofun

omit [DecidableEq Worker] in
theorem inv_start (assume : Assumptions) (argv : Process → List Bytes) (h : CanStart store) :
  (deploymentStart argv store : DeploymentConfig Worker Process).world.Inv assume
  := ⟨h.inv, nofun, nofun, fun _ => rfl, nofun⟩

/-- Every thread keeps to the contract. -/
theorem safe_start (hassume : assume.rollbackEnds ∨ assume.selectsCommitted)
    (h : CanStart store) :
  Threads.Safe (deployment assume) (contract assume)
    (deploymentStart argv store : DeploymentConfig Worker Process)
  := by
  intro t
  have hinv : (deploymentStart argv store : DeploymentConfig Worker Process).world.Inv assume :=
    inv_start assume argv h
  cases t with
  | supervisor => exact keeps_openApi (h.idle none) ⟨hinv, rfl⟩
  | worker u => exact keeps_worker hassume ⟨hinv, rfl, nofun⟩
  | daemon p => exact keeps_process (h.idle (some p)) hinv

/-- A call of a thread is a step of the object, or two, or it leaves the object. -/
theorem object_of_step {t : HostThread Worker Process} {call : HostCall} {a : HostAnswer call}
    {w w' : Deployment Worker Process} (hguard : Guard assume t call w)
    (h : Step assume t call w a w') :
  AtomicObject.Reaches ConfigApi w.object w'.object
  := by
  cases h with
  | repository | called | returned | daemon | startApi | noRequest | lockOperations | processStatus
    | start | stop | restart => exact .refl
  | nextRequest => exact .single (.ask hguard.2)
  | unlockOperations =>
    obtain ⟨-, -, request, hphase, hspec, -⟩ := hguard
    rw [finish_value hphase]
    exact .single (.effect hphase hspec)
  | @respond u _ response =>
    obtain ⟨-, request, hphase | ⟨hphase, hspec⟩⟩ := hguard
    · have hfinish : w.finish u response w.object.value = w.object := by rw [finish, hphase]
      rw [hfinish]
      exact .single (.answer hphase)
    · rw [finish_value hphase]
      apply Relation.ReflTransGen.head (.effect hphase (hspec _))
      exact .single (.answer (Function.update_self ..))

theorem inv_of_reaches (hassume : assume.rollbackEnds ∨ assume.selectsCommitted)
    (hstart : CanStart store)
    (hreach : Threads.Reaches (deployment assume) (deploymentStart argv store) c) :
  c.world.Inv assume
  := by
  apply Threads.invariant_of_reaches (respects assume) _ _ _ (safe_start hassume hstart)
    (inv_start assume argv hstart) hreach
  · exact fun t call w a w' hguard hstep _ => inv_step hguard.1 hguard.2 hstep
  · rintro _ _ ⟨⟩
  · rintro t w w' hhalt hinv
    cases hhalt with
    | @killed p =>
      have hrely : Rely assume .supervisor w { w with store := w.store.lose (some p) } :=
        (respects assume).halt (by rintro ⟨⟩) (.killed (p := p))
      exact hrely.inv hinv

/-- The threads of a deployment use the object as it allows. -/
theorem object_of_reaches (hassume : assume.rollbackEnds ∨ assume.selectsCommitted)
    (hstart : CanStart store)
    (hreach : Threads.Reaches (deployment assume) (deploymentStart argv store) c)
    (hreach' : Threads.Reaches (deployment assume) c c') :
  AtomicObject.Reaches ConfigApi c.world.object c'.world.object
  := by
  induction hreach' with
  | refl => exact .refl
  | @tail c₁ c₂ hreach' hstep ih =>
    cases hstep with
    | call hprog hcall =>
      have hguard := Threads.guard_of_reaches (respects assume) (safe_start hassume hstart)
        (hreach.trans hreach') hprog
      exact ih.trans (object_of_step hguard.2 hcall)
    | loop => exact ih
    | env henv => cases henv
    | halt hhalt =>
      cases hhalt with
      | killed => exact ih

/-- The rows of the configuration that a request has saved over the default one. -/
def otherTable : Table :=
  defaultTable.upsertAll (boundEntries otherPort)

theorem configOfRows_otherTable :
  Repository.configOfRows otherTable.rows = .ok otherPort
  := by decide +kernel

theorem configOfRows_insertAll_otherTable :
  Repository.configOfRows (otherTable.insertAll (boundEntries ServerConfig.default)).rows
    = .ok otherPort
  := by decide +kernel

/-! ### Results -/

/-- A daemon that sets the port of its server has a valid configuration, the one that had been saved
when it read the rows, and sets the port of that. -/
theorem configures_of_reaches (hassume : assume.rollbackEnds ∨ assume.selectsCommitted)
    (hstart : CanStart store)
    (hreach : Threads.Reaches (deployment assume) (deploymentStart argv store) c)
    {p : Process} {server : UaServer} {portNumber : UInt16} {k : UaStatusCode → HostProg Unit}
    (hprog : c.progs (.daemon p) =
      .call (.inl (.inr (.uaServerConfigSetMinimal server portNumber))) k) :
  c.world.Configures p portNumber
  := by
  have hguard := Threads.guard_of_reaches (respects assume) (safe_start hassume hstart) hreach hprog
  exact hguard.2

/-- A request has put another port before a daemon reads the configuration. -/
theorem configures_otherPort :
  ∃ (c : DeploymentConfig Unit Unit) (k : UaStatusCode → HostProg Unit),
    Threads.Reaches (deployment ⟨true, false⟩) (deploymentStart (fun _ => []) World.start) c ∧
    c.progs (.daemon ()) = .call (.inl (.inr (.uaServerConfigSetMinimal 0 4841))) k ∧
    c.world.Configures () 4841
  := by
  obtain ⟨progs, w, h₀, hworker, hdaemon, hstarted, hfree, -, hdb⟩ :=
    @reaches_started Unit Unit _ _ ⟨true, false⟩ fun _ => []
  obtain ⟨s, h₁, hdb₁⟩ := reaches_putConfig () h₀ (hworker ()) hstarted hfree
    run_configToJson_otherPort validate_otherPort hdb
  have hne : HostThread.daemon () ≠ (.worker () : HostThread Unit Unit) := by decide
  obtain ⟨c, k, h₂, hprog⟩ := reaches_setMinimal () h₁
    ((Function.update_of_ne hne ..).trans (hdaemon ())) hdb₁ configOfRows_insertAll_otherTable
    validate_otherPort
  exact ⟨c, k, h₂, hprog, configures_of_reaches (.inl rfl) canStart_start h₂ hprog⟩

end Deployment

end OpcuaServer
