import OpcuaServer.Config.SnapshotContract
import OpcuaServer.Supervisor.ApiRequests

/-!
# The supervisor and its daemons

The threads of the API server of one supervisor, which share a connection to the database, and any
number of daemons with connections of their own, in any interleaving of their calls. A call of
SQLite can fail, and a daemon can be killed between two calls.
-/

namespace OpcuaServer

/-- The threads of a deployment. -/
inductive HostThread (Worker Process : Type) where
  /-- The main thread of the supervisor. -/
  | supervisor
  /-- A thread that handles requests. -/
  | worker (t : Worker)
  /-- The main thread of a daemon. -/
  | daemon (p : Process)
  deriving DecidableEq

/-- The connection that a thread uses, `none` for that of the supervisor. -/
def HostThread.connection {Worker Process : Type} : HostThread Worker Process → Option Process
  | .supervisor | .worker _ => none
  | .daemon p => some p

/-- What the threads of a deployment share, and what has happened to it. -/
structure Deployment (Worker Process : Type) where
  store : World (Option Process)
  /-- The API server is run. -/
  apiStarted : Bool := false
  /-- The thread that has locked `operations_mutex_`. -/
  operations : Option Worker := none
  /-- The configuration as the requests have left it, and what the clients have seen. -/
  object : AtomicObject.State Worker ServerConfig ApiRequest Response

namespace Deployment

variable {Worker Process : Type} [DecidableEq Worker] [DecidableEq Process]

/-- What a thread has been asked for takes effect, if it has not yet. -/
def finish (w : Deployment Worker Process) (t : Worker) (response : Response)
    (config : ServerConfig) : AtomicObject.State Worker ServerConfig ApiRequest Response :=
  match w.object.phase t with
  | .asked request => w.object.effect t request response config
  | _ => w.object

/-- What the calls of a daemon do beside those of the repository. -/
def daemonQuiet : DaemonCall → Prop
  | .called _ | .returned _ => False
  | _ => True

/-- What the calls of the threads do. -/
inductive Step (assume : Assumptions) : HostThread Worker Process → (call : HostCall) →
    Deployment Worker Process → HostAnswer call → Deployment Worker Process → Prop where
  | repository {t : HostThread Worker Process} {call : SqliteCall}
      {w : Deployment Worker Process} {a : call.Answer} {store : World (Option Process)} :
      World.Step assume t.connection (.inl call) w.store a store →
      Step assume t (.inl (.inl call)) w a { w with store }
  | called {t : HostThread Worker Process} {w : Deployment Worker Process} {request : Request} :
      Step assume t (.inl (.inr (.called request))) w ()
        { w with store := w.store.ask t.connection (some request) }
  | returned {t : HostThread Worker Process} {w : Deployment Worker Process} {reply : Reply} :
      Step assume t (.inl (.inr (.returned reply))) w ()
        { w with store := w.store.tell t.connection reply }
  /-- A daemon makes a call that does not concern the others. -/
  | daemon {p : Process} {call : DaemonCall} {w : Deployment Worker Process} {a : call.Answer} :
      daemonQuiet call → Step assume (.daemon p) (.inl (.inr call)) w a w
  | startApi {w : Deployment Worker Process} :
      Step assume .supervisor (.inr .startApi) w () { w with apiStarted := true }
  | nextRequest {t : Worker} {w : Deployment Worker Process} {request : ApiRequest} :
      w.apiStarted = true →
      Step assume (.worker t) (.inr .nextRequest) w (some request)
        { w with object := w.object.ask t request }
  | noRequest {t : Worker} {w : Deployment Worker Process} :
      Step assume (.worker t) (.inr .nextRequest) w none w
  | lockOperations {t : Worker} {w : Deployment Worker Process} :
      w.operations = none →
      Step assume (.worker t) (.inr .lockOperations) w () { w with operations := some t }
  | unlockOperations {t : Worker} {w : Deployment Worker Process} {response : Response} :
      Step assume (.worker t) (.inr (.unlockOperations response)) w ()
        { w with object := w.finish t response w.store.current, operations := none }
  | processStatus {t : Worker} {w : Deployment Worker Process} {status : ProcessStatus} :
      Step assume (.worker t) (.inr .processStatus) w status w
  | start {t : Worker} {w : Deployment Worker Process} {status : Status} :
      Step assume (.worker t) (.inr .start) w status w
  | stop {t : Worker} {w : Deployment Worker Process} {timeout : ℤ} {status : Status} :
      Step assume (.worker t) (.inr (.stop timeout)) w status w
  | restart {t : Worker} {w : Deployment Worker Process} {timeout : ℤ} {status : Status} :
      Step assume (.worker t) (.inr (.restart timeout)) w status w
  | respond {t : Worker} {w : Deployment Worker Process} {response : Response} :
      Step assume (.worker t) (.inr (.respond response)) w ()
        { w with object := (w.finish t response w.object.value).answer t response }

/-- The halt of a thread: a daemon is killed. -/
inductive Halt : HostThread Worker Process → Deployment Worker Process →
    Deployment Worker Process → Prop where
  | killed {p : Process} {w : Deployment Worker Process} :
      Halt (.daemon p) w { w with store := w.store.lose (some p) }

end Deployment

variable {Worker Process : Type} [DecidableEq Worker] [DecidableEq Process]

/-- The threads of a deployment. -/
def deployment (assume : Assumptions) :
    Threads.System (HostThread Worker Process) HostCall HostAnswer (Deployment Worker Process) where
  step := Deployment.Step assume
  env _ _ := False
  halt := Deployment.Halt

/-- A configuration of the threads of a deployment. -/
abbrev DeploymentConfig (Worker Process : Type) :=
  Threads.Config (HostThread Worker Process) HostCall HostAnswer (Deployment Worker Process)

/-- A deployment before it has started, with the database as it has been left. -/
def deploymentStart (argv : Process → List Bytes) (store : World (Option Process)) :
    DeploymentConfig Worker Process where
  progs := fun
    | .supervisor => ApiServer.openApi
    | .worker _ => ApiServer.worker
    | .daemon p => (Daemon.process (argv p)).lift
  world := { store, object := { value := store.current } }

end OpcuaServer
