import OpcuaServer.Daemon.DaemonMain
import OpcuaServer.Library.Forking
import OpcuaServer.Supervisor.PosixController

/-!
# The threads of the daemon

The main thread of the daemon and the thread that monitors the signals, in any interleaving of their
calls, while signals arrive at any time. A signal whose handler has not been installed ends the
process. The calls of SQLite and of open62541 can fail, and the monitor may not be started.
-/

namespace OpcuaServer

/-- The threads of the daemon. -/
inductive DaemonThread where
  | main
  | monitor
  deriving DecidableEq

namespace Signal

def sigAbrt : Signal := 6

end Signal

/-- The number of a signal that requests a shutdown. -/
def ShutdownSignal.number : ShutdownSignal → Signal
  | .sigInt => Signal.sigInt
  | .sigTerm => Signal.sigTerm

/-- Where in its life a server is. -/
inductive ServerStage where
  | created
  /-- Its `UA_ServerConfig` has been obtained. -/
  | configurable
  | configured
  | started
  | shutDown
  /-- It could not be configured or started. -/
  | failed
  | deleted
  deriving DecidableEq

/-- What the threads of the daemon share, and what has happened to it. -/
structure DaemonHost where
  /-- The signals whose handler has been installed. -/
  handles : ShutdownSignal → Bool := fun _ => false
  /-- `g_shutdown_requested` -/
  shutdownRequested : Bool := false
  running : Bool := true
  /-- The main thread has cleared `running`. -/
  stopped : Bool := false
  /-- The thread that monitors the signals has been started. -/
  monitoring : Bool := false
  monitorEnded : Bool := false
  /-- The servers that have been created, the oldest first. -/
  servers : List ServerStage := []
  /-- How the process has ended. -/
  ended : Option WaitStatus := none

namespace DaemonHost

/-- A server has come to a stage of its life. -/
def enter (w : DaemonHost) (server : UaServer) (stage : ServerStage) : DaemonHost :=
  { w with servers := w.servers.set server stage }

/-- A server has been brought to a stage of its life, or this has failed. -/
def advance (w : DaemonHost) (server : UaServer) (good : Bool) (stage : ServerStage) : DaemonHost :=
  w.enter server (if good then stage else .failed)

/-- `running` has been set. -/
def storeRunning (w : DaemonHost) (t : DaemonThread) (value : Bool) : DaemonHost :=
  { w with running := value, stopped := w.stopped || decide (t = .main) }

/-- Every server has been deleted. -/
def Released (w : DaemonHost) : Prop :=
  ∀ stage ∈ w.servers, stage = .deleted

/-- Where in its life a server has to be for the calls of open62541. One server is used after the
other, and none is left when `main` has returned. -/
def Permits (w : DaemonHost) : DaemonCall → Prop
  | .uaServerNew | .exited _ => w.Released
  | .uaServerGetConfig server => w.servers[server]? = some .created
  | .uaServerConfigSetMinimal server _ => w.servers[server]? = some .configurable
  | .uaServerRunStartup server => w.servers[server]? = some .configured
  | .uaServerRunIterate server _ | .uaServerRunShutdown server =>
      w.servers[server]? = some .started
  | .uaServerDelete server =>
      w.servers[server]? = some .failed ∨ w.servers[server]? = some .shutDown
  | _ => True

/-- The calls that affect nothing of this. -/
def quiet : DaemonCall → Bool
  | .openRepository _ | .called _ | .returned _ | .sleepFor _ | .uaServerRunIterate _ _
  | .printError _ => true
  | _ => false

/-- What the calls do that come back. -/
inductive Step (t : DaemonThread) :
    (call : SqliteCall ⊕ DaemonCall) → DaemonHost →
      Sum.elim SqliteCall.Answer DaemonCall.Answer call → DaemonHost → Prop where
  | sqlite {w : DaemonHost} {call : SqliteCall} {a : call.Answer} : Step t (.inl call) w a w
  | quiet {w : DaemonHost} {call : DaemonCall} {a : call.Answer} :
      quiet call = true → Step t (.inr call) w a w
  | installHandler {w : DaemonHost} {signal : ShutdownSignal} :
      Step t (.inr (.installHandler signal)) w ()
        { w with handles := Function.update w.handles signal true }
  | joinMonitor {w : DaemonHost} :
      w.monitorEnded = true → Step t (.inr .joinMonitor) w () w
  | loadRunning {w : DaemonHost} : Step t (.inr .loadRunning) w w.running w
  | storeRunning {w : DaemonHost} {value : Bool} :
      Step t (.inr (.storeRunning value)) w () (w.storeRunning t value)
  | shutdownRequested {w : DaemonHost} :
      Step t (.inr .shutdownRequested) w w.shutdownRequested w
  | uaServerNewFails {w : DaemonHost} : Step t (.inr .uaServerNew) w none w
  | uaServerNew {w : DaemonHost} :
      Step t (.inr .uaServerNew) w (some w.servers.length)
        { w with servers := w.servers ++ [.created] }
  | uaServerGetConfig {w : DaemonHost} {server : UaServer} {found : Bool} :
      Step t (.inr (.uaServerGetConfig server)) w found (w.advance server found .configurable)
  | uaServerConfigSetMinimal {w : DaemonHost} {server : UaServer} {portNumber : UInt16}
      {code : UaStatusCode} :
      Step t (.inr (.uaServerConfigSetMinimal server portNumber)) w code
        (w.advance server (!code.isBad) .configured)
  | uaServerRunStartup {w : DaemonHost} {server : UaServer} {code : UaStatusCode} :
      Step t (.inr (.uaServerRunStartup server)) w code (w.advance server (!code.isBad) .started)
  | uaServerRunShutdown {w : DaemonHost} {server : UaServer} {code : UaStatusCode} :
      Step t (.inr (.uaServerRunShutdown server)) w code (w.enter server .shutDown)
  | uaServerDelete {w : DaemonHost} {server : UaServer} :
      Step t (.inr (.uaServerDelete server)) w () (w.enter server .deleted)
  | exited {w : DaemonHost} {code : Int32} :
      Step t (.inr (.exited code)) w () { w with ended := some (.exited code) }

/-- The main thread starts the thread that monitors the signals. -/
inductive Fork : DaemonThread → DaemonThread → (call : SqliteCall ⊕ DaemonCall) → DaemonHost →
    Sum.elim SqliteCall.Answer DaemonCall.Answer call →
    Sum.elim SqliteCall.Answer DaemonCall.Answer call → DaemonHost → Prop where
  | startMonitor {w : DaemonHost} :
      Fork .main .monitor (.inr .startMonitor) w false true { w with monitoring := true }

/-- The calls that do not come back. -/
inductive Leave : DaemonThread → SqliteCall ⊕ DaemonCall → DaemonHost → DaemonHost → Prop where
  /-- The constructor of `std::thread` throws, and nothing catches it. -/
  | startMonitor {w : DaemonHost} :
      Leave .main (.inr .startMonitor) w { w with ended := some (.signaled Signal.sigAbrt) }
  /-- The thread that monitors the signals ends. -/
  | endMonitor {w : DaemonHost} :
      Leave .monitor (.inr .endMonitor) w { w with monitorEnded := true }

/-- No handler has been installed for the signal. -/
def Unhandled (w : DaemonHost) (signal : Signal) : Prop :=
  ∀ handled : ShutdownSignal, w.handles handled = true → signal ≠ handled.number

/-- The signals that arrive. -/
inductive Env : Option DaemonThread → DaemonHost → DaemonHost → Prop where
  /-- The handler of a signal runs. -/
  | arrives {w : DaemonHost} {signal : ShutdownSignal} :
      w.handles signal = true → Env none w { w with shutdownRequested := true }
  /-- The default action of a signal ends the process. -/
  | ends {w : DaemonHost} {signal : Signal} :
      w.Unhandled signal → Env none w { w with ended := some (.signaled signal) }

end DaemonHost

/-- The threads of the daemon, until the process has ended. -/
def daemonThreads :
    Forking.System DaemonThread (SqliteCall ⊕ DaemonCall)
      (Sum.elim SqliteCall.Answer DaemonCall.Answer) DaemonHost where
  step t call w a w' := w.ended = none ∧ DaemonHost.Step t call w a w'
  fork t t' call w a b w' := w.ended = none ∧ DaemonHost.Fork t t' call w a b w'
  leave t call w w' := w.ended = none ∧ DaemonHost.Leave t call w w'
  env l w w' := w.ended = none ∧ DaemonHost.Env l w w'

/-- A configuration of the threads of the daemon. -/
abbrev DaemonConfig :=
  Forking.Config DaemonThread (SqliteCall ⊕ DaemonCall)
    (Sum.elim SqliteCall.Answer DaemonCall.Answer) DaemonHost Unit

/-- The daemon before it has started. -/
def daemonStart (argv : List Bytes) : DaemonConfig where
  progs := fun
    | .main => some (Daemon.process argv)
    | .monitor => none
  world := {}

end OpcuaServer
