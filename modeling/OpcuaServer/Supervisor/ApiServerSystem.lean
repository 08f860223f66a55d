import OpcuaServer.Library.Threads
import OpcuaServer.Supervisor.ApiLifecycle

/-!
# Threads with one API server

Any number of threads that call `Run` and `Stop` of one API server, in any interleaving of their calls.
-/

namespace OpcuaServer

/-- What a thread has come upon since its last operation was called. -/
structure RunTrace where
  /-- The members that its last lock of the mutex has found. -/
  found : Lifecycle := {}
  /-- What `bind_to_port` has returned. -/
  bound : Option Bool := none
  /-- It has found `svr_sock_` invalid when it last compared it. -/
  sawInvalid : Bool := false
  /-- An `accept` has failed for good while `svr_sock_` was valid. -/
  acceptFailed : Bool := false

/-- An API server, and what has happened to it. -/
structure ApiHost (Tid : Type) where
  /-- The thread that has locked `lifecycle_mutex_`. -/
  mutex : Option Tid := none
  lifecycle : Lifecycle := {}
  isRunning : Bool := false
  isDecommissioned : Bool := false
  svrSock : Option Socket := none
  /-- The thread whose `Run` has set `kStarting`. -/
  listener : Option Tid := none
  /-- How many sockets have been asked for. -/
  binds : ℕ := 0
  /-- `is_running_` has been set. -/
  hasRun : Bool := false
  /-- What the start handler has read of `stop_requested_`. -/
  handlerSaw : Option Bool := none
  handlerReturned : Bool := false
  /-- The loop that accepts has been left. -/
  loopLeft : Bool := false
  /-- A `Stop` has returned. -/
  stopReturned : Bool := false
  /-- A `stop()` has taken the socket of the listener, which still runs. -/
  taken : Bool := false
  /-- The `stop()` of the thread has found the listener running, and has not come past its assertion. -/
  asserting : Tid → Bool := fun _ => false
  trace : Tid → RunTrace := fun _ => {}

namespace ApiHost

variable {Tid : Type} [DecidableEq Tid]

/-- A thread has come upon something. -/
def note (w : ApiHost Tid) (t : Tid) (f : RunTrace → RunTrace) : ApiHost Tid :=
  { w with trace := Function.update w.trace t (f (w.trace t)) }

/-- The mutex has been locked. -/
def acquire (w : ApiHost Tid) (t : Tid) : ApiHost Tid :=
  { w.note t fun trace => { trace with found := w.lifecycle } with mutex := some t }

/-- The thread that listens, once the members are as given. -/
def listenerAfter (w : ApiHost Tid) (t : Tid) (lifecycle : Lifecycle) : Option Tid :=
  if w.lifecycle.lifecycleState = .idle ∧ lifecycle.lifecycleState = .starting then some t
  else w.listener

/-- What the start handler has read, once the members are as given. -/
def handlerSawAfter (w : ApiHost Tid) (lifecycle : Lifecycle) : Option Bool :=
  if w.lifecycle.lifecycleState = .starting ∧ lifecycle.lifecycleState = .running then
    some lifecycle.stopRequested
  else
    w.handlerSaw

/-- The mutex has been unlocked. -/
def release (w : ApiHost Tid) (t : Tid) (lifecycle : Lifecycle) : ApiHost Tid :=
  { w with
    mutex := none
    lifecycle
    listener := w.listenerAfter t lifecycle
    handlerSaw := w.handlerSawAfter lifecycle }

/-- A `stop()` has tested `is_running_`. -/
def test (w : ApiHost Tid) (t : Tid) : ApiHost Tid :=
  { w with asserting := Function.update w.asserting t w.isRunning }

/-- A `stop()` has come past its assertion. -/
def pass (w : ApiHost Tid) (t : Tid) : ApiHost Tid :=
  { w with asserting := Function.update w.asserting t false }

/-- A `stop()` has taken the socket. -/
def take (w : ApiHost Tid) (t : Tid) : ApiHost Tid :=
  { w.pass t with svrSock := none, taken := w.isRunning }

/-- An operation has returned. -/
def finish (w : ApiHost Tid) : ServerOperation → ApiHost Tid
  | .run _ _ => w
  | .stop => { w with stopReturned := true }

/-- The calls that affect nothing of the server. -/
def quiet : ServerCall → Bool
  | .nextOperation | .getsockname _ | .shutdownSocket _ | .closeSocket _ | .newTaskQueue
  | .selectRead _ | .onIdle | .enqueue _ => true
  | _ => false

/-- `accept` has failed with an error after which it is not called again. -/
def failsForGood : Accepted → Bool
  | .failed .other => true
  | _ => false

/-- What the calls of a thread do. Unless stops `overlap`, no `stop()` tests `is_running_` after
another one has taken the socket of a listener that still runs, and none takes the socket before
another one that has found the listener running has come past its assertion. -/
inductive Step (overlap : Prop) (t : Tid) :
    (call : ServerCall) → ApiHost Tid → call.Answer → ApiHost Tid → Prop where
  | quiet {w : ApiHost Tid} {call : ServerCall} {a : call.Answer} :
      quiet call = true → Step overlap t call w a w
  | called {w : ApiHost Tid} {operation : ServerOperation} :
      Step overlap t (.called operation) w () (w.note t fun _ => {})
  | returned {w : ApiHost Tid} {operation : ServerOperation} {reply : operation.Reply} :
      Step overlap t (.returned operation reply) w () (w.finish operation)
  | lock {w : ApiHost Tid} : w.mutex = none → Step overlap t .lock w w.lifecycle (w.acquire t)
  | unlock {w : ApiHost Tid} {lifecycle : Lifecycle} :
      w.mutex = some t → Step overlap t (.unlock lifecycle) w () (w.release t lifecycle)
  | loadIsRunning {w : ApiHost Tid} :
      (w.taken = true → overlap) → Step overlap t .loadIsRunning w w.isRunning (w.test t)
  | storeIsRunning {w : ApiHost Tid} {value : Bool} :
      Step overlap t (.storeIsRunning value) w ()
        { w with isRunning := value, hasRun := w.hasRun || value, taken := false }
  | loadIsDecommissioned {w : ApiHost Tid} :
      Step overlap t .loadIsDecommissioned w w.isDecommissioned w
  | storeIsDecommissioned {w : ApiHost Tid} {value : Bool} :
      Step overlap t (.storeIsDecommissioned value) w () { w with isDecommissioned := value }
  | loadSvrSock {w : ApiHost Tid} : Step overlap t .loadSvrSock w w.svrSock w
  | svrSockValid {w : ApiHost Tid} :
      Step overlap t .svrSockValid w w.svrSock.isSome
        (w.note t fun trace => { trace with sawInvalid := w.svrSock.isNone })
  | assertSvrSock {w : ApiHost Tid} :
      Step overlap t .assertSvrSock w w.svrSock.isSome (w.pass t)
  | storeSvrSock {w : ApiHost Tid} {sock : Option Socket} :
      Step overlap t (.storeSvrSock sock) w () { w with svrSock := sock }
  | exchangeSvrSock {w : ApiHost Tid} :
      (∀ t', t' ≠ t → w.asserting t' = true → overlap) →
      Step overlap t .exchangeSvrSock w w.svrSock (w.take t)
  | createServerSocket {w : ApiHost Tid} {host : Bytes} {port : Int32} {sock : Option Socket} :
      Step overlap t (.createServerSocket host port) w sock { w with binds := w.binds + 1 }
  | bindReturned {w : ApiHost Tid} {bound : Bool} :
      Step overlap t (.bindReturned bound) w ()
        (w.note t fun trace => { trace with bound := some bound })
  | startHandlerReturned {w : ApiHost Tid} :
      Step overlap t .startHandlerReturned w () { w with handlerReturned := true }
  | accept {w : ApiHost Tid} {sock : Option Socket} {accepted : Accepted} :
      Step overlap t (.accept sock) w accepted (w.note t fun trace => { trace with
        acceptFailed := trace.acceptFailed || (failsForGood accepted && w.svrSock.isSome) })
  | shutdownTaskQueue {w : ApiHost Tid} :
      Step overlap t .shutdownTaskQueue w () { w with loopLeft := true }

end ApiHost

/-- A configuration of the threads of an API server. -/
abbrev ApiConfig (Tid : Type) := Threads.Config Tid ServerCall ServerCall.Answer (ApiHost Tid)

/-- The threads with one API server. -/
def apiServers {Tid : Type} [DecidableEq Tid] (overlap : Prop) :
    Threads.System Tid ServerCall ServerCall.Answer (ApiHost Tid) where
  step := ApiHost.Step overlap
  env _ _ := False
  halt _ _ _ := False

/-- The threads before they have started. -/
def apiServersStart {Tid : Type} (setup : ApiSetup) : ApiConfig Tid where
  progs := fun _ => ApiServer.thread setup
  world := {}

end OpcuaServer
