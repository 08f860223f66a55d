import OpcuaServer.Common.Charconv
import OpcuaServer.Library.Program

/-!
# How the API server runs and stops

`ApiServer::Run`, `ApiServer::Stop` and the start handler, with the functions of `httplib::Server`
that they rest on: the ones that bind, listen and stop. The members of `httplib::Server` are atomic, so
that each access to one is a call.
-/

namespace OpcuaServer

/-- A socket that is not `INVALID_SOCKET`. -/
abbrev Socket := ℕ

/-- `ApiServer::Impl::LifecycleState` -/
inductive LifecycleState where
  | idle
  | starting
  | running
  | stopped
  deriving DecidableEq

/-- The members of `ApiServer::Impl` that `lifecycle_mutex_` guards. -/
structure Lifecycle where
  lifecycleState : LifecycleState := .idle
  stopRequested : Bool := false

/-- The values of `errno` that `listen_internal` tells apart. -/
inductive AcceptErrno where
  | emfile
  | eintr
  | eagain
  | other

/-- What `accept` returns. -/
inductive Accepted where
  | connection (sock : Socket)
  | failed (errno : AcceptErrno)

/-- What `getsockname` finds. -/
inductive SocketName where
  | failed
  | inet (port : UInt16)
  | inet6 (port : UInt16)
  | other

/-- What an API server is built and constructed with. -/
structure ApiSetup where
  /-- Assertions are compiled in. -/
  assertions : Bool
  /-- The listener has an idle interval, as it has on Windows. -/
  idles : Bool
  /-- `repository_` is not null. -/
  repository : Bool
  /-- `controller_` is not null. -/
  controller : Bool

/-- What is called on an API server. -/
inductive ServerOperation where
  | run (bindAddress : Bytes) (port : Int32)
  | stop

/-- What an operation returns. -/
@[reducible]
def ServerOperation.Reply : ServerOperation → Type
  | .run _ _ => Status
  | .stop => Unit

/-! ### Calls -/

/-- The calls of the threads of an API server. -/
inductive ServerCall where
  /-- The next operation of a thread, `none` when it has no more. -/
  | nextOperation
  /-- An operation is called. -/
  | called (operation : ServerOperation)
  /-- An operation has returned. -/
  | returned (operation : ServerOperation) (reply : operation.Reply)
  /-- Lock `lifecycle_mutex_`, and read the members that it guards. -/
  | lock
  /-- Set these members, and unlock `lifecycle_mutex_`. -/
  | unlock (lifecycle : Lifecycle)
  | loadIsRunning
  | storeIsRunning (value : Bool)
  | loadIsDecommissioned
  | storeIsDecommissioned (value : Bool)
  | loadSvrSock
  /-- Load `svr_sock_` and compare it with `INVALID_SOCKET`. -/
  | svrSockValid
  /-- Evaluate the condition of an assertion, `svr_sock_ != INVALID_SOCKET`. -/
  | assertSvrSock
  /-- An assertion has failed. -/
  | assertionFailed
  | storeSvrSock (sock : Option Socket)
  /-- `svr_sock_.exchange(INVALID_SOCKET)` -/
  | exchangeSvrSock
  | createServerSocket (host : Bytes) (port : Int32)
  | getsockname (sock : Option Socket)
  | shutdownSocket (sock : Option Socket)
  | closeSocket (sock : Option Socket)
  /-- `bind_to_port` has returned. -/
  | bindReturned (bound : Bool)
  /-- The start handler has returned. -/
  | startHandlerReturned
  | newTaskQueue
  | selectRead (sock : Option Socket)
  | onIdle
  | accept (sock : Option Socket)
  | enqueue (sock : Socket)
  /-- `task_queue->shutdown()`, after the loop that accepts has been left. -/
  | shutdownTaskQueue

/-- The answer of a call. -/
@[reducible]
def ServerCall.Answer : ServerCall → Type
  | .nextOperation => Option ServerOperation
  | .called _ | .returned _ _ => Unit
  | .lock => Lifecycle
  | .unlock _ => Unit
  | .loadIsRunning | .loadIsDecommissioned | .svrSockValid | .assertSvrSock => Bool
  | .storeIsRunning _ | .storeIsDecommissioned _ | .storeSvrSock _ => Unit
  | .assertionFailed => Empty
  | .loadSvrSock | .exchangeSvrSock | .createServerSocket _ _ => Option Socket
  | .getsockname _ => SocketName
  | .shutdownSocket _ | .closeSocket _ => Unit
  | .bindReturned _ | .startHandlerReturned => Unit
  | .newTaskQueue | .onIdle | .shutdownTaskQueue => Unit
  | .selectRead _ => ℤ
  | .accept _ => Accepted
  | .enqueue _ => Bool

/-- A program of a thread of an API server. -/
abbrev ServerProg := Prog ServerCall ServerCall.Answer

/-- Make a call. -/
abbrev serverCall (call : ServerCall) : ServerProg call.Answer :=
  Prog.perform call

/-! ### `httplib::Server` -/

namespace HttpServer

/-- `assert(svr_sock_ != INVALID_SOCKET)`: the process aborts where it fails. -/
def assertSocket (assertions : Bool) : ServerProg Unit := do
  if assertions then
    if !(← serverCall .assertSvrSock) then
      (← serverCall .assertionFailed).elim

/-- `Server::stop` -/
def stop (assertions : Bool) : ServerProg Unit := do
  if ← serverCall .loadIsRunning then
    assertSocket assertions
    let sock ← serverCall .exchangeSvrSock
    serverCall (.shutdownSocket sock)
    serverCall (.closeSocket sock)
  serverCall (.storeIsDecommissioned false)

/-- The port that a socket is bound to, or -1. -/
def boundPort : ServerProg ℤ := do
  match ← serverCall (.getsockname (← serverCall .loadSvrSock)) with
  | .inet port | .inet6 port => return port.toNat
  | .failed | .other => return -1

/-- `Server::bind_internal` -/
def bindInternal (host : Bytes) (port : Int32) : ServerProg ℤ := do
  if ← serverCall .loadIsDecommissioned then
    return -1
  serverCall (.storeSvrSock (← serverCall (.createServerSocket host port)))
  if !(← serverCall .svrSockValid) then
    return -1
  if port = 0 then boundPort else return port.toInt

/-- `Server::bind_to_port` -/
def bindToPort (host : Bytes) (port : Int32) : ServerProg Bool := do
  let ret ← bindInternal host port
  if ret = -1 then
    serverCall (.storeIsDecommissioned true)
  return decide (0 ≤ ret)

/-- Wait for the socket where there is an idle interval. -/
def waitsInVain (idles : Bool) : ServerProg Bool := do
  if idles then
    if (← serverCall (.selectRead (← serverCall .loadSvrSock))) = 0 then
      serverCall .onIdle
      return true
  return false

/-- The loop ends after `accept` has failed, in whether the socket was closed by the user. -/
def closedByUser : ServerProg Bool := do
  if ← serverCall .svrSockValid then
    serverCall (.closeSocket (← serverCall .loadSvrSock))
    return false
  return true

/-- Hand over a connection to the task queue. -/
def handOver (sock : Socket) : ServerProg Unit := do
  if !(← serverCall (.enqueue sock)) then
    serverCall (.shutdownSocket (some sock))
    serverCall (.closeSocket (some sock))

/-- Accept a connection. -/
def acceptNext : ServerProg (Unit ⊕ Bool) := do
  match ← serverCall (.accept (← serverCall .loadSvrSock)) with
  | .connection sock =>
      handOver sock
      return .inl ()
  | .failed .other => return .inr (← closedByUser)
  | .failed .emfile | .failed .eintr | .failed .eagain => return .inl ()

/-- The body of the loop that accepts. -/
def waitAndAccept (idles : Bool) : ServerProg (Unit ⊕ Bool) := do
  if ← waitsInVain idles then
    return .inl ()
  acceptNext

/-- One iteration of the loop that accepts. -/
def acceptLoop (idles : Bool) (_ : Unit) : ServerProg (Unit ⊕ Bool) := do
  if !(← serverCall .svrSockValid) then
    return .inr true
  waitAndAccept idles

/-- The end of `listen_internal`, after the loop has ended in `ret`. -/
def endListening (ret : Bool) : ServerProg Bool := do
  serverCall .shutdownTaskQueue
  serverCall (.storeIsDecommissioned !ret)
  serverCall (.storeIsRunning false)
  return ret

/-- The part of `listen_internal` after the start handler. -/
def acceptConnections (idles : Bool) : ServerProg Bool := do
  serverCall .newTaskQueue
  endListening (← Prog.repeatUntil (acceptLoop idles) ())

/-- `Server::listen_internal` -/
def listenInternal (idles : Bool) (startHandler : ServerProg Unit) : ServerProg Bool := do
  if ← serverCall .loadIsDecommissioned then
    return false
  serverCall (.storeIsRunning true)
  startHandler
  serverCall .startHandlerReturned
  acceptConnections idles

end HttpServer

/-! ### `ApiServer::Impl` -/

namespace ApiServer

/-- Run the program under a `std::lock_guard` of `lifecycle_mutex_`. -/
def guardLifecycle {α : Type} (p : StateM Lifecycle α) : ServerProg α := do
  let (a, lifecycle) := p.run (← serverCall .lock)
  serverCall (.unlock lifecycle)
  return a

/-- The first part of `Run` under the mutex: what it returns, unless it goes on. -/
def enterStarting : StateM Lifecycle (Option Status) := do
  let lifecycle ← get
  if lifecycle.lifecycleState ≠ .idle then
    return some (.error (ascii "API server can only be run once"))
  else if lifecycle.stopRequested then
    set { lifecycle with lifecycleState := .stopped }
    return some (.ok ())
  else
    set { lifecycle with lifecycleState := .starting }
    return none

/-- `Run` goes on if it has not been called before and no stop has been requested. -/
theorem run_enterStarting (lifecycle : Lifecycle) :
  enterStarting.run lifecycle =
    if lifecycle.lifecycleState ≠ .idle then
      (some (.error (ascii "API server can only be run once")), lifecycle)
    else if lifecycle.stopRequested then
      (some (.ok ()), { lifecycle with lifecycleState := .stopped })
    else
      (none, { lifecycle with lifecycleState := .starting })
  := by
  obtain ⟨state, requested⟩ := lifecycle
  cases state <;> cases requested <;> rfl

/-- The part of the start handler under the mutex. -/
def enterRunning : StateM Lifecycle Bool := do
  modify fun lifecycle => { lifecycle with lifecycleState := .running }
  return (← get).stopRequested

/-- The last part of `Run` under the mutex. -/
def enterStopped : StateM Lifecycle Unit :=
  modify fun lifecycle => { lifecycle with lifecycleState := .stopped }

/-- The part of `Stop` under the mutex. -/
def requestStop : StateM Lifecycle Unit :=
  modify fun lifecycle => { lifecycle with stopRequested := true }

variable (setup : ApiSetup)

/-- The start handler. -/
def startHandler : ServerProg Unit := do
  if ← guardLifecycle enterRunning then
    HttpServer.stop setup.assertions

/-- The part of `Run` after the server has been bound. -/
def listenAfterBind : ServerProg Status := do
  let listenSucceeded ← HttpServer.listenInternal setup.idles (startHandler setup)
  guardLifecycle enterStopped
  if !listenSucceeded then
    return .error (ascii "API server listener failed")
  return .ok ()

/-- The part of `Run` after the first one under the mutex. -/
def bindAndListen (bindAddress : Bytes) (port : Int32) : ServerProg Status := do
  let bound ← HttpServer.bindToPort bindAddress port
  serverCall (.bindReturned bound)
  if !bound then
    guardLifecycle enterStopped
    return .error (ascii "failed to bind API server to " ++ bindAddress ++ ascii ":" ++
      stdToString port)
  listenAfterBind setup

/-- `ApiServer::Run` -/
def run (bindAddress : Bytes) (port : Int32) : ServerProg Status := do
  if !setup.repository || !setup.controller then
    return .error (ascii "API server dependencies must not be null")
  if port < 0 ∨ 65535 < port then
    return .error (ascii "API server port must be between 0 and 65535")
  match ← guardLifecycle enterStarting with
  | some status => return status
  | none => bindAndListen setup bindAddress port

/-- `ApiServer::Stop` -/
def stop : ServerProg Unit := do
  guardLifecycle requestStop
  HttpServer.stop setup.assertions

/-! ### Threads -/

/-- The program of an operation. -/
def program : (operation : ServerOperation) → ServerProg operation.Reply
  | .run bindAddress port => run setup bindAddress port
  | .stop => stop setup

/-- One iteration of a thread: an operation. -/
def performNext (_ : Unit) : ServerProg (Unit ⊕ Unit) := do
  match ← serverCall .nextOperation with
  | none => return .inr ()
  | some operation =>
      serverCall (.called operation)
      let reply ← program setup operation
      serverCall (.returned operation reply)
      return .inl ()

/-- A thread that calls operations of the API server. -/
def thread : ServerProg Unit :=
  Prog.repeatUntil (performNext setup) ()

end ApiServer

end OpcuaServer
