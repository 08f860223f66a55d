import OpcuaServer.Supervisor.ProcessController

/-!
# The supervisor

`main` of the supervisor, with the functions that decide how it ends, and the clients of the
controller: they ask it for one operation after another, as the handlers of the API do.
-/

namespace OpcuaServer

/-- Why the supervisor ends. -/
inductive SupervisorExitReason where
  | signal
  | apiExit
  deriving DecidableEq

/-- `ObserveSupervisorExit` -/
def observeSupervisorExit (apiReady signalPending apiReadyAfterSignal : Bool) :
    Option SupervisorExitReason :=
  if apiReady || (signalPending && apiReadyAfterSignal) then
    some .apiExit
  else if signalPending then
    some .signal
  else
    none

/-- `ClassifyApiExit` -/
def classifyApiExit (reason : SupervisorExitReason) (apiStatus : Status) : Status :=
  match reason, apiStatus with
  | .apiExit, .ok () => .error (ascii "API server exited unexpectedly")
  | _, apiStatus => apiStatus

/-- How the task of the API server has completed. -/
inductive ApiOutcome where
  | returned (status : Status)
  /-- A `std::exception` with its `what`. -/
  | threwException (what : Bytes)
  | threwUnknown

/-- `GetApiResult` -/
def getApiResult : ApiOutcome → Status
  | .returned status => status
  | .threwException what => .error (ascii "API server threw exception: " ++ what)
  | .threwUnknown => .error (ascii "API server threw unknown exception")

/-- `ParseApiPort` -/
def parseApiPort (value : Bytes) : Result Int32 :=
  match stdFromChars value with
  | some (port, []) =>
      if port < 0 ∨ 65535 < port then
        .error (ascii "API port must be an integer between 0 and 65535")
      else
        .ok port
  | _ => .error (ascii "API port must be an integer between 0 and 65535")

/-! ### Calls -/

/-- The calls of the supervisor and of the clients of the controller. -/
inductive SupervisorCall where
  /-- The next operation of a client, `none` when it has no more. -/
  | nextOperation
  /-- An operation of the controller is called. -/
  | called (operation : Operation)
  /-- An operation of the controller has returned. -/
  | returned (operation : Operation) (reply : operation.Reply)
  | installSignalHandlers
  | openRepository (path : Bytes)
  | initializeRepository
  /-- Start the thread that runs the API server. -/
  | startApi (port : Int32)
  /-- Wait for the task of the API server, for some milliseconds. -/
  | waitForApi (timeout : ℤ)
  /-- Read `shutdown_signal`. -/
  | shutdownSignal
  | stopApi
  /-- Join the thread of the API server. -/
  | joinApi
  /-- The outcome of the task of the API server. -/
  | apiResult
  /-- Print to `std::cerr`. -/
  | printError (text : Bytes)
  /-- `main` has returned. -/
  | exited (code : Int32)

/-- The answer of a call of the supervisor. -/
@[reducible]
def SupervisorCall.Answer : SupervisorCall → Type
  | .nextOperation => Option Operation
  | .called _ | .returned _ _ => Unit
  | .installSignalHandlers => Bool
  | .openRepository _ | .initializeRepository => Status
  | .startApi _ => Unit
  | .waitForApi _ => Bool
  | .shutdownSignal => Int32
  | .stopApi | .joinApi => Unit
  | .apiResult => ApiOutcome
  | .printError _ | .exited _ => Unit

/-- A program of the supervisor or of a client. -/
abbrev Supervisor (F OsCall : Type) (OsAnswer : OsCall → Type) :=
  Prog ((ControllerCall F ⊕ OsCall) ⊕ SupervisorCall)
    (Sum.elim (Sum.elim ControllerCall.Answer OsAnswer) SupervisorCall.Answer)

namespace Supervisor

variable {F OsCall : Type} {OsAnswer : OsCall → Type}

/-- Make a call. -/
def perform (call : SupervisorCall) : Supervisor F OsCall OsAnswer call.Answer :=
  Prog.perform (Sum.inr call)

variable (platform : Platform F OsCall OsAnswer)

/-- Call an operation of the controller. -/
def invoke (operation : Operation) : Supervisor F OsCall OsAnswer operation.Reply := do
  perform (.called operation)
  let reply ← (platform.run operation).lift
  perform (.returned operation reply)
  return reply

/-! ### Clients -/

/-- One iteration of a client: an operation. -/
def serve (_ : Unit) : Supervisor F OsCall OsAnswer (Unit ⊕ Unit) := do
  match ← perform .nextOperation with
  | none => return .inr ()
  | some operation =>
      let _ ← invoke platform operation
      return .inl ()

/-- A client of the controller. -/
def client : Supervisor F OsCall OsAnswer Unit :=
  Prog.repeatUntil (serve platform) ()

/-! ### The main program -/

/-- Whether the task of the API server has completed, asked again where a signal has arrived. -/
def apiReadyAfter (apiReady signalPending : Bool) : Supervisor F OsCall OsAnswer Bool :=
  if !apiReady && signalPending then perform (.waitForApi 0) else pure false

/-- One iteration of the loop that supervises the daemon and the API server. -/
def supervise (_ : Unit) : Supervisor F OsCall OsAnswer (Unit ⊕ SupervisorExitReason) := do
  invoke platform .reapExited
  let apiReady ← perform (.waitForApi 0)
  let signalPending := decide ((← perform .shutdownSignal) ≠ 0)
  let apiReadyAfterSignal ← apiReadyAfter apiReady signalPending
  match observeSupervisorExit apiReady signalPending apiReadyAfterSignal with
  | some reason => return .inr reason
  | none =>
      let _ ← perform (.waitForApi 50)
      return .inl ()

/-- Print the message of an error status. -/
def printFailure (context : String) : Status → Supervisor F OsCall OsAnswer Unit
  | .ok () => return
  | .error message => perform (.printError (ascii context ++ message ++ ascii "\n"))

/-- The end of the main program after the daemon has been stopped. -/
def conclude (exitReason : SupervisorExitReason) (stopStatus : Status) :
    Supervisor F OsCall OsAnswer Int32 := do
  invoke platform .reapExited
  perform .joinApi
  let apiStatus := getApiResult (← perform .apiResult)
  let supervisorStatus := classifyApiExit exitReason apiStatus
  printFailure "failed to stop daemon: " stopStatus
  printFailure "API server failed: " supervisorStatus
  match supervisorStatus, stopStatus with
  | .ok (), .ok () => return 0
  | _, _ => return 1

/-- The end of the main program. -/
def shutDown (exitReason : SupervisorExitReason) : Supervisor F OsCall OsAnswer Int32 := do
  invoke platform .requestShutdown
  perform .stopApi
  let stopStatus ← invoke platform (.stop 5000)
  conclude platform exitReason stopStatus

/-- The main program after the repository has been opened. -/
def runSupervisor (apiPort : Int32) : Supervisor F OsCall OsAnswer Int32 := do
  let startStatus ← invoke platform .start
  printFailure "failed to start daemon: " startStatus
  perform (.startApi apiPort)
  let exitReason ← Prog.repeatUntil (supervise platform) ()
  let code ← shutDown platform exitReason
  invoke platform .destroy
  return code

/-- Print a message, and end with the code for a failure. -/
def giveUp (text : Bytes) : Supervisor F OsCall OsAnswer Int32 := do
  perform (.printError (text ++ ascii "\n"))
  return 1

/-- The path of the database. -/
def dbPath (argv : List Bytes) : Bytes :=
  argv.getD 1 (ascii "opcua-server.db")

/-- The controller of the daemon. -/
def daemonController (controller : Bytes → List Bytes → Platform F OsCall OsAnswer)
    (argv : List Bytes) : Platform F OsCall OsAnswer :=
  controller (argv.getD 2 (ascii "opcua-daemon")) [dbPath argv]

/-- `main`, for the platform of a controller with a daemon path and arguments. -/
def main (controller : Bytes → List Bytes → Platform F OsCall OsAnswer) (argv : List Bytes) :
    Supervisor F OsCall OsAnswer Int32 := do
  if !(← perform .installSignalHandlers) then
    giveUp (ascii "failed to install supervisor signal handlers")
  else
  match argv[3]?.elim (Except.ok 8080) parseApiPort with
  | .error message => giveUp (ascii "invalid API port: " ++ message)
  | .ok apiPort =>
  match ← perform (.openRepository (dbPath argv)) with
  | .error message => giveUp (ascii "failed to open configuration repository: " ++ message)
  | .ok () =>
  match ← perform .initializeRepository with
  | .error message => giveUp (ascii "failed to initialize configuration repository: " ++ message)
  | .ok () => runSupervisor (daemonController controller argv) apiPort

/-- The process of the supervisor. -/
def process (controller : Bytes → List Bytes → Platform F OsCall OsAnswer) (argv : List Bytes) :
    Supervisor F OsCall OsAnswer Unit := do
  perform (.exited (← main controller argv))

end Supervisor

end OpcuaServer
