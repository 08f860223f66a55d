import OpcuaServer.Config.ConfigSystem

/-!
# The daemon

`main` of the daemon and `OpcuaServer::Run`. The main thread loads the configuration and runs a
server of open62541 with it, until the thread that monitors the signals clears the flag that it
shares with the main thread.
-/

namespace OpcuaServer

/-- A `UA_StatusCode`, with what `UA_StatusCode_name` says of it. -/
structure UaStatusCode where
  code : UInt32
  name : Bytes
  deriving DecidableEq

namespace UaStatusCode

/-- `UA_StatusCode_isBad` -/
def isBad (status : UaStatusCode) : Bool :=
  decide ((2 : UInt32) ≤ status.code >>> 30)

/-- `UA_STATUSCODE_GOOD` -/
def good : UaStatusCode :=
  ⟨0, ascii "Good"⟩

end UaStatusCode

/-- A `UA_Server*` that is not null. -/
abbrev UaServer := ℕ

/-- The signals that request a shutdown. -/
inductive ShutdownSignal where
  | sigInt
  | sigTerm
  deriving DecidableEq

/-! ### Calls -/

/-- The calls of the threads of the daemon beside those of the repository. -/
inductive DaemonCall where
  /-- `std::signal(signal, HandleShutdownSignal)` -/
  | installHandler (signal : ShutdownSignal)
  /-- `ConfigRepository::Open` -/
  | openRepository (path : Bytes)
  /-- A function of the repository is called. -/
  | called (request : Request)
  /-- A function of the repository has returned. -/
  | returned (reply : Reply)
  /-- Start the thread that monitors the signals. The call also comes back in that thread, where it
  answers `true`. -/
  | startMonitor
  /-- The thread that monitors the signals ends. -/
  | endMonitor
  | joinMonitor
  | loadRunning
  | storeRunning (value : Bool)
  /-- Read `g_shutdown_requested`. -/
  | shutdownRequested
  /-- `sleep_for`, in milliseconds. -/
  | sleepFor (duration : ℤ)
  | uaServerNew
  | uaServerGetConfig (server : UaServer)
  | uaServerConfigSetMinimal (server : UaServer) (portNumber : UInt16)
  | uaServerRunStartup (server : UaServer)
  | uaServerRunIterate (server : UaServer) (waitInternal : Bool)
  | uaServerRunShutdown (server : UaServer)
  | uaServerDelete (server : UaServer)
  /-- Print to `std::cerr`. -/
  | printError (text : Bytes)
  /-- `main` has returned. -/
  | exited (code : Int32)

/-- The answer of a call of the daemon. -/
@[reducible]
def DaemonCall.Answer : DaemonCall → Type
  | .installHandler _ => Unit
  | .openRepository _ => Status
  | .called _ | .returned _ => Unit
  | .startMonitor => Bool
  | .endMonitor => Empty
  | .joinMonitor => Unit
  | .loadRunning | .shutdownRequested => Bool
  | .storeRunning _ | .sleepFor _ => Unit
  | .uaServerNew => Option UaServer
  | .uaServerGetConfig _ => Bool
  | .uaServerConfigSetMinimal _ _ | .uaServerRunStartup _ | .uaServerRunShutdown _ => UaStatusCode
  | .uaServerRunIterate _ _ | .uaServerDelete _ => Unit
  | .printError _ | .exited _ => Unit

/-- A program of a thread of the daemon. -/
abbrev DaemonProg :=
  Prog (SqliteCall ⊕ DaemonCall) (Sum.elim SqliteCall.Answer DaemonCall.Answer)

namespace Daemon

open ConfigRepository

/-- Make a call. -/
def perform (call : DaemonCall) : DaemonProg call.Answer :=
  Prog.perform (Sum.inr call)

/-! ### `OpcuaServer::Run` -/

/-- `StatusFromOpen62541` -/
def statusFromOpen62541 (code : UaStatusCode) (operation : Bytes) : Status :=
  if !code.isBad then .ok () else .error (operation ++ ascii " failed: " ++ code.name)

/-- `ServerShutdown` -/
structure ServerShutdown where
  server : Option UaServer
  shutdownStatus : UaStatusCode := .good

/-- `ServerShutdown::Shutdown`, which the destructor calls too. -/
def shutdown : StateT ServerShutdown DaemonProg Status := do
  if let some server := (← get).server then
    let code ← perform (.uaServerRunShutdown server)
    set { server := none, shutdownStatus := code : ServerShutdown }
  return statusFromOpen62541 (← get).shutdownStatus (ascii "UA_Server_run_shutdown")

/-- One iteration of the loop that runs the server. -/
def iterate (server : UaServer) (_ : Unit) : DaemonProg (Unit ⊕ Unit) := do
  if !(← perform .loadRunning) then
    return .inr ()
  perform (.uaServerRunIterate server true)
  return .inl ()

/-- The part of `Run` after the server has been started. -/
def serve (server : UaServer) : DaemonProg Status := do
  Prog.repeatUntil (iterate server) ()
  let (status, guard) ← shutdown.run { server := some server }
  -- the destructor of the guard
  let _ ← shutdown.run guard
  return status

/-- The part of `Run` between the creation of the server and its deletion. -/
def configure (config : ServerConfig) (server : UaServer) : DaemonProg Status := do
  if !(← perform (.uaServerGetConfig server)) then
    return .error (ascii "UA_Server_getConfig failed")
  let port := config.serverPort.toUInt32.toUInt16
  match statusFromOpen62541 (← perform (.uaServerConfigSetMinimal server port))
      (ascii "UA_ServerConfig_setMinimal") with
  | .error message => return .error message
  | .ok () =>
  match statusFromOpen62541 (← perform (.uaServerRunStartup server))
      (ascii "UA_Server_run_startup") with
  | .error message => return .error message
  | .ok () => serve server

/-- `OpcuaServer::Run`, where the flag is not null if `running` holds. -/
def run (running : Bool) (config : ServerConfig) : DaemonProg Status := do
  if !running then
    return .error (ascii "running flag must not be null")
  match config.validate with
  | .error message => return .error message
  | .ok () =>
  match ← perform .uaServerNew with
  | none => return .error (ascii "UA_Server_new failed")
  | some server =>
    let status ← configure config server
    perform (.uaServerDelete server)
    return status

/-! ### The main program -/

/-- One iteration of the loop of the thread that monitors the signals. -/
def monitor (_ : Unit) : DaemonProg (Unit ⊕ Unit) := do
  if !(← perform .loadRunning) then
    return .inr ()
  if ← perform .shutdownRequested then
    return .inr ()
  perform (.sleepFor 50)
  return .inl ()

/-- The thread that monitors the signals. -/
def signalMonitor : DaemonProg Empty := do
  Prog.repeatUntil monitor ()
  perform (.storeRunning false)
  perform .endMonitor

/-- `PrintError` -/
def printError (message : Bytes) : DaemonProg Int32 := do
  perform (.printError (message ++ ascii "\n"))
  return 1

/-- The end of the main program after the monitor has been started. -/
def runServer (config : ServerConfig) : DaemonProg Int32 := do
  let runStatus ← run true config
  perform (.storeRunning false)
  perform .joinMonitor
  match runStatus with
  | .error message => printError message
  | .ok () => return 0

/-- The part of the main program after the configuration has been loaded. -/
def startMonitor (config : ServerConfig) : DaemonProg Int32 := do
  match ← perform .startMonitor with
  | true =>
    let never ← signalMonitor
    nomatch never
  | false => runServer config

/-- Call `ConfigRepository::Initialize`. -/
def callInitialize : DaemonProg Status := do
  let status ← initializeRepository.lift
  perform (.returned (.initialized status))
  return status

/-- Call `ConfigRepository::Load`. -/
def callLoad : DaemonProg (Result ServerConfig) := do
  perform (.called .load)
  let result ← load.lift
  perform (.returned (.loaded result))
  return result

/-- The part of the main program after the repository has been initialized. -/
def loadConfig : DaemonProg Int32 := do
  match ← callLoad with
  | .error message => printError message
  | .ok config => startMonitor config

/-- The part of the main program after the repository has been opened. -/
def start : DaemonProg Int32 := do
  match ← callInitialize with
  | .error message => printError message
  | .ok () => loadConfig

/-- `main` -/
def main (argv : List Bytes) : DaemonProg Int32 := do
  perform (.installHandler .sigInt)
  perform (.installHandler .sigTerm)
  match ← perform (.openRepository (argv.getD 1 (ascii "opcua-server.db"))) with
  | .error message => printError message
  | .ok () => start

/-- The process of the daemon. -/
def process (argv : List Bytes) : DaemonProg Unit := do
  perform (.exited (← main argv))

end Daemon

end OpcuaServer
