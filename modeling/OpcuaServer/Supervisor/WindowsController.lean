import OpcuaServer.Supervisor.ProcessController
import OpcuaServer.Supervisor.WindowsCommandLine

/-!
# The process controller on Windows

The Windows branch of `ProcessController`: how the daemon is created, reaped and stopped.
-/

namespace OpcuaServer

open CommandLine

/-! ### Calls -/

/-- The value of a `HANDLE`, `0` for the null pointer. -/
abbrev HandleValue := ℕ

/-- What `WaitForSingleObject` returns for the handle of a process. -/
inductive WaitResult where
  /-- `WAIT_OBJECT_0` -/
  | object
  | timeout
  | failed
  deriving DecidableEq

/-- The functions that wait for the daemon. -/
inductive Waiter where
  | stopUnlocked
  | reapExitedUnlocked
  deriving DecidableEq

/-- The calls of the system that a controller makes. -/
inductive WindowsCall where
  | createProcess (applicationName commandLine : Wide)
  | closeHandle (handle : HandleValue)
  | terminateProcess (handle : HandleValue) (exitCode : UInt32)
  | waitForSingleObject (waiter : Waiter) (handle : HandleValue) (milliseconds : UInt32)
  | getExitCodeProcess (handle : HandleValue)
  | getLastError

/-- `PROCESS_INFORMATION`, as far as it is read. -/
structure ProcessInformation where
  hProcess : HandleValue
  hThread : HandleValue

/-- The answer of a call of the system. A function that fails returns `FALSE`. -/
@[reducible]
def WindowsCall.Answer : WindowsCall → Type
  | .createProcess _ _ => Option ProcessInformation
  | .closeHandle _ | .terminateProcess _ _ => Bool
  | .waitForSingleObject _ _ _ => WaitResult
  | .getExitCodeProcess _ => Option UInt32
  | .getLastError => UInt32

/-- The members that the mutex guards. -/
structure WindowsController where
  status : ProcessStatus := {}
  processHandle : HandleValue := 0

/-- A program of the controller that has locked its mutex. -/
abbrev WindowsLocked := Locked WindowsController WindowsCall WindowsCall.Answer

namespace WindowsController

/-- A call of the system. -/
def windows (call : WindowsCall) : WindowsLocked call.Answer :=
  systemCall call

/-- `kTerminatedExitCode` -/
def kTerminatedExitCode : UInt32 := 1

/-- `LastErrorMessage` -/
def lastErrorMessage (context : Bytes) : WindowsLocked Bytes := do
  let error ← windows .getLastError
  return context ++ ascii " failed with error " ++ Decimal.numeral error.toNat

/-- The status of a daemon that has ended with an exit code while no stop was under way. -/
def exitedStatus (exitCode : UInt32) : ProcessStatus :=
  if exitCode = 0 then
    { state := .stopped, exitCode := exitCode.toInt32, diagnostic := ascii "process stopped" }
  else
    { state := .crashed, exitCode := exitCode.toInt32,
      diagnostic := ascii "process exited unexpectedly with code " ++ stdToString exitCode.toInt32 }

/-- A process that has ended does not run. -/
theorem exitedStatus_state_ne (exitCode : UInt32) :
  (exitedStatus exitCode).state ≠ .running
  := by
  rw [exitedStatus]
  split <;> rintro ⟨⟩

/-- The handle is closed and forgotten, and the status is set to what failed. -/
def giveUpReaping (diagnostic : String) : WindowsLocked Unit := do
  let error ← windows .getLastError
  let self ← get
  let _ ← windows (.closeHandle self.processHandle)
  set { status := { state := .crashed, exitCode := error.toInt32, diagnostic := ascii diagnostic },
        processHandle := 0 : WindowsController }

/-- `ProcessController::ReapExitedUnlocked` -/
def reapExitedUnlocked : WindowsLocked Unit := do
  let self ← get
  if self.status.state ≠ .running then
    return
  if self.processHandle = 0 then
    return
  match ← windows (.waitForSingleObject .reapExitedUnlocked self.processHandle 0) with
  | .timeout => return
  | .failed => giveUpReaping "WaitForSingleObject failed while reaping process"
  | .object =>
  match ← windows (.getExitCodeProcess self.processHandle) with
  | none => giveUpReaping "GetExitCodeProcess failed"
  | some exitCode =>
      let _ ← windows (.closeHandle self.processHandle)
      set { status := exitedStatus exitCode, processHandle := 0 : WindowsController }

/-- `ProcessController::StopUnlocked` -/
def stopUnlocked (timeout : ℤ) : WindowsLocked Status := do
  reapExitedUnlocked
  let self ← get
  if self.status.state ≠ .running then
    return .ok ()
  let timeoutMs := UInt32.ofNat timeout.toNat
  if !(← windows (.terminateProcess self.processHandle kTerminatedExitCode)) then
    return .error (← lastErrorMessage (ascii "TerminateProcess"))
  match ← windows (.waitForSingleObject .stopUnlocked self.processHandle timeoutMs) with
  | .timeout => return .error (ascii "process termination timed out")
  | .failed => return .error (← lastErrorMessage (ascii "WaitForSingleObject"))
  | .object =>
      let _ ← windows (.closeHandle self.processHandle)
      set { status := { state := .stopped, exitCode := 0, diagnostic := ascii "process stopped" },
            processHandle := 0 : WindowsController }
      return .ok ()

/-- A wide string as it is read up to its first NUL. -/
def wideCString (text : Wide) : Wide :=
  text.takeWhile (· ≠ 0)

/-- The part of `StartUnlocked` that creates the process. -/
def createDaemon (applicationPath commandLine : Wide) : WindowsLocked Status := do
  match ← windows (.createProcess (wideCString applicationPath) (wideCString commandLine)) with
  | none => return .error (← lastErrorMessage (ascii "CreateProcess"))
  | some processInfo =>
      let _ ← windows (.closeHandle processInfo.hThread)
      set { status := { state := .running, exitCode := 0, diagnostic := ascii "process running" },
            processHandle := processInfo.hProcess : WindowsController }
      return .ok ()

section

variable (multiByteToWideChar : Bytes → Option Wide) (executablePath : Bytes) (args : List Bytes)

/-- The path of the daemon and its command line. -/
def convertPaths : Result (Wide × Wide) := do
  let applicationPath ← toWideString multiByteToWideChar executablePath
  let commandLine ← buildCommandLine multiByteToWideChar executablePath args
  return (applicationPath, commandLine)

/-- `ProcessController::StartUnlocked` -/
def startUnlocked : WindowsLocked Status := do
  if ← loadShutdownRequested then
    return .error (ascii "process controller is shutting down")
  reapExitedUnlocked
  if (← get).status.state = .running then
    return .error (ascii "process already running")
  match convertPaths multiByteToWideChar executablePath args with
  | .error message => return .error message
  | .ok (applicationPath, commandLine) => createDaemon applicationPath commandLine

/-- The end of `ProcessController::~ProcessController`. -/
def close : WindowsLocked Unit := do
  let self ← get
  if self.processHandle ≠ 0 then
    let _ ← windows (.closeHandle self.processHandle)
    set { self with processHandle := 0 }

/-- `ProcessController` with the path of the daemon and its arguments. -/
def processController : Platform WindowsController WindowsCall WindowsCall.Answer where
  status := WindowsController.status
  startUnlocked := startUnlocked multiByteToWideChar executablePath args
  stopUnlocked := stopUnlocked
  reapExitedUnlocked := reapExitedUnlocked
  close := close

end

end WindowsController

end OpcuaServer
