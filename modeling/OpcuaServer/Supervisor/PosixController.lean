import OpcuaServer.Supervisor.ProcessController
import Mathlib.Data.Finset.Insert

/-!
# The process controller on POSIX

The POSIX branch of `ProcessController`: how the daemon is forked, reaped and stopped.
-/

namespace OpcuaServer

/-! ### Calls -/

/-- The number of a signal. -/
abbrev Signal := Int32

namespace Signal

def sigInt : Signal := 2

def sigKill : Signal := 9

def sigTerm : Signal := 15

end Signal

/-- A `sigset_t`. -/
abbrev SignalSet := Finset Signal

/-- The errors that are told from the others. -/
inductive Errno where
  | echild
  | eintr
  | esrch
  | other (number : Int32)
  deriving DecidableEq

/-- An error and what `strerror` says of it. -/
structure OsError where
  errno : Errno
  text : Bytes

/-- A `wait_status`: what a child has ended with. -/
inductive WaitStatus where
  | exited (code : Int32)
  | signaled (signal : Int32)
  | other (status : Int32)
  deriving DecidableEq

/-- What `fork` returns. -/
inductive Forked where
  | failed (error : OsError)
  | child
  | parent (pid : ℤ)

/-- What `waitpid` returns: a negative number, zero, or a pid. -/
inductive Waited where
  | failed (error : OsError)
  | notYet
  | child (pid : ℤ) (status : WaitStatus)

/-- The options of `waitpid`. -/
inductive WaitOptions where
  | block
  | noHang
  deriving DecidableEq

/-- How `pthread_sigmask` changes the mask of the thread. -/
inductive MaskChange where
  | block
  | setMask

/-- The functions that wait for a child. -/
inductive Reaper where
  | startUnlocked
  | stopUnlocked
  | reapExitedUnlocked
  deriving DecidableEq

/-- The calls of the system that a controller makes. -/
inductive PosixCall where
  | sigemptyset
  | sigaddset (signal : Signal)
  | pthreadSigmask (how : MaskChange) (set : SignalSet)
  | fork
  /-- Install the default action. -/
  | sigaction (signal : Signal)
  /-- Set the mask. -/
  | sigprocmask (set : SignalSet)
  | execv (path : Bytes) (argv : List Bytes)
  /-- `_exit` -/
  | exit (code : Int32)
  | kill (pid : ℤ) (signal : Signal)
  | waitpid (reaper : Reaper) (pid : ℤ) (options : WaitOptions)
  /-- `steady_clock::now`, in nanoseconds. -/
  | now
  /-- `sleep_for`, in milliseconds. -/
  | sleepFor (duration : ℤ)

/-- The answer of a call of the system. -/
@[reducible]
def PosixCall.Answer : PosixCall → Type
  | .sigemptyset | .sigaddset _ => Except OsError Unit
  | .pthreadSigmask _ _ => Except OsError SignalSet
  | .fork => Forked
  | .sigaction _ | .sigprocmask _ => Except OsError Unit
  | .execv _ _ => OsError
  | .exit _ => Empty
  | .kill _ _ => Except OsError Unit
  | .waitpid _ _ _ => Waited
  | .now => ℤ
  | .sleepFor _ => Unit

/-- The members that the mutex guards. -/
structure Controller where
  status : ProcessStatus := {}
  childPid : ℤ := -1

/-- A program of the controller that has locked its mutex. -/
abbrev PosixLocked := Locked Controller PosixCall PosixCall.Answer

namespace Controller

open Signal

/-- A call of the system. -/
def posix (call : PosixCall) : PosixLocked call.Answer :=
  systemCall call

/-- `kPollInterval`, in milliseconds. -/
def pollInterval : ℤ := 20

/-- `PosixErrorMessage` -/
def posixErrorMessage (context : Bytes) (error : OsError) : Bytes :=
  context ++ ascii " failed: " ++ error.text

/-- `DecodeExitedStatus` -/
def decodeExitedStatus (waitStatus : WaitStatus) (expected : Bool) : ProcessStatus :=
  match waitStatus with
  | .exited code =>
      if expected ∨ code = 0 then
        { state := .stopped, exitCode := code, diagnostic := ascii "process stopped" }
      else
        { state := .crashed, exitCode := code,
          diagnostic := ascii "process exited unexpectedly with code " ++ stdToString code }
  | .signaled signal =>
      if expected then
        { state := .stopped, exitCode := signal, diagnostic := ascii "process stopped" }
      else
        { state := .crashed, exitCode := signal,
          diagnostic := ascii "process terminated unexpectedly by signal " ++ stdToString signal }
  | .other status =>
      { state := .crashed, exitCode := status,
        diagnostic := ascii "process ended unexpectedly with unknown status " ++ stdToString status }

/-- A child that has ended does not run. -/
theorem decodeExitedStatus_state_ne (waitStatus : WaitStatus) (expected : Bool) :
  (decodeExitedStatus waitStatus expected).state ≠ .running
  := by
  cases waitStatus with
  | exited code =>
    rw [decodeExitedStatus]
    split <;> rintro ⟨⟩
  | signaled signal =>
    rw [decodeExitedStatus]
    split <;> rintro ⟨⟩
  | other status => rintro ⟨⟩

/-- `kStopped` as it is set where the status of the child is not known. -/
def stoppedStatus : ProcessStatus :=
  { state := .stopped, exitCode := 0, diagnostic := ascii "process stopped" }

/-- `kRunning` with its diagnostic. -/
def runningStatus (diagnostic : String) : ProcessStatus :=
  { state := .running, exitCode := 0, diagnostic := ascii diagnostic }

/-- `ProcessController::ReapExitedUnlocked` -/
def reapExitedUnlocked : PosixLocked Unit := do
  let self ← get
  if self.status.state ≠ .running then
    return
  if self.childPid < 0 then
    return
  match ← posix (.waitpid .reapExitedUnlocked self.childPid .noHang) with
  | .notYet => return
  | .child pid waitStatus =>
      if pid = self.childPid then
        set { status := decodeExitedStatus waitStatus false, childPid := -1 : Controller }
  | .failed error =>
      if error.errno = .echild then
        set { status := stoppedStatus, childPid := -1 : Controller }

/-! ### Stopping -/

/-- One iteration of the loop that waits for the child until the deadline. -/
def pollChild (deadline : ℤ) (_ : Unit) : PosixLocked (Unit ⊕ Option Status) := do
  if ¬ (← posix .now) < deadline then
    return .inr none
  let self ← get
  match ← posix (.waitpid .stopUnlocked self.childPid .noHang) with
  | .child pid waitStatus =>
      if pid = self.childPid then
        set { status := decodeExitedStatus waitStatus true, childPid := -1 : Controller }
        return .inr (some (.ok ()))
      posix (.sleepFor pollInterval)
      return .inl ()
  | .failed error =>
      if error.errno = .echild then
        set { status := stoppedStatus, childPid := -1 : Controller }
        return .inr (some (.ok ()))
      return .inr (some (.error (posixErrorMessage (ascii "waitpid") error)))
  | .notYet =>
      posix (.sleepFor pollInterval)
      return .inl ()

/-- One iteration of a loop that waits for a child to be reaped or to be nobody's: the error is one
that ends the loop otherwise. -/
def awaitChild (reaper : Reaper) (pid : ℤ) (_ : Unit) : PosixLocked (Unit ⊕ Except OsError Unit) := do
  match ← posix (.waitpid reaper pid .block) with
  | .failed error =>
      if error.errno = .eintr then
        return .inl ()
      if error.errno = .echild then
        return .inr (.ok ())
      return .inr (.error error)
  | .notYet => return .inr (.ok ())
  | .child _ _ => return .inr (.ok ())

/-- `kill`, where it is no failure that there is no such process. -/
def killChild (pid : ℤ) (signal : Signal) : PosixLocked (Except OsError Unit) := do
  match ← posix (.kill pid signal) with
  | .error error => return if error.errno = .esrch then .ok () else .error error
  | .ok () => return .ok ()

/-- The part of `StopUnlocked` after the deadline. -/
def forceStop : PosixLocked Status := do
  let self ← get
  match ← killChild self.childPid sigKill with
  | .error error => return .error (posixErrorMessage (ascii "kill(SIGKILL)") error)
  | .ok () =>
  match ← Locked.repeatUntil (awaitChild .stopUnlocked self.childPid) () with
  | .error error => return .error (posixErrorMessage (ascii "waitpid") error)
  | .ok () =>
    set { status := stoppedStatus, childPid := -1 : Controller }
    return .ok ()

/-- `ProcessController::StopUnlocked` -/
def stopUnlocked (timeout : ℤ) : PosixLocked Status := do
  reapExitedUnlocked
  let self ← get
  if self.status.state ≠ .running then
    return .ok ()
  match ← killChild self.childPid sigTerm with
  | .error error => return .error (posixErrorMessage (ascii "kill(SIGTERM)") error)
  | .ok () =>
  let deadline := (← posix .now) + timeout * 1000000
  match ← Locked.repeatUntil (pollChild deadline) () with
  | some status => return status
  | none => forceStop

/-! ### Starting -/

/-- The set of the signals that a shutdown is requested with. -/
def prepareShutdownSignals : PosixLocked (Except OsError SignalSet) := do
  if let .error error ← posix .sigemptyset then
    return .error error
  if let .error error ← posix (.sigaddset sigTerm) then
    return .error error
  if let .error error ← posix (.sigaddset sigInt) then
    return .error error
  return .ok {sigTerm, sigInt}

/-- What the child does after the fork. -/
def runChild (path : Bytes) (argv : List Bytes) (originalMask : SignalSet) : PosixLocked Status := do
  if let .error _ ← posix (.sigaction sigTerm) then
    nomatch ← posix (.exit 126)
  if let .error _ ← posix (.sigaction sigInt) then
    nomatch ← posix (.exit 126)
  if let .error _ ← posix (.sigprocmask originalMask) then
    nomatch ← posix (.exit 126)
  let _ ← posix (.execv path argv)
  nomatch ← posix (.exit 127)

/-- What the parent does where it could not restore its mask after the fork. -/
def abandonChild (pid : ℤ) (restoreError : OsError) : PosixLocked Status := do
  let restoreMessage := posixErrorMessage (ascii "pthread_sigmask(SIG_SETMASK)") restoreError
  match ← killChild pid sigKill with
  | .error _ =>
    set { status := runningStatus "process running after signal mask restore failure",
          childPid := pid : Controller }
    return .error restoreMessage
  | .ok () =>
  match ← Locked.repeatUntil (awaitChild .startUnlocked pid) () with
  | .error waitError =>
    set { status := runningStatus "process ownership retained after waitpid failure",
          childPid := pid : Controller }
    return .error (restoreMessage ++ ascii "; " ++ posixErrorMessage (ascii "waitpid") waitError)
  | .ok () => return .error restoreMessage

/-- The part of `StartUnlocked` that forks, where the shutdown signals are blocked. -/
def forkDaemon (path : Bytes) (argv : List Bytes) (originalMask : SignalSet) : PosixLocked Status := do
  match ← posix .fork with
  | .failed forkError =>
    match ← posix (.pthreadSigmask .setMask originalMask) with
    | .error restoreError =>
      return .error (posixErrorMessage (ascii "fork") forkError ++ ascii "; " ++
        posixErrorMessage (ascii "pthread_sigmask(SIG_SETMASK)") restoreError)
    | .ok _ => return .error (posixErrorMessage (ascii "fork") forkError)
  | .child => runChild path argv originalMask
  | .parent pid =>
    match ← posix (.pthreadSigmask .setMask originalMask) with
    | .error restoreError => abandonChild pid restoreError
    | .ok _ =>
      set { status := runningStatus "process running", childPid := pid : Controller }
      return .ok ()

/-- The part of `StartUnlocked` where there is no daemon. -/
def launch (executablePath : Bytes) (args : List Bytes) : PosixLocked Status := do
  match ← prepareShutdownSignals with
  | .error error => return .error (posixErrorMessage (ascii "prepare shutdown signal mask") error)
  | .ok shutdownSignals =>
  if let .error error ← posix .sigemptyset then
    return .error (posixErrorMessage (ascii "prepare default signal action") error)
  match ← posix (.pthreadSigmask .block shutdownSignals) with
  | .error blockError =>
    return .error (posixErrorMessage (ascii "pthread_sigmask(SIG_BLOCK)") blockError)
  | .ok originalMask =>
    forkDaemon (cString executablePath) ((executablePath :: args).map cString) originalMask

/-- `ProcessController::StartUnlocked` -/
def startUnlocked (executablePath : Bytes) (args : List Bytes) : PosixLocked Status := do
  if ← loadShutdownRequested then
    return .error (ascii "process controller is shutting down")
  reapExitedUnlocked
  if (← get).status.state = .running then
    return .error (ascii "process already running")
  launch executablePath args

/-- `ProcessController` with the path of the daemon and its arguments. -/
def processController (executablePath : Bytes) (args : List Bytes) :
    Platform Controller PosixCall PosixCall.Answer where
  status := Controller.status
  startUnlocked := startUnlocked executablePath args
  stopUnlocked := stopUnlocked
  reapExitedUnlocked := reapExitedUnlocked
  close := return

end Controller

end OpcuaServer
