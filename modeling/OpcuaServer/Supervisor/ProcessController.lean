import OpcuaServer.Common.Charconv
import OpcuaServer.Common.Result
import OpcuaServer.Library.Program

/-!
# The process controller

The part of `ProcessController` that its two platforms share: the members guarded by its mutex, the
flag that is read and written without it, and the operations, made of what a `Platform` does while
it holds the mutex.

The members are read when the mutex is locked and written when it is unlocked. Nothing else sees
them in between.
-/

namespace OpcuaServer

/-- The state of the daemon. -/
inductive ProcessState where
  | stopped
  | running
  | crashed
  deriving DecidableEq

/-- What is known about the daemon. -/
structure ProcessStatus where
  state : ProcessState := .stopped
  exitCode : Int32 := 0
  diagnostic : Bytes := []
  deriving DecidableEq

/-- The calls on the members of a controller, of which `F` are those guarded by its mutex. -/
inductive ControllerCall (F : Type) where
  | lock
  | unlock (fields : F)
  | loadShutdownRequested
  | storeShutdownRequested

/-- The answer of a call on the members of a controller. -/
@[reducible]
def ControllerCall.Answer {F : Type} : ControllerCall F → Type
  | .lock => F
  | .unlock _ => Unit
  | .loadShutdownRequested => Bool
  | .storeShutdownRequested => Unit

section

variable (F OsCall : Type) (OsAnswer : OsCall → Type)

/-- A program that makes calls on the members of a controller and calls of the system. -/
abbrev ControllerProg := Prog (ControllerCall F ⊕ OsCall) (Sum.elim ControllerCall.Answer OsAnswer)

/-- A program that has locked the mutex of a controller. -/
abbrev Locked := StateT F (ControllerProg F OsCall OsAnswer)

end

section

variable {F OsCall : Type} {OsAnswer : OsCall → Type} {α σ β : Type}

/-- A call of the system. -/
def systemCall (call : OsCall) : Locked F OsCall OsAnswer (OsAnswer call) :=
  StateT.lift (Prog.perform (Sum.inr call))

/-- `shutdown_requested_.load()`. -/
def loadShutdownRequested : Locked F OsCall OsAnswer Bool :=
  StateT.lift (Prog.perform (Sum.inl ControllerCall.loadShutdownRequested))

/-- Go on with the members as an iteration leaves them. -/
def Locked.resume : (σ ⊕ β) × F → (σ × F) ⊕ (β × F)
  | (.inl s, fields) => .inl (s, fields)
  | (.inr b, fields) => .inr (b, fields)

/-- Repeat the body, from the state `s` on, until it gives a result. -/
def Locked.repeatUntil (body : σ → Locked F OsCall OsAnswer (σ ⊕ β)) (s : σ) :
    Locked F OsCall OsAnswer β :=
  fun fields =>
    Prog.repeatUntil (fun p => do return Locked.resume (← body p.1 p.2)) (s, fields)

/-- Run the program under a `std::lock_guard` of the mutex. -/
def guarded (p : Locked F OsCall OsAnswer α) : ControllerProg F OsCall OsAnswer α := do
  let fields ← Prog.perform (Sum.inl ControllerCall.lock)
  let (a, fields') ← p fields
  Prog.perform (Sum.inl (ControllerCall.unlock fields'))
  return a

/-- `ProcessController::RequestShutdown` -/
def requestShutdown : ControllerProg F OsCall OsAnswer Unit :=
  Prog.perform (Sum.inl ControllerCall.storeShutdownRequested)

end

/-- What a controller does on a platform while it holds its mutex. -/
structure Platform (F OsCall : Type) (OsAnswer : OsCall → Type) where
  /-- `status_` -/
  status : F → ProcessStatus
  startUnlocked : Locked F OsCall OsAnswer Status
  /-- The timeout is in milliseconds. -/
  stopUnlocked : ℤ → Locked F OsCall OsAnswer Status
  reapExitedUnlocked : Locked F OsCall OsAnswer Unit
  /-- What the destructor does after it has stopped the daemon. -/
  close : Locked F OsCall OsAnswer Unit

namespace Platform

variable {F OsCall : Type} {OsAnswer : OsCall → Type} (platform : Platform F OsCall OsAnswer)

/-- `ProcessController::~ProcessController` -/
def destroy : ControllerProg F OsCall OsAnswer Unit :=
  guarded do
    if (platform.status (← get)).state = .running then
      let _ ← platform.stopUnlocked 500
    platform.close

/-- `ProcessController::Start` -/
def start : ControllerProg F OsCall OsAnswer Status :=
  guarded platform.startUnlocked

/-- `ProcessController::Stop` -/
def stop (timeout : ℤ) : ControllerProg F OsCall OsAnswer Status :=
  guarded (platform.stopUnlocked timeout)

/-- The part of `ProcessController::Restart` under the mutex. -/
def restartUnlocked (timeout : ℤ) : Locked F OsCall OsAnswer Status := do
  if ← loadShutdownRequested then
    return .error (ascii "process controller is shutting down")
  match ← platform.stopUnlocked timeout with
  | .error message => return .error message
  | .ok () =>
    if ← loadShutdownRequested then
      return .error (ascii "process controller is shutting down")
    platform.startUnlocked

/-- `ProcessController::Restart` -/
def restart (timeout : ℤ) : ControllerProg F OsCall OsAnswer Status :=
  guarded (platform.restartUnlocked timeout)

/-- `ProcessController::ReapExited` -/
def reapExited : ControllerProg F OsCall OsAnswer Unit :=
  guarded platform.reapExitedUnlocked

/-- The part of `ProcessController::status` under the mutex. -/
def statusUnlocked : Locked F OsCall OsAnswer ProcessStatus := do
  platform.reapExitedUnlocked
  return platform.status (← get)

/-- `ProcessController::status` -/
def processStatus : ControllerProg F OsCall OsAnswer ProcessStatus :=
  guarded platform.statusUnlocked

end Platform

/-! ### Operations -/

/-- The operations of a controller. -/
inductive Operation where
  | start
  | stop (timeout : ℤ)
  | restart (timeout : ℤ)
  | requestShutdown
  | reapExited
  | status
  | destroy

/-- What an operation returns. -/
@[reducible]
def Operation.Reply : Operation → Type
  | .start | .stop _ | .restart _ => Status
  | .requestShutdown | .reapExited | .destroy => Unit
  | .status => ProcessStatus

/-- The program of an operation. -/
def Platform.run {F OsCall : Type} {OsAnswer : OsCall → Type}
    (platform : Platform F OsCall OsAnswer) :
    (operation : Operation) → ControllerProg F OsCall OsAnswer operation.Reply
  | .start => platform.start
  | .stop timeout => platform.stop timeout
  | .restart timeout => platform.restart timeout
  | .requestShutdown => requestShutdown
  | .reapExited => platform.reapExited
  | .status => platform.processStatus
  | .destroy => platform.destroy

end OpcuaServer
