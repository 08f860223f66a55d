import OpcuaServer.Library.Handles
import OpcuaServer.Library.Threads
import OpcuaServer.Supervisor.SupervisorMain
import OpcuaServer.Supervisor.WindowsController

/-!
# A controller on Windows

A client that calls one operation of a controller after another and, if it does, destroys it last,
while the processes that the controller has created end at any time and a shutdown is requested at
any time. Every call of the system can fail.
-/

namespace OpcuaServer

/-- A process that has been created. -/
structure WindowsProcess where
  /-- The code it has ended with. -/
  ended : Option UInt32 := none
  /-- The code that a `TerminateProcess` which succeeded has given it. -/
  terminated : Option UInt32 := none

namespace WindowsProcess

/-- The process ends, or has ended, with the code that it has been given. -/
def EndsAsTold (p : WindowsProcess) : Prop :=
  ∃ code, p.terminated = some code ∧ (p.ended = none ∨ p.ended = some code)

/-- A process may end. -/
structure Ages (p p' : WindowsProcess) : Prop where
  terminated : p'.terminated = p.terminated
  ended : p.ended = none ∨ p'.ended = p.ended

end WindowsProcess

/-- What the handles of a process refer to, with the number of the process. -/
inductive KernelObject where
  | process (n : ℕ)
  | thread (n : ℕ)

/-- A controller, the processes it has created and the handles it has been given. -/
structure WindowsHost where
  controller : WindowsController
  shutdownRequested : Bool
  processes : List WindowsProcess
  handles : Handles KernelObject
  destroyed : Bool

/-- What `ReapExitedUnlocked` can come upon. -/
structure ReapFaults where
  /-- Its wait fails while the process is alive. -/
  waitFails : Prop
  /-- Its wait does not time out on a process that ends with the code which a `TerminateProcess`
  has given it. -/
  lateEnd : Prop

namespace WindowsHost

/-- A host whose controller has just been constructed. -/
def start : WindowsHost where
  controller := {}
  shutdownRequested := false
  processes := []
  handles := []
  destroyed := false

/-- The value denotes an open handle of the process. -/
def RefersTo (w : WindowsHost) (handle : HandleValue) (n : ℕ) (p : WindowsProcess) : Prop :=
  w.handles.Refers handle (.process n) ∧ w.processes[n]? = some p

/-- A process has been created. -/
def create (w : WindowsHost) (info : ProcessInformation) : WindowsHost :=
  { w with
    processes := w.processes ++ [{}]
    handles := ⟨info.hThread, .thread w.processes.length, 0⟩ ::
      ⟨info.hProcess, .process w.processes.length, 0⟩ :: w.handles }

/-- The handles of a new process are different, and no open handle has their values. -/
def Fresh (w : WindowsHost) (info : ProcessInformation) : Prop :=
  info.hProcess ≠ 0 ∧ info.hThread ≠ 0 ∧ info.hThread ≠ info.hProcess ∧
    ¬ w.handles.IsOpen info.hProcess ∧ ¬ w.handles.IsOpen info.hThread

/-- A `TerminateProcess` has succeeded. -/
def terminate (w : WindowsHost) (n : ℕ) (exitCode : UInt32) : WindowsHost :=
  { w with processes := w.processes.modify n fun p => { p with terminated := some exitCode } }

/-- An operation has returned. -/
def finish (w : WindowsHost) : Operation → WindowsHost
  | .destroy => { w with destroyed := true }
  | _ => w

/-- What the calls of the client do. -/
inductive Step (faults : ReapFaults) :
    (call : (ControllerCall WindowsController ⊕ WindowsCall) ⊕ SupervisorCall) → WindowsHost →
      Sum.elim (Sum.elim ControllerCall.Answer WindowsCall.Answer) SupervisorCall.Answer call →
      WindowsHost → Prop where
  | lock {w : WindowsHost} : Step faults (.inl (.inl .lock)) w w.controller w
  | unlock {w : WindowsHost} {controller : WindowsController} :
      Step faults (.inl (.inl (.unlock controller))) w () { w with controller }
  | loadShutdownRequested {w : WindowsHost} :
      Step faults (.inl (.inl .loadShutdownRequested)) w w.shutdownRequested w
  | storeShutdownRequested {w : WindowsHost} :
      Step faults (.inl (.inl .storeShutdownRequested)) w () { w with shutdownRequested := true }
  | createFails {w : WindowsHost} {applicationName commandLine : CommandLine.Wide} :
      Step faults (.inl (.inr (.createProcess applicationName commandLine))) w none w
  | create {w : WindowsHost} {applicationName commandLine : CommandLine.Wide}
      {info : ProcessInformation} :
      w.Fresh info →
      Step faults (.inl (.inr (.createProcess applicationName commandLine))) w (some info)
        (w.create info)
  | close {w : WindowsHost} {handle : HandleValue} {closed : Bool} :
      Step faults (.inl (.inr (.closeHandle handle))) w closed
        { w with handles := w.handles.close handle }
  | terminate {w : WindowsHost} {handle : HandleValue} {exitCode : UInt32} {n : ℕ}
      {p : WindowsProcess} :
      w.RefersTo handle n p →
      Step faults (.inl (.inr (.terminateProcess handle exitCode))) w true (w.terminate n exitCode)
  | terminateFails {w : WindowsHost} {handle : HandleValue} {exitCode : UInt32} :
      Step faults (.inl (.inr (.terminateProcess handle exitCode))) w false w
  /-- The wait returns `WAIT_OBJECT_0`: the process has ended. -/
  | waitObject {w : WindowsHost} {waiter : Waiter} {handle : HandleValue} {milliseconds : UInt32}
      {n : ℕ} {p : WindowsProcess} {code : UInt32} :
      w.RefersTo handle n p → p.ended = some code →
      (waiter = .reapExitedUnlocked → p.EndsAsTold → faults.lateEnd) →
      Step faults (.inl (.inr (.waitForSingleObject waiter handle milliseconds))) w .object w
  | waitTimeout {w : WindowsHost} {waiter : Waiter} {handle : HandleValue} {milliseconds : UInt32} :
      Step faults (.inl (.inr (.waitForSingleObject waiter handle milliseconds))) w .timeout w
  | waitFailed {w : WindowsHost} {waiter : Waiter} {handle : HandleValue} {milliseconds : UInt32}
      {n : ℕ} {p : WindowsProcess} :
      w.RefersTo handle n p →
      (waiter = .reapExitedUnlocked → p.ended = none → faults.waitFails) →
      (waiter = .reapExitedUnlocked → p.EndsAsTold → faults.lateEnd) →
      Step faults (.inl (.inr (.waitForSingleObject waiter handle milliseconds))) w .failed w
  | exitCode {w : WindowsHost} {handle : HandleValue} {n : ℕ} {p : WindowsProcess} {code : UInt32} :
      w.RefersTo handle n p → p.ended = some code →
      Step faults (.inl (.inr (.getExitCodeProcess handle))) w (some code) w
  | exitCodeFails {w : WindowsHost} {handle : HandleValue} :
      Step faults (.inl (.inr (.getExitCodeProcess handle))) w none w
  | lastError {w : WindowsHost} {error : UInt32} :
      Step faults (.inl (.inr .getLastError)) w error w
  /-- A controller that has been destroyed has no more operations. -/
  | nextOperation {w : WindowsHost} {operation : Option Operation} :
      (w.destroyed = true → operation = none) → Step faults (.inr .nextOperation) w operation w
  | called {w : WindowsHost} {operation : Operation} : Step faults (.inr (.called operation)) w () w
  | returned {w : WindowsHost} {operation : Operation} {reply : operation.Reply} :
      Step faults (.inr (.returned operation reply)) w () (w.finish operation)

/-- What changes while the client makes no call: processes end, and a shutdown is requested. -/
structure Rely (w w' : WindowsHost) : Prop where
  controller : w'.controller = w.controller
  requested : w.shutdownRequested = true → w'.shutdownRequested = true
  length : w'.processes.length = w.processes.length
  ages : ∀ (n : ℕ) (p' : WindowsProcess), w'.processes[n]? = some p' →
    ∃ p, w.processes[n]? = some p ∧ p.Ages p'
  handles : w'.handles = w.handles
  destroyed : w'.destroyed = w.destroyed

end WindowsHost

/-- A program of a client of a controller on Windows. -/
abbrev WindowsSupervisor := Supervisor WindowsController WindowsCall WindowsCall.Answer

/-- A configuration of a client of a controller on Windows. -/
abbrev WindowsConfig :=
  Threads.Config Unit ((ControllerCall WindowsController ⊕ WindowsCall) ⊕ SupervisorCall)
    (Sum.elim (Sum.elim ControllerCall.Answer WindowsCall.Answer) SupervisorCall.Answer) WindowsHost

/-- The client with its controller. -/
def windowsControllers (faults : ReapFaults) :
    Threads.System Unit ((ControllerCall WindowsController ⊕ WindowsCall) ⊕ SupervisorCall)
      (Sum.elim (Sum.elim ControllerCall.Answer WindowsCall.Answer) SupervisorCall.Answer)
      WindowsHost where
  step _ := WindowsHost.Step faults
  env := WindowsHost.Rely
  halt _ _ _ := False

/-- A client of a controller before it has started. -/
def windowsStart (multiByteToWideChar : Bytes → Option CommandLine.Wide) (executablePath : Bytes)
    (args : List Bytes) : WindowsConfig where
  progs := fun _ =>
    Supervisor.client (WindowsController.processController multiByteToWideChar executablePath args)
  world := .start

end OpcuaServer
