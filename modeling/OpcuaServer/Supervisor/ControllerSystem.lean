import OpcuaServer.Library.Children
import OpcuaServer.Library.Threads
import OpcuaServer.Supervisor.PosixController
import OpcuaServer.Supervisor.SupervisorMain

/-!
# Threads with one controller

Any number of threads that call operations of one controller on POSIX, in any interleaving of their
calls, while the children end at any time. A call of the system can fail.
-/

namespace OpcuaServer

/-- What a thread has come upon since its last operation was called. -/
structure Trace where
  /-- A shutdown had been requested when the operation was called. -/
  late : Bool := false
  /-- What the flag has last been read as since the mutex was locked. -/
  check : Option Bool := none
  /-- The child that was last waited for, and where in its life it was then. -/
  waited : Option (ℕ × Life Reaper WaitStatus) := none
  /-- The owned child when the mutex was last unlocked, and where in its life it was then. -/
  seen : Option (ℕ × Life Reaper WaitStatus) := none

/-- A controller, the children of its process, and what has happened to them. -/
structure Host (Tid : Type) where
  /-- The thread that has locked the mutex. -/
  mutex : Option Tid
  controller : Controller
  shutdownRequested : Bool
  children : Children Reaper WaitStatus
  /-- The last child that has been assigned to `child_pid_`. -/
  owned : Option ℕ
  /-- The thread that has held the mutex since before a shutdown was first requested. -/
  pending : Option Tid
  /-- How many children have been forked after a shutdown was first requested. -/
  forkedLate : ℕ
  /-- A `Stop` that was called after a shutdown had been requested has returned ok. -/
  stopped : Prop
  trace : Tid → Trace

/-- The errors other than `ECHILD` with which a `waitpid` can fail. -/
abbrev WaitFaults := WaitOptions → Errno → Prop

namespace Host

variable {Tid : Type} [DecidableEq Tid]

/-- A host whose controller has just been constructed. -/
def start : Host Tid where
  mutex := none
  controller := {}
  shutdownRequested := false
  children := []
  owned := none
  pending := none
  forkedLate := 0
  stopped := False
  trace := fun _ => {}

/-- A thread has come upon something. -/
def note (w : Host Tid) (t : Tid) (f : Trace → Trace) : Host Tid :=
  { w with trace := Function.update w.trace t (f (w.trace t)) }

/-- The child that the controller owns once its members are as given. -/
def owner (w : Host Tid) (controller : Controller) : Option ℕ :=
  (w.children.find controller.childPid).or w.owned

/-- Where in its life a child is, with its number. -/
def sight (w : Host Tid) (o : Option ℕ) : Option (ℕ × Life Reaper WaitStatus) :=
  o.bind fun n => (w.children.life n).map fun life => (n, life)

/-- The mutex has been locked. -/
def acquire (w : Host Tid) (t : Tid) : Host Tid :=
  { w.note t fun trace => { trace with check := none } with mutex := some t }

/-- The mutex has been unlocked. -/
def release (w : Host Tid) (t : Tid) (controller : Controller) : Host Tid :=
  { w.note t fun trace => { trace with seen := w.sight (w.owner controller) } with
    mutex := none
    controller
    owned := w.owner controller
    pending := none }

/-- A shutdown has been requested. -/
def request (w : Host Tid) : Host Tid :=
  { w with
    shutdownRequested := true
    pending := if w.shutdownRequested then w.pending else w.mutex }

/-- A child has been forked. -/
def fork (w : Host Tid) (pid : ℤ) : Host Tid :=
  { w with
    children := w.children ++ [⟨pid, .alive⟩]
    forkedLate := if w.shutdownRequested then w.forkedLate + 1 else w.forkedLate }

/-- The process has waited for a child. -/
def wait (w : Host Tid) (t : Tid) (n : ℕ) (life : Life Reaper WaitStatus) : Host Tid :=
  w.note t fun trace => { trace with waited := some (n, life) }

/-- The operation is a `Stop` and has returned ok. -/
def StopsOk : (operation : Operation) → operation.Reply → Prop
  | .stop _, status => status = .ok ()
  | _, _ => False

/-- An operation has returned. -/
def finish (w : Host Tid) (t : Tid) (operation : Operation) (reply : operation.Reply) : Host Tid :=
  { w with stopped := w.stopped ∨ (StopsOk operation reply ∧ (w.trace t).late = true) }

/-- The calls of the system that affect neither the controller nor its children by themselves: a
signal has its effect when the child ends. -/
def quietPosix : PosixCall → Bool
  | .sigemptyset | .sigaddset _ | .pthreadSigmask _ _ | .kill _ _ | .now | .sleepFor _ => true
  | _ => false

/-- The calls of the supervisor that do not bound an operation of the controller. -/
def quietSupervisor : SupervisorCall → Bool
  | .called _ | .returned _ _ => false
  | _ => true

/-- What the calls of a thread of the supervisor do. No call is made in a child here. -/
inductive Step (faults : WaitFaults) (t : Tid) :
    (call : (ControllerCall Controller ⊕ PosixCall) ⊕ SupervisorCall) → Host Tid →
      Sum.elim (Sum.elim ControllerCall.Answer PosixCall.Answer) SupervisorCall.Answer call →
      Host Tid → Prop where
  | lock {w : Host Tid} :
      w.mutex = none → Step faults t (.inl (.inl .lock)) w w.controller (w.acquire t)
  | unlock {w : Host Tid} {controller : Controller} :
      w.mutex = some t →
      Step faults t (.inl (.inl (.unlock controller))) w () (w.release t controller)
  | loadShutdownRequested {w : Host Tid} :
      Step faults t (.inl (.inl .loadShutdownRequested)) w w.shutdownRequested
        (w.note t fun trace => { trace with check := some w.shutdownRequested })
  | storeShutdownRequested {w : Host Tid} :
      Step faults t (.inl (.inl .storeShutdownRequested)) w () w.request
  | posix {w : Host Tid} {call : PosixCall} {a : call.Answer} :
      quietPosix call = true → Step faults t (.inl (.inr call)) w a w
  | forkFails {w : Host Tid} {error : OsError} :
      Step faults t (.inl (.inr .fork)) w (.failed error) w
  | fork {w : Host Tid} {pid : ℤ} :
      w.children.Fresh pid → Step faults t (.inl (.inr .fork)) w (.parent pid) (w.fork pid)
  | waitNotYet {w : Host Tid} {reaper : Reaper} {n : ℕ} {pid : ℤ} :
      w.children[n]? = some ⟨pid, .alive⟩ →
      Step faults t (.inl (.inr (.waitpid reaper pid .noHang))) w .notYet (w.wait t n .alive)
  | waitChild {w : Host Tid} {reaper : Reaper} {n : ℕ} {pid : ℤ} {options : WaitOptions}
      {status : WaitStatus} {children : Children Reaper WaitStatus} :
      Children.Reaps reaper n pid status w.children children →
      Step faults t (.inl (.inr (.waitpid reaper pid options))) w (.child pid status)
        { w.wait t n (.zombie status) with children }
  | waitFails {w : Host Tid} {reaper : Reaper} {pid : ℤ} {options : WaitOptions}
      {error : OsError} :
      error.errno ≠ .echild → faults options error.errno →
      Step faults t (.inl (.inr (.waitpid reaper pid options))) w (.failed error) w
  | waitNobody {w : Host Tid} {reaper : Reaper} {pid : ℤ} {options : WaitOptions}
      {error : OsError} :
      error.errno = .echild → (∀ n, ¬ w.children.Refers pid n) →
      Step faults t (.inl (.inr (.waitpid reaper pid options))) w (.failed error) w
  | called {w : Host Tid} {operation : Operation} :
      Step faults t (.inr (.called operation)) w ()
        (w.note t fun _ => { late := w.shutdownRequested })
  | returned {w : Host Tid} {operation : Operation} {reply : operation.Reply} :
      Step faults t (.inr (.returned operation reply)) w () (w.finish t operation reply)
  | supervisor {w : Host Tid} {call : SupervisorCall} {a : call.Answer} :
      quietSupervisor call = true → Step faults t (.inr call) w a w

end Host

/-- A program of a thread of the supervisor on POSIX. -/
abbrev PosixSupervisor := Supervisor Controller PosixCall PosixCall.Answer

/-- A configuration of the threads of the supervisor on POSIX. -/
abbrev SupervisorConfig (Tid : Type) :=
  Threads.Config Tid ((ControllerCall Controller ⊕ PosixCall) ⊕ SupervisorCall)
    (Sum.elim (Sum.elim ControllerCall.Answer PosixCall.Answer) SupervisorCall.Answer) (Host Tid)

/-- The threads with one controller, whose children end at any time. -/
def controllers {Tid : Type} [DecidableEq Tid] (faults : WaitFaults) :
    Threads.System Tid ((ControllerCall Controller ⊕ PosixCall) ⊕ SupervisorCall)
      (Sum.elim (Sum.elim ControllerCall.Answer PosixCall.Answer) SupervisorCall.Answer)
      (Host Tid) where
  step t := Host.Step faults t
  env w w' := ∃ children, w.children.Ends children ∧ w' = { w with children }
  halt _ _ _ := False

/-- Clients of a controller before they have started. -/
def clientsStart {Tid : Type} (executablePath : Bytes) (args : List Bytes) :
    SupervisorConfig Tid where
  progs := fun _ => Supervisor.client (Controller.processController executablePath args)
  world := .start

/-- The supervisor, and clients of its controller, before they have started. -/
def supervisorStart {Tid : Type} (argv : List Bytes) : SupervisorConfig (Option Tid) where
  progs := fun
    | none => Supervisor.process Controller.processController argv
    | some _ => Supervisor.client (Supervisor.daemonController Controller.processController argv)
  world := .start

end OpcuaServer
