import OpcuaServer.Library.Forking
import OpcuaServer.Library.Signals
import OpcuaServer.Supervisor.PosixController
import Mathlib.Data.Finset.Lattice.Basic

/-!
# The launch of the daemon

The thread that calls `StartUnlocked` on POSIX and the child that it forks, in any interleaving of
their calls, while the signals that request a shutdown are sent to the child at any time before it
executes the daemon. Every call of the system can fail.

A signal that is pending in the child and not blocked is delivered before the child makes its next
call. What the daemon does with the signals after `execv` is left out.
-/

namespace OpcuaServer

open Signal

/-- The two threads of a launch: the one that calls `StartUnlocked`, and the child. -/
inductive Side where
  | parent
  | child
  deriving DecidableEq

/-- The signals that a shutdown is requested with. -/
def shutdownSignals : SignalSet :=
  {sigTerm, sigInt}

/-- What a launch comes upon: the mask of the calling thread, and the child. -/
structure Launch where
  mask : SignalSet
  /-- A call that sets the mask again has failed. -/
  restoreFailed : Bool
  pid : ℤ
  child : Option (Signals.Process Signal)
  /-- The shutdown signals that have been sent to the child before it executed the daemon. -/
  sent : SignalSet

/-- The mask as it is changed. -/
def MaskChange.apply : MaskChange → SignalSet → SignalSet → SignalSet
  | .block, mask, set => mask ∪ set
  | .setMask, _, set => set

/-- The mask is set again. -/
def MaskChange.restores : MaskChange → Bool
  | .block => false
  | .setMask => true

/-- A call of a program that has locked the mutex of a controller. -/
abbrev LaunchCall := ControllerCall Controller ⊕ PosixCall

/-- The answer of a call of a program that has locked the mutex of a controller. -/
abbrev LaunchAnswer : LaunchCall → Type :=
  Sum.elim ControllerCall.Answer PosixCall.Answer

namespace Launch

/-- A launch before it has started. -/
def start (mask : SignalSet) : Launch where
  mask := mask
  restoreFailed := false
  pid := -1
  child := none
  sent := ∅

/-- A signal is sent to the child if it has the pid. -/
def signal (w : Launch) (pid : ℤ) (s : Signal) : Launch :=
  if pid = w.pid then { w with child := w.child.map fun p => p.send s } else w

/-- The child can make a call. -/
def Acts (w : Launch) (p : Signals.Process Signal) : Prop :=
  w.child = some p ∧ p.stage = .forked ∧ p.Undisturbed sigKill

/-- The calls that affect neither the mask nor the child. -/
def quiet : PosixCall → Bool
  | .sigemptyset | .sigaddset _ | .waitpid _ _ _ | .now | .sleepFor _ => true
  | _ => false

/-- What the calls do that come back. -/
inductive Step : Side → (call : LaunchCall) → Launch → LaunchAnswer call → Launch → Prop where
  | loadShutdownRequested {w : Launch} {b : Bool} :
      Step .parent (.inl .loadShutdownRequested) w b w
  | quiet {w : Launch} {call : PosixCall} {a : call.Answer} :
      quiet call = true → Step .parent (.inr call) w a w
  | pthreadSigmaskFails {w : Launch} {how : MaskChange} {set : SignalSet} {error : OsError} :
      Step .parent (.inr (.pthreadSigmask how set)) w (.error error)
        { w with restoreFailed := w.restoreFailed || how.restores }
  | pthreadSigmask {w : Launch} {how : MaskChange} {set : SignalSet} :
      Step .parent (.inr (.pthreadSigmask how set)) w (.ok w.mask)
        { w with mask := how.apply w.mask set }
  | forkFails {w : Launch} {error : OsError} : Step .parent (.inr .fork) w (.failed error) w
  | killFails {w : Launch} {pid : ℤ} {s : Signal} {error : OsError} :
      Step .parent (.inr (.kill pid s)) w (.error error) w
  | kill {w : Launch} {pid : ℤ} {s : Signal} :
      Step .parent (.inr (.kill pid s)) w (.ok ()) (w.signal pid s)
  | sigactionFails {w : Launch} {p : Signals.Process Signal} {s : Signal} {error : OsError} :
      w.Acts p → Step .child (.inr (.sigaction s)) w (.error error) w
  | sigaction {w : Launch} {p : Signals.Process Signal} {s : Signal} :
      w.Acts p →
      Step .child (.inr (.sigaction s)) w (.ok ()) { w with child := some (p.setDefault s) }
  | sigprocmaskFails {w : Launch} {p : Signals.Process Signal} {set : SignalSet}
      {error : OsError} :
      w.Acts p → Step .child (.inr (.sigprocmask set)) w (.error error) w
  | sigprocmask {w : Launch} {p : Signals.Process Signal} {set : SignalSet} :
      w.Acts p →
      Step .child (.inr (.sigprocmask set)) w (.ok ()) { w with child := some (p.setMask set) }
  | execvFails {w : Launch} {p : Signals.Process Signal} {path : Bytes} {argv : List Bytes}
      {error : OsError} :
      w.Acts p → Step .child (.inr (.execv path argv)) w error w

/-- What `fork` does where it comes back in both threads: the child inherits the mask and the
actions. -/
inductive Fork (action : Signal → Signals.Action) :
    Side → Side → (call : LaunchCall) → Launch → LaunchAnswer call → LaunchAnswer call → Launch →
      Prop where
  | fork {w : Launch} {pid : ℤ} :
      w.child = none →
      Fork action .parent .child (.inr .fork) w (.parent pid) .child
        { w with pid, child := some (.fork w.mask action) }

/-- What the calls do that do not come back. -/
inductive Leave : Side → LaunchCall → Launch → Launch → Prop where
  | execv {w : Launch} {p : Signals.Process Signal} {path : Bytes} {argv : List Bytes} :
      w.Acts p → Leave .child (.inr (.execv path argv)) w { w with child := some p.exec }
  | exit {w : Launch} {p : Signals.Process Signal} {code : Int32} :
      w.Acts p → Leave .child (.inr (.exit code)) w { w with child := some (p.exit code) }

/-- A shutdown signal is sent to the child, or a signal is delivered to it. -/
inductive Env : Option Side → Launch → Launch → Prop where
  | send {w : Launch} {p : Signals.Process Signal} {s : Signal} :
      s ∈ shutdownSignals → w.child = some p → p.stage = .forked →
      Env none w { w with child := some (p.send s), sent := insert s w.sent }
  | deliver {w : Launch} {p : Signals.Process Signal} {s : Signal} :
      w.child = some p → p.stage = .forked ∨ p.stage = .executed → p.Deliverable sigKill s →
      Env (some .child) w { w with child := some (p.deliver sigKill s) }

end Launch

/-- A launch in a process that has the actions for the signals. -/
def launching (action : Signal → Signals.Action) :
    Forking.System Side LaunchCall LaunchAnswer Launch where
  step := Launch.Step
  fork := Launch.Fork action
  leave := Launch.Leave
  env := Launch.Env

/-- A configuration of a launch. -/
abbrev LaunchConfig :=
  Forking.Config Side LaunchCall LaunchAnswer Launch (Status × Controller)

/-- A launch before it has started, in a thread that has the mask. -/
def launchStart (executablePath : Bytes) (args : List Bytes) (self : Controller)
    (mask : SignalSet) : LaunchConfig where
  progs := fun
    | .parent => some (Controller.startUnlocked executablePath args self)
    | .child => none
  world := .start mask

end OpcuaServer
