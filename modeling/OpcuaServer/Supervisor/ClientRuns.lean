import OpcuaServer.Library.Threads
import OpcuaServer.Supervisor.SupervisorMain

/-!
# Runs of a client

A client of a controller can run an operation until it returns, and go on with the next one, if the
system lets it make the calls of the operation, before which the environment may move.
-/

namespace OpcuaServer

namespace Supervisor

variable {F OsCall : Type} {OsAnswer : OsCall → Type} {Tid W : Type} [DecidableEq Tid]
  {sys : Threads.System Tid ((ControllerCall F ⊕ OsCall) ⊕ SupervisorCall)
    (Sum.elim (Sum.elim ControllerCall.Answer OsAnswer) SupervisorCall.Answer) W}
  {platform : Platform F OsCall OsAnswer} {progs : Tid → Supervisor F OsCall OsAnswer Unit} {t : Tid}
  {operation : Operation} {reply : operation.Reply} {w w₁ w₂ w₃ w₄ : W}

/-- A client where an operation returns. -/
abbrev clientReturning (platform : Platform F OsCall OsAnswer) (operation : Operation)
    (reply : operation.Reply) : Supervisor F OsCall OsAnswer Unit :=
  .call (.inr (.returned operation reply)) fun _ => client platform

/-- A client can run an operation until it returns. -/
theorem reaches_returning (hnext : sys.step t (.inr .nextOperation) w (some operation) w₁)
    (hcalled : sys.step t (.inr (.called operation)) w₁ () w₂)
    (hrun : (platform.run operation).Runs (fun call => Threads.AfterEnv sys t (.inl call)) w₂ reply
      w₃) :
  Threads.Reaches sys ⟨Function.update progs t (client platform), w⟩
    ⟨Function.update progs t (clientReturning platform operation reply), w₃⟩
  := by
  let rest : operation.Reply → Supervisor F OsCall OsAnswer Unit :=
    clientReturning platform operation
  have hloop : Threads.Step sys ⟨Function.update progs t (client platform), w⟩
      ⟨Function.update progs t (serve platform () >>= Prog.resume (serve platform) .ret), w⟩ :=
    Threads.step_loop
  have hcalls : Threads.Reaches sys
      ⟨Function.update progs t (serve platform () >>= Prog.resume (serve platform) .ret), w⟩
      ⟨Function.update progs t ((platform.run operation).lift >>= rest), w₂⟩ := by
    apply Relation.ReflTransGen.head (Threads.step_call hnext)
    apply Relation.ReflTransGen.head (Threads.step_call hcalled)
    have hassoc : ((((platform.run operation).lift : Supervisor F OsCall OsAnswer _) >>= fun reply =>
        .call (.inr (.returned operation reply)) fun _ => .ret reply) >>= fun _ =>
        .ret (.inl ())) >>= Prog.resume (serve platform) .ret =
        (platform.run operation).lift >>= rest := by
      rw [Prog.bind_assoc, Prog.bind_assoc]
      rfl
    rw [← hassoc]
    exact .refl
  apply Relation.ReflTransGen.head hloop
  apply hcalls.trans
  apply Threads.reaches_of_runs_afterEnv hrun.lift rest

/-- A client can run an operation and go on with the next one. -/
theorem reaches_returned (hnext : sys.step t (.inr .nextOperation) w (some operation) w₁)
    (hcalled : sys.step t (.inr (.called operation)) w₁ () w₂)
    (hrun : (platform.run operation).Runs (fun call => Threads.AfterEnv sys t (.inl call)) w₂ reply
      w₃)
    (hreturned : sys.step t (.inr (.returned operation reply)) w₃ () w₄) :
  Threads.Reaches sys ⟨Function.update progs t (client platform), w⟩
    ⟨Function.update progs t (client platform), w₄⟩
  := (reaches_returning hnext hcalled hrun).tail (Threads.step_call hreturned)

end Supervisor

end OpcuaServer
