import OpcuaServer.Supervisor.StopDelivery

/-!
# The assertion of `Server::stop`

`Server::stop` asserts that the listening socket is valid where it has found the listener running. The
assertion holds in every run in which stops do not overlap (`ApiHost.stop_asserts`). Otherwise it can
fail: the first stop takes the socket, and the listener still runs when the second one comes.
-/

namespace OpcuaServer

namespace ApiHost

/-- A `stop()` comes to its assertion only where the socket is valid, and no assertion fails. -/
structure AssertsValid {Tid : Type} (c : ApiConfig Tid) : Prop where
  asserts : ∀ t k, c.progs t = .call .assertSvrSock k → c.world.svrSock ≠ none
  passes : ∀ t k, c.progs t ≠ .call .assertionFailed k

/-- In every run in which no `stop()` tests `is_running_` after another one has taken the socket of a
listener that still runs, and none takes the socket before another one that has found the listener
running has come past its assertion, the assertions hold. -/
theorem stop_asserts {Tid : Type} [DecidableEq Tid] {setup : ApiSetup} {c : ApiConfig Tid}
    (hreach : Threads.Reaches (apiServers False) (apiServersStart setup) c) :
  AssertsValid c
  where
  asserts t k hprog hsock := by
    have hpermits : Permits False t c.world .assertSvrSock := permits_of_reaches hreach hprog
    apply hpermits hsock
  passes t k hprog := by
    have hpermits : Permits False t c.world .assertionFailed := permits_of_reaches hreach hprog
    apply hpermits

/-- A single `Stop` after the start handler has returned does not fail. -/
theorem stop_asserts_stopping :
  ∃ c : ApiConfig Bool, Stopping true c ∧ AssertsValid c
  := by
  obtain ⟨c, hreach, h⟩ := comes_stopping False true
  exact ⟨c, h, stop_asserts hreach⟩

/-- A second `Stop` comes to its assertion while the listener still runs and its socket is invalid. -/
theorem not_stop_asserts :
  ¬ ∀ c : ApiConfig Bool,
    Threads.Reaches (apiServers True) (apiServersStart (connected true)) c →
    ∀ t k, c.progs t = .call .assertSvrSock k →
      ¬ (c.world.isRunning = true ∧ c.world.svrSock = none)
  := by
  intro hall
  obtain ⟨⟨progs, w⟩, hreach, h⟩ := comes_stopping True true
  have hload : ∀ w : ApiHost Bool, w.isRunning = true →
      Step True false .loadIsRunning w true (w.test false) := by
    intro w hrunning
    have hstep : Step True false .loadIsRunning w w.isRunning (w.test false) :=
      .loadIsRunning fun _ => trivial
    rw [hrunning] at hstep
    apply hstep
  have hagain : Comes True (fun c => (∃ k, c.progs false = .call .assertSvrSock k) ∧
      c.world.isRunning = true ∧ c.world.svrSock = none) ⟨progs, w⟩ := by
    apply comes_of_step (.loop (t := false) h.progs)
    refine comes_call false (a := some .stop) rfl (.quiet rfl) ?_
    refine comes_call false rfl .called ?_
    refine comes_call false rfl (.lock h.mutex) ?_
    refine comes_call false rfl (.unlock rfl) ?_
    refine comes_call false rfl (hload _ h.isRunning) ?_
    exact ⟨_, .refl, ⟨_, rfl⟩, h.isRunning, h.svrSock⟩
  obtain ⟨c, hreach', ⟨k, hprog⟩, hfails⟩ := hagain
  apply hall c (hreach.trans hreach') false k hprog hfails

end ApiHost

end OpcuaServer
