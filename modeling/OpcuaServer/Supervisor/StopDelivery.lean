import OpcuaServer.Supervisor.ApiServerRuns

/-!
# No stop of the API server is lost

Whatever the interleaving of the threads that call `Run` and `Stop`: once a `Stop` and the start
handler have returned, the listening socket is invalid or the loop that accepts has been left
(`ApiHost.stop_delivered`). Each `Run` ends then, and returns ok if its listener has ended because of
the stop.
-/

namespace OpcuaServer

namespace ApiHost

/-! ### A run -/

/-- The threads can come from one configuration to one that is as `F` says. -/
def Comes (overlap : Prop) (F : ApiConfig Bool → Prop) (c : ApiConfig Bool) : Prop :=
  ∃ c', Threads.Reaches (apiServers overlap) c c' ∧ F c'

section

variable {overlap : Prop} {F : ApiConfig Bool → Prop} {progs : Bool → ServerProg Unit}
  {w w' : ApiHost Bool}

theorem comes_of_step {c c' : ApiConfig Bool} (hstep : Threads.Step (apiServers overlap) c c')
    (h : Comes overlap F c') :
  Comes overlap F c
  := by
  obtain ⟨c'', hreach, hF⟩ := h
  exact ⟨c'', .head hstep hreach, hF⟩

/-- A thread makes a call, and the threads go on. -/
theorem comes_call (t : Bool) {call : ServerCall} {k : call.Answer → ServerProg Unit}
    {a : call.Answer} (hprog : progs t = .call call k) (hstep : Step overlap t call w a w')
    (h : Comes overlap F ⟨Function.update progs t (k a), w'⟩) :
  Comes overlap F ⟨progs, w⟩
  := comes_of_step (.call hprog hstep) h

end

/-- A server whose dependencies are not null. -/
abbrev connected (assertions : Bool) : ApiSetup :=
  ⟨assertions, false, true, true⟩

/-- Where a `Stop` has returned after the start handler has. -/
structure Stopping (assertions : Bool) (c : ApiConfig Bool) : Prop where
  progs : c.progs false = ApiServer.thread (connected assertions)
  mutex : c.world.mutex = none
  isRunning : c.world.isRunning = true
  svrSock : c.world.svrSock = none
  handlerReturned : c.world.handlerReturned = true
  stopReturned : c.world.stopReturned = true

/-- A thread runs the server, and another one stops it. -/
theorem comes_stopping (overlap : Prop) (assertions : Bool) :
  Comes overlap (Stopping assertions) (apiServersStart (connected assertions))
  := by
  have halone : ∀ {w : ApiHost Bool}, w.asserting true = false →
      ∀ t', t' ≠ false → w.asserting t' = true → overlap := by
    rintro w hfalse (_ | _) hne htrue
    · exact absurd rfl hne
    · cases hfalse.symm.trans htrue
  apply comes_of_step (.loop (t := true) rfl)
  refine comes_call true (a := some (.run [] 80)) rfl (.quiet rfl) ?_
  refine comes_call true rfl .called ?_
  refine comes_call true rfl (.lock rfl) ?_
  refine comes_call true rfl (.unlock rfl) ?_
  refine comes_call true rfl .loadIsDecommissioned ?_
  refine comes_call true (a := some 5) rfl .createServerSocket ?_
  refine comes_call true rfl .storeSvrSock ?_
  refine comes_call true rfl .svrSockValid ?_
  refine comes_call true rfl .bindReturned ?_
  refine comes_call true rfl .loadIsDecommissioned ?_
  refine comes_call true rfl .storeIsRunning ?_
  refine comes_call true rfl (.lock rfl) ?_
  refine comes_call true rfl (.unlock rfl) ?_
  refine comes_call true rfl .startHandlerReturned ?_
  apply comes_of_step (.loop (t := false) rfl)
  refine comes_call false (a := some .stop) rfl (.quiet rfl) ?_
  refine comes_call false rfl .called ?_
  refine comes_call false rfl (.lock rfl) ?_
  refine comes_call false rfl (.unlock rfl) ?_
  refine comes_call false rfl (.loadIsRunning (by rintro ⟨⟩)) ?_
  cases assertions with
  | false =>
    refine comes_call false rfl (.exchangeSvrSock (halone rfl)) ?_
    refine comes_call false (a := ()) rfl (.quiet rfl) ?_
    refine comes_call false (a := ()) rfl (.quiet rfl) ?_
    refine comes_call false rfl .storeIsDecommissioned ?_
    refine comes_call false rfl .returned ?_
    exact ⟨_, .refl, rfl, rfl, rfl, rfl, rfl, rfl⟩
  | true =>
    refine comes_call false rfl .assertSvrSock ?_
    refine comes_call false rfl (.exchangeSvrSock (halone rfl)) ?_
    refine comes_call false (a := ()) rfl (.quiet rfl) ?_
    refine comes_call false (a := ()) rfl (.quiet rfl) ?_
    refine comes_call false rfl .storeIsDecommissioned ?_
    refine comes_call false rfl .returned ?_
    exact ⟨_, .refl, rfl, rfl, rfl, rfl, rfl, rfl⟩

/-! ### Delivery -/

/-- In every configuration that threads which call `Run` and `Stop` reach: a socket has been asked for
once at most. A `Run` returns an error or has found a stop requested, unless it has bound; then it
returns ok if and only if its listener has ended because it found the socket invalid, which only a stop
makes it, and the listener ends otherwise only if an `accept` has failed while the socket was valid. Once
a `Stop` and the start handler have returned, the socket is invalid or the loop that accepts has been
left. Where no assertion is compiled in, every operation ends if a `Stop` has returned before some call
of it, however late, and returns so. -/
theorem stop_delivered {Tid : Type} [DecidableEq Tid] {setup : ApiSetup} {c : ApiConfig Tid}
    (hreach : Threads.Reaches (apiServers True) (apiServersStart setup) c) :
  c.world.binds ≤ 1 ∧
  (∀ t bindAddress port status k,
    c.progs t = .call (.returned (.run bindAddress port) status) k →
    ((c.world.trace t).bound = none → status = .ok () →
      (c.world.trace t).found.stopRequested = true) ∧
    ((c.world.trace t).bound = some false → status ≠ .ok ()) ∧
    ((c.world.trace t).bound = some true →
      (status = .ok () ↔ (c.world.trace t).sawInvalid = true) ∧
      ((c.world.trace t).sawInvalid = true → c.world.lifecycle.stopRequested = true) ∧
      (status ≠ .ok () → (c.world.trace t).acceptFailed = true))) ∧
  (c.world.stopReturned = true → c.world.handlerReturned = true →
    c.world.svrSock = none ∨ c.world.loopLeft = true) ∧
  (setup.assertions = false → ∀ t operation k n, c.progs t = .call (.called operation) k →
    Prog.EndsIn (CallsBy True n t) (fun reply s => Returns t s.2 operation reply)
      (ApiServer.program setup operation) (0, c.world.note t fun _ => {}))
  := by
  have hinv := inv_of_reaches hreach
  refine ⟨hinv.binds, ?_, ?_, ?_⟩
  · intro t bindAddress port status k hprog
    have hreturns : RunReturns t c.world status := permits_of_reaches hreach hprog
    rw [RunReturns] at hreturns
    refine ⟨?_, ?_, ?_⟩
    · intro hbound
      simpa only [hbound] using hreturns
    · intro hbound
      simpa only [hbound] using hreturns
    · intro hbound
      simpa only [hbound] using hreturns
  · intro hstopped hreturned
    obtain ⟨-, hserved⟩ := hinv.stopped hstopped
    obtain ⟨saw, hsaw, hhandled⟩ := hinv.handled hreturned
    cases saw with
    | false => apply hserved hsaw
    | true => apply hhandled rfl
  · intro hassertions t operation k n hprog
    have hmutex : Permits True t c.world (.called operation) := permits_of_reaches hreach hprog
    have hcalled : Unlocked True t (c.world.note t fun _ => {}) :=
      unlocked_step (a := ()) rfl ⟨hinv, hmutex⟩ hmutex .called
    have hdoes : Does setup True t (ApiServer.program setup operation)
        (fun reply w => Returns t w operation reply) (c.world.note t fun _ => {}) := by
      apply does_program operation hcalled
      rw [trace_note]
    apply (hdoes.2 hassertions trivial n 0).mono
    exact fun _ _ h => h.1

/-- A `Stop` has stopped a server. -/
theorem stop_delivered_stopping :
  ∃ c : ApiConfig Bool, c.world.stopReturned = true ∧
    (c.world.svrSock = none ∨ c.world.loopLeft = true)
  := by
  obtain ⟨c, hreach, h⟩ := comes_stopping True false
  exact ⟨c, h.stopReturned, (stop_delivered hreach).2.2.1 h.stopReturned h.handlerReturned⟩

end ApiHost

end OpcuaServer
