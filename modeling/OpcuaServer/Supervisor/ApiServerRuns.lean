import OpcuaServer.Supervisor.ApiServerRules

/-!
# What the operations of an API server do

Each function of `ApiServer` and of `httplib::Server` makes its calls where their guards hold, and a
`Run` and a `Stop` return as `ApiHost.Returns` says. Where no assertion is compiled in, each ends once
a `Stop` has returned.
-/

namespace OpcuaServer

namespace ApiHost

variable {Tid : Type} {overlap : Prop} {t : Tid} {w w' : ApiHost Tid} {P : ApiHost Tid → Prop}
  {returned : Bool}

/-! ### The course of a `Run` -/

/-- What the frame of a thread keeps is stable. -/
theorem stable_of_frame (hP : ∀ w w', Frame overlap t w w' → P w → P w') :
  Stable overlap t P
  := fun w w' hrely => hP w w' hrely.toFrame

/-- The `Run` of the thread has set `kStarting`, and has not started to listen. -/
structure Binds (t : Tid) (bound : Option Bool) (w : ApiHost Tid) : Prop where
  listener : w.listener = some t
  state : w.lifecycle.lifecycleState = .starting
  hasRun : w.hasRun = false
  isDecommissioned : w.isDecommissioned = false
  bound : (w.trace t).bound = bound

theorem Binds.frame {bound : Option Bool} (h : Binds t bound w) (hframe : Frame overlap t w w') :
  Binds t bound w'
  where
  listener := (hframe.listens h.listener).listener.trans h.listener
  state := (hframe.listens h.listener).state.trans h.state
  hasRun := (hframe.listens h.listener).hasRun.trans h.hasRun
  isDecommissioned := (hframe.listens h.listener).isDecommissioned h.isDecommissioned
  bound := by
    rw [hframe.trace]
    apply h.bound

theorem stable_binds (overlap : Prop) (t : Tid) (bound : Option Bool) :
  Stable overlap t (Binds t bound)
  := stable_of_frame fun _ _ hframe h => h.frame hframe

/-- Nobody takes the socket before the listener runs. -/
theorem Binds.svrSock {bound : Option Bool} (h : Binds t bound w) (hrely : Rely overlap t w w') :
  w'.svrSock = w.svrSock
  := by
  rcases (hrely.listens h.listener).svrSock with heq | ⟨hrun, -⟩
  · apply heq
  · cases h.hasRun.symm.trans hrun

/-- The `Run` of the thread has bound a socket, and has not started to listen. -/
def Bound (t : Tid) (bound : Option Bool) (w : ApiHost Tid) : Prop :=
  Binds t bound w ∧ w.svrSock ≠ none

theorem stable_bound (overlap : Prop) (t : Tid) (bound : Option Bool) :
  Stable overlap t (Bound t bound)
  := by
  rintro w w' hrely ⟨h, hsock⟩
  use h.frame hrely.toFrame
  rw [h.svrSock hrely]
  apply hsock

/-- The `Run` of the thread is the one that has set `kStarting`. -/
def Claims (t : Tid) (bound : Option Bool) (w : ApiHost Tid) : Prop :=
  w.listener = some t ∧ (w.trace t).bound = bound

theorem stable_claims (overlap : Prop) (t : Tid) (bound : Option Bool) :
  Stable overlap t (Claims t bound)
  := by
  rintro w w' hrely ⟨hlistener, hbound⟩
  use (hrely.listens hlistener).listener.trans hlistener
  rw [hrely.trace]
  apply hbound

theorem Binds.claims {bound : Option Bool} (h : Binds t bound w) :
  Claims t bound w
  := ⟨h.listener, h.bound⟩

/-- The listener of the thread runs, and the start handler has returned or has not. -/
structure Runs (t : Tid) (returned : Bool) (w : ApiHost Tid) : Prop where
  listener : w.listener = some t
  hasRun : w.hasRun = true
  isRunning : w.isRunning = true
  handlerReturned : w.handlerReturned = returned
  loopLeft : w.loopLeft = false
  bound : (w.trace t).bound = some true

theorem Runs.frame (h : Runs t returned w) (hframe : Frame overlap t w w') :
  Runs t returned w'
  where
  listener := (hframe.listens h.listener).listener.trans h.listener
  hasRun := hframe.hasRun h.hasRun
  isRunning := (hframe.listens h.listener).isRunning.trans h.isRunning
  handlerReturned := (hframe.listens h.listener).handlerReturned.trans h.handlerReturned
  loopLeft := (hframe.listens h.listener).loopLeft.trans h.loopLeft
  bound := by
    rw [hframe.trace]
    apply h.bound

theorem stable_runs (overlap : Prop) (t : Tid) (returned : Bool) :
  Stable overlap t (Runs t returned)
  := stable_of_frame fun _ _ hframe h => h.frame hframe

/-- Once a `Stop` has returned, the listener finds its socket invalid. -/
theorem svrSock_of_stopReturned (hinv : w.Inv overlap) (hw : Runs t true w)
    (hstopped : w.stopReturned = true) :
  w.svrSock = none
  := by
  obtain ⟨-, hserved⟩ := hinv.stopped hstopped
  obtain ⟨saw, hsaw, hhandled⟩ := hinv.handled hw.handlerReturned
  have hgone : w.svrSock = none ∨ w.loopLeft = true := by
    cases saw with
    | false => apply hserved hsaw
    | true => apply hhandled rfl
  rcases hgone with hsock | hleft
  · apply hsock
  · cases hw.loopLeft.symm.trans hleft

/-- The start handler of the thread has read `stop_requested_` as given. -/
def Handling (t : Tid) (saw : Option Bool) (w : ApiHost Tid) : Prop :=
  Runs t false w ∧ w.handlerSaw = saw ∧ (saw = none → w.lifecycle.lifecycleState = .starting)

theorem Handling.frame {saw : Option Bool} (h : Handling t saw w) (hframe : Frame overlap t w w') :
  Handling t saw w'
  := by
  obtain ⟨hruns, hsaw, hstate⟩ := h
  have hlistens := hframe.listens hruns.listener
  exact ⟨hruns.frame hframe, hlistens.handlerSaw.trans hsaw,
    fun hnone => hlistens.state.trans (hstate hnone)⟩

/-- The loop of the listener of the thread has ended in `ret`. -/
structure Ended (t : Tid) (ret : Bool) (w : ApiHost Tid) : Prop where
  listener : w.listener = some t
  hasRun : w.hasRun = true
  bound : (w.trace t).bound = some true
  sawInvalid : (w.trace t).sawInvalid = ret
  requested : ret = true → w.lifecycle.stopRequested = true
  acceptFailed : ret = false → (w.trace t).acceptFailed = true

theorem stable_ended (overlap : Prop) (t : Tid) (ret : Bool) :
  Stable overlap t (Ended t ret)
  := by
  intro w w' hrely h
  constructor
  · exact (hrely.listens h.listener).listener.trans h.listener
  · apply hrely.hasRun h.hasRun
  · rw [hrely.trace]
    apply h.bound
  · rw [hrely.trace]
    apply h.sawInvalid
  · exact fun hret => hrely.stopRequested (h.requested hret)
  · rw [hrely.trace]
    apply h.acceptFailed

theorem stable_runReturns (overlap : Prop) (t : Tid) (status : Status) :
  Stable overlap t fun w => RunReturns t w status
  := by
  intro w w' hrely h
  rw [RunReturns, hrely.trace]
  rw [RunReturns] at h
  split
  · next hbound =>
    simp only [hbound] at h
    apply h
  · next hbound =>
    simp only [hbound] at h
    apply h
  · next hbound =>
    simp only [hbound] at h
    exact ⟨h.1, fun hsaw => hrely.stopRequested (h.2.1 hsaw), h.2.2⟩

/-- A `Run` that has not bound returns an error, or has found a stop requested. -/
theorem runReturns_unbound {status : Status} (hbound : (w.trace t).bound = none)
    (hrequested : status = .ok () → (w.trace t).found.stopRequested = true) :
  RunReturns t w status
  := by
  rw [RunReturns, hbound]
  apply hrequested

/-- An iteration of the loop goes on, or the loop has ended. -/
abbrev Iterated (t : Tid) (r : Unit ⊕ Bool) (w : ApiHost Tid) : Prop :=
  r.elim (fun _ => Runs t true w) fun ret => Ended t ret w

theorem stable_iterated (overlap : Prop) (t : Tid) (r : Unit ⊕ Bool) :
  Stable overlap t (Iterated t r)
  := by
  cases r with
  | inl => apply stable_runs
  | inr ret => apply stable_ended

/-- The thread that listens stays the one that listens when it leaves `kStopped`. -/
theorem listener_release_stopped (hlistener : w.listener = some t) :
  (w.release t { w.lifecycle with lifecycleState := .stopped }).listener = some t
  := by
  rw [release, listenerAfter, if_neg]
  · apply hlistener
  · rintro ⟨-, ⟨⟩⟩

theorem stable_returns (overlap : Prop) (t : Tid) (operation : ServerOperation)
    (reply : operation.Reply) :
  Stable overlap t fun w => Returns t w operation reply
  := by
  cases operation with
  | run => apply stable_runReturns
  | stop => exact fun _ _ hrely => hrely.served

variable [DecidableEq Tid] {setup : ApiSetup} {α β : Type} {Q : α → ApiHost Tid → Prop}

/-! ### Stopping -/

/-- The assertion holds unless stops overlap. -/
theorem does_assertSocket (hinv : Unlocked overlap t w)
    (hP : ∀ w w', Frame overlap t w w' → P w → P w') (hw : P w)
    (hasserting : w.asserting t = true) :
  Does setup overlap t (HttpServer.assertSocket setup.assertions) (fun _ => P) w
  := by
  have hstable : Stable overlap t fun w => P w ∧ w.asserting t = true := by
    rintro w w' hrely ⟨hw, hasserting⟩
    use hP w w' hrely.toFrame hw
    rw [hrely.asserting]
    apply hasserting
  cases hassertions : setup.assertions with
  | false => apply does_pure hinv (stable_of_frame hP) hw
  | true =>
    apply does_call hinv hstable ⟨hw, hasserting⟩ rfl
    · exact fun w hinv h => (hinv.asserting t h.2).2
    · rintro w _ w' hinv ⟨hw, hasserting⟩ hstep hinv'
      cases hstep with
      | quiet hquiet => cases hquiet
      | assertSvrSock =>
        cases hsock : w.svrSock with
        | some sock => apply does_pure hinv' (stable_of_frame hP) (hP _ _ (frame_pass hinv'.toInv) hw)
        | none =>
          have hoverlap := (hinv.asserting t hasserting).2 hsock
          constructor
          · exact fun w₁ hrely => ⟨⟨hrely.inv hinv'.toInv, hoverlap⟩, by rintro ⟨⟩⟩
          · intro hfalse
            cases hassertions.symm.trans hfalse

/-- A `stop()` leaves the socket invalid, or comes too early or too late for that. -/
theorem does_stop {Q : ApiHost Tid → Prop} (hinv : Unlocked overlap t w)
    (hP : ∀ w w', Frame overlap t w w' → P w → P w') (hw : P w)
    (hrequested : ∀ w, P w → w.lifecycle.stopRequested = true)
    (hQ : ∀ w w', Frame overlap t w w' → Q w → Q w')
    (hmissed : ∀ w, Unlocked overlap t w → P w → w.isRunning = false → Q w)
    (htaken : ∀ w, P w → w.hasRun = true → w.svrSock = none → Q w) :
  Does setup overlap t (HttpServer.stop setup.assertions) (fun _ => Q) w
  := by
  have hend : ∀ w, Unlocked overlap t w → Q w →
      Does setup overlap t (serverCall (.storeIsDecommissioned false)) (fun _ => Q) w := by
    intro w hinv hw
    change Does setup overlap t (serverCall (.storeIsDecommissioned false) >>= pure) (fun _ => Q) w
    apply does_call hinv (stable_of_frame hQ) hw rfl
    · rintro _ _ _ ⟨⟩
    · intro w _ _ _ hw hstep hinv'
      cases hstep with
      | quiet hquiet => cases hquiet
      | storeIsDecommissioned =>
        apply does_pure hinv' (stable_of_frame hQ)
        apply hQ _ _ (frame_recommission hinv'.toInv) hw
  apply does_call hinv (stable_of_frame hP) hw rfl
  · exact fun _ _ _ => trivial
  · intro w _ w' hinv hw hstep hinv'
    cases hstep with
    | quiet hquiet => cases hquiet
    | loadIsRunning =>
      have hframe := frame_test (t := t) hinv'.toInv
      cases hrunning : w.isRunning with
      | false => apply hend _ hinv' (hQ _ _ hframe (hmissed w hinv hw hrunning))
      | true =>
        have hasserting : (w.test t).asserting t = true := (Function.update_self ..).trans hrunning
        have hrun := (hinv'.asserting t hasserting).1
        have hPrun : ∀ w w', Frame overlap t w w' → P w ∧ w.hasRun = true → P w' ∧ w'.hasRun = true :=
          fun w w' hframe h => ⟨hP w w' hframe h.1, hframe.hasRun h.2⟩
        apply does_bind
          (does_assertSocket hinv' hPrun ⟨hP _ _ hframe hw, hrun⟩ hasserting)
        intro _ w hinv h
        apply does_call hinv (stable_of_frame hPrun) h rfl
        · exact fun w _ h => ⟨h.2, hrequested w h.1⟩
        · rintro w _ w' hinv ⟨hw, hrun⟩ hstep hinv'
          cases hstep with
          | quiet hquiet => cases hquiet
          | exchangeSvrSock =>
            have hw' := hP _ _ (frame_take hinv'.toInv hrun) hw
            apply does_quiet hinv' (stable_of_frame hQ) (htaken _ hw' hrun rfl) rfl
            intro _ w hinv hw
            apply does_quiet hinv (stable_of_frame hQ) hw rfl
            exact fun _ => hend

/-- A `Stop` has told the listener to end, or the start handler will. -/
theorem does_stopServed (hinv : Unlocked overlap t w) :
  Does setup overlap t (ApiServer.stop setup) (fun _ => StopServed) w
  := by
  apply does_bind (R := fun _ w => w.lifecycle.stopRequested = true)
  · apply does_guardLifecycle (P := fun _ => True) hinv
    · exact fun _ _ _ => id
    · exact fun _ => id
    · trivial
    · exact fun _ _ _ hrely => hrely.stopRequested
    · exact fun w _ _ _ => ⟨.same rfl, fun _ => rfl, rfl⟩
  · intro _ w hinv hrequested
    apply does_stop (P := fun w => w.lifecycle.stopRequested = true) hinv
    · exact fun _ _ hframe => hframe.stopRequested
    · apply hrequested
    · exact fun _ => id
    · exact fun _ _ hframe => hframe.served
    · intro w hinv hrequested hrunning
      refine ⟨hrequested, fun hsaw => .inr (hinv.ended hrunning ?_)⟩
      rw [hsaw]
      rintro ⟨⟩
    · exact fun _ hrequested _ hsock => ⟨hrequested, fun _ => .inl hsock⟩

/-! ### Binding -/

theorem does_enterStarting (hinv : Unlocked overlap t w) (hbound : (w.trace t).bound = none) :
  Does setup overlap t (ApiServer.guardLifecycle ApiServer.enterStarting)
    (fun a w => a.elim (Binds t none w ∧ w.binds = 0) fun status => RunReturns t w status) w
  := by
  apply does_guardLifecycle (P := fun w => (w.trace t).bound = none) hinv
  · intro w w' hrely h
    rw [hrely.trace]
    apply h
  · intro w h
    change (Function.update w.trace t _ t).bound = none
    rw [Function.update_self]
    apply h
  · apply hbound
  · intro a
    cases a with
    | some status => apply stable_runReturns
    | none =>
      rintro w w' hrely ⟨h, hbinds⟩
      use h.frame hrely.toFrame
      rw [(hrely.listens h.listener).binds]
      apply hbinds
  · intro w hinv hbound hfound
    by_cases hidle : w.lifecycle.lifecycleState = .idle
    · obtain ⟨hbinds, -, hdecommissioned, hrun⟩ := hinv.unbound (hinv.idle hidle)
      cases hrequested : w.lifecycle.stopRequested with
      | true =>
        rw [ApiServer.run_enterStarting, if_neg (not_not.mpr hidle), if_pos hrequested]
        refine ⟨.begins hidle (by rintro ⟨⟩), fun _ => hrequested, ?_⟩
        apply runReturns_unbound hbound
        intro _
        apply Eq.trans (congrArg Lifecycle.stopRequested hfound) hrequested
      | false =>
        rw [ApiServer.run_enterStarting, if_neg (not_not.mpr hidle),
          if_neg (Bool.eq_false_iff.mp hrequested)]
        refine ⟨.begins hidle (by rintro ⟨⟩), by rintro ⟨⟩, ?_, hbinds⟩
        exact ⟨if_pos ⟨hidle, rfl⟩, rfl, hrun, hdecommissioned, hbound⟩
    · rw [ApiServer.run_enterStarting, if_pos hidle]
      refine ⟨.same rfl, id, ?_⟩
      apply runReturns_unbound hbound
      rintro ⟨⟩

/-- A port is only found where the socket is valid. -/
theorem does_boundPort (hinv : Unlocked overlap t w) (hw : Bound t none w) :
  Does setup overlap t HttpServer.boundPort
    (fun ret w => Binds t none w ∧ (0 ≤ ret → w.svrSock ≠ none)) w
  := by
  have hpure : ∀ (ret : ℤ) (w : ApiHost Tid), Unlocked overlap t w → Bound t none w →
      Does setup overlap t (pure ret)
        (fun ret w => Binds t none w ∧ (0 ≤ ret → w.svrSock ≠ none)) w := by
    intro ret w hinv hw
    apply does_mono (Q := fun _ => Bound t none)
    · exact fun _ _ _ h => ⟨h.1, fun _ => h.2⟩
    · apply does_keep hinv (stable_bound overlap t none) hw
  apply does_loadSvrSock hinv (stable_bound overlap t none) hw
  intro _ w hinv hw
  apply does_quiet hinv (stable_bound overlap t none) hw rfl
  intro name w hinv hw
  cases name <;> apply hpure _ _ hinv hw

/-- `bind_internal` returns a port only where the socket is valid. -/
theorem does_bindInternal (host : Bytes) (port : Int32) (hinv : Unlocked overlap t w)
    (hw : Binds t none w) (hbinds : w.binds = 0) :
  Does setup overlap t (HttpServer.bindInternal host port)
    (fun ret w => Binds t none w ∧ (0 ≤ ret → w.svrSock ≠ none)) w
  := by
  have hstable : Stable overlap t fun w => Binds t none w ∧ w.binds = 0 := by
    rintro w w' hrely ⟨h, hbinds⟩
    use h.frame hrely.toFrame
    rw [(hrely.listens h.listener).binds]
    apply hbinds
  have hfailed : ∀ w : ApiHost Tid, Unlocked overlap t w → Binds t none w →
      Does setup overlap t (pure (-1))
        (fun ret w => Binds t none w ∧ (0 ≤ ret → w.svrSock ≠ none)) w := by
    intro w hinv hw
    apply does_mono (Q := fun ret w => ret = -1 ∧ Binds t none w)
    · rintro _ w _ ⟨rfl, h⟩
      exact ⟨h, fun hle => absurd hle (by decide)⟩
    · apply does_pure hinv
      · exact fun w w' hrely h => ⟨h.1, stable_binds overlap t none w w' hrely h.2⟩
      · exact ⟨rfl, hw⟩
  apply does_call hinv hstable ⟨hw, hbinds⟩ rfl
  · exact fun _ _ _ => trivial
  · rintro w _ w' _ ⟨hw, hbinds⟩ hstep hinv
    cases hstep with
    | quiet hquiet => cases hquiet
    | loadIsDecommissioned =>
      rw [hw.isDecommissioned]
      apply does_call hinv hstable ⟨hw, hbinds⟩ rfl
      · exact fun _ _ h => ⟨h.1.listener, h.2⟩
      · rintro w sock w' _ ⟨hw, -⟩ hstep hinv
        have hw' : Binds t none w' := by
          cases hstep with
          | quiet hquiet => cases hquiet
          | createServerSocket => exact { hw with }
        apply does_call hinv (stable_binds overlap t none) hw' rfl
        · exact fun _ _ h => ⟨h.listener, h.hasRun⟩
        · intro w _ w' _ hw hstep hinv
          have hw' : Binds t none w' := by
            cases hstep with
            | quiet hquiet => cases hquiet
            | storeSvrSock => exact { hw with }
          apply does_svrSockValid hinv (stable_binds overlap t none) hw'
          intro valid w _ hw hvalid hinv
          have hw' : Binds t none (w.note t fun trace => { trace with sawInvalid := !valid }) :=
            { hw with
              bound := by
                rw [trace_note]
                apply hw.bound }
          cases valid with
          | false => apply hfailed _ hinv hw'
          | true =>
            have hbound : Bound t none (w.note t fun trace => { trace with sawInvalid := !true }) :=
              ⟨hw', hvalid.mp rfl⟩
            by_cases hport : port = 0
            · simp only [hport, Bool.not_true, Bool.false_eq_true, if_false, if_true]
              apply does_boundPort hinv hbound
            · simp only [hport, Bool.not_true, Bool.false_eq_true, if_false]
              apply does_mono (Q := fun (_ : ℤ) => Bound t none)
              · exact fun _ _ _ h => ⟨h.1, fun _ => h.2⟩
              · apply does_keep hinv (stable_bound overlap t none) hbound

theorem does_bindToPort (host : Bytes) (port : Int32) (hinv : Unlocked overlap t w)
    (hw : Binds t none w) (hbinds : w.binds = 0) :
  Does setup overlap t (HttpServer.bindToPort host port)
    (fun bound w => Claims t none w ∧ (bound = true → Bound t none w)) w
  := by
  apply does_bind (does_bindInternal host port hinv hw hbinds)
  rintro ret w hinv ⟨hw, hret⟩
  by_cases hfailed : ret = -1
  · rw [if_pos hfailed]
    apply does_call hinv (stable_claims overlap t none) hw.claims rfl
    · exact fun _ _ h _ => h.1
    · intro w _ w' _ h hstep hinv'
      cases hstep with
      | quiet hquiet => cases hquiet
      | storeIsDecommissioned =>
        apply does_mono (Q := fun bound w => bound = false ∧ Claims t none w)
        · rintro _ w _ ⟨rfl, h⟩
          exact ⟨h, by rintro ⟨⟩⟩
        · apply does_pure hinv'
          · exact fun w w' hrely h => ⟨h.1, stable_claims overlap t none w w' hrely h.2⟩
          · refine ⟨?_, h⟩
            rw [hfailed]
            rfl
  · rw [if_neg hfailed]
    by_cases hle : 0 ≤ ret
    · apply does_mono (Q := fun _ => Bound t none)
      · exact fun _ _ _ h => ⟨h.1.claims, fun _ => h⟩
      · apply does_keep hinv (stable_bound overlap t none) ⟨hw, hret hle⟩
    · apply does_mono (Q := fun bound w => bound = false ∧ Claims t none w)
      · rintro _ w _ ⟨rfl, h⟩
        exact ⟨h, by rintro ⟨⟩⟩
      · apply does_pure hinv
        · exact fun w w' hrely h => ⟨h.1, stable_claims overlap t none w w' hrely h.2⟩
        · exact ⟨decide_eq_false hle, hw.claims⟩

/-! ### Listening -/

theorem does_enterRunning (hinv : Unlocked overlap t w) (hw : Handling t none w) :
  Does setup overlap t (ApiServer.guardLifecycle ApiServer.enterRunning)
    (fun saw w => Handling t (some saw) w ∧ (saw = true → w.lifecycle.stopRequested = true)) w
  := by
  apply does_guardLifecycle (P := Handling t none) hinv
  · exact stable_of_frame fun _ _ hframe h => h.frame hframe
  · rintro w ⟨h, hsaw, hstate⟩
    refine ⟨{ h with bound := ?_ }, hsaw, hstate⟩
    change (Function.update w.trace t _ t).bound = some true
    rw [Function.update_self]
    apply h.bound
  · apply hw
  · intro saw
    apply stable_of_frame
    exact fun w w' hframe h => ⟨h.1.frame hframe, fun hsaw => hframe.stopRequested (h.2 hsaw)⟩
  · rintro w _ ⟨h, hsaw, hstate⟩ _
    have hlistener : w.listenerAfter t { w.lifecycle with lifecycleState := .running } = some t := by
      rw [listenerAfter, if_neg]
      · apply h.listener
      · rintro ⟨-, ⟨⟩⟩
    refine ⟨.runs h.listener h.isRunning hsaw (by rintro ⟨⟩), id, ⟨?_, ?_, ?_⟩, id⟩
    · exact { h with listener := hlistener }
    · exact if_pos ⟨hstate rfl, rfl⟩
    · rintro ⟨⟩

/-- When the start handler has returned, it has not come upon a request, or the socket is invalid. -/
theorem does_startHandler (hinv : Unlocked overlap t w) (hw : Handling t none w) :
  Does setup overlap t (ApiServer.startHandler setup) (fun _ w => Runs t false w ∧ w.Handled) w
  := by
  apply does_bind (does_enterRunning hinv hw)
  rintro saw w hinv ⟨hw, hrequested⟩
  cases saw with
  | false =>
    apply does_mono (Q := fun _ => Handling t (some false))
    · exact fun _ _ _ h => ⟨h.1, false, h.2.1, by rintro ⟨⟩⟩
    · apply does_keep hinv _ hw
      exact stable_of_frame fun _ _ hframe h => h.frame hframe
  | true =>
    apply does_mono (Q := fun _ w => Handling t (some true) w ∧ w.svrSock = none)
    · exact fun _ _ _ h => ⟨h.1.1, true, h.1.2.1, fun _ => .inl h.2⟩
    · apply does_stop hinv
        (P := fun w => Handling t (some true) w ∧ w.lifecycle.stopRequested = true)
      · exact fun _ _ hframe h => ⟨h.1.frame hframe, hframe.stopRequested h.2⟩
      · exact ⟨hw, hrequested rfl⟩
      · exact fun _ h => h.2
      · exact fun _ _ hframe h => ⟨h.1.frame hframe, hframe.invalid h.1.1.hasRun h.2⟩
      · intro w _ h hrunning
        cases h.1.1.isRunning.symm.trans hrunning
      · exact fun _ h _ hsock => ⟨h.1, hsock⟩

theorem does_goOn (hinv : Unlocked overlap t w) (hw : Runs t true w) :
  Does setup overlap t (pure (.inl ())) (Iterated t) w
  := does_pure hinv (stable_iterated overlap t (.inl ())) hw

theorem does_handOver (sock : Socket) (hinv : Unlocked overlap t w) (hw : Runs t true w) :
  Does setup overlap t (HttpServer.handOver sock) (fun _ => Runs t true) w
  := by
  have hstable := stable_runs overlap t true
  apply does_quiet hinv hstable hw rfl
  intro enqueued w hinv hw
  cases enqueued with
  | true => apply does_keep hinv hstable hw
  | false =>
    apply does_quiet hinv hstable hw rfl
    intro _ w hinv hw
    change Does setup overlap t (serverCall (.closeSocket (some sock)) >>= pure)
      (fun _ => Runs t true) w
    apply does_quiet hinv hstable hw rfl
    exact fun _ _ hinv hw => does_keep hinv hstable hw

theorem does_waitsInVain (idles : Bool) (hinv : Unlocked overlap t w) (hw : Runs t true w) :
  Does setup overlap t (HttpServer.waitsInVain idles) (fun _ => Runs t true) w
  := by
  have hstable := stable_runs overlap t true
  cases idles with
  | false => apply does_keep hinv hstable hw
  | true =>
    apply does_loadSvrSock hinv hstable hw
    intro _ w hinv hw
    apply does_quiet hinv hstable hw rfl
    intro val w hinv hw
    by_cases hzero : val = 0
    · rw [if_pos hzero]
      apply does_quiet hinv hstable hw rfl
      exact fun _ _ hinv hw => does_keep hinv hstable hw
    · rw [if_neg hzero]
      apply does_keep hinv hstable hw

/-- The listener runs on after it has come upon something. -/
theorem Runs.note (h : Runs t returned w) {f : RunTrace → RunTrace}
    (hbound : (f (w.trace t)).bound = (w.trace t).bound) :
  Runs t returned (w.note t f)
  := { h with
    bound := by
      rw [trace_note, hbound]
      apply h.bound }

/-- The loop ends where it finds the socket invalid. -/
theorem ended_of_invalid (hinv : w.Inv overlap) (hw : Runs t returned w) (hsock : w.svrSock = none) :
  Ended t true (w.note t fun trace => { trace with sawInvalid := true })
  where
  listener := hw.listener
  hasRun := hw.hasRun
  bound := (hw.note rfl).bound
  sawInvalid := by rw [trace_note]
  requested _ := hinv.invalid hw.hasRun hsock
  acceptFailed := by rintro ⟨⟩

/-- The loop ends where an `accept` has failed, and the socket is valid. -/
theorem ended_of_failed (hw : Runs t returned w) (hfailed : (w.trace t).acceptFailed = true) :
  Ended t false (w.note t fun trace => { trace with sawInvalid := false })
  where
  listener := hw.listener
  hasRun := hw.hasRun
  bound := (hw.note rfl).bound
  sawInvalid := by rw [trace_note]
  requested := by rintro ⟨⟩
  acceptFailed _ := by
    rw [trace_note]
    apply hfailed

/-- Where an `accept` has failed for good, the socket had been invalid, or the failure is noted. -/
theorem does_closedByUser (hinv : Unlocked overlap t w) (hw : Runs t true w)
    (hfailed : w.svrSock = none ∨ (w.trace t).acceptFailed = true) :
  Does setup overlap t HttpServer.closedByUser (fun ret => Ended t ret) w
  := by
  have hstable : Stable overlap t fun w => Runs t true w ∧
      (w.svrSock = none ∨ (w.trace t).acceptFailed = true) := by
    rintro w w' hrely ⟨h, hfailed⟩
    use h.frame hrely.toFrame
    rw [hrely.trace]
    exact hfailed.imp_left (hrely.invalid h.hasRun)
  apply does_svrSockValid hinv hstable ⟨hw, hfailed⟩
  rintro valid w hinv₁ ⟨hw, hfailed⟩ hvalid hinv
  cases valid with
  | false =>
    apply does_pure hinv (stable_ended overlap t true)
    apply ended_of_invalid hinv₁.toInv hw
    by_contra hsock
    cases hvalid.mpr hsock
  | true =>
    have hended := ended_of_failed hw (hfailed.resolve_left (hvalid.mp rfl))
    apply does_loadSvrSock hinv (stable_ended overlap t false) hended
    intro _ w hinv hended
    apply does_quiet hinv (stable_ended overlap t false) hended rfl
    exact fun _ _ hinv hended => does_pure hinv (stable_ended overlap t false) hended

theorem does_acceptNext (hinv : Unlocked overlap t w) (hw : Runs t true w) :
  Does setup overlap t HttpServer.acceptNext (Iterated t) w
  := by
  have hstable := stable_runs overlap t true
  apply does_loadSvrSock hinv hstable hw
  intro sock w hinv hw
  apply does_call hinv hstable hw rfl
  · exact fun _ _ _ => trivial
  · intro w accepted w' _ hw hstep hinv
    cases hstep with
    | quiet hquiet => cases hquiet
    | accept =>
      have hw' : Runs t true (w.note t fun trace => { trace with
          acceptFailed := trace.acceptFailed || (failsForGood accepted && w.svrSock.isSome) }) :=
        hw.note rfl
      cases accepted with
      | connection sock =>
        apply does_bind (does_handOver sock hinv hw')
        exact fun _ _ => does_goOn
      | failed errno =>
        cases errno with
        | other =>
          apply does_bind (does_closedByUser hinv hw' _)
          · intro ret w hinv hended
            apply does_pure hinv (stable_iterated overlap t (.inr ret)) hended
          · cases hsock : w.svrSock with
            | none => exact .inl hsock
            | some sock =>
              right
              rw [trace_note]
              exact Bool.or_true _
        | _ => apply does_goOn hinv hw'

theorem does_waitAndAccept (idles : Bool) (hinv : Unlocked overlap t w) (hw : Runs t true w) :
  Does setup overlap t (HttpServer.waitAndAccept idles) (Iterated t) w
  := by
  apply does_bind (does_waitsInVain idles hinv hw)
  intro vain w hinv hw
  cases vain with
  | true => apply does_goOn hinv hw
  | false => apply does_acceptNext hinv hw

theorem does_acceptLoop (idles : Bool) (hinv : Unlocked overlap t w) (hw : Runs t true w) :
  Does setup overlap t (HttpServer.acceptLoop idles ()) (Iterated t) w
  := by
  apply does_svrSockValid hinv (stable_runs overlap t true) hw
  intro valid w hinv₁ hw hvalid hinv
  cases valid with
  | false =>
    apply does_pure hinv (stable_iterated overlap t (.inr true))
    apply ended_of_invalid hinv₁.toInv hw
    by_contra hsock
    cases hvalid.mpr hsock
  | true => apply does_waitAndAccept idles hinv (hw.note rfl)

/-- An iteration of the loop ends it, once a `Stop` has returned. -/
theorem endsIn_acceptLoop (idles : Bool) (hassertions : setup.assertions = false)
    (hoverlap : overlap) (hinv : Unlocked overlap t w) (hw : Runs t true w) (k n : ℕ) :
  Prog.EndsIn (CallsBy overlap k t)
    (fun r s => (Iterated t r s.2 ∧ Unlocked overlap t s.2) ∧ n < s.1 ∧ (r = .inl () → n < k))
    (HttpServer.acceptLoop idles ()) (n, w)
  := by
  apply Prog.EndsIn.call (exists_callsBy rfl hoverlap hinv k n)
  rintro valid ⟨n₁, w'⟩ ⟨hn, w₁, hrely, hstopped, hstep⟩
  have hinv₁ := hinv.rely hrely
  have hw₁ := hw.frame hrely.toFrame
  have hpermits : Permits overlap t w₁ .svrSockValid := trivial
  have hinv' := unlocked_step rfl hinv₁ hpermits hstep
  have hlt : n < n₁ := by omega
  cases hstep with
  | quiet hquiet => cases hquiet
  | svrSockValid =>
    rw [← Option.not_isSome] at hinv' ⊢
    cases hvalid : w₁.svrSock.isSome with
    | false =>
      have hsock := Option.not_isSome_iff_eq_none.mp (Bool.eq_false_iff.mp hvalid)
      rw [hvalid] at hinv'
      exact .ret ⟨⟨ended_of_invalid hinv₁.toInv hw₁ hsock, hinv'⟩, hlt, by rintro ⟨⟩⟩
    | true =>
      have hk : n < k := by
        by_contra hle
        apply Option.isSome_iff_ne_none.mp hvalid
        apply svrSock_of_stopReturned hinv₁.toInv hw₁ (hstopped (not_lt.mp hle) hinv₁.mutex)
      rw [hvalid] at hinv'
      have hw' : Runs t true (w₁.note t fun trace => { trace with sawInvalid := !true }) :=
        hw₁.note rfl
      have hends := (does_waitAndAccept idles hinv' hw').2 hassertions hoverlap k n₁
      apply (hends.frame (J := fun s => n < s.1) _ hlt).mono
      · exact fun _ _ h => ⟨h.1, h.2, fun _ => hk⟩
      · rintro _ s _ s' ⟨hs, -⟩ hlt
        omega

theorem does_loop (idles : Bool) (hinv : Unlocked overlap t w) (hw : Runs t true w) :
  Does setup overlap t (Prog.repeatUntil (HttpServer.acceptLoop idles) ()) (Ended t) w
  := by
  constructor
  · apply Prog.wp_repeatUntil (fun _ w => Runs t true w ∧ Unlocked overlap t w)
    · exact fun _ w w' hrely h => ⟨h.1.frame hrely.toFrame, h.2.rely hrely⟩
    · exact ⟨hw, hinv⟩
    · rintro _ w ⟨hw, hinv⟩
      have hbody : Does setup overlap t (HttpServer.acceptLoop idles ()) (Iterated t) w :=
        does_acceptLoop idles hinv hw
      apply Prog.wp_mono _ hbody.1
      rintro (_ | ret) w h
      · apply h
      · exact fun w' hrely => ⟨stable_ended overlap t ret w w' hrely h.1, h.2.rely hrely⟩
  · intro hassertions hoverlap k n
    refine Prog.endsIn_repeatUntil (n := k - n + 1)
      (fun m _ s => Runs t true s.2 ∧ Unlocked overlap t s.2 ∧ k - s.1 < m) ?_
      ⟨hw, hinv, Nat.lt_succ_self _⟩
    rintro m _ ⟨n, w⟩ ⟨hw, hinv, hm⟩
    apply (endsIn_acceptLoop idles hassertions hoverlap hinv hw k n).mono
    rintro (_ | ret) s ⟨⟨hiterated, hinv⟩, hlt, hk⟩
    · have hk := hk rfl
      exact ⟨k - n, hm, hiterated, hinv, by omega⟩
    · exact ⟨hiterated, hinv⟩

/-- What follows the loop of `listen_internal`. -/
theorem does_endListening {ret : Bool} (hinv : Unlocked overlap t w) (hw : Ended t ret w) :
  Does setup overlap t (HttpServer.endListening ret) (fun ret => Ended t ret) w
  := by
  apply does_call hinv (stable_ended overlap t ret) hw rfl
  · exact fun _ _ h => ⟨h.listener, h.hasRun⟩
  · intro w _ _ _ hw hstep hinv
    cases hstep with
    | quiet hquiet => cases hquiet
    | shutdownTaskQueue =>
      have hstable : Stable overlap t fun w => Ended t ret w ∧ w.loopLeft = true := by
        rintro w w' hrely ⟨h, hleft⟩
        use stable_ended overlap t ret w w' hrely h
        exact (hrely.listens h.listener).loopLeft.trans hleft
      apply does_call hinv hstable ⟨{ hw with }, rfl⟩ rfl
      · exact fun _ _ h _ => h.1.listener
      · rintro w _ _ _ ⟨hw, hleft⟩ hstep hinv
        cases hstep with
        | quiet hquiet => cases hquiet
        | storeIsDecommissioned =>
          apply does_call hinv hstable ⟨{ hw with }, hleft⟩ rfl
          · exact fun _ _ h => ⟨h.1.listener, h.1.hasRun, h.2⟩
          · rintro w _ _ _ ⟨hw, -⟩ hstep hinv
            cases hstep with
            | quiet hquiet => cases hquiet
            | storeIsRunning =>
              apply does_pure hinv (stable_ended overlap t ret)
              exact { hw with hasRun := (Bool.or_false _).trans hw.hasRun }

/-- What follows the start handler in `listen_internal`. -/
theorem does_acceptConnections (idles : Bool) (hinv : Unlocked overlap t w) (hw : Runs t true w) :
  Does setup overlap t (HttpServer.acceptConnections idles) (fun ret => Ended t ret) w
  := by
  apply does_quiet hinv (stable_runs overlap t true) hw rfl
  intro _ w hinv hw
  apply does_bind (does_loop idles hinv hw)
  exact fun _ _ => does_endListening

theorem does_listenInternal (hinv : Unlocked overlap t w)
    (hw : Bound t (some true) w) :
  Does setup overlap t (HttpServer.listenInternal setup.idles (ApiServer.startHandler setup))
    (fun ret => Ended t ret) w
  := by
  have hstable := stable_bound overlap t (some true)
  apply does_call hinv hstable hw rfl
  · exact fun _ _ _ => trivial
  · intro w _ _ _ hw hstep hinv
    cases hstep with
    | quiet hquiet => cases hquiet
    | loadIsDecommissioned =>
      rw [hw.1.isDecommissioned]
      apply does_call hinv hstable hw rfl
      · exact fun w hinv h => ⟨h.1.listener, h.2, (hinv.fresh h.1.hasRun).2.1⟩
      · intro w _ _ hinv₁ hw hstep hinv
        cases hstep with
        | quiet hquiet => cases hquiet
        | storeIsRunning =>
          obtain ⟨-, hsaw, hreturned, hleft⟩ := hinv₁.fresh hw.1.hasRun
          have hruns : Runs t false
              { w with isRunning := true, hasRun := w.hasRun || true, taken := false } :=
            ⟨hw.1.listener, Bool.or_true _, rfl, hreturned, hleft, hw.1.bound⟩
          apply does_bind (does_startHandler hinv ⟨hruns, hsaw, fun _ => hw.1.state⟩)
          rintro _ w hinv ⟨hw, hhandled⟩
          have hstable : Stable overlap t fun w => Runs t false w ∧ w.Handled := by
            rintro w w' hrely ⟨h, hhandled⟩
            have hlistens := hrely.listens h.listener
            use h.frame hrely.toFrame
            apply hhandled.of_eq hlistens.handlerSaw (hrely.invalid h.hasRun)
            rw [hlistens.loopLeft]
            exact id
          apply does_call hinv hstable ⟨hw, hhandled⟩ rfl
          · exact fun _ _ h => ⟨h.1.listener, h.1.hasRun, h.2⟩
          · rintro w _ _ _ ⟨hw, -⟩ hstep hinv
            cases hstep with
            | quiet hquiet => cases hquiet
            | startHandlerReturned =>
              have hruns : Runs t true { w with handlerReturned := true } :=
                { hw with handlerReturned := rfl }
              apply does_acceptConnections setup.idles hinv hruns

/-! ### Operations -/

/-- The last part of a `Run` under the mutex. -/
theorem does_enterStopped (hinv : Unlocked overlap t w) (hstable : Stable overlap t P)
    (hacquire : ∀ w, P w → P (w.acquire t))
    (hrelease : ∀ w, P w → P (w.release t { w.lifecycle with lifecycleState := .stopped }))
    (hlistener : ∀ w, P w → w.listener = some t) (hw : P w) :
  Does setup overlap t (ApiServer.guardLifecycle ApiServer.enterStopped) (fun _ => P) w
  := by
  apply does_guardLifecycle hinv hstable hacquire hw (fun _ => hstable)
  exact fun w _ hw _ => ⟨.stops (hlistener w hw) rfl, id, hrelease w hw⟩

theorem trace_acquire :
  ((w.acquire t).trace t) = { w.trace t with found := w.lifecycle }
  := Function.update_self ..

/-- A `Run` whose listener has ended returns ok if the listener found the socket invalid. -/
theorem does_listenAfterBind (hinv : Unlocked overlap t w)
    (hw : Bound t (some true) w) :
  Does setup overlap t (ApiServer.listenAfterBind setup) (fun status w => RunReturns t w status) w
  := by
  have hreturns : ∀ {ret : Bool} {status : Status} (w : ApiHost Tid), Ended t ret w →
      (status = .ok () ↔ ret = true) → RunReturns t w status := by
    intro ret status w h hstatus
    rw [RunReturns, h.bound]
    refine ⟨?_, ?_, ?_⟩
    · rw [h.sawInvalid]
      apply hstatus
    · rw [h.sawInvalid]
      apply h.requested
    · intro hne
      apply h.acceptFailed
      cases ret with
      | false => rfl
      | true => exact absurd (hstatus.mpr rfl) hne
  apply does_bind (does_listenInternal hinv hw)
  intro ret w hinv hw
  apply does_bind (R := fun _ => Ended t ret)
  · apply does_enterStopped hinv (stable_ended overlap t ret) _ _ (fun _ h => h.listener) hw
    · intro w h
      constructor
      · apply h.listener
      · apply h.hasRun
      · rw [trace_acquire]
        apply h.bound
      · rw [trace_acquire]
        apply h.sawInvalid
      · apply h.requested
      · rw [trace_acquire]
        apply h.acceptFailed
    · exact fun w h => { h with listener := listener_release_stopped h.listener }
  · intro _ w hinv hw
    cases ret with
    | false =>
      apply does_pure hinv (stable_runReturns overlap t _)
      apply hreturns w hw
      exact iff_of_false (by rintro ⟨⟩) (by rintro ⟨⟩)
    | true =>
      apply does_pure hinv (stable_runReturns overlap t _)
      apply hreturns w hw
      exact iff_of_true rfl rfl

theorem does_bindAndListen (bindAddress : Bytes) (port : Int32)
    (hinv : Unlocked overlap t w) (hw : Binds t none w) (hbinds : w.binds = 0) :
  Does setup overlap t (ApiServer.bindAndListen setup bindAddress port)
    (fun status w => RunReturns t w status) w
  := by
  apply does_bind (does_bindToPort bindAddress port hinv hw hbinds)
  rintro bound w hinv ⟨hclaims, hbound⟩
  have hstable : Stable overlap t fun w => Claims t none w ∧ (bound = true → Bound t none w) :=
    fun w w' hrely h => ⟨stable_claims overlap t none w w' hrely h.1,
      fun htrue => stable_bound overlap t none w w' hrely (h.2 htrue)⟩
  apply does_call hinv hstable ⟨hclaims, hbound⟩ rfl
  · exact fun _ _ _ => trivial
  · rintro w _ _ _ ⟨hclaims, hbound⟩ hstep hinv
    cases hstep with
    | quiet hquiet => cases hquiet
    | bindReturned =>
      have hnoted : ((w.note t fun trace => { trace with bound := some bound }).trace t).bound =
          some bound := by rw [trace_note]
      cases bound with
      | true =>
        obtain ⟨hbinds, hsock⟩ := hbound rfl
        apply does_listenAfterBind hinv ⟨{ hbinds with bound := hnoted }, hsock⟩
      | false =>
        apply does_bind (R := fun _ => Claims t (some false))
        · apply does_enterStopped hinv (stable_claims overlap t (some false)) _ _
            (fun _ h => h.1) ⟨hclaims.1, hnoted⟩
          · intro w h
            use h.1
            rw [trace_acquire]
            apply h.2
          · exact fun w h => ⟨listener_release_stopped h.1, h.2⟩
        · intro _ w hinv hw
          apply does_pure hinv (stable_runReturns overlap t _)
          rw [RunReturns, hw.2]
          rintro ⟨⟩

theorem does_run (bindAddress : Bytes) (port : Int32) (hinv : Unlocked overlap t w)
    (hbound : (w.trace t).bound = none) :
  Does setup overlap t (ApiServer.run setup bindAddress port) (fun status w => RunReturns t w status) w
  := by
  have herror : ∀ message, Does setup overlap t (pure (.error message) : ServerProg Status)
      (fun status w => RunReturns t w status) w := by
    intro message
    apply does_pure hinv (stable_runReturns overlap t _)
    apply runReturns_unbound hbound
    rintro ⟨⟩
  unfold ApiServer.run
  split
  · apply herror
  · split
    · apply herror
    · apply does_bind (does_enterStarting hinv hbound)
      rintro (_ | status) w hinv h
      · apply does_bindAndListen bindAddress port hinv h.1 h.2
      · apply does_pure hinv (stable_runReturns overlap t status) h

/-- An operation returns as the contract says. -/
theorem does_program (operation : ServerOperation) (hinv : Unlocked overlap t w)
    (hbound : (w.trace t).bound = none) :
  Does setup overlap t (ApiServer.program setup operation) (fun reply w => Returns t w operation reply) w
  := by
  cases operation with
  | run bindAddress port => apply does_run bindAddress port hinv hbound
  | stop => apply does_stopServed hinv

theorem does_performNext (hinv : Unlocked overlap t w) :
  Does setup overlap t (ApiServer.performNext setup ()) (fun _ _ => True) w
  := by
  have hstable : Stable overlap t fun _ => True := fun _ _ _ => id
  have hpure : ∀ (r : Unit ⊕ Unit) (w : ApiHost Tid), Unlocked overlap t w →
      Does setup overlap t (pure r) (fun _ _ => True) w :=
    fun r w hinv => does_keep hinv hstable trivial
  apply does_quiet hinv hstable trivial rfl
  intro operation w hinv _
  cases operation with
  | none => apply hpure _ _ hinv
  | some operation =>
    apply does_call hinv hstable trivial rfl
    · exact fun _ hinv _ => hinv.mutex
    · intro w _ _ _ _ hstep hinv
      cases hstep with
      | quiet hquiet => cases hquiet
      | called =>
        apply does_bind (does_program operation hinv (by rw [trace_note]))
        intro reply w hinv hreturns
        apply does_call hinv (stable_returns overlap t operation reply) hreturns rfl
        · exact fun _ _ => id
        · exact fun _ _ w' _ _ _ hinv => hpure _ _ hinv

/-- Every thread keeps to the contract. -/
theorem safe_start (overlap : Prop) (setup : ApiSetup) :
  Threads.Safe (apiServers overlap) (contract overlap)
    (apiServersStart setup : ApiConfig Tid)
  := by
  intro t
  apply Prog.wp_repeatUntil (fun _ => Unlocked overlap t)
  · exact fun _ _ _ hrely h => h.rely hrely
  · exact ⟨inv_start overlap, by rintro ⟨⟩⟩
  · intro _ w hinv
    have hbody : Does setup overlap t (ApiServer.performNext setup ()) (fun _ _ => True) w :=
      does_performNext hinv
    apply Prog.wp_mono _ hbody.1
    rintro (_ | _) w ⟨-, hinv⟩
    · apply hinv
    · exact fun _ _ => trivial

variable {c : ApiConfig Tid}

/-- In every configuration that the threads reach, a call is made where its guard holds. -/
theorem permits_of_reaches (hreach : Threads.Reaches (apiServers overlap) (apiServersStart setup) c)
    {call : ServerCall} {k : call.Answer → ServerProg Unit} (hprog : c.progs t = .call call k) :
  Permits overlap t c.world call
  := (Threads.guard_of_reaches (respects overlap) (safe_start overlap setup) hreach hprog).2

/-- The invariant holds in every configuration that the threads reach. -/
theorem inv_of_reaches (hreach : Threads.Reaches (apiServers overlap) (apiServersStart setup) c) :
  c.world.Inv overlap
  := by
  refine Threads.invariant_of_reaches (respects overlap) (J := Inv overlap) ?_ ?_ ?_
    (safe_start overlap setup) (inv_start overlap) hreach
  · exact fun t call w a w' hguard hstep _ => inv_step hguard hstep
  · rintro w w' ⟨⟩
  · rintro t w w' ⟨⟩

end ApiHost

end OpcuaServer
