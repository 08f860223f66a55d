import OpcuaServer.Supervisor.ApiServerSystem

/-!
# What the threads of an API server keep

Only the thread that has set `kStarting` binds, listens and calls the start handler, and the others can
only take its socket from it (`ApiHost.Listens`). Once a `Stop` has tested `is_running_`, the start
handler will still come upon the request, or the socket is invalid, or the loop has been left
(`ApiHost.StopServed`).
-/

namespace OpcuaServer

namespace ApiHost

variable {Tid : Type}

/-- A stop has been requested, and where the start handler has not come upon the request, the socket
is invalid or the loop has been left. -/
def StopServed (w : ApiHost Tid) : Prop :=
  w.lifecycle.stopRequested = true ∧
    (w.handlerSaw = some false → w.svrSock = none ∨ w.loopLeft = true)

/-- Where the start handler has come upon a request, the socket is invalid or the loop has been
left. -/
def Handled (w : ApiHost Tid) : Prop :=
  ∃ saw, w.handlerSaw = some saw ∧ (saw = true → w.svrSock = none ∨ w.loopLeft = true)

/-- What holds between the calls of the threads. -/
structure Inv (overlap : Prop) (w : ApiHost Tid) : Prop where
  idle : w.lifecycle.lifecycleState = .idle → w.listener = none
  unbound : w.listener = none →
    w.binds = 0 ∧ w.svrSock = none ∧ w.isDecommissioned = false ∧ w.hasRun = false
  binds : w.binds ≤ 1
  fresh : w.hasRun = false →
    w.isRunning = false ∧ w.handlerSaw = none ∧ w.handlerReturned = false ∧ w.loopLeft = false
  ended : w.isRunning = false → w.handlerSaw ≠ none → w.loopLeft = true
  invalid : w.hasRun = true → w.svrSock = none → w.lifecycle.stopRequested = true
  taken : w.isRunning = true → w.svrSock = none → w.taken = true
  stopped : w.stopReturned = true → w.StopServed
  handled : w.handlerReturned = true → w.Handled
  asserting : ∀ t, w.asserting t = true → w.hasRun = true ∧ (w.svrSock = none → overlap)

theorem inv_start (overlap : Prop) :
  Inv overlap ({} : ApiHost Tid)
  where
  idle _ := rfl
  unbound _ := ⟨rfl, rfl, rfl, rfl⟩
  binds := Nat.zero_le 1
  fresh _ := ⟨rfl, rfl, rfl, rfl⟩
  ended _ h := absurd rfl h
  invalid := by rintro ⟨⟩
  taken := by rintro ⟨⟩
  stopped := by rintro ⟨⟩
  handled := by rintro ⟨⟩
  asserting := by rintro t ⟨⟩

/-- What a `Run` returns: an error, or ok if a stop had been requested before it would have bound, or
if its listener has found the socket invalid. The listener fails only if an `accept` has failed while
the socket was valid. -/
def RunReturns (t : Tid) (w : ApiHost Tid) (status : Status) : Prop :=
  match (w.trace t).bound with
  | none => status = .ok () → (w.trace t).found.stopRequested = true
  | some false => status ≠ .ok ()
  | some true => (status = .ok () ↔ (w.trace t).sawInvalid = true) ∧
      ((w.trace t).sawInvalid = true → w.lifecycle.stopRequested = true) ∧
      (status ≠ .ok () → (w.trace t).acceptFailed = true)

/-- What a thread makes sure of when an operation returns. -/
def Returns (t : Tid) (w : ApiHost Tid) : (operation : ServerOperation) → operation.Reply → Prop
  | .run _ _, status => RunReturns t w status
  | .stop, _ => w.StopServed

/-- What a thread may make of the members until it unlocks the mutex. -/
inductive Advances (t : Tid) (w : ApiHost Tid) (lifecycle : Lifecycle) : Prop where
  | same : lifecycle.lifecycleState = w.lifecycle.lifecycleState → Advances t w lifecycle
  | begins : w.lifecycle.lifecycleState = .idle → lifecycle.lifecycleState ≠ .idle →
      Advances t w lifecycle
  | runs : w.listener = some t → w.isRunning = true → w.handlerSaw = none →
      lifecycle.lifecycleState ≠ .idle → Advances t w lifecycle
  | stops : w.listener = some t → lifecycle.lifecycleState = .stopped → Advances t w lifecycle

/-- Where the calls of a thread may be made. -/
def Permits (overlap : Prop) (t : Tid) (w : ApiHost Tid) : ServerCall → Prop
  | .unlock lifecycle =>
      w.mutex = some t ∧ Advances t w lifecycle ∧
        (w.lifecycle.stopRequested = true → lifecycle.stopRequested = true)
  | .storeIsRunning true => w.listener = some t ∧ w.svrSock ≠ none ∧ w.handlerSaw = none
  | .storeIsRunning false => w.listener = some t ∧ w.hasRun = true ∧ w.loopLeft = true
  | .storeIsDecommissioned value => value = true → w.listener = some t
  | .storeSvrSock _ => w.listener = some t ∧ w.hasRun = false
  | .exchangeSvrSock => w.hasRun = true ∧ w.lifecycle.stopRequested = true
  | .createServerSocket _ _ => w.listener = some t ∧ w.binds = 0
  | .startHandlerReturned => w.listener = some t ∧ w.hasRun = true ∧ w.Handled
  | .shutdownTaskQueue => w.listener = some t ∧ w.hasRun = true
  | .returned operation reply => Returns t w operation reply
  | .assertSvrSock => w.svrSock = none → overlap
  | .assertionFailed => overlap
  | .lock | .called _ => w.mutex ≠ some t
  | _ => True

/-- Where the calls of a thread are made. -/
def Guard (overlap : Prop) (t : Tid) (call : ServerCall) (w : ApiHost Tid) : Prop :=
  w.Inv overlap ∧ Permits overlap t w call

/-- What is left to the thread that listens. -/
structure Listens (w w' : ApiHost Tid) : Prop where
  listener : w'.listener = w.listener
  state : w'.lifecycle.lifecycleState = w.lifecycle.lifecycleState
  binds : w'.binds = w.binds
  hasRun : w'.hasRun = w.hasRun
  isRunning : w'.isRunning = w.isRunning
  handlerSaw : w'.handlerSaw = w.handlerSaw
  handlerReturned : w'.handlerReturned = w.handlerReturned
  loopLeft : w'.loopLeft = w.loopLeft
  isDecommissioned : w.isDecommissioned = false → w'.isDecommissioned = false
  svrSock : w'.svrSock = w.svrSock ∨ (w.hasRun = true ∧ w'.svrSock = none)

/-- What is left to a thread by the others, and by a `stop()` of its own. -/
structure Frame (overlap : Prop) (t : Tid) (w w' : ApiHost Tid) : Prop where
  inv : w.Inv overlap → w'.Inv overlap
  mutex : w'.mutex = some t ↔ w.mutex = some t
  lifecycle : w.mutex = some t → w'.lifecycle = w.lifecycle
  stopRequested : w.lifecycle.stopRequested = true → w'.lifecycle.stopRequested = true
  trace : w'.trace t = w.trace t
  hasRun : w.hasRun = true → w'.hasRun = true
  invalid : w.hasRun = true → w.svrSock = none → w'.svrSock = none
  served : w.StopServed → w'.StopServed
  listens : w.listener = some t → Listens w w'

/-- What a thread relies on while the others move. -/
structure Rely (overlap : Prop) (t : Tid) (w w' : ApiHost Tid) : Prop
    extends Frame overlap t w w' where
  asserting : w'.asserting t = w.asserting t

variable {overlap : Prop} {t t' : Tid} {w w' w₁ w₂ w₃ : ApiHost Tid}

/-! ### Relations -/

theorem Listens.refl (w : ApiHost Tid) :
  Listens w w
  where
  listener := rfl
  state := rfl
  binds := rfl
  hasRun := rfl
  isRunning := rfl
  handlerSaw := rfl
  handlerReturned := rfl
  loopLeft := rfl
  isDecommissioned := id
  svrSock := .inl rfl

theorem Listens.trans (h₁ : Listens w₁ w₂) (h₂ : Listens w₂ w₃) :
  Listens w₁ w₃
  where
  listener := h₂.listener.trans h₁.listener
  state := h₂.state.trans h₁.state
  binds := h₂.binds.trans h₁.binds
  hasRun := h₂.hasRun.trans h₁.hasRun
  isRunning := h₂.isRunning.trans h₁.isRunning
  handlerSaw := h₂.handlerSaw.trans h₁.handlerSaw
  handlerReturned := h₂.handlerReturned.trans h₁.handlerReturned
  loopLeft := h₂.loopLeft.trans h₁.loopLeft
  isDecommissioned h := h₂.isDecommissioned (h₁.isDecommissioned h)
  svrSock := by
    rcases h₂.svrSock with heq | ⟨hrun, hnone⟩
    · rcases h₁.svrSock with heq' | ⟨hrun, hnone⟩
      · exact .inl (heq.trans heq')
      · exact .inr ⟨hrun, heq.trans hnone⟩
    · exact .inr ⟨h₁.hasRun.symm.trans hrun, hnone⟩

theorem Frame.refl (overlap : Prop) (t : Tid) (w : ApiHost Tid) :
  Frame overlap t w w
  where
  inv := id
  mutex := .rfl
  lifecycle _ := rfl
  stopRequested := id
  trace := rfl
  hasRun := id
  invalid _ h := h
  served := id
  listens _ := .refl w

theorem Frame.trans (h₁ : Frame overlap t w₁ w₂) (h₂ : Frame overlap t w₂ w₃) :
  Frame overlap t w₁ w₃
  where
  inv h := h₂.inv (h₁.inv h)
  mutex := h₂.mutex.trans h₁.mutex
  lifecycle h := (h₂.lifecycle (h₁.mutex.mpr h)).trans (h₁.lifecycle h)
  stopRequested h := h₂.stopRequested (h₁.stopRequested h)
  trace := h₂.trace.trans h₁.trace
  hasRun h := h₂.hasRun (h₁.hasRun h)
  invalid hrun h := h₂.invalid (h₁.hasRun hrun) (h₁.invalid hrun h)
  served h := h₂.served (h₁.served h)
  listens h := (h₁.listens h).trans (h₂.listens ((h₁.listens h).listener.trans h))

theorem Rely.refl (overlap : Prop) (t : Tid) (w : ApiHost Tid) :
  Rely overlap t w w
  where
  toFrame := .refl overlap t w
  asserting := rfl

theorem Rely.trans (h₁ : Rely overlap t w₁ w₂) (h₂ : Rely overlap t w₂ w₃) :
  Rely overlap t w₁ w₃
  where
  toFrame := h₁.toFrame.trans h₂.toFrame
  asserting := h₂.asserting.trans h₁.asserting

theorem frame_recommission (hinv : { w with isDecommissioned := false }.Inv overlap) :
  Frame overlap t w { w with isDecommissioned := false }
  := { Frame.refl overlap t w with
    inv := fun _ => hinv
    listens := fun _ => { Listens.refl w with isDecommissioned := fun _ => rfl } }

/-- A change of the thread that listens leaves the frame of the others. -/
theorem frame_listener (hne : t' ≠ t) (hlistener : w.listener = some t) (hinv : w'.Inv overlap)
    (hmutex : w'.mutex = w.mutex) (hlifecycle : w'.lifecycle = w.lifecycle)
    (htrace : w'.trace = w.trace) (hrun : w.hasRun = true → w'.hasRun = true)
    (hinvalid : w.hasRun = true → w.svrSock = none → w'.svrSock = none)
    (hserved : w.StopServed → w'.StopServed) :
  Frame overlap t' w w'
  where
  inv _ := hinv
  mutex := by rw [hmutex]
  lifecycle _ := hlifecycle
  stopRequested h := by
    rw [hlifecycle]
    apply h
  trace := by rw [htrace]
  hasRun := hrun
  invalid := hinvalid
  served := hserved
  listens h := absurd (Option.some.inj (h.symm.trans hlistener)) hne

/-! ### Unlocking the mutex -/

/-- The socket stays invalid once the listener has run, and the loop stays left. -/
theorem StopServed.of_eq (h : w.StopServed)
    (hrequested : w.lifecycle.stopRequested = true → w'.lifecycle.stopRequested = true)
    (hsaw : w'.handlerSaw = w.handlerSaw) (hsock : w.svrSock = none → w'.svrSock = none)
    (hleft : w.loopLeft = true → w'.loopLeft = true) :
  w'.StopServed
  := by
  use hrequested h.1
  rw [hsaw]
  intro hfalse
  exact (h.2 hfalse).imp hsock hleft

theorem Handled.of_eq (h : w.Handled) (hsaw : w'.handlerSaw = w.handlerSaw)
    (hsock : w.svrSock = none → w'.svrSock = none) (hleft : w.loopLeft = true → w'.loopLeft = true) :
  w'.Handled
  := by
  obtain ⟨saw, hw, htrue⟩ := h
  exact ⟨saw, hsaw.trans hw, fun h => (htrue h).imp hsock hleft⟩

/-- No other thread can come to listen. -/
theorem listenerAfter_of_ne (h : w.Inv overlap) (hne : w.listener ≠ none) {lifecycle : Lifecycle} :
  w.listenerAfter t lifecycle = w.listener
  := by
  rw [listenerAfter, if_neg]
  rintro ⟨hidle, -⟩
  exact hne (h.idle hidle)

theorem handlerSawAfter_of_eq {lifecycle : Lifecycle}
    (h : lifecycle.lifecycleState = w.lifecycle.lifecycleState) :
  w.handlerSawAfter lifecycle = w.handlerSaw
  := by
  rw [handlerSawAfter, if_neg]
  rintro ⟨hstarting, hrunning⟩
  rw [h, hstarting] at hrunning
  cases hrunning

/-- Only the start handler changes what it has read. -/
theorem handlerSawAfter_cases {lifecycle : Lifecycle} (h : Advances t w lifecycle) :
  w.handlerSawAfter lifecycle = w.handlerSaw ∨
    (w.listener = some t ∧ w.isRunning = true ∧ w.handlerSaw = none ∧
      w.handlerSawAfter lifecycle = some lifecycle.stopRequested)
  := by
  cases h with
  | same heq => exact .inl (handlerSawAfter_of_eq heq)
  | begins hidle =>
    left
    rw [handlerSawAfter, if_neg]
    rintro ⟨hstarting, -⟩
    cases hidle.symm.trans hstarting
  | runs hlistener hrunning hsaw =>
    by_cases hstate : w.lifecycle.lifecycleState = .starting ∧ lifecycle.lifecycleState = .running
    · right
      rw [handlerSawAfter, if_pos hstate]
      exact ⟨hlistener, hrunning, hsaw, rfl⟩
    · left
      rw [handlerSawAfter, if_neg hstate]
  | stops _ hstopped =>
    left
    rw [handlerSawAfter, if_neg]
    rintro ⟨-, hrunning⟩
    cases hstopped.symm.trans hrunning

/-- Unlocking the mutex keeps what a `Stop` has made sure of. -/
theorem StopServed.release (h : w.StopServed) {lifecycle : Lifecycle} (hadv : Advances t w lifecycle)
    (hrequested : w.lifecycle.stopRequested = true → lifecycle.stopRequested = true) :
  (w.release t lifecycle).StopServed
  := by
  rcases handlerSawAfter_cases hadv with hsaw | ⟨-, -, -, hsaw⟩
  · exact h.of_eq hrequested hsaw id id
  · use hrequested h.1
    intro hfalse
    cases (hrequested h.1).symm.trans (Option.some.inj (hsaw.symm.trans hfalse))

theorem inv_release (h : w.Inv overlap) {lifecycle : Lifecycle} (hadv : Advances t w lifecycle)
    (hrequested : w.lifecycle.stopRequested = true → lifecycle.stopRequested = true) :
  (w.release t lifecycle).Inv overlap
  where
  idle hidle := by
    cases hadv with
    | same heq =>
      have hnone := h.idle (heq.symm.trans hidle)
      apply Eq.trans _ hnone
      rw [ApiHost.release, listenerAfter, if_neg]
      rintro ⟨-, hstarting⟩
      cases hidle.symm.trans hstarting
    | begins _ hne | runs _ _ _ hne => exact absurd hidle hne
    | stops _ hstopped => cases hidle.symm.trans hstopped
  unbound hnone := h.unbound (by
    by_contra hne
    exact hne ((listenerAfter_of_ne h hne).symm.trans hnone))
  binds := h.binds
  fresh hfresh := by
    obtain ⟨hrunning, hsaw, hreturned, hleft⟩ := h.fresh hfresh
    refine ⟨hrunning, ?_, hreturned, hleft⟩
    rcases handlerSawAfter_cases hadv with heq | ⟨-, htrue, -⟩
    · exact heq.trans hsaw
    · cases hrunning.symm.trans htrue
  ended hrunning hne := by
    rcases handlerSawAfter_cases hadv with heq | ⟨-, htrue, -⟩
    · exact h.ended hrunning (heq ▸ hne)
    · cases hrunning.symm.trans htrue
  invalid hrun hsock := hrequested (h.invalid hrun hsock)
  taken := h.taken
  stopped hreturned := (h.stopped hreturned).release hadv hrequested
  handled hreturned := by
    obtain ⟨saw, hsaw, -⟩ := h.handled hreturned
    rcases handlerSawAfter_cases hadv with heq | ⟨-, -, hnone, -⟩
    · exact (h.handled hreturned).of_eq heq id id
    · cases hnone.symm.trans hsaw
  asserting := h.asserting

theorem listens_release (h : w.Inv overlap) (hne : t' ≠ t) (hlistener : w.listener = some t')
    {lifecycle : Lifecycle} (hadv : Advances t w lifecycle) :
  Listens w (w.release t lifecycle)
  := by
  have hother : w.listener ≠ some t := by
    rw [hlistener]
    exact fun heq => hne (Option.some.inj heq)
  have hsome : w.listener ≠ none := by
    rw [hlistener]
    rintro ⟨⟩
  exact { Listens.refl w with
    listener := listenerAfter_of_ne h hsome
    state := by
      cases hadv with
      | same heq => apply heq
      | begins hidle => exact absurd (h.idle hidle) hsome
      | runs ht | stops ht => exact absurd ht hother
    handlerSaw := by
      rcases handlerSawAfter_cases hadv with heq | ⟨ht, -⟩
      · apply heq
      · exact absurd ht hother }

theorem frame_release (h : w.Inv overlap) (hne : t' ≠ t) (hmutex : w.mutex = some t)
    {lifecycle : Lifecycle} (hadv : Advances t w lifecycle)
    (hrequested : w.lifecycle.stopRequested = true → lifecycle.stopRequested = true) :
  Frame overlap t' w (w.release t lifecycle)
  := by
  have hother : w.mutex ≠ some t' := by
    rw [hmutex]
    exact fun heq => hne (Option.some.inj heq).symm
  exact { Frame.refl overlap t' w with
    inv := fun _ => inv_release h hadv hrequested
    mutex := iff_of_false (by rintro ⟨⟩) hother
    lifecycle := fun ht => absurd ht hother
    stopRequested := hrequested
    served := fun hserved => hserved.release hadv hrequested
    listens := fun hlistener => listens_release h hne hlistener hadv }

/-! ### Steps -/

section

variable [DecidableEq Tid]

theorem inv_test (h : w.Inv overlap) (htaken : w.taken = true → overlap) :
  (w.test t).Inv overlap
  := { h with
    asserting := by
      intro t' htrue
      by_cases heq : t' = t
      · subst heq
        have hrunning : w.isRunning = true := (Function.update_self ..).symm.trans htrue
        constructor
        · by_contra hne
          cases (h.fresh (Bool.eq_false_iff.mpr hne)).1.symm.trans hrunning
        · exact fun hsock => htaken (h.taken hrunning hsock)
      · apply h.asserting t'
        rw [← htrue]
        exact (Function.update_of_ne heq ..).symm }

/-- A thread that has come past its assertion is not about to evaluate it; the others still are. -/
theorem asserting_pass (h : (w.pass t).asserting t' = true) :
  t' ≠ t ∧ w.asserting t' = true
  := by
  by_cases heq : t' = t
  · subst heq
    cases (Function.update_self ..).symm.trans h
  · exact ⟨heq, (Function.update_of_ne heq ..).symm.trans h⟩

theorem inv_pass (h : w.Inv overlap) :
  (w.pass t).Inv overlap
  := { h with
    asserting := fun t' htrue => h.asserting t' (asserting_pass htrue).2 }

theorem inv_take (h : w.Inv overlap) (hrun : w.hasRun = true)
    (hrequested : w.lifecycle.stopRequested = true)
    (hoverlap : ∀ t', t' ≠ t → w.asserting t' = true → overlap) :
  (w.take t).Inv overlap
  := { inv_pass (t := t) h with
    unbound := by
      intro hnone
      cases hrun.symm.trans (h.unbound hnone).2.2.2
    invalid := fun _ _ => hrequested
    taken := fun hrunning _ => hrunning
    stopped := fun _ => ⟨hrequested, fun _ => .inl rfl⟩
    handled := by
      intro hreturned
      obtain ⟨saw, hsaw, -⟩ := h.handled hreturned
      exact ⟨saw, hsaw, fun _ => .inl rfl⟩
    asserting := by
      intro t' htrue
      obtain ⟨hne, hasserting⟩ := asserting_pass htrue
      exact ⟨hrun, fun _ => hoverlap t' hne hasserting⟩ }

/-- A call that is made where its guard holds keeps the invariant. -/
theorem inv_step {call : ServerCall} {a : call.Answer} (hguard : Guard overlap t call w)
    (hstep : Step overlap t call w a w') :
  w'.Inv overlap
  := by
  obtain ⟨h, hpermits⟩ := hguard
  cases hstep with
  | quiet | loadIsDecommissioned | loadSvrSock => apply h
  | called | lock | svrSockValid | bindReturned | accept => exact { h with }
  | @returned _ operation reply =>
    cases operation with
    | run => apply h
    | stop => exact { h with stopped := fun _ => hpermits }
  | unlock =>
    obtain ⟨-, hadv, hrequested⟩ := hpermits
    apply inv_release h hadv hrequested
  | loadIsRunning htaken => apply inv_test h htaken
  | @storeIsRunning _ value =>
    cases value with
    | false =>
      obtain ⟨hlistener, hrun, hleft⟩ := hpermits
      exact { h with
        unbound := fun hnone => by cases hlistener.symm.trans hnone
        fresh := fun hfresh => by cases hrun.symm.trans ((Bool.or_false _).symm.trans hfresh)
        ended := fun _ _ => hleft
        invalid := fun _ => h.invalid hrun
        taken := by rintro ⟨⟩
        asserting := fun t' htrue => ⟨(Bool.or_false _).trans hrun, (h.asserting t' htrue).2⟩ }
    | true =>
      obtain ⟨hlistener, hsock, hsaw⟩ := hpermits
      exact { h with
        unbound := fun hnone => by cases hlistener.symm.trans hnone
        fresh := fun hfresh => by cases (Bool.or_true _).symm.trans hfresh
        ended := by rintro ⟨⟩
        invalid := fun _ hnone => absurd hnone hsock
        taken := fun _ hnone => absurd hnone hsock
        asserting := fun t' htrue => ⟨Bool.or_true _, (h.asserting t' htrue).2⟩ }
  | @storeIsDecommissioned _ value =>
    exact { h with
      unbound := by
        intro hnone
        obtain ⟨hbinds, hsock, hdecommissioned, hrun⟩ := h.unbound hnone
        refine ⟨hbinds, hsock, ?_, hrun⟩
        cases value with
        | false => rfl
        | true => cases (hpermits rfl).symm.trans hnone }
  | assertSvrSock => apply inv_pass h
  | storeSvrSock =>
    obtain ⟨hlistener, hrun⟩ := hpermits
    obtain ⟨hrunning, hsaw, hreturned, -⟩ := h.fresh hrun
    exact { h with
      unbound := fun hnone => by cases hlistener.symm.trans hnone
      invalid := fun htrue => by cases hrun.symm.trans htrue
      taken := fun htrue => by cases hrunning.symm.trans htrue
      stopped := fun hstopped =>
        ⟨(h.stopped hstopped).1, fun hfalse => by cases hsaw.symm.trans hfalse⟩
      handled := fun htrue => by cases hreturned.symm.trans htrue
      asserting := fun t' htrue => by cases hrun.symm.trans (h.asserting t' htrue).1 }
  | exchangeSvrSock hoverlap => apply inv_take h hpermits.1 hpermits.2 hoverlap
  | createServerSocket =>
    obtain ⟨hlistener, hbinds⟩ := hpermits
    exact { h with
      unbound := fun hnone => by cases hlistener.symm.trans hnone
      binds := by
        change w.binds + 1 ≤ 1
        rw [hbinds] }
  | startHandlerReturned =>
    obtain ⟨-, hrun, hhandled⟩ := hpermits
    exact { h with
      fresh := fun hfresh => by cases hrun.symm.trans hfresh
      handled := fun _ => hhandled }
  | shutdownTaskQueue =>
    obtain ⟨-, hrun⟩ := hpermits
    exact { h with
      fresh := fun hfresh => by cases hrun.symm.trans hfresh
      ended := fun _ _ => rfl
      stopped := fun hstopped => (h.stopped hstopped).of_eq id rfl id fun _ => rfl
      handled := fun hreturned => (h.handled hreturned).of_eq rfl id fun _ => rfl }

/-! ### Frames -/

/-- The `stop()` of any thread leaves the frame of any thread, its own included. -/
theorem frame_test (hinv : (w.test t').Inv overlap) :
  Frame overlap t w (w.test t')
  := { Frame.refl overlap t w with
    inv := fun _ => hinv
    listens := fun _ => { Listens.refl w with } }

theorem frame_pass (hinv : (w.pass t').Inv overlap) :
  Frame overlap t w (w.pass t')
  := { Frame.refl overlap t w with
    inv := fun _ => hinv
    listens := fun _ => { Listens.refl w with } }

theorem frame_take (hinv : (w.take t').Inv overlap) (hrun : w.hasRun = true) :
  Frame overlap t w (w.take t')
  := { Frame.refl overlap t w with
    inv := fun _ => hinv
    invalid := fun _ _ => rfl
    served := fun h => ⟨h.1, fun _ => .inl rfl⟩
    listens := fun _ => { Listens.refl w with svrSock := .inr ⟨hrun, rfl⟩ } }

theorem frame_note (hne : t' ≠ t) {f : RunTrace → RunTrace} (hinv : (w.note t f).Inv overlap) :
  Frame overlap t' w (w.note t f)
  := { Frame.refl overlap t' w with
    inv := fun _ => hinv
    trace := Function.update_of_ne hne ..
    listens := fun _ => { Listens.refl w with } }

theorem frame_acquire (hne : t' ≠ t) (hinv : (w.acquire t).Inv overlap) (hfree : w.mutex = none) :
  Frame overlap t' w (w.acquire t)
  := { Frame.refl overlap t' w with
    inv := fun _ => hinv
    mutex := by
      rw [hfree]
      exact iff_of_false (fun h => hne (Option.some.inj h).symm) (by rintro ⟨⟩)
    trace := Function.update_of_ne hne ..
    listens := fun _ => { Listens.refl w with } }

/-- A call that is made where its guard holds leaves the frame of the other threads. -/
theorem frame_step {call : ServerCall} {a : call.Answer} (hne : t' ≠ t)
    (hguard : Guard overlap t call w) (hstep : Step overlap t call w a w') :
  Frame overlap t' w w'
  := by
  have hinv := inv_step hguard hstep
  obtain ⟨h, hpermits⟩ := hguard
  cases hstep with
  | quiet | loadIsDecommissioned | loadSvrSock => apply Frame.refl
  | called | svrSockValid | bindReturned | accept => apply frame_note hne hinv
  | @returned _ operation reply =>
    cases operation with
    | run => apply Frame.refl
    | stop =>
      exact { Frame.refl overlap t' w with
        inv := fun _ => hinv
        listens := fun _ => { Listens.refl w with } }
  | lock hfree => apply frame_acquire hne hinv hfree
  | unlock =>
    obtain ⟨hmutex, hadv, hrequested⟩ := hpermits
    apply frame_release h hne hmutex hadv hrequested
  | loadIsRunning => apply frame_test hinv
  | @storeIsRunning _ value =>
    have hlistener : w.listener = some t := by
      cases value <;> apply hpermits.1
    apply frame_listener hne hlistener hinv rfl rfl rfl
    · intro hrun
      change (w.hasRun || value) = true
      rw [hrun, Bool.true_or]
    · exact fun _ => id
    · exact id
  | @storeIsDecommissioned _ value =>
    cases value with
    | false => apply frame_recommission hinv
    | true =>
      apply frame_listener hne (hpermits rfl) hinv rfl rfl rfl id
      · exact fun _ => id
      · exact id
  | assertSvrSock => apply frame_pass hinv
  | storeSvrSock =>
    obtain ⟨hlistener, hrun⟩ := hpermits
    obtain ⟨-, hsaw, -, -⟩ := h.fresh hrun
    apply frame_listener hne hlistener hinv rfl rfl rfl id
    · intro htrue
      cases hrun.symm.trans htrue
    · exact fun hserved => ⟨hserved.1, fun hfalse => by cases hsaw.symm.trans hfalse⟩
  | exchangeSvrSock => apply frame_take hinv hpermits.1
  | createServerSocket =>
    apply frame_listener hne hpermits.1 hinv rfl rfl rfl id
    · exact fun _ => id
    · exact id
  | startHandlerReturned =>
    apply frame_listener hne hpermits.1 hinv rfl rfl rfl id
    · exact fun _ => id
    · exact id
  | shutdownTaskQueue =>
    apply frame_listener hne hpermits.1 hinv rfl rfl rfl id
    · exact fun _ => id
    · exact fun hserved => hserved.of_eq id rfl id fun _ => rfl

/-- No call of a thread changes whether another one is about to evaluate its assertion. -/
theorem asserting_step {call : ServerCall} {a : call.Answer} (hne : t' ≠ t)
    (hstep : Step overlap t call w a w') :
  w'.asserting t' = w.asserting t'
  := by
  cases hstep with
  | loadIsRunning | assertSvrSock | exchangeSvrSock => apply Function.update_of_ne hne
  | @returned _ operation reply => cases operation <;> rfl
  | _ => rfl

/-- What the threads of an API server rely on, and where they make their calls. -/
def contract (overlap : Prop) : Threads.Contract Tid ServerCall (ApiHost Tid) where
  rely := Rely overlap
  guard := Guard overlap

theorem respects (overlap : Prop) :
  Threads.Respects (apiServers overlap)
    (contract overlap : Threads.Contract Tid ServerCall (ApiHost Tid))
  where
  refl := Rely.refl overlap
  trans _ _ _ _ := Rely.trans
  step hne hguard hstep := ⟨frame_step hne hguard hstep, asserting_step hne hstep⟩
  env := by rintro t w w' ⟨⟩
  halt := by rintro t t' w w' _ ⟨⟩

end

end ApiHost

end OpcuaServer
