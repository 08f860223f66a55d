import OpcuaServer.Library.Termination
import OpcuaServer.Supervisor.ApiServerContract

/-!
# Rules for the programs of an API server

`ApiHost.Does` says that a program of a thread makes its calls where their guards hold and ends as a
postcondition says, and that it does end if a `Stop` returns. There is a rule for each way in which a
program goes on: with a call, with a program under the mutex, and with another program.
-/

namespace OpcuaServer

namespace ApiHost

variable {Tid : Type} {overlap : Prop} {t : Tid} {w w' : ApiHost Tid} {α β : Type}

/-- What holds between the calls of a thread that does not hold the mutex. -/
structure Unlocked (overlap : Prop) (t : Tid) (w : ApiHost Tid) : Prop extends Inv overlap w where
  mutex : w.mutex ≠ some t

theorem Unlocked.rely (h : Unlocked overlap t w) (hrely : Rely overlap t w w') :
  Unlocked overlap t w'
  where
  toInv := hrely.inv h.toInv
  mutex hmutex := h.mutex (hrely.mutex.mp hmutex)

/-- A host after another thread has called `Stop`. -/
def afterStop (w : ApiHost Tid) : ApiHost Tid :=
  { w with
    mutex := none
    lifecycle := { w.lifecycle with stopRequested := true }
    svrSock := if w.hasRun then none else w.svrSock
    stopReturned := true
    taken := true }

theorem inv_afterStop (h : w.Inv overlap) (hoverlap : overlap) :
  w.afterStop.Inv overlap
  := by
  have hrun : w.handlerSaw ≠ none → w.afterStop.svrSock = none := by
    intro hsaw
    apply if_pos
    by_contra hfresh
    exact hsaw (h.fresh (Bool.eq_false_iff.mpr hfresh)).2.1
  exact { h with
    unbound := by
      intro hnone
      obtain ⟨hbinds, hsock, hdecommissioned, hfresh⟩ := h.unbound hnone
      refine ⟨hbinds, ?_, hdecommissioned, hfresh⟩
      rw [afterStop, hsock, ite_self]
    invalid := fun _ _ => rfl
    taken := fun _ _ => rfl
    stopped := fun _ => ⟨rfl, fun hsaw => .inl (hrun (by
      rw [show w.handlerSaw = some false from hsaw]
      rintro ⟨⟩))⟩
    handled := by
      intro hreturned
      obtain ⟨saw, hsaw, -⟩ := h.handled hreturned
      refine ⟨saw, hsaw, fun _ => .inl (hrun ?_)⟩
      rw [hsaw]
      rintro ⟨⟩
    asserting := fun t htrue => ⟨(h.asserting t htrue).1, fun _ => hoverlap⟩ }

/-- Another thread can call `Stop` where the thread does not hold the mutex. -/
theorem rely_afterStop (h : Unlocked overlap t w) (hoverlap : overlap) :
  Rely overlap t w w.afterStop
  where
  inv hinv := inv_afterStop hinv hoverlap
  mutex := iff_of_false (by rintro ⟨⟩) h.mutex
  lifecycle hmutex := absurd hmutex h.mutex
  stopRequested _ := rfl
  trace := rfl
  hasRun := id
  invalid _ hsock := by rw [afterStop, hsock, ite_self]
  served _ := (inv_afterStop h.toInv hoverlap).stopped rfl
  listens _ := { Listens.refl w with
    svrSock := by
      cases hrun : w.hasRun with
      | false =>
        left
        rw [afterStop, hrun]
        rfl
      | true =>
        right
        rw [afterStop, hrun]
        exact ⟨rfl, rfl⟩ }
  asserting := rfl

variable [DecidableEq Tid]

/-- A call of a thread that has made `s.1` calls, before which the others have moved. Before the
`k`-th call a `Stop` has returned, unless the thread holds the mutex. -/
def CallsBy (overlap : Prop) (k : ℕ) (t : Tid) (call : ServerCall) (s : ℕ × ApiHost Tid)
    (a : call.Answer) (s' : ℕ × ApiHost Tid) : Prop :=
  s'.1 = s.1 + 1 ∧ ∃ w, Rely overlap t s.2 w ∧
    (k ≤ s.1 → w.mutex ≠ some t → w.stopReturned = true) ∧ Step overlap t call w a s'.2

/-- A program of a thread makes its calls where their guards hold, and ends as `Q` says. Where no
assertion is compiled in, it does end if a `Stop` returns. -/
def Does (setup : ApiSetup) (overlap : Prop) (t : Tid) (p : ServerProg α)
    (Q : α → ApiHost Tid → Prop) (w : ApiHost Tid) : Prop :=
  p.wp (Step overlap t) (Rely overlap t) (Guard overlap t)
    (fun a w => Q a w ∧ Unlocked overlap t w) w ∧
  (setup.assertions = false → overlap → ∀ k n,
    Prog.EndsIn (CallsBy overlap k t) (fun a s => Q a s.2 ∧ Unlocked overlap t s.2) p (n, w))

/-- What the other threads keep. -/
def Stable (overlap : Prop) (t : Tid) (P : ApiHost Tid → Prop) : Prop :=
  ∀ w w', Rely overlap t w w' → P w → P w'

variable {setup : ApiSetup} {Q : α → ApiHost Tid → Prop} {P : ApiHost Tid → Prop}

theorem does_mono {p : ServerProg α} {Q' : α → ApiHost Tid → Prop}
    (hQ : ∀ a w, Unlocked overlap t w → Q a w → Q' a w) (h : Does setup overlap t p Q w) :
  Does setup overlap t p Q' w
  := by
  constructor
  · exact Prog.wp_mono (fun a w hq => ⟨hQ a w hq.2 hq.1, hq.2⟩) h.1
  · exact fun hassertions hoverlap k n =>
      (h.2 hassertions hoverlap k n).mono fun a s hq => ⟨hQ a s.2 hq.2 hq.1, hq.2⟩

theorem does_bind {p : ServerProg β} {f : β → ServerProg α} {R : β → ApiHost Tid → Prop}
    (hp : Does setup overlap t p R w)
    (hf : ∀ b w, Unlocked overlap t w → R b w → Does setup overlap t (f b) Q w) :
  Does setup overlap t (p >>= f) Q w
  := by
  constructor
  · apply Prog.wp_bind (Rely.refl overlap t)
    apply Prog.wp_mono _ hp.1
    exact fun b w hr => (hf b w hr.2 hr.1).1
  · intro hassertions hoverlap k n
    apply Prog.EndsIn.bind
    apply (hp.2 hassertions hoverlap k n).mono
    exact fun b s hr => (hf b s.2 hr.2 hr.1).2 hassertions hoverlap k s.1

theorem does_pure {a : α} (hinv : Unlocked overlap t w) (hstable : Stable overlap t (Q a))
    (hw : Q a w) :
  Does setup overlap t (pure a : ServerProg α) Q w
  := ⟨fun w' hrely => ⟨hstable w w' hrely hw, hinv.rely hrely⟩, fun _ _ _ _ => .ret ⟨hw, hinv⟩⟩

/-- A program that ends where something stable holds. -/
theorem does_keep {a : α} (hinv : Unlocked overlap t w) (hstable : Stable overlap t P) (hw : P w) :
  Does setup overlap t (pure a : ServerProg α) (fun _ => P) w
  := does_pure hinv hstable hw

/-! ### Calls -/

/-- The calls that are not always answered. -/
def blocks : ServerCall → Bool
  | .lock | .unlock _ | .assertionFailed => true
  | _ => false

theorem unlocked_step {call : ServerCall} {a : call.Answer} (hblocks : blocks call = false)
    (h : Unlocked overlap t w) (hpermits : Permits overlap t w call)
    (hstep : Step overlap t call w a w') :
  Unlocked overlap t w'
  where
  toInv := inv_step ⟨h.toInv, hpermits⟩ hstep
  mutex := by
    cases hstep with
    | lock | unlock => cases hblocks
    | @returned _ operation => cases operation <;> exact h.mutex
    | _ => exact h.mutex

theorem exists_step {call : ServerCall} (hblocks : blocks call = false) (hoverlap : overlap)
    (w : ApiHost Tid) :
  ∃ a w', Step overlap t call w a w'
  := by
  cases call with
  | lock | unlock | assertionFailed => cases hblocks
  | nextOperation => exact ⟨none, _, .quiet rfl⟩
  | getsockname => exact ⟨.failed, _, .quiet rfl⟩
  | selectRead => exact ⟨0, _, .quiet rfl⟩
  | enqueue => exact ⟨true, _, .quiet rfl⟩
  | shutdownSocket | closeSocket | newTaskQueue | onIdle => exact ⟨(), _, .quiet rfl⟩
  | called => exact ⟨(), _, .called⟩
  | returned => exact ⟨(), _, .returned⟩
  | loadIsRunning => exact ⟨_, _, .loadIsRunning fun _ => hoverlap⟩
  | storeIsRunning => exact ⟨(), _, .storeIsRunning⟩
  | loadIsDecommissioned => exact ⟨_, _, .loadIsDecommissioned⟩
  | storeIsDecommissioned => exact ⟨(), _, .storeIsDecommissioned⟩
  | loadSvrSock => exact ⟨_, _, .loadSvrSock⟩
  | svrSockValid => exact ⟨_, _, .svrSockValid⟩
  | assertSvrSock => exact ⟨_, _, .assertSvrSock⟩
  | storeSvrSock => exact ⟨(), _, .storeSvrSock⟩
  | exchangeSvrSock => exact ⟨_, _, .exchangeSvrSock fun _ _ _ => hoverlap⟩
  | createServerSocket => exact ⟨none, _, .createServerSocket⟩
  | bindReturned => exact ⟨(), _, .bindReturned⟩
  | startHandlerReturned => exact ⟨(), _, .startHandlerReturned⟩
  | accept => exact ⟨.failed .other, _, .accept⟩
  | shutdownTaskQueue => exact ⟨(), _, .shutdownTaskQueue⟩

theorem exists_callsBy {call : ServerCall} (hblocks : blocks call = false) (hoverlap : overlap)
    (h : Unlocked overlap t w) (k n : ℕ) :
  ∃ a s', CallsBy overlap k t call (n, w) a s'
  := by
  obtain ⟨a, w', hstep⟩ := exists_step (t := t) hblocks hoverlap w.afterStop
  exact ⟨a, (n + 1, w'), rfl, w.afterStop, rely_afterStop h hoverlap, fun _ _ => rfl, hstep⟩

/-- A call is made where what was stable before it holds. -/
theorem does_call {call : ServerCall} {f : call.Answer → ServerProg α} (hinv : Unlocked overlap t w)
    (hstable : Stable overlap t P) (hw : P w) (hblocks : blocks call = false)
    (hpermits : ∀ w, Unlocked overlap t w → P w → Permits overlap t w call)
    (hf : ∀ w a w', Unlocked overlap t w → P w → Step overlap t call w a w' →
      Unlocked overlap t w' → Does setup overlap t (f a) Q w') :
  Does setup overlap t (serverCall call >>= f) Q w
  := by
  have hcall : ∀ w₁ a w₂, Rely overlap t w w₁ → Step overlap t call w₁ a w₂ →
      Does setup overlap t (f a) Q w₂ := by
    intro w₁ a w₂ hrely hstep
    have hinv₁ := hinv.rely hrely
    have hw₁ := hstable w w₁ hrely hw
    apply hf w₁ a w₂ hinv₁ hw₁ hstep
    apply unlocked_step hblocks hinv₁ (hpermits w₁ hinv₁ hw₁) hstep
  constructor
  · intro w₁ hrely
    have hinv₁ := hinv.rely hrely
    refine ⟨⟨hinv₁.toInv, hpermits w₁ hinv₁ (hstable w w₁ hrely hw)⟩, ?_⟩
    exact fun a w₂ hstep => (hcall w₁ a w₂ hrely hstep).1
  · intro hassertions hoverlap k n
    apply Prog.EndsIn.call (exists_callsBy hblocks hoverlap hinv k n)
    rintro a s ⟨-, w₁, hrely, -, hstep⟩
    apply (hcall w₁ a s.2 hrely hstep).2 hassertions hoverlap

/-- A call that affects nothing of the server. -/
theorem does_quiet {call : ServerCall} {f : call.Answer → ServerProg α}
    (hinv : Unlocked overlap t w) (hstable : Stable overlap t P) (hw : P w)
    (hquiet : quiet call = true)
    (hf : ∀ a w, Unlocked overlap t w → P w → Does setup overlap t (f a) Q w) :
  Does setup overlap t (serverCall call >>= f) Q w
  := by
  apply does_call hinv hstable hw
  · cases call <;> first | rfl | cases hquiet
  · intro w _ _
    cases call <;> trivial
  · intro w a w' _ hw hstep hinv'
    cases hstep with
    | quiet => apply hf a w hinv' hw
    | _ => cases hquiet

theorem does_loadSvrSock {f : Option Socket → ServerProg α} (hinv : Unlocked overlap t w)
    (hstable : Stable overlap t P) (hw : P w)
    (hf : ∀ sock w, Unlocked overlap t w → P w → Does setup overlap t (f sock) Q w) :
  Does setup overlap t (serverCall .loadSvrSock >>= f) Q w
  := by
  apply does_call hinv hstable hw rfl
  · exact fun _ _ _ => trivial
  · intro w _ _ _ hw hstep hinv'
    cases hstep with
    | quiet hquiet => cases hquiet
    | loadSvrSock => apply hf _ w hinv' hw

@[simp]
theorem trace_note (w : ApiHost Tid) (t : Tid) (f : RunTrace → RunTrace) :
  (w.note t f).trace t = f (w.trace t)
  := Function.update_self ..

/-- A comparison of `svr_sock_` with `INVALID_SOCKET` is noted. -/
theorem does_svrSockValid {f : Bool → ServerProg α} (hinv : Unlocked overlap t w)
    (hstable : Stable overlap t P) (hw : P w)
    (hf : ∀ valid w, Unlocked overlap t w → P w → (valid = true ↔ w.svrSock ≠ none) →
      Unlocked overlap t (w.note t fun trace => { trace with sawInvalid := !valid }) →
      Does setup overlap t (f valid) Q
        (w.note t fun trace => { trace with sawInvalid := !valid })) :
  Does setup overlap t (serverCall .svrSockValid >>= f) Q w
  := by
  apply does_call hinv hstable hw rfl
  · exact fun _ _ _ => trivial
  · intro w _ _ hinv hw hstep hinv'
    cases hstep with
    | quiet hquiet => cases hquiet
    | svrSockValid =>
      rw [← Option.not_isSome] at hinv' ⊢
      apply hf _ w hinv hw Option.isSome_iff_ne_none hinv'

/-! ### The mutex -/

/-- A program under the mutex. -/
theorem does_guardLifecycle {p : StateM Lifecycle α} (hinv : Unlocked overlap t w)
    (hstable : Stable overlap t P) (hacquire : ∀ w, P w → P (w.acquire t)) (hw : P w)
    (hstableQ : ∀ a, Stable overlap t (Q a))
    (hrelease : ∀ w, w.Inv overlap → P w → (w.trace t).found = w.lifecycle →
      Advances t w (p.run w.lifecycle).2 ∧
      (w.lifecycle.stopRequested = true → (p.run w.lifecycle).2.stopRequested = true) ∧
      Q (p.run w.lifecycle).1 (w.release t (p.run w.lifecycle).2)) :
  Does setup overlap t (ApiServer.guardLifecycle p) Q w
  := by
  have hheld : ∀ w₁ w₂, Rely overlap t w w₁ → w₁.mutex = none → Rely overlap t (w₁.acquire t) w₂ →
      Guard overlap t (.unlock (p.run w₁.lifecycle).2) w₂ ∧
      Q (p.run w₁.lifecycle).1 (w₂.release t (p.run w₁.lifecycle).2) := by
    intro w₁ w₂ hrely₁ hfree hrely₂
    have hinv₁ := hinv.rely hrely₁
    have hguard : Guard overlap t .lock w₁ := ⟨hinv₁.toInv, hinv₁.mutex⟩
    have hacquired : (w₁.acquire t).Inv overlap := inv_step hguard (.lock hfree)
    have hinv₂ := hrely₂.inv hacquired
    have hw₂ := hstable _ w₂ hrely₂ (hacquire w₁ (hstable w w₁ hrely₁ hw))
    have hlifecycle : w₂.lifecycle = w₁.lifecycle := hrely₂.lifecycle rfl
    have hfound : (w₂.trace t).found = w₂.lifecycle := by
      rw [hrely₂.trace, hlifecycle]
      change (Function.update w₁.trace t _ t).found = _
      rw [Function.update_self]
    have hreleased := hrelease w₂ hinv₂ hw₂ hfound
    rw [hlifecycle] at hreleased
    obtain ⟨hadv, hrequested, hQ⟩ := hreleased
    exact ⟨⟨hinv₂, hrely₂.mutex.mpr rfl, hadv, hlifecycle ▸ hrequested⟩, hQ⟩
  have hunlocked : ∀ w₂ lifecycle, Guard overlap t (.unlock lifecycle) w₂ →
      Unlocked overlap t (w₂.release t lifecycle) := by
    intro w₂ lifecycle hguard
    refine ⟨inv_step (a := ()) hguard (.unlock hguard.2.1), ?_⟩
    rintro ⟨⟩
  constructor
  · intro w₁ hrely₁
    have hinv₁ := hinv.rely hrely₁
    refine ⟨⟨hinv₁.toInv, hinv₁.mutex⟩, ?_⟩
    intro lifecycle _ hstep w₂ hrely₂
    cases hstep with
    | quiet hquiet => cases hquiet
    | lock hfree =>
      obtain ⟨hguard, hQ⟩ := hheld w₁ w₂ hrely₁ hfree hrely₂
      use hguard
      intro _ _ hstep w₃ hrely₃
      cases hstep with
      | quiet hquiet => cases hquiet
      | unlock => exact ⟨hstableQ _ _ _ hrely₃ hQ, (hunlocked w₂ _ hguard).rely hrely₃⟩
  · intro _ hoverlap k n
    have hlock : Step overlap t .lock w.afterStop w.afterStop.lifecycle (w.afterStop.acquire t) :=
      .lock rfl
    apply Prog.EndsIn.call
      ⟨_, (n + 1, _), rfl, _, rely_afterStop hinv hoverlap, fun _ _ => rfl, hlock⟩
    rintro lifecycle ⟨n₁, w₁'⟩ ⟨-, w₁, hrely₁, -, hstep⟩
    cases hstep with
    | quiet hquiet => cases hquiet
    | lock hfree =>
      have hmutex : (w₁.acquire t).mutex = some t := rfl
      have hunlock : Step overlap t (.unlock (p.run w₁.lifecycle).2) (w₁.acquire t) ()
          ((w₁.acquire t).release t (p.run w₁.lifecycle).2) := .unlock hmutex
      apply Prog.EndsIn.call
      · exact ⟨(), (n₁ + 1, _), rfl, _, .refl .., fun _ hne => absurd hmutex hne, hunlock⟩
      · rintro _ ⟨n₂, w₂'⟩ ⟨-, w₂, hrely₂, -, hstep⟩
        obtain ⟨hguard, hQ⟩ := hheld w₁ w₂ hrely₁ hfree hrely₂
        cases hstep with
        | quiet hquiet => cases hquiet
        | unlock => exact .ret ⟨hQ, hunlocked w₂ _ hguard⟩

end ApiHost

end OpcuaServer
