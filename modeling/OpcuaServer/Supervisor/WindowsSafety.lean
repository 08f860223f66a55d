import OpcuaServer.Supervisor.WindowsRuns

/-!
# Runs of a controller on Windows

In every configuration that a client of the controller reaches, each call is made where its guard
holds (`WindowsHost.guard_of_reaches`). From that: no handle is used once it has been closed, and all
are closed once by the destructor (`handle_discipline`); unless a reap's wait fails on a live
process, a live process is never forgotten (`live_daemon`); and unless a reap comes upon the end of a
process that a stop has told to end, it is not reported as crashed (`requested_stop`).
-/

namespace OpcuaServer

open WindowsController

namespace WindowsHost

variable {faults : ReapFaults} {w w' : WindowsHost} {α : Type}

/-- Between two operations the members track everything. -/
def Idle (faults : ReapFaults) (w : WindowsHost) : Prop :=
  w.controller.Tracks faults w

theorem Idle.rely (hrely : Rely w w') (h : Idle faults w) :
  Idle faults w'
  := by
  rw [Idle, hrely.controller]
  apply Tracks.rely hrely h

/-- A program of the controller keeps to the guards and ends as `Q` says. -/
def Does (faults : ReapFaults)
    (p : ControllerProg WindowsController WindowsCall WindowsCall.Answer α)
    (Q : α → WindowsHost → Prop) (w : WindowsHost) : Prop :=
  p.wp (fun call => Step faults (.inl call)) Rely (fun call w => Guard faults w (.inl call)) Q w

/-- A program that runs under the mutex sets the members when it unlocks it. -/
theorem does_guarded {p : WindowsLocked α} {R : α → WindowsController → WindowsHost → Prop}
    {Q : α → WindowsHost → Prop}
    (hp : ∀ w, Idle faults w → Keeps faults p R w.controller w)
    (hR : ∀ a ctl w, R a ctl w → ∀ w', Rely w w' → R a ctl w')
    (hQ : ∀ a ctl w, R a ctl w → ∀ w', Rely { w with controller := ctl } w' → Q a w')
    (hidle : Idle faults w) :
  Does faults (guarded p) Q w
  := by
  intro w₁ hrely₁
  use trivial
  intro fields w₂ hlock
  cases hlock with
  | lock =>
    apply Prog.wp_bind (p := p w₁.controller) Rely.refl
    apply Prog.wp_mono _ (hp w₁ (hidle.rely hrely₁))
    rintro ⟨a, ctl⟩ w hr w₃ hrely₃
    use trivial
    intro _ w₄ hunlock
    cases hunlock with
    | unlock => apply hQ a ctl w₃ (hR a ctl w hr w₃ hrely₃)

/-- What tracks everything under the mutex tracks it once the mutex is unlocked. -/
theorem Tracked.idle {a : α} {ctl : WindowsController} (h : Tracked faults a ctl w)
    (hrely : Rely { w with controller := ctl } w') :
  Idle faults w'
  := by
  apply Idle.rely hrely
  cases h with
  | nobody hstate hhandle hclosed hnone htold => exact .nobody hstate hhandle hclosed hnone htold
  | child hstate hhandle hsole hn honly => exact .child hstate hhandle hsole hn honly

theorem does_tracked {p : WindowsLocked α}
    (hp : ∀ ctl w, ctl.Tracks faults w → Keeps faults p (Tracked faults) ctl w)
    (hidle : Idle faults w) :
  Does faults (guarded p) (fun _ w => Idle faults w) w
  := by
  apply does_guarded (fun w h => hp _ w h) _ _ hidle
  · exact fun _ _ _ h _ hrely => Tracks.rely hrely h
  · exact fun _ _ _ h _ hrely => h.idle hrely

section

variable (multiByteToWideChar : Bytes → Option CommandLine.Wide) (executablePath : Bytes)
  (args : List Bytes)

/-- The reply of a status request is the status that the members are left with. -/
theorem does_status (hidle : Idle faults w) :
  Does faults (processController multiByteToWideChar executablePath args).processStatus
    (fun status w => Returns faults w .status status) w
  := by
  apply does_guarded (R := fun status ctl w => status = ctl.status ∧ ctl.Tracks faults w) _ _ _ hidle
  · intro w h
    apply Locked.keeps_bind Rely.refl
    apply Locked.Keeps.mono _ (keeps_reapExitedUnlocked h)
    intro _ ctl w h
    apply Locked.keeps_get
    apply Locked.keeps_pure
    exact fun w' hrely => ⟨rfl, Tracks.rely hrely h⟩
  · exact fun _ _ _ ⟨heq, h⟩ _ hrely => ⟨heq, Tracks.rely hrely h⟩
  · rintro _ ctl w ⟨rfl, h⟩ w' hrely
    refine ⟨?_, Tracked.idle (a := ()) h hrely⟩
    rw [hrely.controller]

theorem does_destroy (hidle : Idle faults w) :
  Does faults (processController multiByteToWideChar executablePath args).destroy
    (fun _ w => w.handles.AllClosed) w
  := by
  apply does_guarded (R := fun _ _ w => w.handles.AllClosed) _ _ _ hidle
  · intro w h
    apply Locked.keeps_get
    split
    · apply Locked.keeps_bind Rely.refl
      apply Locked.Keeps.mono _ (keeps_stopUnlocked 500 h)
      intro _ ctl w h
      apply keeps_close h
    · apply keeps_close h
  · intro _ _ w h w' hrely
    rw [hrely.handles]
    apply h
  · intro _ _ w h w' hrely
    rw [hrely.handles]
    apply h

/-- Every operation keeps to the guards, and what it returns is known. -/
theorem does_run (hidle : Idle faults w) (operation : Operation) :
  Does faults ((processController multiByteToWideChar executablePath args).run operation)
    (fun reply w => Returns faults w operation reply) w
  := by
  cases operation with
  | start =>
    apply does_tracked _ hidle
    exact fun _ _ h => keeps_startUnlocked multiByteToWideChar executablePath args h
  | stop timeout =>
    apply does_tracked _ hidle
    exact fun _ _ h => keeps_stopUnlocked timeout h
  | restart timeout =>
    apply does_tracked _ hidle
    exact fun _ _ h => keeps_restartUnlocked multiByteToWideChar executablePath args timeout h
  | requestShutdown =>
    intro w₁ hrely₁
    use trivial
    intro _ w₂ hstep
    cases hstep with
    | storeShutdownRequested =>
      intro w₃ hrely₃
      apply Idle.rely hrely₃
      apply Tracked.idle (a := ()) (hidle.rely hrely₁)
      exact ⟨rfl, fun _ => rfl, rfl, fun _ p hp => ⟨p, hp, .refl p⟩, rfl, rfl⟩
  | reapExited =>
    apply does_tracked _ hidle
    exact fun _ _ h => keeps_reapExitedUnlocked h
  | status => apply does_status multiByteToWideChar executablePath args hidle
  | destroy => apply does_destroy multiByteToWideChar executablePath args hidle

/-! ### The client -/

/-- A program of the client keeps to the guards and ends as `Q` says. -/
def Behaves (faults : ReapFaults) (p : WindowsSupervisor α) (Q : α → WindowsHost → Prop)
    (w : WindowsHost) : Prop :=
  p.wp (Step faults) Rely (fun call w => Guard faults w call) Q w

theorem behaves_mono {p : WindowsSupervisor α} {Q Q' : α → WindowsHost → Prop}
    (hQ : ∀ a w, Q a w → Q' a w) (h : Behaves faults p Q w) :
  Behaves faults p Q' w
  := Prog.wp_mono hQ h

theorem behaves_lift {p : ControllerProg WindowsController WindowsCall WindowsCall.Answer α}
    {Q : α → WindowsHost → Prop} (h : Does faults p Q w) :
  Behaves faults p.lift Q w
  := by
  apply Prog.wp_lift
  apply h

/-- The client is between two operations, or it has destroyed the controller. -/
def Outside (faults : ReapFaults) (w : WindowsHost) : Prop :=
  w.destroyed = false → Idle faults w

theorem Outside.rely (hrely : Rely w w') (h : Outside faults w) :
  Outside faults w'
  := by
  intro hdestroyed
  rw [hrely.destroyed] at hdestroyed
  apply (h hdestroyed).rely hrely

/-- What is known when an operation returns is what the client goes on with. -/
theorem outside_finish {operation : Operation} {reply : operation.Reply}
    (h : Returns faults w operation reply) :
  Outside faults (w.finish operation)
  := by
  intro hdestroyed
  cases operation with
  | destroy => cases hdestroyed
  | status => apply h.2
  | start | stop timeout | restart timeout | requestShutdown | reapExited => apply h

theorem behaves_invoke (hidle : Idle faults w) (operation : Operation) :
  Behaves faults
    (Supervisor.invoke (processController multiByteToWideChar executablePath args) operation)
    (fun _ w => Outside faults w) w
  := by
  intro w₁ hrely₁
  use trivial
  intro _ w₂ hcalled
  cases hcalled with
  | called =>
    apply Prog.wp_bind (p := (Platform.run _ operation).lift) Rely.refl
    apply behaves_mono _ (behaves_lift
      (does_run multiByteToWideChar executablePath args (hidle.rely hrely₁) operation))
    intro reply w hreturns w₃ hrely₃
    have hreturns₃ : Returns faults w₃ operation reply := by
      cases operation with
      | destroy =>
        rw [Returns, hrely₃.handles]
        apply hreturns
      | status =>
        refine ⟨?_, Idle.rely hrely₃ hreturns.2⟩
        rw [hrely₃.controller]
        apply hreturns.1
      | start | stop timeout | restart timeout | requestShutdown | reapExited =>
        apply Idle.rely hrely₃ hreturns
    use hreturns₃
    intro _ w₄ hreturned
    cases hreturned with
    | returned =>
      intro w₅ hrely₅
      apply (outside_finish hreturns₃).rely hrely₅

theorem behaves_client (h : Outside faults w) :
  Behaves faults
    (Supervisor.client (processController multiByteToWideChar executablePath args))
    (fun _ _ => True) w
  := by
  apply Prog.wp_repeatUntil (fun _ w => Outside faults w) (fun _ _ _ => Outside.rely) h
  intro _ w h
  apply Prog.wp_bind (p := Supervisor.perform .nextOperation) Rely.refl
  apply Prog.wp_perform
  intro w₁ hrely₁
  use trivial
  intro operation w₂ hstep
  cases hstep with
  | nextOperation hdestroyed =>
    intro w₃ hrely₃
    cases operation with
    | none => exact fun _ _ _ _ => trivial
    | some operation =>
      have hlive : w₃.destroyed = false := by
        rw [hrely₃.destroyed, Bool.eq_false_iff]
        intro htrue
        cases hdestroyed htrue
      apply Prog.wp_bind (p := Supervisor.invoke _ operation) Rely.refl
      apply behaves_mono _ (behaves_invoke multiByteToWideChar executablePath args
        (((h.rely hrely₁).rely hrely₃) hlive) operation)
      intro reply w h
      exact fun w' hrely => h.rely hrely

end

/-! ### Reachable configurations -/

/-- The client makes sure of its guards, and relies on nothing but the processes. -/
def contract (faults : ReapFaults) :
    Threads.Contract Unit ((ControllerCall WindowsController ⊕ WindowsCall) ⊕ SupervisorCall)
      WindowsHost where
  rely _ := Rely
  guard _ call w := Guard faults w call

theorem respects (faults : ReapFaults) :
  Threads.Respects (windowsControllers faults) (contract faults)
  where
  refl _ := Rely.refl
  trans _ _ _ _ := Rely.trans
  step ht := absurd rfl ht
  env h := h
  halt ht := absurd rfl ht

/-- A client of a controller that has just been constructed makes every call where its guard
holds. -/
theorem guard_of_reaches {multiByteToWideChar : Bytes → Option CommandLine.Wide}
    {executablePath : Bytes} {args : List Bytes} {c : WindowsConfig}
    (hreach : Threads.Reaches (windowsControllers faults)
      (windowsStart multiByteToWideChar executablePath args) c)
    {call : (ControllerCall WindowsController ⊕ WindowsCall) ⊕ SupervisorCall}
    {k : Sum.elim (Sum.elim ControllerCall.Answer WindowsCall.Answer) SupervisorCall.Answer call →
      WindowsSupervisor Unit}
    (hcall : c.progs () = .call call k) :
  Guard faults c.world call
  := by
  apply Threads.guard_of_reaches (respects faults) _ hreach hcall
  intro _
  apply behaves_client
  intro _
  refine .nobody (by rintro ⟨⟩) rfl Handles.allClosed_nil ?_ ?_
  · rintro _ n p ⟨⟩
  · rintro ⟨⟩

end WindowsHost

end OpcuaServer
