import OpcuaServer.Supervisor.ControllerRuns

/-!
# The threads of a controller keep to their contract

Every operation of a controller keeps to the contract, and so do its clients and the supervisor
(`Host.safe_clients`, `Host.safe_supervisor`). When the supervisor has ended with the code for
success, no child is left.
-/

namespace OpcuaServer

open Children Controller

namespace Host

variable {Tid : Type} [DecidableEq Tid] {faults : WaitFaults} {t : Tid}
  {α β : Type} {w : Host Tid}

/-! ### What stays -/

section

variable {call : (ControllerCall Controller ⊕ PosixCall) ⊕ SupervisorCall}
  {a : Sum.elim (Sum.elim ControllerCall.Answer PosixCall.Answer) SupervisorCall.Answer call}
  {w' : Host Tid}

/-- The gate stays closed. -/
theorem Gated.step (h : w.Gated) (hstep : Step faults t call w a w') :
  w'.Gated
  := by
  cases hstep with
  | unlock => exact ⟨h.1, rfl⟩
  | storeShutdownRequested =>
    refine ⟨rfl, ?_⟩
    simp only [request, h.1, if_true]
    apply h.2
  | _ => exact h

/-- No child is forked while the gate is closed. -/
theorem Sealed.step (h : w.Sealed) (hguard : Guard faults t w call)
    (hstep : Step faults t call w a w') :
  w'.Sealed
  := by
  refine ⟨h.1.step hstep, ?_⟩
  cases hstep with
  | fork =>
    have hpending := hguard.2.pending h.1.1
    rw [h.1.2] at hpending
    cases hpending
  | waitChild hreaps => exact (h.2.reap hreaps).2
  | _ => exact h.2

/-- Whether an operation was called late does not change while it runs. -/
theorem late_step {call : ControllerCall Controller ⊕ PosixCall}
    {a : Sum.elim (Sum.elim ControllerCall.Answer PosixCall.Answer) SupervisorCall.Answer
      (.inl call)}
    (hstep : Step faults t (.inl call) w a w') :
  (w'.trace t).late = (w.trace t).late
  := by
  cases hstep <;> simp [acquire, release, request, fork, Host.wait, note]

end

/-! ### Operations -/

/-- A program of an operation of the controller keeps to the contract and ends as `Q` says. -/
def Does (faults : WaitFaults) (t : Tid)
    (p : ControllerProg Controller PosixCall PosixCall.Answer α) (Q : α → Host Tid → Prop)
    (w : Host Tid) : Prop :=
  p.wp (fun call => Step faults t (.inl call)) (Rely t)
    (fun call w => w.Inv ∧ Guard faults t w (.inl call)) Q w

/-- A program under the mutex leaves the gate closed, and the operation as late as it was. -/
theorem keeps_late {p : PosixLocked α} {Q : α → Controller → Host Tid → Prop} {ctl : Controller}
    {late : Bool} (h : Keeps faults t p Q ctl w) (hlate : (w.trace t).late = late)
    (hgated : late = true → w.Gated) :
  Keeps faults t p
    (fun a ctl w => Q a ctl w ∧ (w.trace t).late = late ∧ (late = true → w.Gated)) ctl w
  := by
  refine Prog.wp_frame ?_ ?_ h ⟨hlate, hgated⟩
  · rintro w w' hrely ⟨hlate, hgated⟩
    exact ⟨(congrArg Trace.late hrely.trace).trans hlate, fun h => hrely.gated (hgated h)⟩
  · rintro call w a w' - hstep ⟨hlate, hgated⟩
    exact ⟨(late_step hstep).trans hlate, fun h => (hgated h).step hstep⟩

/-- A shutdown requested before the mutex is locked closes the gate. -/
theorem gated_acquire (hinv : w.Inv) (hmutex : w.mutex = none)
    (hrequested : w.shutdownRequested = true) :
  (w.acquire t).Gated
  := by
  refine ⟨hrequested, Option.eq_none_iff_forall_ne_some.mpr ?_⟩
  intro s hpending
  have hholds := hinv.pending s hpending
  rw [hmutex] at hholds
  cases hholds

/-- The mutex has been locked. -/
theorem holds_acquire (hinv : w.Inv) (hmutex : w.mutex = none) (hinv' : (w.acquire t).Inv) :
  Holds t w.controller (w.acquire t)
  := by
  obtain ⟨htracks, hrecorded, hsynced⟩ := hinv.free hmutex
  exact ⟨⟨hinv', rfl, htracks, hrecorded⟩, hsynced⟩

/-- A program run under the mutex. The gate is closed where a shutdown had been requested when the
operation was called. -/
theorem does_guarded {p : PosixLocked α} {late : Bool} {Q : α → Controller → Host Tid → Prop}
    {R : α → Host Tid → Prop} (hR : ∀ a w w', Rely t w w' → R a w → R a w')
    (hQ : ∀ a ctl w w', Done t ctl w → Rely t w w' → Q a ctl w → Q a ctl w')
    (hp : ∀ ctl w, Holds t ctl w → (w.trace t).waited = none →
      Keeps faults t p (fun a ctl w => Done t ctl w ∧ Q a ctl w) ctl w)
    (hrelease : ∀ a ctl w, Done t ctl w → Q a ctl w → (w.trace t).late = late →
      (late = true → w.Gated) → (w.release t ctl).Inv → R a (w.release t ctl))
    (hinv : w.Inv) (hwaited : (w.trace t).waited = none) (hlate : (w.trace t).late = late)
    (hrequested : late = true → w.shutdownRequested = true) :
  Does faults t (guarded p) R w
  := by
  intro w₁ hrely
  have hinv₁ := hrely.inv hinv
  have hguard : Guard faults t w₁ (.inl (.inl .lock)) := trivial
  use ⟨hinv₁, hguard⟩
  intro ctl w₂ hlock
  have hinv₂ := hinv₁.step hguard hlock
  cases hlock with
  | lock hmutex =>
    have hholds := holds_acquire hinv₁ hmutex hinv₂
    have hgated : late = true → (w₁.acquire t).Gated := fun h =>
      gated_acquire hinv₁ hmutex (hrely.requested (hrequested h))
    have hlate₂ : ((w₁.acquire t).trace t).late = late := by
      simp only [acquire, note_trace_self, hrely.trace, hlate]
    have hwaited₂ : ((w₁.acquire t).trace t).waited = none := by
      simp only [acquire, note_trace_self, hrely.trace, hwaited]
    apply Prog.wp_bind (p := p w₁.controller) (Rely.refl t)
    apply Prog.wp_mono _ (keeps_late (hp _ _ hholds hwaited₂) hlate₂ hgated)
    rintro ⟨a, ctl⟩ w ⟨⟨hdone, hQa⟩, hlate, hgated⟩ w₃ hrely₃
    have hdone₃ := hdone.rely hrely₃
    have hguard₃ : Guard faults t w₃ (.inl (.inl (.unlock ctl))) :=
      ⟨hdone₃.mutex, hdone₃.tracks, hdone₃.recorded⟩
    use ⟨hdone₃.inv, hguard₃⟩
    intro _ w₄ hunlock
    have hinv₄ := hdone₃.inv.step hguard₃ hunlock
    cases hunlock with
    | unlock =>
      intro w₅ hrely₅
      apply hR a _ w₅ hrely₅
      apply hrelease a ctl w₃ hdone₃ (hQ a ctl w w₃ hdone hrely₃ hQa) _ _ hinv₄
      · rw [hrely₃.trace, hlate]
      · exact fun h => hrely₃.gated (hgated h)

omit [DecidableEq Tid] in
theorem Returns.rely {operation : Operation} {reply : operation.Reply} {w' : Host Tid}
    (hrely : Rely t w w') (h : Returns faults t w operation reply) :
  Returns faults t w' operation reply
  := by
  cases operation with
  | stop timeout =>
    intro hlate hok
    apply hrely.sealed (h (hrely.trace ▸ hlate) hok)
  | status => exact (congrArg (Reported faults · reply) hrely.trace).mpr h
  | requestShutdown => apply hrely.requested h
  | _ => trivial

/-- The thread does not hold the mutex. -/
structure Outside (t : Tid) (w : Host Tid) : Prop where
  inv : w.Inv
  mutex : w.mutex ≠ some t

omit [DecidableEq Tid] in
theorem Outside.rely {w' : Host Tid} (hrely : Rely t w w') (h : Outside t w) :
  Outside t w'
  := ⟨hrely.inv h.inv, mt hrely.mutex.mp h.mutex⟩

/-- The mutex has been unlocked. -/
theorem outside_release {ctl : Controller} (hinv : (w.release t ctl).Inv) :
  Outside t (w.release t ctl)
  := ⟨hinv, by rintro ⟨⟩⟩

/-- How a program of an operation ends. -/
structure Ended (faults : WaitFaults) (t : Tid) (late : Bool) (operation : Operation)
    (reply : operation.Reply) (w : Host Tid) : Prop extends Outside t w where
  late : (w.trace t).late = late
  returns : Returns faults t w operation reply

omit [DecidableEq Tid] in
theorem Ended.rely {late : Bool} {operation : Operation} {reply : operation.Reply} {w' : Host Tid}
    (hrely : Rely t w w') (h : Ended faults t late operation reply w) :
  Ended faults t late operation reply w'
  := ⟨h.toOutside.rely hrely, hrely.trace ▸ h.late, h.returns.rely hrely⟩

theorem late_release {ctl : Controller} :
  ((w.release t ctl).trace t).late = (w.trace t).late
  := by simp only [release, note_trace_self]

theorem seen_release {ctl : Controller} :
  ((w.release t ctl).trace t).seen = w.sight (w.owner ctl)
  := by simp only [release, note_trace_self]

theorem waited_release {ctl : Controller} :
  ((w.release t ctl).trace t).waited = (w.trace t).waited
  := by simp only [release, note_trace_self]

omit [DecidableEq Tid] in
theorem sight_eq_some_iff {o : Option ℕ} {n : ℕ} {life : Life Reaper WaitStatus} :
  w.sight o = some (n, life) ↔ o = some n ∧ w.children.life n = some life
  := by
  cases o with
  | none => simp [sight]
  | some m =>
    simp only [sight, Option.bind_some, Option.map_eq_some_iff, Prod.mk.injEq, Option.some.injEq]
    constructor
    · rintro ⟨_, hlife, rfl, rfl⟩
      exact ⟨rfl, hlife⟩
    · rintro ⟨rfl, hlife⟩
      exact ⟨life, hlife, rfl, rfl⟩

/-- The status that is reported of the daemon is true of the child that is owned. -/
theorem reported_release {ctl : Controller} (h : Holds t ctl w) (hlooked : Looked faults t ctl w) :
  Reported faults ((w.release t ctl).trace t) ctl.status
  := by
  have howner : ∀ n, w.owned = some n → w.owner ctl = some n := by
    intro n howned
    cases h.tracks with
    | nobody _ _ hsole => rw [owner, find_eq_none (hsole.not_refers _), Option.none_or, howned]
    | @child m _ _ hsole hrefers =>
      rw [owner, hsole.find_eq hrefers, ← h.synced m hrefers, howned, Option.or_self]
  refine ⟨?_, ?_, ?_, ?_⟩
  · intro n waitStatus hseen
    rw [seen_release, sight_eq_some_iff] at hseen
    obtain ⟨hn, hlife⟩ := hseen
    cases h.tracks with
    | nobody _ hpid hsole =>
      rw [owner, find_eq_none (hsole.not_refers _), Option.none_or] at hn
      apply h.recorded hpid n waitStatus hn hlife
    | @child m _ _ hsole hrefers =>
      rw [owner, hsole.find_eq hrefers, Option.some_or, Option.some.injEq] at hn
      subst hn
      obtain ⟨child, hchild, -, hunreaped⟩ := hrefers
      rw [Children.life, hchild, Option.map_some, Option.some.injEq] at hlife
      rw [hlife] at hunreaped
      cases hunreaped
  · intro hfaults
    rw [waited_release]
    cases hlooked with
    | idle hwaited hstate =>
      rw [hwaited]
      exact iff_of_false hstate (by rintro ⟨n, ⟨⟩⟩)
    | @waited n life hwaited _ _ hstate =>
      rw [hwaited, hstate]
      constructor
      · rintro rfl
        exact ⟨n, rfl⟩
      · rintro ⟨m, hm⟩
        apply (Prod.mk.inj (Option.some.inj hm)).2
    | failed _ hfault => cases hfaults _ hfault
  · intro n life hwaited
    rw [waited_release] at hwaited
    cases hlooked with
    | idle hnone => cases hnone.symm.trans hwaited
    | waited hwaited' howned hsome =>
      obtain ⟨rfl, rfl⟩ := Prod.mk.inj (Option.some.inj (hwaited'.symm.trans hwaited))
      obtain ⟨life', hlife'⟩ := Option.isSome_iff_exists.mp hsome
      use life'
      rw [seen_release, sight_eq_some_iff]
      exact ⟨howner _ howned, hlife'⟩
    | failed hnone => cases hnone.symm.trans hwaited
  · intro hfaults hnone n life hseen
    rw [waited_release] at hnone
    rw [seen_release, sight_eq_some_iff] at hseen
    cases hlooked with
    | idle _ hstate =>
      obtain ⟨-, hsole⟩ := h.toDone.nobody hstate
      by_contra hunreaped
      obtain ⟨child, hchild, rfl⟩ := Option.map_eq_some_iff.mp hseen.2
      cases (hsole n).mp ⟨child, hchild, Bool.not_eq_false _ ▸ hunreaped⟩
    | waited hwaited => cases hnone.symm.trans hwaited
    | failed _ hfault => cases hfaults _ hfault

/-- The program of an operation whose reply says nothing. -/
theorem does_silent (operation : Operation) {p : PosixLocked operation.Reply} {late : Bool}
    (hsilent : ∀ reply (w : Host Tid), Returns faults t w operation reply)
    (hp : ∀ ctl w, Holds t ctl w → Keeps faults t p (fun _ ctl w => Done t ctl w) ctl w)
    (hinv : w.Inv) (hwaited : (w.trace t).waited = none) (hlate : (w.trace t).late = late)
    (hrequested : late = true → w.shutdownRequested = true) :
  Does faults t (guarded p) (Ended faults t late operation) w
  := by
  apply does_guarded (Q := fun _ _ _ => True) (R := Ended faults t late operation) _ _ _ _ hinv
    hwaited hlate hrequested
  · exact fun _ _ _ => Ended.rely
  · exact fun _ _ _ _ _ _ => id
  · intro ctl w hholds _
    apply keeps_mono (fun _ _ _ h => ⟨h, trivial⟩) (hp ctl w hholds)
  · intro reply ctl w _ _ hlate _ hinv
    exact ⟨outside_release hinv, late_release.trans hlate, hsilent reply _⟩

section

variable {late : Bool} (hout : Outside t w) (hwaited : (w.trace t).waited = none)
  (hlate : (w.trace t).late = late) (hrequested : late = true → w.shutdownRequested = true)

include hout hwaited hlate hrequested

theorem does_stop (timeout : ℤ) :
  Does faults t (guarded (stopUnlocked timeout)) (Ended faults t late (.stop timeout)) w
  := by
  apply does_guarded (Q := fun status ctl _ => status = .ok () → ctl.status.state ≠ .running)
    (R := Ended faults t late (.stop timeout)) _ _ _ _ hout.inv hwaited hlate hrequested
  · exact fun _ _ _ => Ended.rely
  · exact fun _ _ _ _ _ _ => id
  · intro ctl w hholds _
    apply keeps_mono _ (keeps_stopUnlocked hholds)
    rintro status ctl w ⟨h, hok⟩
    exact ⟨h.toDone, hok⟩
  · intro status ctl w hdone hok hlate hgated hinv
    refine ⟨outside_release hinv, late_release.trans hlate, ?_⟩
    intro hlate' hstatus
    rw [late_release, hlate] at hlate'
    exact ⟨⟨(hgated hlate').1, rfl⟩, (hdone.nobody (hok hstatus)).2⟩

omit hwaited hrequested in
theorem does_requestShutdown :
  Does faults t requestShutdown (Ended faults t late .requestShutdown) w
  := by
  intro w₁ hrely
  have hout₁ := hout.rely hrely
  have hguard : Guard faults t w₁ (.inl (.inl .storeShutdownRequested)) := trivial
  use ⟨hout₁.inv, hguard⟩
  intro _ w₂ hstore
  have hinv₂ := hout₁.inv.step hguard hstore
  cases hstore with
  | storeShutdownRequested =>
    intro w₃ hrely₃
    apply Ended.rely hrely₃
    exact ⟨⟨hinv₂, hout₁.mutex⟩, (congrArg Trace.late hrely.trace).trans hlate, rfl⟩

/-- What `status` reports is true of the child that is owned. -/
theorem does_status (executablePath : Bytes) (args : List Bytes) :
  Does faults t (processController executablePath args).processStatus
    (Ended faults t late .status) w
  := by
  apply does_guarded (Q := fun status ctl w => Holds t ctl w ∧ Looked faults t ctl w ∧
      status = ctl.status) (R := Ended faults t late .status) _ _ _ _ hout.inv hwaited hlate hrequested
  · exact fun _ _ _ => Ended.rely
  · rintro status ctl w w' - hrely ⟨hholds, hlooked, hstatus⟩
    exact ⟨hholds.rely hrely, hlooked.rely hholds.mutex hrely, hstatus⟩
  · intro ctl w hholds hnone
    apply keeps_bind
    apply keeps_mono _ (keeps_reapExitedUnlocked hholds)
    intro _ ctl w h
    apply keeps_get
    apply keeps_pure
    intro w' hrely
    have h' := h.rely hrely
    exact ⟨h'.holds.toDone, h'.holds, h'.looked hnone, rfl⟩
  · rintro _ ctl w - ⟨hholds, hlooked, rfl⟩ hlate - hinv
    exact ⟨outside_release hinv, late_release.trans hlate, reported_release hholds hlooked⟩

theorem does_destroy (executablePath : Bytes) (args : List Bytes) :
  Does faults t (processController executablePath args).destroy (Ended faults t late .destroy) w
  := by
  apply does_silent .destroy _ _ hout.inv hwaited hlate hrequested
  · intro _ _
    trivial
  · intro ctl w hholds
    apply keeps_get
    split
    · apply keeps_bind
      apply keeps_mono _ (keeps_stopUnlocked hholds)
      rintro status ctl w ⟨h, -⟩
      apply keeps_pure
      intro w₁ hrely
      apply h.toDone.rely hrely
    · intro w₁ hrely
      apply hholds.toDone.rely hrely

/-- Every operation of a controller keeps to the contract. -/
theorem does_run (executablePath : Bytes) (args : List Bytes) (operation : Operation) :
  Does faults t ((processController executablePath args).run operation)
    (Ended faults t late operation) w
  := by
  cases operation with
  | start =>
    apply does_silent .start _ _ hout.inv hwaited hlate hrequested
    · intro _ _
      trivial
    · exact fun _ _ => keeps_startUnlocked
  | stop timeout => apply does_stop hout hwaited hlate hrequested
  | restart timeout =>
    apply does_silent (.restart timeout) _ _ hout.inv hwaited hlate hrequested
    · intro _ _
      trivial
    · exact fun _ _ => keeps_restartUnlocked
  | requestShutdown => apply does_requestShutdown hout hlate
  | reapExited =>
    apply does_silent .reapExited _ _ hout.inv hwaited hlate hrequested
    · intro _ _
      trivial
    · intro ctl w hholds
      apply keeps_mono _ (keeps_reapExitedUnlocked hholds)
      intro _ ctl w h
      exact h.holds.toDone
  | status => apply does_status hout hwaited hlate hrequested
  | destroy => apply does_destroy hout hwaited hlate hrequested

end

/-! ### Clients and the supervisor -/

/-- A program of a thread of the supervisor keeps to the contract and ends as `Q` says. -/
def Behaves (faults : WaitFaults) (t : Tid) (p : PosixSupervisor α) (Q : α → Host Tid → Prop)
    (w : Host Tid) : Prop :=
  p.wp (Step faults t) (Rely t) (fun call w => w.Inv ∧ Guard faults t w call) Q w

theorem behaves_mono {p : PosixSupervisor α} {Q Q' : α → Host Tid → Prop}
    (hQ : ∀ a w, Q a w → Q' a w) (h : Behaves faults t p Q w) :
  Behaves faults t p Q' w
  := Prog.wp_mono hQ h

theorem behaves_bind {p : PosixSupervisor α} {f : α → PosixSupervisor β} {Q : β → Host Tid → Prop}
    (h : Behaves faults t p (fun a w => Behaves faults t (f a) Q w) w) :
  Behaves faults t (p >>= f) Q w
  := Prog.wp_bind (Rely.refl t) h

theorem behaves_pure {a : α} {Q : α → Host Tid → Prop} (h : ∀ w', Rely t w w' → Q a w') :
  Behaves faults t (pure a : PosixSupervisor α) Q w
  := h

theorem behaves_lift {p : ControllerProg Controller PosixCall PosixCall.Answer α}
    {Q : α → Host Tid → Prop} (h : Does faults t p Q w) :
  Behaves faults t p.lift Q w
  := by
  apply Prog.wp_lift
  apply h

/-- A call of the supervisor that affects nothing is made where its guard holds. -/
theorem behaves_perform {call : SupervisorCall} {Q : call.Answer → Host Tid → Prop}
    {A : Host Tid → Prop} (hquiet : quietSupervisor call = true)
    (hstable : ∀ w w', Rely t w w' → A w → A w')
    (hguard : ∀ w, A w → Guard faults t w (.inr call)) (hQ : ∀ a w, w.Inv → A w → Q a w)
    (hinv : w.Inv) (hA : A w) :
  Behaves faults t (Supervisor.perform call) Q w
  := by
  intro w₁ hrely
  have hinv₁ := hrely.inv hinv
  have hA₁ := hstable w w₁ hrely hA
  use ⟨hinv₁, hguard w₁ hA₁⟩
  intro a w₂ hstep
  cases hstep with
  | supervisor =>
    intro w₃ hrely₃
    apply hQ a w₃ (hrely₃.inv hinv₁) (hstable w₁ w₃ hrely₃ hA₁)
  | _ => cases hquiet

/-- What is known after an operation that was called, where `late`, after a shutdown had been
requested. -/
structure Invoked (t : Tid) (late : Bool) (operation : Operation) (reply : operation.Reply)
    (w : Host Tid) : Prop extends Outside t w where
  sealed : late = true → StopsOk operation reply → w.Sealed
  requested : operation = .requestShutdown → w.shutdownRequested = true

omit [DecidableEq Tid] in
theorem Invoked.rely {late : Bool} {operation : Operation} {reply : operation.Reply}
    {w' : Host Tid} (hrely : Rely t w w') (h : Invoked t late operation reply w) :
  Invoked t late operation reply w'
  := ⟨h.toOutside.rely hrely, fun hlate hok => hrely.sealed (h.sealed hlate hok),
    fun heq => hrely.requested (h.requested heq)⟩

/-- An operation is called and returns. -/
theorem behaves_invoke (executablePath : Bytes) (args : List Bytes) (operation : Operation)
    (late : Bool) (hout : Outside t w) (hrequested : late = true → w.shutdownRequested = true) :
  Behaves faults t (Supervisor.invoke (processController executablePath args) operation)
    (Invoked t late operation) w
  := by
  intro w₁ hrely
  have hout₁ := hout.rely hrely
  have hinv₁ := hout₁.inv
  have hguard : Guard faults t w₁ (.inr (.called operation)) := trivial
  use ⟨hinv₁, hguard⟩
  intro _ w₂ hcalled
  have hinv₂ := hinv₁.step hguard hcalled
  cases hcalled with
  | supervisor hquiet => cases hquiet
  | called =>
    apply Prog.wp_bind (p := (Platform.run _ operation).lift) (Rely.refl t)
    have hwaited : ((w₁.note t fun _ => { late := w₁.shutdownRequested }).trace t).waited = none := by
      rw [note_trace_self]
    have hlate : ((w₁.note t fun _ => { late := w₁.shutdownRequested }).trace t).late =
        w₁.shutdownRequested := by
      rw [note_trace_self]
    apply behaves_mono _
      (behaves_lift (does_run ⟨hinv₂, hout₁.mutex⟩ hwaited hlate id executablePath args operation))
    intro reply w hended w₃ hrely₃
    have hended₃ := hended.rely hrely₃
    have hguard₃ : Guard faults t w₃ (.inr (.returned operation reply)) :=
      ⟨hended₃.mutex, hended₃.returns⟩
    use ⟨hended₃.inv, hguard₃⟩
    intro _ w₄ hreturned
    have hinv₄ := hended₃.inv.step hguard₃ hreturned
    cases hreturned with
    | supervisor hquiet => cases hquiet
    | returned =>
      intro w₅ hrely₅
      apply Invoked.rely hrely₅
      refine ⟨⟨hinv₄, hended₃.mutex⟩, ?_, ?_⟩
      · intro hlate' hok
        cases operation with
        | stop timeout =>
          apply hended₃.returns _ hok
          rw [hended₃.late]
          apply hrely.requested (hrequested hlate')
        | _ => cases hok
      · rintro rfl
        apply hended₃.returns

/-- A client keeps to the contract. -/
theorem behaves_client (executablePath : Bytes) (args : List Bytes) (hout : Outside t w) :
  Behaves faults t (Supervisor.client (processController executablePath args)) (fun _ _ => True) w
  := by
  apply Prog.wp_repeatUntil (fun _ w => Outside t w) (fun _ _ _ => Outside.rely) hout
  intro _ w hout
  apply behaves_bind
  apply behaves_perform (A := fun w => Outside t w) rfl (fun _ _ => Outside.rely) _ _ hout.inv hout
  · intro _ _
    trivial
  · rintro (_ | operation) w - hout
    · apply behaves_pure
      intro _ _ _ _
      trivial
    · apply behaves_bind
      apply behaves_mono _ (behaves_invoke executablePath args operation false hout _)
      · intro _ w h
        apply behaves_pure
        intro w' hrely
        apply h.toOutside.rely hrely
      · rintro ⟨⟩

/-- What has been sealed stays so while the supervisor goes on. -/
theorem behaves_sealed {p : PosixSupervisor α} {Q : α → Host Tid → Prop} {P : Prop}
    (h : Behaves faults t p Q w) (hsealed : P → w.Sealed) :
  Behaves faults t p (fun a w => Q a w ∧ (P → w.Sealed)) w
  := by
  refine Prog.wp_frame ?_ ?_ h hsealed
  · exact fun w w' hrely hsealed hP => hrely.sealed (hsealed hP)
  · exact fun call w a w' hguard hstep hsealed hP => (hsealed hP).step hguard.2 hstep

/-- The calls of the supervisor that have no guard and affect nothing. -/
def unguarded : SupervisorCall → Bool
  | .called _ | .returned _ _ | .exited _ => false
  | _ => true

/-- A call of the supervisor that has no guard. -/
theorem behaves_call {call : SupervisorCall} (hcall : unguarded call = true) (hout : Outside t w) :
  Behaves faults t (Supervisor.perform call) (fun _ w => Outside t w) w
  := by
  have hquiet : quietSupervisor call = true := by
    cases call <;> first | rfl | cases hcall
  apply behaves_perform (A := fun w => Outside t w) hquiet (fun _ _ => Outside.rely) _ _ hout.inv hout
  · intro w _
    cases call <;> trivial
  · exact fun _ _ _ hout => hout

theorem behaves_printFailure {context : String} {status : Status} (hout : Outside t w) :
  Behaves faults t (Supervisor.printFailure context status) (fun _ w => Outside t w) w
  := by
  cases status with
  | error message => apply behaves_call rfl hout
  | ok _ => exact fun w' hrely => hout.rely hrely

theorem behaves_apiReadyAfter {apiReady signalPending : Bool} (hout : Outside t w) :
  Behaves faults t (Supervisor.apiReadyAfter apiReady signalPending) (fun _ w => Outside t w) w
  := by
  unfold Supervisor.apiReadyAfter
  split
  · apply behaves_call rfl hout
  · exact fun w' hrely => hout.rely hrely

/-- The supervisor supervises until the API server or a signal ends it. -/
theorem behaves_supervise (executablePath : Bytes) (args : List Bytes) (hout : Outside t w) :
  Behaves faults t
    (Prog.repeatUntil (Supervisor.supervise (processController executablePath args)) ())
    (fun _ w => Outside t w) w
  := by
  apply Prog.wp_repeatUntil (fun _ w => Outside t w) (fun _ _ _ => Outside.rely) hout
  intro _ w hout
  apply behaves_bind
  apply behaves_mono _ (behaves_invoke executablePath args .reapExited false hout _)
  · intro _ w h
    apply behaves_bind
    apply behaves_mono _ (behaves_call rfl h.toOutside)
    intro apiReady w hout
    apply behaves_bind
    apply behaves_mono _ (behaves_call rfl hout)
    intro signal w hout
    apply behaves_bind
    apply behaves_mono _ (behaves_apiReadyAfter hout)
    intro apiReadyAfterSignal w hout
    split
    · apply behaves_pure
      intro w₁ hrely₁ w₂ hrely₂
      apply hout.rely (hrely₁.trans hrely₂)
    · apply behaves_bind
      apply behaves_mono _ (behaves_call rfl hout)
      intro _ w hout
      apply behaves_pure
      exact fun w' hrely => hout.rely hrely
  · rintro ⟨⟩

/-- The code for success is only that of a supervisor that has stopped the daemon. -/
theorem behaves_conclude (executablePath : Bytes) (args : List Bytes)
    {exitReason : SupervisorExitReason} {stopStatus : Status} (hout : Outside t w) :
  Behaves faults t
    (Supervisor.conclude (processController executablePath args) exitReason stopStatus)
    (fun code w => Outside t w ∧ (code = 0 → stopStatus = .ok ())) w
  := by
  apply behaves_bind
  apply behaves_mono _ (behaves_invoke executablePath args .reapExited false hout _)
  · intro _ w h
    apply behaves_bind
    apply behaves_mono _ (behaves_call rfl h.toOutside)
    intro _ w hout
    apply behaves_bind
    apply behaves_mono _ (behaves_call rfl hout)
    intro outcome w hout
    apply behaves_bind
    apply behaves_mono _ (behaves_printFailure hout)
    intro _ w hout
    apply behaves_bind
    apply behaves_mono _ (behaves_printFailure hout)
    intro _ w hout
    split
    · apply behaves_pure
      exact fun w' hrely => ⟨hout.rely hrely, fun _ => rfl⟩
    · apply behaves_pure
      exact fun w' hrely => ⟨hout.rely hrely, fun hcode => by cases hcode⟩
  · rintro ⟨⟩

/-- The supervisor shuts down: where it ends with the code for success, no child is left. -/
theorem behaves_shutDown (executablePath : Bytes) (args : List Bytes)
    {exitReason : SupervisorExitReason} (hout : Outside t w) :
  Behaves faults t (Supervisor.shutDown (processController executablePath args) exitReason)
    (fun code w => Outside t w ∧ (code = 0 → w.Sealed)) w
  := by
  apply behaves_bind
  apply behaves_mono _ (behaves_invoke executablePath args .requestShutdown false hout _)
  · intro _ w hrequest
    apply behaves_bind
    apply behaves_perform (A := fun w => Outside t w ∧ w.shutdownRequested = true) rfl _ _ _
      hrequest.inv ⟨hrequest.toOutside, hrequest.requested rfl⟩
    · rintro w w' hrely ⟨hout, hrequested⟩
      exact ⟨hout.rely hrely, hrely.requested hrequested⟩
    · intro _ _
      trivial
    · rintro _ w - ⟨hout, hrequested⟩
      apply behaves_bind
      apply behaves_mono _ (behaves_invoke executablePath args (.stop 5000) true hout
        fun _ => hrequested)
      intro stopStatus w hstop
      apply behaves_mono _
        (behaves_sealed (behaves_conclude executablePath args hstop.toOutside) (hstop.sealed rfl))
      rintro code w ⟨⟨hout, hok⟩, hsealed⟩
      exact ⟨hout, fun hcode => hsealed (hok hcode)⟩
  · rintro ⟨⟩

theorem behaves_runSupervisor (executablePath : Bytes) (args : List Bytes) {apiPort : Int32}
    (hout : Outside t w) :
  Behaves faults t (Supervisor.runSupervisor (processController executablePath args) apiPort)
    (fun code w => Outside t w ∧ (code = 0 → w.Sealed)) w
  := by
  apply behaves_bind
  apply behaves_mono _ (behaves_invoke executablePath args .start false hout _)
  · intro startStatus w h
    apply behaves_bind
    apply behaves_mono _ (behaves_printFailure h.toOutside)
    intro _ w hout
    apply behaves_bind
    apply behaves_mono _ (behaves_call rfl hout)
    intro _ w hout
    apply behaves_bind
    apply behaves_mono _ (behaves_supervise executablePath args hout)
    intro exitReason w hout
    apply behaves_bind
    apply behaves_mono _ (behaves_shutDown executablePath args hout)
    rintro code w ⟨hout, hsealed⟩
    apply behaves_bind
    apply behaves_mono _ (behaves_sealed
      (behaves_invoke executablePath args .destroy false hout _) hsealed)
    · rintro _ w ⟨h, hsealed⟩
      apply behaves_pure
      exact fun w' hrely => ⟨h.toOutside.rely hrely, fun hcode => hrely.sealed (hsealed hcode)⟩
    · rintro ⟨⟩
  · rintro ⟨⟩

theorem behaves_giveUp {text : Bytes} (hout : Outside t w) :
  Behaves faults t (Supervisor.giveUp text) (fun code w => Outside t w ∧ (code = 0 → w.Sealed)) w
  := by
  apply behaves_bind
  apply behaves_mono _ (behaves_call rfl hout)
  intro _ w hout
  apply behaves_pure
  exact fun w' hrely => ⟨hout.rely hrely, fun hcode => by cases hcode⟩

/-- The main program: where it ends with the code for success, no child is left. -/
theorem behaves_main (argv : List Bytes) (hout : Outside t w) :
  Behaves faults t (Supervisor.main processController argv)
    (fun code w => Outside t w ∧ (code = 0 → w.Sealed)) w
  := by
  apply behaves_bind
  apply behaves_mono _ (behaves_call rfl hout)
  intro installed w hout
  split
  · apply behaves_giveUp hout
  · split
    · apply behaves_giveUp hout
    · apply behaves_bind
      apply behaves_mono _ (behaves_call rfl hout)
      rintro (message | _) w hout
      · apply behaves_giveUp hout
      · apply behaves_bind
        apply behaves_mono _ (behaves_call rfl hout)
        rintro (message | _) w hout
        · apply behaves_giveUp hout
        · apply behaves_runSupervisor _ _ hout

theorem behaves_process (argv : List Bytes) (hout : Outside t w) :
  Behaves faults t (Supervisor.process processController argv) (fun _ _ => True) w
  := by
  apply behaves_bind
  apply behaves_mono _ (behaves_main argv hout)
  rintro code w ⟨hout, hsealed⟩
  apply behaves_perform (A := fun w => Outside t w ∧ (code = 0 → w.Sealed)) rfl _ _ _ hout.inv
    ⟨hout, hsealed⟩
  · rintro w w' hrely ⟨hout, hsealed⟩
    exact ⟨hout.rely hrely, fun hcode => hrely.sealed (hsealed hcode)⟩
  · rintro w ⟨-, hsealed⟩ hcode
    exact (hsealed hcode).2
  · intro _ _ _ _
    trivial

/-! ### All threads -/

omit [DecidableEq Tid] in
theorem outside_start :
  Outside t (start : Host Tid)
  := ⟨inv_start, by rintro ⟨⟩⟩

theorem safe_clients (faults : WaitFaults) (executablePath : Bytes) (args : List Bytes) :
  Threads.Safe (controllers faults : Threads.System Tid _ _ _) (contract faults)
    (clientsStart executablePath args)
  := fun _ => behaves_client executablePath args outside_start

theorem safe_supervisor (faults : WaitFaults) (argv : List Bytes) :
  Threads.Safe (controllers faults : Threads.System (Option Tid) _ _ _) (contract faults)
    (supervisorStart argv)
  := by
  rintro (_ | t)
  · apply behaves_process argv outside_start
  · apply behaves_client _ _ outside_start

/-- What every call and every child that ends keeps holds in every configuration that is reached. -/
theorem invariant_of_reaches {J : Host Tid → Prop}
    (hstep : ∀ t call w a w', w.Inv → Guard faults t w call → Step faults t call w a w' →
      J w → J w')
    (hends : ∀ (w : Host Tid) children, w.children.Ends children → J w → J { w with children })
    {c c' : SupervisorConfig Tid} (hsafe : Threads.Safe (controllers faults) (contract faults) c)
    (hJ : J c.world) (hreach : Threads.Reaches (controllers faults) c c') :
  J c'.world
  := by
  apply Threads.invariant_of_reaches (respects faults) _ _ _ hsafe hJ hreach
  · exact fun t call w a w' hguard => hstep t call w a w' hguard.1 hguard.2
  · rintro w _ ⟨children, hchildren, rfl⟩
    apply hends w children hchildren
  · rintro _ _ _ ⟨⟩

theorem inv_of_reaches {c c' : SupervisorConfig Tid}
    (hsafe : Threads.Safe (controllers faults) (contract faults) c) (hinv : c.world.Inv)
    (hreach : Threads.Reaches (controllers faults) c c') :
  c'.world.Inv
  := by
  apply invariant_of_reaches _ _ hsafe hinv hreach
  · exact fun _ _ _ _ _ hinv hguard hstep _ => hinv.step hguard hstep
  · exact fun _ _ hends hinv => hinv.ends hends

end Host

end OpcuaServer
