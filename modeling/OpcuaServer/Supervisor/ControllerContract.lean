import OpcuaServer.Supervisor.ControllerSystem

/-!
# What the threads of a controller keep

While no thread holds the mutex, the members of the controller track the only child that has not
been reaped, and they say how the child that it last owned has ended (`Host.Inv`). No child is
forked after a shutdown but by a thread that has held the mutex since before (`Host.Cleared`), and
none at all once a later `Stop` has left none (`Host.Sealed`).
-/

namespace OpcuaServer

open Children

/-- The controller runs the only child that has not been reaped, or there is no such child. -/
inductive Controller.Tracks (ctl : Controller) (children : Children Reaper WaitStatus) : Prop where
  | nobody : ctl.status.state ≠ .running → ctl.childPid = -1 → children.Sole none →
      Tracks ctl children
  | child {n : ℕ} : ctl.status.state = .running → 0 < ctl.childPid → children.Sole (some n) →
      children.Refers ctl.childPid n → Tracks ctl children

open Controller

theorem Controller.Tracks.age {ctl : Controller} {children children' : Children Reaper WaitStatus}
    (h : ctl.Tracks children) (hage : children.Age children') :
  ctl.Tracks children'
  := by
  cases h with
  | nobody hstate hpid hsole => exact .nobody hstate hpid (hsole.age hage)
  | child hstate hpid hsole hrefers =>
    exact .child hstate hpid (hsole.age hage) (hage.refers_iff.mpr hrefers)

theorem Controller.Tracks.sole {ctl : Controller} {children : Children Reaper WaitStatus}
    (h : ctl.Tracks children) :
  ∃ o, children.Sole o
  := by
  cases h with
  | nobody _ _ hsole => exact ⟨_, hsole⟩
  | child _ _ hsole => exact ⟨_, hsole⟩

namespace Host

variable {Tid : Type}

/-- Where the controller has no child, its status is that of the child it last owned, if that one
has been reaped as a child that exited by itself. -/
def Recorded (ctl : Controller) (w : Host Tid) : Prop :=
  ctl.childPid = -1 → ∀ n status, w.owned = some n →
    w.children.life n = some (.reaped .reapExitedUnlocked status) →
    ctl.status = decodeExitedStatus status false

/-- The child of the controller is the one it last owned. -/
def Synced (ctl : Controller) (w : Host Tid) : Prop :=
  ∀ n, w.children.Refers ctl.childPid n → w.owned = some n

/-- A shutdown has been requested, and no thread holds the mutex since before. -/
def Gated (w : Host Tid) : Prop :=
  w.shutdownRequested = true ∧ w.pending = none

/-- The gate is closed, and no child is left to be reaped. -/
def Sealed (w : Host Tid) : Prop :=
  w.Gated ∧ w.children.Sole none

/-- The thread holds the mutex and has read that no shutdown is requested, and nobody has forked a
child after a shutdown has been requested. -/
structure Cleared (t : Tid) (w : Host Tid) : Prop where
  mutex : w.mutex = some t
  check : (w.trace t).check = some false
  pending : w.shutdownRequested = true → w.pending = some t
  forkedLate : w.forkedLate = 0

/-- What holds between the calls of the threads. -/
structure Inv (w : Host Tid) : Prop where
  free : w.mutex = none →
    w.controller.Tracks w.children ∧ Recorded w.controller w ∧ Synced w.controller w
  pending : ∀ t, w.pending = some t → w.mutex = some t
  forkedLate : w.forkedLate ≤ 1
  early : w.shutdownRequested = false → w.forkedLate = 0
  stopped : w.stopped → w.Sealed

theorem inv_start :
  (start : Host Tid).Inv
  where
  free _ := ⟨.nobody (by rintro ⟨⟩) rfl sole_nil, by rintro _ n status ⟨⟩, fun n hn =>
    (sole_nil.not_refers _ n hn).elim⟩
  pending := by rintro t ⟨⟩
  forkedLate := Nat.zero_le 1
  early _ := rfl
  stopped := by rintro ⟨⟩

/-- What is reported of the daemon is how the child that was owned has ended, if it has been reaped
as one that exited by itself, and that it runs if and only if it had not ended when it was waited
for. -/
structure Reported (faults : WaitFaults) (trace : Trace) (status : ProcessStatus) : Prop where
  ended : ∀ n waitStatus, trace.seen = some (n, .reaped .reapExitedUnlocked waitStatus) →
    status = decodeExitedStatus waitStatus false
  running : (∀ errno, ¬ faults .noHang errno) →
    (status.state = .running ↔ ∃ n, trace.waited = some (n, .alive))
  waited : ∀ n life, trace.waited = some (n, life) → ∃ life', trace.seen = some (n, life')
  reaped : (∀ errno, ¬ faults .noHang errno) → trace.waited = none →
    ∀ n life, trace.seen = some (n, life) → life.unreaped = false

/-- What a thread makes sure of when an operation returns. -/
def Returns (faults : WaitFaults) (t : Tid) (w : Host Tid) :
    (operation : Operation) → operation.Reply → Prop
  | .stop _, status => (w.trace t).late = true → status = .ok () → w.Sealed
  | .status, status => Reported faults (w.trace t) status
  | .requestShutdown, _ => w.shutdownRequested = true
  | _, _ => True

/-- Where the calls of a thread are made. -/
def Guard (faults : WaitFaults) (t : Tid) (w : Host Tid) :
    (ControllerCall Controller ⊕ PosixCall) ⊕ SupervisorCall → Prop
  | .inl (.inl (.unlock ctl)) => w.mutex = some t ∧ ctl.Tracks w.children ∧ Recorded ctl w
  | .inl (.inr .fork) => w.children.Sole none ∧ Cleared t w
  | .inl (.inr (.kill pid _)) => 0 < pid ∧ ∃ n, w.children.Refers pid n
  | .inl (.inr (.waitpid _ pid _)) => w.mutex = some t ∧ 0 < pid ∧ ∃ n, w.children.Refers pid n
  | .inr (.returned operation reply) =>
      w.mutex ≠ some t ∧ Returns faults t w operation reply
  | .inr (.exited code) => code = 0 → w.children.Sole none
  | _ => True

/-- What a thread relies on while the others move. -/
structure Rely (t : Tid) (w w' : Host Tid) : Prop where
  inv : w.Inv → w'.Inv
  mutex : w'.mutex = some t ↔ w.mutex = some t
  children : w.mutex = some t → w.children.Age w'.children
  owned : w.mutex = some t → w'.owned = w.owned
  trace : w'.trace t = w.trace t
  requested : w.shutdownRequested = true → w'.shutdownRequested = true
  cleared : Cleared t w → Cleared t w'
  gated : w.Gated → w'.Gated
  sealed : w.Sealed → w'.Sealed

theorem Rely.refl (t : Tid) (w : Host Tid) :
  Rely t w w
  where
  inv := id
  mutex := .rfl
  children _ := .refl _
  owned _ := rfl
  trace := rfl
  requested := id
  cleared := id
  gated := id
  sealed := id

theorem Rely.trans {t : Tid} {w₁ w₂ w₃ : Host Tid} (h : Rely t w₁ w₂) (h' : Rely t w₂ w₃) :
  Rely t w₁ w₃
  where
  inv := h'.inv ∘ h.inv
  mutex := h'.mutex.trans h.mutex
  children hmutex := (h.children hmutex).trans (h'.children (h.mutex.mpr hmutex))
  owned hmutex := (h'.owned (h.mutex.mpr hmutex)).trans (h.owned hmutex)
  trace := h'.trace.trans h.trace
  requested := h'.requested ∘ h.requested
  cleared := h'.cleared ∘ h.cleared
  gated := h'.gated ∘ h.gated
  sealed := h'.sealed ∘ h.sealed

/-! ### Steps -/

/-- A child that ends keeps the invariant. -/
theorem Inv.ends {w : Host Tid} (hinv : w.Inv) {children : Children Reaper WaitStatus}
    (h : w.children.Ends children) :
  Inv { w with children }
  := by
  have hage := h.age
  refine ⟨?_, hinv.pending, hinv.forkedLate, hinv.early, ?_⟩
  · intro hmutex
    obtain ⟨htracks, hrecorded, hsynced⟩ := hinv.free hmutex
    refine ⟨htracks.age hage, ?_, ?_⟩
    · intro hpid n status howned hlife
      apply hrecorded hpid n status howned (hage.reaped hlife)
    · intro n hrefers
      apply hsynced n (hage.refers_iff.mp hrefers)
  · intro hstopped
    obtain ⟨hgated, hsole⟩ := hinv.stopped hstopped
    exact ⟨hgated, hsole.age hage⟩

/-- The threads can rely on a child that ends. -/
theorem rely_of_ends {t : Tid} {w : Host Tid} {children : Children Reaper WaitStatus}
    (h : w.children.Ends children) :
  Rely t w { w with children }
  := ⟨fun hinv => hinv.ends h, .rfl, fun _ => h.age, fun _ => rfl, rfl, id,
    fun h => ⟨h.mutex, h.check, h.pending, h.forkedLate⟩, id, fun hsealed =>
      ⟨hsealed.1, hsealed.2.age h.age⟩⟩

section

variable [DecidableEq Tid] {faults : WaitFaults} {t : Tid} {w w' : Host Tid}
  {call : (ControllerCall Controller ⊕ PosixCall) ⊕ SupervisorCall}
  {a : Sum.elim (Sum.elim ControllerCall.Answer PosixCall.Answer) SupervisorCall.Answer call}

@[simp]
theorem note_trace_self (f : Trace → Trace) :
  (w.note t f).trace t = f (w.trace t)
  := Function.update_self ..

/-- What the controller is left with when the mutex is unlocked. -/
theorem free_release {ctl : Controller} (htracks : ctl.Tracks w.children)
    (hrecorded : Recorded ctl w) :
  ctl.Tracks (w.release t ctl).children ∧ Recorded ctl (w.release t ctl) ∧
    Synced ctl (w.release t ctl)
  := by
  refine ⟨htracks, ?_, ?_⟩
  · intro hpid n status howned
    apply hrecorded hpid n status
    cases htracks with
    | nobody _ _ hsole =>
      rw [← howned]
      simp [release, owner, find_eq_none (hsole.not_refers ctl.childPid)]
    | child _ hpos => omega
  · intro n hrefers
    cases htracks with
    | nobody _ _ hsole => cases hsole.not_refers _ _ hrefers
    | @child m _ _ hsole hm =>
      obtain rfl := Option.some.inj (hsole.eq hrefers)
      simp [release, owner, hsole.find_eq hm]

/-- A call that is made where its guard holds keeps the invariant. -/
theorem Inv.step (hinv : w.Inv) (hguard : Guard faults t w call)
    (h : Step faults t call w a w') :
  w'.Inv
  := by
  cases h with
  | lock hmutex =>
    refine ⟨by rintro ⟨⟩, ?_, hinv.forkedLate, hinv.early, hinv.stopped⟩
    intro t' hpending
    have hholds := hinv.pending t' hpending
    rw [hmutex] at hholds
    cases hholds
  | unlock hmutex =>
    refine ⟨fun _ => free_release hguard.2.1 hguard.2.2, by rintro t' ⟨⟩, hinv.forkedLate,
      hinv.early, ?_⟩
    intro hstopped
    obtain ⟨⟨hrequested, -⟩, hsole⟩ := hinv.stopped hstopped
    exact ⟨⟨hrequested, rfl⟩, hsole⟩
  | loadShutdownRequested =>
    exact ⟨hinv.free, hinv.pending, hinv.forkedLate, hinv.early, hinv.stopped⟩
  | storeShutdownRequested =>
    refine ⟨hinv.free, ?_, hinv.forkedLate, by rintro ⟨⟩, ?_⟩
    · intro t' hpending
      simp only [request] at hpending
      split at hpending
      · apply hinv.pending t' hpending
      · apply hpending
    · intro hstopped
      obtain ⟨⟨hrequested, hpending⟩, hsole⟩ := hinv.stopped hstopped
      refine ⟨⟨rfl, ?_⟩, hsole⟩
      simp only [request, hrequested, if_true]
      apply hpending
  | posix => apply hinv
  | forkFails => apply hinv
  | @fork w pid hfresh =>
    obtain ⟨hsole, hcleared⟩ := hguard
    refine ⟨?_, hinv.pending, ?_, ?_, ?_⟩
    · intro hmutex
      rw [fork, hcleared.mutex] at hmutex
      cases hmutex
    · simp only [fork, hcleared.forkedLate]
      split <;> omega
    · intro hrequested
      simp only [fork] at hrequested
      simp only [fork, hrequested]
      apply hinv.early hrequested
    · intro hstopped
      obtain ⟨⟨hrequested, hpending⟩, -⟩ := hinv.stopped hstopped
      rw [hcleared.pending hrequested] at hpending
      cases hpending
  | waitNotYet => exact ⟨hinv.free, hinv.pending, hinv.forkedLate, hinv.early, hinv.stopped⟩
  | waitChild hreaps =>
    refine ⟨?_, hinv.pending, hinv.forkedLate, hinv.early, ?_⟩
    · intro hmutex
      cases hguard.1.symm.trans hmutex
    · intro hstopped
      obtain ⟨hgated, hsole⟩ := hinv.stopped hstopped
      exact ⟨hgated, (hsole.reap hreaps).2⟩
  | waitFails => apply hinv
  | waitNobody => apply hinv
  | called => exact ⟨hinv.free, hinv.pending, hinv.forkedLate, hinv.early, hinv.stopped⟩
  | @returned w operation reply =>
    refine ⟨hinv.free, hinv.pending, hinv.forkedLate, hinv.early, ?_⟩
    rintro (hstopped | ⟨hok, hlate⟩)
    · apply hinv.stopped hstopped
    · cases operation with
      | stop timeout => apply hguard.2 hlate hok
      | _ => cases hok
  | supervisor => apply hinv

/-- What a thread comes upon is of no concern to the others. -/
theorem rely_note {t' : Tid} (ht : t' ≠ t) {f : Trace → Trace} (hinv : (w.note t f).Inv) :
  Rely t' w (w.note t f)
  := by
  refine ⟨fun _ => hinv, .rfl, fun _ => .refl _, fun _ => rfl, Function.update_of_ne ht _ _, id, ?_,
    id, id⟩
  intro hcleared
  exact ⟨hcleared.mutex, (congrArg Trace.check (Function.update_of_ne ht _ _)).trans hcleared.check,
    hcleared.pending, hcleared.forkedLate⟩

/-- The other threads can rely on a call that is made where its guard holds. -/
theorem Step.rely {t' : Tid} (ht : t' ≠ t) (hinv : w.Inv) (hguard : Guard faults t w call)
    (h : Step faults t call w a w') :
  Rely t' w w'
  := by
  have hinv' := hinv.step hguard h
  have hne : w.mutex = some t → ¬ w.mutex = some t' := by
    intro hmutex hmutex'
    rw [hmutex] at hmutex'
    apply ht (Option.some.inj hmutex').symm
  have hcleared : w.mutex = some t → ¬ Cleared t' w := fun hmutex hcleared =>
    hne hmutex hcleared.mutex
  cases h with
  | @lock w hmutex =>
    have hfree : ∀ {P : Prop}, w.mutex = some t' → P := by
      intro P hmutex'
      rw [hmutex] at hmutex'
      cases hmutex'
    refine ⟨fun _ => hinv', ?_, hfree, hfree, Function.update_of_ne ht _ _, id, fun h => hfree h.mutex,
      id, id⟩
    constructor
    · intro hmutex'
      cases ht (Option.some.inj hmutex').symm
    · apply hfree
  | unlock hmutex =>
    refine ⟨fun _ => hinv', ?_, fun h => (hne hmutex h).elim, fun h => (hne hmutex h).elim,
      Function.update_of_ne ht _ _, id, fun h => (hcleared hmutex h).elim, ?_, ?_⟩
    · constructor
      · rintro ⟨⟩
      · exact fun h => (hne hmutex h).elim
    · rintro ⟨hrequested, -⟩
      exact ⟨hrequested, rfl⟩
    · rintro ⟨⟨hrequested, -⟩, hsole⟩
      exact ⟨⟨hrequested, rfl⟩, hsole⟩
  | loadShutdownRequested => apply rely_note ht hinv'
  | @storeShutdownRequested w =>
    have hgated : w.Gated → w.request.Gated := by
      rintro ⟨hrequested, hpending⟩
      refine ⟨rfl, ?_⟩
      simp only [request, hrequested, if_true]
      apply hpending
    refine ⟨fun _ => hinv', .rfl, fun _ => .refl _, fun _ => rfl, rfl, fun _ => rfl, ?_, hgated,
      fun h => ⟨hgated h.1, h.2⟩⟩
    intro hcleared
    refine ⟨hcleared.mutex, hcleared.check, fun _ => ?_, hcleared.forkedLate⟩
    simp only [request]
    split
    · apply hcleared.pending
      assumption
    · apply hcleared.mutex
  | posix => exact .refl _ _
  | forkFails => exact .refl _ _
  | fork hfresh =>
    obtain ⟨hsole, hclear⟩ := hguard
    have hmutex := hclear.mutex
    refine ⟨fun _ => hinv', .rfl, fun h => (hne hmutex h).elim, fun _ => rfl, rfl, id,
      fun h => (hcleared hmutex h).elim, id, ?_⟩
    rintro ⟨⟨hrequested, hpending⟩, -⟩
    rw [hclear.pending hrequested] at hpending
    cases hpending
  | waitNotYet =>
    have hmutex := hguard.1
    exact ⟨fun _ => hinv', .rfl, fun h => (hne hmutex h).elim, fun _ => rfl,
      Function.update_of_ne ht _ _, id, fun h => (hcleared hmutex h).elim, id, id⟩
  | waitChild hreaps =>
    have hmutex := hguard.1
    exact ⟨fun _ => hinv', .rfl, fun h => (hne hmutex h).elim, fun _ => rfl,
      Function.update_of_ne ht _ _, id, fun h => (hcleared hmutex h).elim, id,
      fun h => ⟨h.1, (h.2.reap hreaps).2⟩⟩
  | waitFails => exact .refl _ _
  | waitNobody => exact .refl _ _
  | called => apply rely_note ht hinv'
  | returned =>
    exact ⟨fun _ => hinv', .rfl, fun _ => .refl _, fun _ => rfl, rfl, id,
      fun h => ⟨h.mutex, h.check, h.pending, h.forkedLate⟩, id, id⟩
  | supervisor => exact .refl _ _

end

/-- What a thread relies on and where it makes its calls. -/
def contract (faults : WaitFaults) :
    Threads.Contract Tid ((ControllerCall Controller ⊕ PosixCall) ⊕ SupervisorCall) (Host Tid) where
  rely := Rely
  guard t call w := w.Inv ∧ Guard faults t w call

theorem respects [DecidableEq Tid] (faults : WaitFaults) :
  Threads.Respects (controllers faults) (contract faults : Threads.Contract Tid _ _)
  where
  refl := Rely.refl
  trans _ _ _ _ := Rely.trans
  step ht hguard hstep := hstep.rely ht hguard.1 hguard.2
  env := by
    rintro t w _ ⟨children, hends, rfl⟩
    apply rely_of_ends hends
  halt := by rintro _ _ _ _ _ ⟨⟩

end Host

end OpcuaServer
