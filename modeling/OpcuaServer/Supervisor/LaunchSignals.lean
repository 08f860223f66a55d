import OpcuaServer.Supervisor.LaunchRuns

/-!
# No shutdown signal is lost in a launch

In every run of `StartUnlocked`, whichever of its calls fail and whenever shutdown signals are sent
to the child that it forks, the handlers of the supervisor do not run in the child, and the child
executes the daemon with the original mask and the default actions. A signal that is sent before
that stays pending until the child can be terminated by it, or until the daemon is executed with a
mask that blocks it (`signalsHandedOver`).

The child can come to another end first: it exits where it cannot go on, the other signal terminates
it, or it is killed where the calling thread could not set its mask again
(`not_endsByOwnSignal`).
-/

namespace OpcuaServer

open Forking Signal Signals

namespace Launch

variable {action : Signal → Action} {originalMask : SignalSet} {w w' : Launch} {c c' : LaunchConfig}

/-- The child has come to its end or executes the daemon, and it is known what has become of every
signal that was sent to it before. -/
def Settled (originalMask : SignalSet) (w : Launch) : Prop :=
  ∃ p, w.child = some p ∧ p.stage ≠ .forked ∧
    ∀ s ∈ w.sent, Answered sigKill originalMask (w.restoreFailed = true) w.sent p s

/-- The signals are handed over to the child, and the mask of the calling thread is restored. -/
structure SignalsHandedOver (action : Signal → Action) (originalMask : SignalSet)
    (c : LaunchConfig) : Prop where
  /-- `StartUnlocked` returns with the original mask, unless a call that sets it again failed. -/
  restored : ∀ r, c.progs .parent = some (.ret r) →
    c.world.mask = originalMask ∨ c.world.restoreFailed = true
  /-- No handler runs in the child. -/
  uncaught : ∀ p, c.world.child = some p → p.caught = ∅
  /-- The signals that are sent before the daemon is executed stay pending. -/
  pending : ∀ p, c.world.child = some p → p.stage = .forked → c.world.sent ⊆ p.pending
  /-- The child comes to `execv` with the original mask and the default actions. -/
  execv : ∀ p path argv k, c.world.child = some p →
    c.progs .child = some (.call (.inr (.execv path argv)) k) →
    Restored shutdownSignals originalMask p
  /-- The signals stay pending while the daemon is executed if the original mask blocks them. -/
  executed : ∀ p, c.world.child = some p → p.stage = .executed →
    Restored shutdownSignals originalMask p ∧ c.world.sent ⊆ p.pending ∩ originalMask
  /-- A signal terminates the child once the default actions and the original mask, which does not
  block it, are in place. The child is killed only if the mask of the calling thread could not be
  set again. -/
  terminated : ∀ p s, c.world.child = some p → p.stage = .terminated s →
    (s = sigKill ∧ c.world.restoreFailed = true) ∨
      (s ∈ c.world.sent ∧ s ∉ originalMask ∧ Restored shutdownSignals originalMask p)
  /-- The child exits only where it could not go on. -/
  exited : ∀ p code, c.world.child = some p → p.stage = .exited code → code = 126 ∨ code = 127
  /-- However the calling thread goes on and whenever signals are sent, the child comes to its end or
  executes the daemon, and no signal is lost. -/
  settles : c.world.child ≠ none →
    Inevitable (launching action) .child (fun c => c.world.Settled originalMask) c

/-! ### The child settles -/

/-- The child has come to its end or executes the daemon. -/
def Over (w : Launch) : Prop :=
  ∃ p, w.child = some p ∧ p.stage ≠ .forked

theorem OnTrack.settled_iff (h : OnTrack action originalMask c) :
  c.world.Settled originalMask ↔ c.world.Over
  := by
  constructor
  · rintro ⟨p, hp, hstage, _⟩
    exact ⟨p, hp, hstage⟩
  · rintro ⟨p, hp, hstage⟩
    exact ⟨p, hp, hstage, fun s hs => (h.inv.handsOver p hp).answered hstage hs⟩

/-- A signal that is delivered brings the child to its end. -/
theorem Inv.over_deliver (h : w.Inv originalMask) {p : Process Signal} {s : Signal}
    (hp : w.child = some p) (hstage : p.stage = .forked ∨ p.stage = .executed)
    (hs : p.Deliverable sigKill s) :
  Over { w with child := some (p.deliver sigKill s) }
  := by
  use p.deliver sigKill s, rfl
  rw [(h.handsOver p hp).deliver_stage hstage hs]
  rintro ⟨⟩

/-- There stays a child once one has been forked. -/
theorem child_ne_none {l : Option Side} (hstep : Forking.Step (launching action) l c c')
    (h : c.world.child ≠ none) :
  c'.world.child ≠ none
  := by
  cases hstep with
  | call _ hcall => exact fun hnone => h (child_of_step hcall hnone).2
  | fork _ _ hfork =>
    cases hfork
    rintro ⟨⟩
  | leave _ hleave => cases hleave <;> rintro ⟨⟩
  | loop => apply h
  | env henv => cases henv <;> rintro ⟨⟩

/-- A child that has come to its end or executes the daemon does not go back. -/
theorem OnTrack.over_step (h : OnTrack action originalMask c) {l : Option Side}
    (hstep : Forking.Step (launching action) l c c') (hover : c.world.Over) :
  c'.world.Over
  := by
  obtain ⟨p, hp, hstage⟩ := hover
  have hacts : ∀ {p'}, ¬ c.world.Acts p' := by
    rintro p' ⟨hp', hforked, _⟩
    cases hp.symm.trans hp'
    apply hstage hforked
  cases hstep with
  | @call progs w w' t _ _ _ _ hcall =>
    cases t with
    | parent =>
      have hne : w'.child ≠ none := by
        intro hnone
        cases hp.symm.trans (child_of_step hcall hnone).2
      obtain ⟨p', hp'⟩ := Option.ne_none_iff_exists'.mp hne
      obtain ⟨_, hbefore, hsame⟩ := stage_step hcall hp'
      cases hp.symm.trans hbefore
      exact ⟨p', hp', hsame ▸ hstage⟩
    | child =>
      obtain ⟨_, hacting⟩ := acts_of_step hcall
      cases hacts hacting
  | fork _ _ hfork =>
    cases hfork with
    | fork hnone => cases hp.symm.trans hnone
  | leave _ hleave =>
    cases hleave with
    | execv hacting => cases hacts hacting
    | exit hacting => cases hacts hacting
  | loop => exact ⟨p, hp, hstage⟩
  | env henv =>
    cases henv with
    | send _ hp' hforked =>
      cases hp.symm.trans hp'
      apply absurd hforked hstage
    | deliver hp' hstage' hs => apply h.inv.over_deliver hp' hstage' hs

/-- A child that has not come to its end can move. -/
theorem OnTrack.child_moves (h : OnTrack action originalMask c) {p : Process Signal}
    (hp : c.world.child = some p) (hstage : p.stage = .forked) :
  ∃ c', Forking.Step (launching action) (some .child) c c'
  := by
  have hresp := respects action originalMask
  obtain ⟨q, hq, hstraight⟩ := h.child p hp hstage
  obtain ⟨progs, w⟩ := c
  by_cases hundisturbed : p.Undisturbed sigKill
  · have hacts : w.Acts p := ⟨hp, hstage, hundisturbed⟩
    cases q with
    | ret a => cases h.safe.post hresp hq
    | call call k =>
      have hguard := h.safe.guard hresp hq
      match call, hguard with
      | .inr (.sigaction s), _ => exact ⟨_, .call hq (.sigaction hacts)⟩
      | .inr (.sigprocmask set), _ => exact ⟨_, .call hq (.sigprocmask hacts)⟩
      | .inr (.execv path argv), _ => exact ⟨_, .leave hq (.execv hacts)⟩
      | .inr (.exit code), _ => exact ⟨_, .leave hq (.exit hacts)⟩
    | loop => cases hstraight
  · obtain ⟨s, hs⟩ := not_forall_not.mp hundisturbed
    exact ⟨_, .env (.deliver hp (.inl hstage) hs)⟩

/-- A move of the child is a call that brings it on, or settles it. -/
theorem OnTrack.child_step (h : OnTrack action originalMask c) (hchild : c.world.child ≠ none)
    (hstep : Forking.Step (launching action) (some .child) c c') (hover : ¬ c'.world.Over) :
  ∃ call k a, c.progs .child = some (.call call k) ∧ InChildAnswer call a ∧
    c'.progs .child = some (k a)
  := by
  have hforked : ∃ p, c.world.child = some p ∧ p.stage = .forked := by
    obtain ⟨p, hp⟩ := Option.ne_none_iff_exists'.mp hchild
    by_contra hnot
    apply hover (h.over_step hstep ⟨p, hp, _⟩)
    exact fun hstage => hnot ⟨p, hp, hstage⟩
  obtain ⟨p, hp, hstage⟩ := hforked
  generalize hl : some Side.child = l at hstep
  cases hstep with
  | call hprog hcall =>
    cases hl
    exact ⟨_, _, _, hprog, inChildAnswer_of_step hcall, rfl⟩
  | fork _ _ hfork =>
    cases hfork
    cases hl
  | leave _ hleave => cases hleave <;> exact absurd ⟨_, rfl, nofun⟩ hover
  | loop hprog =>
    cases hl
    obtain ⟨q, hq, hstraight⟩ := h.child p hp hstage
    cases hprog.symm.trans hq
    cases hstraight
  | env henv =>
    cases henv with
    | send => cases hl
    | deliver hp' hstage' hs => apply absurd (h.inv.over_deliver hp' hstage' hs) hover

/-- The child settles, however the others move. -/
theorem OnTrack.settles (h : OnTrack action originalMask c) (hchild : c.world.child ≠ none) :
  Inevitable (launching action) .child (fun c => c.world.Settled originalMask) c
  := by
  let J (c : LaunchConfig) : Prop := OnTrack action originalMask c ∧ c.world.child ≠ none
  have hJ : ∀ {l c c'}, J c → Forking.Step (launching action) l c c' → J c' :=
    fun hc hstep => ⟨hc.1.step hstep, child_ne_none hstep hc.2⟩
  have hQ : ∀ {l c c'}, J c → c.world.Settled originalMask →
      Forking.Step (launching action) l c c' → c'.world.Settled originalMask := by
    intro l c c' hc hsettled hstep
    apply (hc.1.step hstep).settled_iff.mpr
    apply hc.1.over_step hstep (hc.1.settled_iff.mp hsettled)
  obtain ⟨p, hp⟩ := Option.ne_none_iff_exists'.mp hchild
  by_cases hstage : p.stage = .forked
  · obtain ⟨q, hq, hstraight⟩ := h.child p hp hstage
    apply inevitable_of_straight hJ hQ _ _ hstraight ⟨h, hchild⟩ hq
    · rintro c ⟨hc, hchild⟩ hnot
      obtain ⟨p, hp⟩ := Option.ne_none_iff_exists'.mp hchild
      apply hc.child_moves hp
      by_contra hstage
      apply hnot (hc.settled_iff.mpr ⟨p, hp, hstage⟩)
    · rintro c c' hc hstep hnot
      apply hc.1.child_step hc.2 hstep
      exact fun hover => hnot ((hJ hc hstep).1.settled_iff.mpr hover)
  · apply inevitable_of_met hJ hQ ⟨h, hchild⟩
    apply h.settled_iff.mpr ⟨p, hp, hstage⟩

/-! ### The signals are handed over -/

/-- Every run of `StartUnlocked` hands the shutdown signals over to the child that it forks and
restores the mask of the calling thread. -/
theorem signalsHandedOver {executablePath : Bytes} {args : List Bytes} {self : Controller}
    (hreach : Reaches (launching action) (launchStart executablePath args self originalMask) c) :
  SignalsHandedOver action originalMask c
  := by
  have hresp := respects action originalMask
  have h := onTrack_of_reaches hreach
  constructor
  · intro r hr
    apply h.safe.post hresp hr
  · intro p hp
    apply (h.inv.handsOver p hp).caught
  · intro p hp hstage
    apply (h.inv.handsOver p hp).kept (.inl hstage)
  · intro p path argv k hp hprog
    apply h.safe.guard hresp hprog p hp
  · intro p hp hstage
    obtain ⟨hrestored, hmask⟩ := (h.inv.handsOver p hp).executed hstage
    use hrestored
    apply Finset.subset_inter ((h.inv.handsOver p hp).kept (.inr hstage)) hmask
  · intro p s hp
    apply (h.inv.handsOver p hp).terminated s
  · intro p code hp
    apply h.inv.exited p code hp
  · apply h.settles

/-! ### Runs with two ends -/

/-- Where its threads are once a launch has forked the child with the pid 7, in a process that
handles the shutdown signals and does not block them. -/
theorem reaches_forked :
  ∃ progs k, Reaches (launching fun _ => .handler) (launchStart [] [] {} ∅)
      ⟨progs, ⟨∅ ∪ shutdownSignals, false, 7,
        some (.fork (∅ ∪ shutdownSignals) fun _ => .handler), ∅⟩⟩ ∧
    progs .parent = some (.call (.inr (.pthreadSigmask .setMask ∅)) k) ∧
    (∀ error, k (.error error) = Controller.abandonChild 7 error {}) ∧
    (∀ old, ∃ r, k (.ok old) = .ret r) ∧
    progs .child = some (Controller.runChild [] [[]] ∅ {})
  := by
  have h₀ : Reaches (launching fun _ => .handler) (launchStart [] [] {} ∅)
      (launchStart [] [] {} ∅) := .refl
  have h₁ := h₀.call rfl (.loadShutdownRequested (b := false))
  have h₂ := h₁.call rfl (.quiet (a := (.ok () : Except OsError Unit)) rfl)
  have h₃ := h₂.call rfl (.quiet (a := (.ok () : Except OsError Unit)) rfl)
  have h₄ := h₃.call rfl (.quiet (a := (.ok () : Except OsError Unit)) rfl)
  have h₅ := h₄.call rfl (.quiet (a := (.ok () : Except OsError Unit)) rfl)
  have h₆ := h₅.call rfl .pthreadSigmask
  have hfork : Fork (fun _ => .handler) .parent .child (.inr .fork)
      ⟨∅ ∪ shutdownSignals, false, -1, none, ∅⟩ (.parent 7) .child
      ⟨∅ ∪ shutdownSignals, false, 7, some (.fork (∅ ∪ shutdownSignals) fun _ => .handler), ∅⟩ :=
    .fork rfl
  have h₇ := h₆.fork rfl rfl hfork
  exact ⟨_, _, h₇, rfl, fun _ => rfl, fun _ => ⟨_, rfl⟩, rfl⟩

/-- A child to which `SIGTERM` is sent can be killed. -/
theorem reaches_killed :
  ∃ c, Reaches (launching fun _ => .handler) (launchStart [] [] {} ∅) c ∧
    c.world.restoreFailed = true ∧ c.world.sent = {sigTerm} ∧
    ∃ p, c.world.child = some p ∧ p.stage = .terminated sigKill
  := by
  obtain ⟨progs, k, h, hparent, hfails, -, -⟩ := reaches_forked
  have error : OsError := ⟨.esrch, []⟩
  have h₁ := h.env (.send (s := sigTerm) (by decide) rfl rfl)
  have h₂ := h₁.call hparent (@Step.pthreadSigmaskFails _ _ _ error)
  have habandon : Function.update progs .parent (some (k (.error error))) .parent
      = some (Controller.abandonChild 7 error {}) :=
    (Function.update_self ..).trans (congrArg some (hfails error))
  have h₃ := h₂.call habandon .kill
  have h₄ := h₃.env (.deliver (s := sigKill) rfl (.inl rfl) ⟨by decide, .inl rfl⟩)
  exact ⟨_, h₄, rfl, rfl, _, rfl, rfl⟩

/-- A child to which both signals are sent can be terminated by `SIGINT`, while `StartUnlocked`
returns with the original mask. -/
theorem reaches_interrupted :
  ∃ c, Reaches (launching fun _ => .handler) (launchStart [] [] {} ∅) c ∧
    c.world.restoreFailed = false ∧ c.world.sent = {sigInt, sigTerm} ∧
    (∃ r, c.progs .parent = some (.ret r)) ∧
    ∃ p, c.world.child = some p ∧ p.stage = .terminated sigInt
  := by
  obtain ⟨progs, k, h, hparent, -, hok, hchild⟩ := reaches_forked
  have h₁ := h.env (.send (s := sigTerm) (by decide) rfl rfl)
  have h₂ := h₁.env (.send (s := sigInt) (by decide) rfl rfl)
  have hundisturbed : ∀ {p : Process Signal}, p.pending = {sigInt, sigTerm} →
      p.mask = ∅ ∪ shutdownSignals → p.Undisturbed sigKill := by
    intro p hpending hmask
    apply Process.undisturbed_of_subset
    · rw [hpending, hmask]
      decide
    · rw [hpending]
      decide
  have h₃ := h₂.call hchild (.sigaction ⟨rfl, rfl, hundisturbed rfl rfl⟩)
  have h₄ := h₃.call rfl (.sigaction ⟨rfl, rfl, hundisturbed rfl rfl⟩)
  have h₅ := h₄.call rfl (.sigprocmask ⟨rfl, rfl, hundisturbed rfl rfl⟩)
  have h₆ := h₅.env (.deliver (s := sigInt) rfl (.inl rfl) ⟨by decide, .inr (by decide)⟩)
  have h₇ := h₆.call (t := Side.parent) hparent .pthreadSigmask
  obtain ⟨r, hr⟩ := hok (∅ ∪ shutdownSignals)
  exact ⟨_, h₇, rfl, rfl, ⟨r, congrArg some hr⟩, _, rfl, rfl⟩

/-- Every signal that was sent to the child before it executed the daemon has terminated it, or is
pending where the daemon is executed with a mask that blocks it, unless the child has exited. -/
def EndsByOwnSignal (originalMask : SignalSet) (w : Launch) : Prop :=
  ∀ p, w.child = some p → p.stage ≠ .forked → ∀ s ∈ w.sent,
    p.stage = .terminated s ∨ (p.stage = .executed ∧ s ∈ p.pending ∧ s ∈ originalMask) ∨
      p.stage = .exited 126 ∨ p.stage = .exited 127

/-- A child that another signal has terminated does not end by its own. -/
theorem not_endsByOwnSignal_of_terminated {p : Process Signal} {s s' : Signal}
    (hp : w.child = some p) (hstage : p.stage = .terminated s') (hs : s ∈ w.sent) (hne : s' ≠ s) :
  ¬ w.EndsByOwnSignal originalMask
  := by
  intro h
  have hover : p.stage ≠ .forked := by
    rw [hstage]
    rintro ⟨⟩
  rcases h p hp hover s hs with hs' | ⟨hs', _⟩ | hs' | hs'
  · cases hstage.symm.trans hs'
    apply hne rfl
  · cases hstage.symm.trans hs'
  · cases hstage.symm.trans hs'
  · cases hstage.symm.trans hs'

/-- A signal that was sent does not always terminate the child: the child is killed where the
calling thread could not set its mask again, and only one of two signals terminates it. -/
theorem not_endsByOwnSignal :
  (∃ c, Reaches (launching fun _ => .handler) (launchStart [] [] {} ∅) c ∧
    c.world.restoreFailed = true ∧ ¬ c.world.EndsByOwnSignal ∅) ∧
  ∃ c, Reaches (launching fun _ => .handler) (launchStart [] [] {} ∅) c ∧
    c.world.restoreFailed = false ∧ ¬ c.world.EndsByOwnSignal ∅
  := by
  constructor
  · obtain ⟨c, hreach, hfailed, hsent, p, hp, hstage⟩ := reaches_killed
    use c, hreach, hfailed
    apply not_endsByOwnSignal_of_terminated (s := sigTerm) hp hstage
    · rw [hsent]
      decide
    · decide
  · obtain ⟨c, hreach, hrestored, hsent, _, p, hp, hstage⟩ := reaches_interrupted
    use c, hreach, hrestored
    apply not_endsByOwnSignal_of_terminated (s := sigTerm) hp hstage
    · rw [hsent]
      decide
    · decide

/-- `StartUnlocked` returns with the original mask, and the child to which both signals were sent
has been terminated by one of them. -/
theorem signalsHandedOver_interrupted :
  ∃ c, Reaches (launching fun _ => .handler) (launchStart [] [] {} ∅) c ∧
    (∃ r, c.progs .parent = some (.ret r)) ∧
    (∃ p, c.world.child = some p ∧ p.stage = .terminated sigInt) ∧
    SignalsHandedOver (fun _ => .handler) ∅ c
  := by
  obtain ⟨c, hreach, _, _, hreturned, hchild⟩ := reaches_interrupted
  use c, hreach, hreturned, hchild
  apply signalsHandedOver hreach

end Launch

end OpcuaServer
