import OpcuaServer.Supervisor.LaunchRules

/-!
# Runs of a launch

What holds throughout a launch (`OnTrack`): the threads keep to their contract, the shutdown signals
are handed over to the child, and the child comes to no loop.
-/

namespace OpcuaServer

open Forking Signal Signals

namespace Launch

variable {action : Signal → Action} {originalMask : SignalSet} {w w' : Launch}

/-! ### The invariant of the child -/

/-- The signals are handed over to the child, which exits with the codes that say that it could not
go on. -/
structure Inv (originalMask : SignalSet) (w : Launch) : Prop where
  handsOver : ∀ p, w.child = some p →
    HandsOver sigKill shutdownSignals originalMask (w.restoreFailed = true) w.sent p
  exited : ∀ p code, w.child = some p → p.stage = .exited code → code = 126 ∨ code = 127
  unsent : w.child = none → w.sent = ∅

theorem sigKill_notMem :
  sigKill ∉ shutdownSignals
  := by decide

/-- The child goes on as another process to which the signals are handed over. -/
theorem inv_update {p : Process Signal} {sent : SignalSet}
    (hover : HandsOver sigKill shutdownSignals originalMask (w.restoreFailed = true) sent p)
    (hexited : ∀ code, p.stage = .exited code → code = 126 ∨ code = 127) :
  Inv originalMask { w with child := some p, sent }
  where
  handsOver := by
    rintro _ ⟨⟩
    apply hover
  exited := by
    rintro _ code ⟨⟩
    apply hexited code
  unsent hnone := nomatch hnone

theorem inv_start :
  (start originalMask).Inv originalMask
  where
  handsOver _ hp := nomatch hp
  exited _ _ hp := nomatch hp
  unsent _ := rfl

/-- A signal that the calling thread sends kills the child. -/
theorem Inv.signal (h : w.Inv originalMask) (hfailed : w.restoreFailed = true) (pid : ℤ) :
  (w.signal pid sigKill).Inv originalMask
  := by
  rw [Launch.signal]
  split
  · cases hchild : w.child with
    | none =>
      rw [Option.map_none, ← hchild]
      apply h
    | some p =>
      apply inv_update ((h.handsOver p hchild).sendKill hfailed)
      exact fun code => h.exited p code hchild
  · apply h

theorem inv_step {t : Side} {call : LaunchCall} {a : LaunchAnswer call}
    (hguard : Guard originalMask t call w) (hstep : Step t call w a w')
    (h : w.Inv originalMask) :
  w'.Inv originalMask
  := by
  have hforked : ∀ {p : Process Signal}, w.Acts p → ∀ code, p.stage = .exited code →
      code = 126 ∨ code = 127 := fun hacts _ hcode => nomatch hacts.2.1.symm.trans hcode
  cases hstep with
  | loadShutdownRequested | quiet | pthreadSigmask | forkFails | killFails | sigactionFails |
    sigprocmaskFails | execvFails => exact ⟨h.handsOver, h.exited, h.unsent⟩
  | pthreadSigmaskFails =>
    refine ⟨?_, h.exited, h.unsent⟩
    intro p hp
    apply (h.handsOver p hp).mono
    intro hfailed
    change (w.restoreFailed || _) = true
    rw [hfailed, Bool.true_or]
  | kill =>
    obtain ⟨rfl, hfailed⟩ := hguard
    apply h.signal hfailed
  | sigaction hacts =>
    apply inv_update ((h.handsOver _ hacts.1).setDefault hacts.2.1 _)
    apply hforked hacts
  | sigprocmask hacts =>
    obtain ⟨rfl, hdefault⟩ := hguard
    apply inv_update ((h.handsOver _ hacts.1).setMask hacts.2.1 (hdefault _ hacts.1))
    apply hforked hacts

theorem inv_fork {t t' : Side} {call : LaunchCall} {a b : LaunchAnswer call}
    (hguard : Guard originalMask t call w) (hfork : Fork action t t' call w a b w')
    (h : w.Inv originalMask) :
  w'.Inv originalMask
  := by
  cases hfork with
  | @fork _ pid hnone =>
    constructor
    · rintro _ ⟨⟩
      change HandsOver _ _ _ _ w.sent _
      rw [h.unsent hnone]
      apply HandsOver.fork hguard.1
    · rintro _ code ⟨⟩ ⟨⟩
    · rintro ⟨⟩

theorem inv_leave {t : Side} {call : LaunchCall} (hguard : Guard originalMask t call w)
    (hleave : Leave t call w w') (h : w.Inv originalMask) :
  w'.Inv originalMask
  := by
  cases hleave with
  | @execv _ p path argv hacts =>
    apply inv_update ((h.handsOver p hacts.1).exec hacts.2.1 (hguard p hacts.1) hacts.2.2)
    rintro code ⟨⟩
  | @exit _ p code hacts =>
    apply inv_update ((h.handsOver p hacts.1).exit hacts.2.1 code)
    rintro _ ⟨⟩
    apply hguard

theorem inv_env {l : Option Side} (henv : Env l w w') (h : w.Inv originalMask) :
  w'.Inv originalMask
  := by
  cases henv with
  | @send _ p s hs hp hstage =>
    apply inv_update ((h.handsOver p hp).send hstage sigKill_notMem hs)
    intro code hcode
    cases hstage.symm.trans hcode
  | @deliver _ p s hp hstage hs =>
    apply inv_update ((h.handsOver p hp).deliver hstage hs)
    rw [(h.handsOver p hp).deliver_stage hstage hs]
    rintro code ⟨⟩

/-! ### The child comes to no loop -/

/-- The answer is not the one with which `fork` comes back in the calling thread. -/
def InChildAnswer : (call : LaunchCall) → LaunchAnswer call → Prop
  | .inr .fork, a => ∀ pid, a ≠ Forked.parent pid
  | _, _ => True

/-- The program comes to no loop in the child. -/
def StraightChild {α : Type} (p : PosixLocked α) : Prop :=
  ∀ self, Straight InChildAnswer (p self)

theorem straight_pure {α : Type} (a : α) :
  StraightChild (pure a)
  := fun _ => trivial

theorem straight_set (self : Controller) :
  StraightChild (set self)
  := fun _ => trivial

theorem straight_bind {α β : Type} {p : PosixLocked α} {f : α → PosixLocked β}
    (hp : StraightChild p) (hf : ∀ a, StraightChild (f a)) :
  StraightChild (p >>= f)
  := fun self => Straight.bind (hp self) fun r => hf r.1 r.2

/-- A call of the system, with the answers that it has in the child. -/
theorem straight_call {α : Type} {call : PosixCall} {f : call.Answer → PosixLocked α}
    (h : ∀ a, InChildAnswer (.inr call) a → StraightChild (f a)) :
  StraightChild (Controller.posix call >>= f)
  := fun self a ha => h a ha self

theorem straight_reapExitedUnlocked :
  StraightChild Controller.reapExitedUnlocked
  := by
  unfold Controller.reapExitedUnlocked
  intro self
  change Straight _ ((if _ then _ else _ : PosixLocked Unit) self)
  split_ifs
  · trivial
  · trivial
  apply straight_call
  rintro (error | _ | ⟨pid, status⟩) -
  · dsimp only
    split_ifs
    · apply straight_set
    · apply straight_pure
  · apply straight_pure
  · dsimp only
    split_ifs
    · apply straight_set
    · apply straight_pure

theorem straight_prepareShutdownSignals :
  StraightChild Controller.prepareShutdownSignals
  := by
  unfold Controller.prepareShutdownSignals
  apply straight_call
  rintro (error | _) -
  · apply straight_pure
  apply straight_call
  rintro (error | _) -
  · apply straight_pure
  apply straight_call
  rintro (error | _) -
  · apply straight_pure
  · apply straight_pure

theorem straight_runChild {path : Bytes} {argv : List Bytes} :
  StraightChild (Controller.runChild path argv originalMask)
  := by
  have hexit : ∀ {code : Int32} {f : Empty → PosixLocked Status},
      StraightChild (Controller.posix (.exit code) >>= f) := fun {_ _} => straight_call nofun
  unfold Controller.runChild
  apply straight_call
  rintro (error | _) -
  · apply hexit
  apply straight_call
  rintro (error | _) -
  · apply hexit
  apply straight_call
  rintro (error | _) -
  · apply hexit
  apply straight_call
  rintro error -
  apply hexit

theorem straight_forkDaemon {path : Bytes} {argv : List Bytes} :
  StraightChild (Controller.forkDaemon path argv originalMask)
  := by
  unfold Controller.forkDaemon
  apply straight_call
  rintro (error | _ | pid) hanswer
  · apply straight_call
    rintro (error | _) -
    · apply straight_pure
    · apply straight_pure
  · apply straight_runChild
  · cases hanswer pid rfl

theorem straight_launch {executablePath : Bytes} {args : List Bytes} :
  StraightChild (Controller.launch executablePath args)
  := by
  unfold Controller.launch
  apply straight_bind straight_prepareShutdownSignals
  rintro (error | set)
  · apply straight_pure
  apply straight_call
  rintro (error | _) -
  · apply straight_pure
  apply straight_call
  rintro (error | mask) -
  · apply straight_pure
  · apply straight_forkDaemon

theorem straight_startUnlocked {executablePath : Bytes} {args : List Bytes} :
  StraightChild (Controller.startUnlocked executablePath args)
  := by
  unfold Controller.startUnlocked
  rintro self (_ | _) _
  · apply straight_bind straight_reapExitedUnlocked
    intro _ self
    change Straight _ ((if _ then _ else _ : PosixLocked Status) self)
    split_ifs
    · trivial
    · apply straight_launch
  · trivial

/-! ### Runs of a launch -/

/-- What holds throughout a launch: the threads keep to their contract, the signals are handed over,
and a child that has not come to its end comes to no loop. -/
structure OnTrack (action : Signal → Action) (originalMask : SignalSet) (c : LaunchConfig) :
    Prop where
  safe : Safe (launching action) (contract originalMask) c
  inv : c.world.Inv originalMask
  parent : c.world.child = none → ∃ p, c.progs .parent = some p ∧ Straight InChildAnswer p
  child : ∀ process, c.world.child = some process → process.stage = .forked →
    ∃ p, c.progs .child = some p ∧ Straight InChildAnswer p

variable {c c' : LaunchConfig}

theorem onTrack_start (executablePath : Bytes) (args : List Bytes) (self : Controller) :
  OnTrack action originalMask (launchStart executablePath args self originalMask)
  where
  safe := by
    rintro (_ | _) p hp
    · cases hp
      have halone : Alone originalMask (.parent, start originalMask) := ⟨rfl, rfl, rfl⟩
      apply Prog.wp_mono _ (keeps_startUnlocked halone)
      rintro r ⟨_, w⟩ ⟨rfl, hreturns⟩
      apply hreturns
    · cases hp
  inv := inv_start
  parent _ := ⟨_, rfl, straight_startUnlocked self⟩
  child _ hp := nomatch hp

/-- A call of the calling thread leaves the stage of the child as it is. -/
theorem stage_step {call : LaunchCall} {a : LaunchAnswer call} {p' : Process Signal}
    (h : Step .parent call w a w') (hp' : w'.child = some p') :
  ∃ p, w.child = some p ∧ p'.stage = p.stage
  := by
  cases h with
  | @kill _ pid s =>
    rw [Launch.signal] at hp'
    split at hp'
    · obtain ⟨p, hp, rfl⟩ := Option.map_eq_some_iff.mp hp'
      exact ⟨p, hp, rfl⟩
    · exact ⟨p', hp', rfl⟩
  | _ => exact ⟨p', hp', rfl⟩

/-- No call that comes back undoes a fork. -/
theorem child_of_step {t : Side} {call : LaunchCall} {a : LaunchAnswer call}
    (h : Step t call w a w') (hnone : w'.child = none) :
  t = .parent ∧ w.child = none
  := by
  cases h with
  | @kill _ pid s =>
    use rfl
    rw [Launch.signal] at hnone
    split at hnone
    · apply Option.map_eq_none_iff.mp hnone
    · apply hnone
  | sigactionFails hacts | sigprocmaskFails hacts | execvFails hacts =>
    cases hacts.1.symm.trans hnone
  | sigaction | sigprocmask => cases hnone
  | _ => exact ⟨rfl, hnone⟩

/-- The child makes its calls while it has not come to its end. -/
theorem acts_of_step {call : LaunchCall} {a : LaunchAnswer call} (h : Step .child call w a w') :
  ∃ p, w.Acts p
  := by
  cases h with
  | sigactionFails hacts => exact ⟨_, hacts⟩
  | sigaction hacts => exact ⟨_, hacts⟩
  | sigprocmaskFails hacts => exact ⟨_, hacts⟩
  | sigprocmask hacts => exact ⟨_, hacts⟩
  | execvFails hacts => exact ⟨_, hacts⟩

/-- A call that comes back once has an answer that it can have in the child. -/
theorem inChildAnswer_of_step {t : Side} {call : LaunchCall} {a : LaunchAnswer call}
    (h : Step t call w a w') :
  InChildAnswer call a
  := by
  cases h with
  | @quiet _ call a hquiet =>
    cases call with
    | fork => cases hquiet
    | _ => trivial
  | forkFails =>
    rintro pid ⟨⟩
  | _ => trivial

theorem OnTrack.call (h : OnTrack action originalMask c) {t : Side} {call : LaunchCall}
    {k : LaunchAnswer call → Prog LaunchCall LaunchAnswer (Status × Controller)}
    {a : LaunchAnswer call} (hprog : c.progs t = some (.call call k))
    (hcall : Step t call c.world a w') :
  (w'.child = none →
    ∃ p, Function.update c.progs t (some (k a)) .parent = some p ∧ Straight InChildAnswer p) ∧
  ∀ process, w'.child = some process → process.stage = .forked →
    ∃ p, Function.update c.progs t (some (k a)) .child = some p ∧ Straight InChildAnswer p
  := by
  have hnext : ∀ {p}, c.progs t = some p → Straight InChildAnswer p →
      Straight InChildAnswer (k a) := by
    intro p hp hstraight
    cases hprog.symm.trans hp
    apply hstraight a (inChildAnswer_of_step hcall)
  constructor
  · intro hnone
    obtain ⟨rfl, hnone⟩ := child_of_step hcall hnone
    obtain ⟨p, hp, hstraight⟩ := h.parent hnone
    exact ⟨k a, Function.update_self .., hnext hp hstraight⟩
  · intro process hprocess hstage
    cases t with
    | parent =>
      obtain ⟨before, hbefore, hsame⟩ := stage_step hcall hprocess
      obtain ⟨p, hp, hstraight⟩ := h.child before hbefore (hsame.symm.trans hstage)
      exact ⟨p, (Function.update_of_ne (by decide) ..).trans hp, hstraight⟩
    | child =>
      obtain ⟨before, hacts⟩ := acts_of_step hcall
      obtain ⟨p, hp, hstraight⟩ := h.child before hacts.1 hacts.2.1
      exact ⟨k a, Function.update_self .., hnext hp hstraight⟩

/-- A step of a launch keeps it on track. -/
theorem OnTrack.step (h : OnTrack action originalMask c) {l : Option Side}
    (hstep : Forking.Step (launching action) l c c') :
  OnTrack action originalMask c'
  := by
  have hresp := respects action originalMask
  have hinv := h.safe.invariant hresp inv_step inv_fork inv_leave inv_env hstep h.inv
  have hsafe := h.safe.step hresp hstep
  cases hstep with
  | call hprog hcall =>
    obtain ⟨hparent, hchild⟩ := h.call hprog hcall
    exact ⟨hsafe, hinv, hparent, hchild⟩
  | @fork _ w w' _ _ _ k _ _ hprog hnone hfork =>
    cases hfork with
    | @fork _ pid hchild =>
      refine ⟨hsafe, hinv, nofun, ?_⟩
      intro _ _ _
      obtain ⟨p, hp, hstraight⟩ := h.parent hchild
      cases hprog.symm.trans hp
      use k .child
      constructor
      · rfl
      · apply hstraight
        rintro pid ⟨⟩
  | leave hprog hleave =>
    refine ⟨hsafe, hinv, ?_, ?_⟩
    · intro hnone
      cases hleave <;> cases hnone
    · intro process hprocess hstage
      cases hleave <;> cases hprocess <;> cases hstage
  | @loop progs w t _ _ body s k hprog =>
    have hloop : ∀ {p}, progs t = some p → ¬ Straight InChildAnswer p := by
      intro p hp hstraight
      cases hprog.symm.trans hp
      apply hstraight
    have hother : ∀ {u p}, progs u = some p → Straight InChildAnswer p →
        Function.update progs t (some (body s >>= Prog.resume body k)) u = some p := by
      intro u p hp hstraight
      apply (Function.update_of_ne _ ..).trans hp
      rintro rfl
      apply hloop hp hstraight
    refine ⟨hsafe, hinv, ?_, ?_⟩
    · intro hnone
      obtain ⟨p, hp, hstraight⟩ := h.parent hnone
      exact ⟨p, hother hp hstraight, hstraight⟩
    · intro process hprocess hstage
      obtain ⟨p, hp, hstraight⟩ := h.child process hprocess hstage
      exact ⟨p, hother hp hstraight, hstraight⟩
  | env henv =>
    cases henv with
    | send _ hp hstage => exact ⟨hsafe, hinv, nofun, fun _ _ _ => h.child _ hp hstage⟩
    | @deliver _ p s hp hstage hs =>
      refine ⟨hsafe, hinv, nofun, ?_⟩
      rintro _ ⟨⟩ hforked
      rw [(h.inv.handsOver p hp).deliver_stage hstage hs] at hforked
      cases hforked

/-- Every configuration of a launch is on track. -/
theorem onTrack_of_reaches {executablePath : Bytes} {args : List Bytes} {self : Controller}
    (hreach : Reaches (launching action) (launchStart executablePath args self originalMask) c) :
  OnTrack action originalMask c
  := by
  induction hreach with
  | refl => apply onTrack_start
  | tail _ hstep ih =>
    obtain ⟨_, hstep⟩ := hstep
    apply ih.step hstep

end Launch

end OpcuaServer
