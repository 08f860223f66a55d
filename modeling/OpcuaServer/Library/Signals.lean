import Mathlib.Data.Finset.Erase
import Mathlib.Data.Finset.Insert
import Mathlib.Tactic.Common

/-!
# Signals of a process

A process has a mask of signals that are blocked, an action for each signal, and a set of signals
that are pending. A pending signal is delivered once the mask does not block it. One signal, `kill`,
is never blocked or handled.

`HandsOver` is the invariant of a process that is forked with some signals blocked, takes the
default action for them, sets the mask that it is to have and then executes another program: none
of these signals is handled in it, and none that is sent to it is lost (`HandsOver.answered`).
-/

namespace Signals

/-- What a process does when a signal is delivered to it. -/
inductive Action where
  /-- The process is terminated. -/
  | default
  | handler
  deriving DecidableEq

/-- What has become of a process since it was forked. -/
inductive Stage (S : Type) where
  | forked
  | executed
  | terminated (signal : S)
  | exited (code : Int32)

/-- A process, as far as signals go. -/
structure Process (S : Type) where
  mask : Finset S
  action : S → Action
  pending : Finset S
  /-- The signals whose handlers have run. -/
  caught : Finset S
  stage : Stage S

variable {S : Type} [DecidableEq S]

namespace Process

/-- A process that has just been forked has the mask and the actions of the one that forked it, and
no pending signals. -/
def fork (mask : Finset S) (action : S → Action) : Process S where
  mask := mask
  action := action
  pending := ∅
  caught := ∅
  stage := .forked

/-- A signal is sent to the process. -/
def send (p : Process S) (s : S) : Process S :=
  { p with pending := insert s p.pending }

/-- The signal is pending and not blocked. -/
def Deliverable (kill : S) (p : Process S) (s : S) : Prop :=
  s ∈ p.pending ∧ (s = kill ∨ s ∉ p.mask)

/-- No signal is about to be delivered, so that the process can make its next call. -/
def Undisturbed (kill : S) (p : Process S) : Prop :=
  ∀ s, ¬ p.Deliverable kill s

/-- A signal is delivered. -/
def deliver (kill : S) (p : Process S) (s : S) : Process S :=
  if s ≠ kill ∧ p.action s = .handler then
    { p with pending := p.pending.erase s, caught := insert s p.caught }
  else { p with pending := p.pending.erase s, stage := .terminated s }

/-- The default action is installed for a signal. -/
def setDefault (p : Process S) (s : S) : Process S :=
  { p with action := Function.update p.action s .default }

/-- The mask is set. -/
def setMask (p : Process S) (mask : Finset S) : Process S :=
  { p with mask }

/-- The process executes another program: the mask and the pending signals stay, the handlers go. -/
def exec (p : Process S) : Process S :=
  { p with action := fun _ => .default, stage := .executed }

/-- The process exits. -/
def exit (p : Process S) (code : Int32) : Process S :=
  { p with stage := .exited code }

end Process

/-- The process has the mask, and the default action for the signals of the set. -/
def Restored (D mask : Finset S) (p : Process S) : Prop :=
  p.mask = mask ∧ ∀ s ∈ D, p.action s = .default

/-- The signals of `D` are handed over to the process, which is to have the mask: `sent` are those
that were sent to it before it executed another program, and `killed` says that `kill` was. -/
structure HandsOver (kill : S) (D mask : Finset S) (killed : Prop) (sent : Finset S)
    (p : Process S) : Prop where
  sent_subset : sent ⊆ D
  pending_subset : p.pending ⊆ insert kill sent
  of_kill : kill ∈ p.pending → killed
  caught : p.caught = ∅
  shielded : p.stage = .forked → D ⊆ p.mask ∨ Restored D mask p
  kept : p.stage = .forked ∨ p.stage = .executed → sent ⊆ p.pending
  executed : p.stage = .executed → Restored D mask p ∧ sent ⊆ mask
  terminated : ∀ s, p.stage = .terminated s →
    (s = kill ∧ killed) ∨ (s ∈ sent ∧ s ∉ mask ∧ Restored D mask p)

/-- What has become of a signal that was sent to the process: it has terminated it, it is still
pending where another program is executed with a mask that blocks it, or the process has exited or
was terminated by another signal. -/
inductive Answered (kill : S) (mask : Finset S) (killed : Prop) (sent : Finset S) (p : Process S)
    (s : S) : Prop where
  | terminated : p.stage = .terminated s → s ∉ mask → Answered kill mask killed sent p s
  | kept : p.stage = .executed → s ∈ p.pending → s ∈ mask → Answered kill mask killed sent p s
  | exited (code : Int32) : p.stage = .exited code → Answered kill mask killed sent p s
  | other (s' : S) : s' ≠ s → p.stage = .terminated s' → s' ∈ sent → s' ∉ mask →
      Answered kill mask killed sent p s
  | killed : p.stage = .terminated kill → killed → Answered kill mask killed sent p s

variable {kill : S} {D mask : Finset S} {killed killed' : Prop} {sent : Finset S} {p : Process S}

omit [DecidableEq S] in
/-- A process whose pending signals are blocked is undisturbed. -/
theorem Process.undisturbed_of_subset (hmask : p.pending ⊆ p.mask) (hkill : kill ∉ p.pending) :
  p.Undisturbed kill
  := by
  rintro s ⟨hs, rfl | hblocked⟩
  · apply hkill hs
  · apply hblocked (hmask hs)

theorem Restored.setDefault (h : Restored D mask p) (s : S) :
  Restored D mask (p.setDefault s)
  := by
  obtain ⟨hmask, haction⟩ := h
  use hmask
  intro s' hs'
  by_cases heq : s' = s
  · subst heq
    apply Function.update_self
  · apply (Function.update_of_ne heq ..).trans
    apply haction s' hs'

namespace HandsOver

/-- A process is forked while the signals are blocked. -/
theorem fork {mask' : Finset S} (hD : D ⊆ mask') (action : S → Action) :
  HandsOver kill D mask killed ∅ (Process.fork mask' action)
  where
  sent_subset := Finset.empty_subset _
  pending_subset := Finset.empty_subset _
  of_kill h := absurd h (Finset.notMem_empty _)
  caught := rfl
  shielded _ := .inl hD
  kept _ := Finset.empty_subset _
  executed h := nomatch h
  terminated _ h := nomatch h

theorem mono (hkilled : killed → killed') (h : HandsOver kill D mask killed sent p) :
  HandsOver kill D mask killed' sent p
  where
  sent_subset := h.sent_subset
  pending_subset := h.pending_subset
  of_kill hp := hkilled (h.of_kill hp)
  caught := h.caught
  shielded := h.shielded
  kept := h.kept
  executed := h.executed
  terminated s hs := (h.terminated s hs).imp (And.imp_right hkilled) id

/-- One of the signals is sent before another program is executed. -/
theorem send (h : HandsOver kill D mask killed sent p) (hstage : p.stage = .forked)
    (hkill : kill ∉ D) {s : S} (hs : s ∈ D) :
  HandsOver kill D mask killed (insert s sent) (p.send s)
  where
  sent_subset := Finset.insert_subset hs h.sent_subset
  pending_subset := by
    rw [Finset.insert_comm]
    apply Finset.insert_subset_insert s h.pending_subset
  of_kill hp := by
    rcases Finset.mem_insert.mp hp with heq | hp
    · apply absurd (heq ▸ hs) hkill
    · apply h.of_kill hp
  caught := h.caught
  shielded := h.shielded
  kept _ := Finset.insert_subset_insert s (h.kept (.inl hstage))
  executed hexec := nomatch hstage.symm.trans hexec
  terminated s' hs' := nomatch hstage.symm.trans hs'

/-- The process is killed. -/
theorem sendKill (h : HandsOver kill D mask killed sent p) (hkilled : killed) :
  HandsOver kill D mask killed sent (p.send kill)
  where
  sent_subset := h.sent_subset
  pending_subset := Finset.insert_subset (Finset.mem_insert_self _ _) h.pending_subset
  of_kill _ := hkilled
  caught := h.caught
  shielded := h.shielded
  kept hstage := (h.kept hstage).trans (Finset.subset_insert _ _)
  executed := h.executed
  terminated := h.terminated

/-- A signal that is delivered is `kill`, or one that was sent and is not blocked any more, for
which the default action has been installed. -/
theorem deliverable (h : HandsOver kill D mask killed sent p)
    (hstage : p.stage = .forked ∨ p.stage = .executed) {s : S} (hs : p.Deliverable kill s) :
  (s = kill ∧ killed) ∨ (s ∈ sent ∧ s ∉ mask ∧ Restored D mask p)
  := by
  obtain ⟨hpending, hblocked⟩ := hs
  rcases Finset.mem_insert.mp (h.pending_subset hpending) with rfl | hsent
  · exact .inl ⟨rfl, h.of_kill hpending⟩
  rcases hblocked with rfl | hblocked
  · exact .inl ⟨rfl, h.of_kill hpending⟩
  rcases hstage with hstage | hstage
  · rcases h.shielded hstage with hshield | hrestored
    · apply absurd (hshield (h.sent_subset hsent)) hblocked
    · exact .inr ⟨hsent, hrestored.1 ▸ hblocked, hrestored⟩
  · obtain ⟨hrestored, hmask⟩ := h.executed hstage
    rw [hrestored.1] at hblocked
    apply absurd (hmask hsent) hblocked

/-- A signal that is delivered terminates the process. -/
theorem deliver_eq (h : HandsOver kill D mask killed sent p)
    (hstage : p.stage = .forked ∨ p.stage = .executed) {s : S} (hs : p.Deliverable kill s) :
  p.deliver kill s = { p with pending := p.pending.erase s, stage := .terminated s }
  := by
  rw [Process.deliver, if_neg]
  rintro ⟨hne, hhandler⟩
  rcases h.deliverable hstage hs with ⟨rfl, _⟩ | ⟨hsent, _, hrestored⟩
  · exact hne rfl
  · have hdefault := hrestored.2 s (h.sent_subset hsent)
    rw [hhandler] at hdefault
    cases hdefault

theorem deliver_stage (h : HandsOver kill D mask killed sent p)
    (hstage : p.stage = .forked ∨ p.stage = .executed) {s : S} (hs : p.Deliverable kill s) :
  (p.deliver kill s).stage = .terminated s
  := by rw [h.deliver_eq hstage hs]

/-- A signal is delivered. -/
theorem deliver (h : HandsOver kill D mask killed sent p)
    (hstage : p.stage = .forked ∨ p.stage = .executed) {s : S} (hs : p.Deliverable kill s) :
  HandsOver kill D mask killed sent (p.deliver kill s)
  := by
  rw [h.deliver_eq hstage hs]
  constructor
  · apply h.sent_subset
  · apply (Finset.erase_subset _ _).trans h.pending_subset
  · intro hp
    apply h.of_kill (Finset.mem_of_mem_erase hp)
  · apply h.caught
  · rintro ⟨⟩
  · rintro (⟨⟨⟩⟩ | ⟨⟨⟩⟩)
  · rintro ⟨⟩
  · rintro _ ⟨⟩
    apply h.deliverable hstage hs

/-- A call of a process that has not come to its end leaves the signals that are pending and those
that were handled as they are. -/
theorem call (h : HandsOver kill D mask killed sent p) (hstage : p.stage = .forked) {p' : Process S}
    (hpending : p'.pending = p.pending) (hcaught : p'.caught = p.caught)
    (hshielded : p'.stage = .forked → D ⊆ p'.mask ∨ Restored D mask p')
    (hexecuted : p'.stage = .executed → Restored D mask p' ∧ sent ⊆ mask)
    (hterminated : ∀ s, p'.stage ≠ .terminated s) :
  HandsOver kill D mask killed sent p'
  where
  sent_subset := h.sent_subset
  pending_subset := hpending ▸ h.pending_subset
  of_kill := hpending ▸ h.of_kill
  caught := hcaught.trans h.caught
  shielded := hshielded
  kept _ := hpending ▸ h.kept (.inl hstage)
  executed := hexecuted
  terminated s hs := absurd hs (hterminated s)

/-- The default action is installed for a signal. -/
theorem setDefault (h : HandsOver kill D mask killed sent p) (hstage : p.stage = .forked) (s : S) :
  HandsOver kill D mask killed sent (p.setDefault s)
  := by
  apply h.call hstage
  · rfl
  · rfl
  · intro hforked
    apply (h.shielded hforked).imp id
    exact fun hrestored => hrestored.setDefault s
  · exact fun hexec => nomatch hstage.symm.trans hexec
  · exact fun _ hs => nomatch hstage.symm.trans hs

/-- The mask that the process is to have is set once the default actions have been installed. -/
theorem setMask (h : HandsOver kill D mask killed sent p) (hstage : p.stage = .forked)
    (haction : ∀ s ∈ D, p.action s = .default) :
  HandsOver kill D mask killed sent (p.setMask mask)
  := by
  apply h.call hstage
  · rfl
  · rfl
  · exact fun _ => .inr ⟨rfl, haction⟩
  · exact fun hexec => nomatch hstage.symm.trans hexec
  · exact fun _ hs => nomatch hstage.symm.trans hs

/-- Another program is executed with the mask that the process is to have: the signals that are
still pending are those that the mask blocks. -/
theorem exec (h : HandsOver kill D mask killed sent p) (hstage : p.stage = .forked)
    (hrestored : Restored D mask p) (hundisturbed : p.Undisturbed kill) :
  HandsOver kill D mask killed sent p.exec
  := by
  apply h.call hstage
  · rfl
  · rfl
  · rintro ⟨⟩
  · intro _
    use ⟨hrestored.1, fun _ _ => rfl⟩
    intro s hs
    by_contra hblocked
    apply hundisturbed s
    exact ⟨h.kept (.inl hstage) hs, .inr (hrestored.1 ▸ hblocked)⟩
  · rintro s ⟨⟩

/-- The process exits. -/
theorem exit (h : HandsOver kill D mask killed sent p) (hstage : p.stage = .forked)
    (code : Int32) :
  HandsOver kill D mask killed sent (p.exit code)
  := by
  apply h.call hstage
  · rfl
  · rfl
  · rintro ⟨⟩
  · rintro ⟨⟩
  · rintro s ⟨⟩

/-- No signal is lost: once the process has executed another program or come to its end, it is known
what has become of every signal that was sent to it before. -/
theorem answered (h : HandsOver kill D mask killed sent p) (hstage : p.stage ≠ .forked) {s : S}
    (hs : s ∈ sent) :
  Answered kill mask killed sent p s
  := by
  cases hp : p.stage with
  | forked => apply absurd hp hstage
  | executed =>
    apply Answered.kept hp (h.kept (.inr hp) hs)
    apply (h.executed hp).2 hs
  | exited code => apply Answered.exited code hp
  | terminated s' =>
    rcases h.terminated s' hp with ⟨rfl, hkilled⟩ | ⟨hsent, hmask, _⟩
    · apply Answered.killed hp hkilled
    · by_cases heq : s' = s
      · subst heq
        apply Answered.terminated hp hmask
      · apply Answered.other s' heq hp hsent hmask

end HandsOver

end Signals
