import OpcuaServer.Library.Termination
import OpcuaServer.Supervisor.ProcessController

/-!
# Rules for programs under the mutex

`Locked.Keeps` is the weakest precondition of a program that has locked the mutex of a controller,
with the members in its postcondition. `Locked.EndsIn` says that every run of such a program comes to
an end.
-/

namespace OpcuaServer

namespace Locked

variable {F OsCall : Type} {OsAnswer : OsCall → Type} {W α β σ : Type}

/-- A program that has locked the mutex, with the given members, makes its calls where their guards
hold and ends as `Q` says. -/
def Keeps (step : (call : ControllerCall F ⊕ OsCall) → W →
      Sum.elim ControllerCall.Answer OsAnswer call → W → Prop)
    (rely : W → W → Prop) (guard : ControllerCall F ⊕ OsCall → W → Prop)
    (p : Locked F OsCall OsAnswer α) (Q : α → F → W → Prop) (fields : F) (w : W) : Prop :=
  (p fields).wp step rely guard (fun r w => Q r.1 r.2 w) w

variable {step : (call : ControllerCall F ⊕ OsCall) → W →
    Sum.elim ControllerCall.Answer OsAnswer call → W → Prop}
  {rely : W → W → Prop} {guard : ControllerCall F ⊕ OsCall → W → Prop}
  {Q : α → F → W → Prop} {fields : F} {w : W}

theorem Keeps.mono {p : Locked F OsCall OsAnswer α} {Q' : α → F → W → Prop}
    (hQ : ∀ a fields w, Q a fields w → Q' a fields w)
    (h : Keeps step rely guard p Q fields w) :
  Keeps step rely guard p Q' fields w
  := Prog.wp_mono (fun r w => hQ r.1 r.2 w) h

theorem keeps_pure {a : α} (h : ∀ w', rely w w' → Q a fields w') :
  Keeps step rely guard (pure a) Q fields w
  := h

theorem keeps_set {Q : PUnit → F → W → Prop} {fields' : F} (h : ∀ w', rely w w' → Q () fields' w') :
  Keeps step rely guard (set fields') Q fields w
  := h

theorem keeps_bind (hrefl : ∀ w, rely w w) {p : Locked F OsCall OsAnswer β}
    {f : β → Locked F OsCall OsAnswer α}
    (h : Keeps step rely guard p (fun b fields w => Keeps step rely guard (f b) Q fields w)
      fields w) :
  Keeps step rely guard (p >>= f) Q fields w
  := Prog.wp_bind hrefl h

theorem keeps_get {f : F → Locked F OsCall OsAnswer α}
    (h : Keeps step rely guard (f fields) Q fields w) :
  Keeps step rely guard (get >>= f) Q fields w
  := h

theorem keeps_set_bind {fields' : F} {f : PUnit → Locked F OsCall OsAnswer α}
    (h : Keeps step rely guard (f ()) Q fields' w) :
  Keeps step rely guard (set fields' >>= f) Q fields w
  := h

/-- A call of the system. -/
theorem keeps_systemCall {call : OsCall} {f : OsAnswer call → Locked F OsCall OsAnswer α}
    (h : ∀ w', rely w w' → guard (.inr call) w' ∧ ∀ a w'', step (.inr call) w' a w'' →
      Keeps step rely guard (f a) Q fields w'') :
  Keeps step rely guard (systemCall call >>= f) Q fields w
  := h

theorem keeps_loadShutdownRequested {f : Bool → Locked F OsCall OsAnswer α}
    (h : ∀ w', rely w w' → guard (.inl .loadShutdownRequested) w' ∧
      ∀ a w'', step (.inl .loadShutdownRequested) w' a w'' →
        Keeps step rely guard (f a) Q fields w'') :
  Keeps step rely guard (loadShutdownRequested >>= f) Q fields w
  := h

/-- A loop whose body preserves an invariant and ends in the postcondition. -/
theorem keeps_repeatUntil (hrefl : ∀ w, rely w w)
    (htrans : ∀ w₁ w₂ w₃, rely w₁ w₂ → rely w₂ w₃ → rely w₁ w₃)
    {body : σ → Locked F OsCall OsAnswer (σ ⊕ α)} {s : σ} (I : σ → F → W → Prop)
    (hstable : ∀ s fields w w', rely w w' → I s fields w → I s fields w') (hs : I s fields w)
    (hbody : ∀ s fields w, I s fields w →
      Keeps step rely guard (body s) (fun r fields w => r.elim (fun s => I s fields w) fun a =>
        ∀ w', rely w w' → Q a fields w') fields w) :
  Keeps step rely guard (Locked.repeatUntil body s) Q fields w
  := by
  apply Prog.wp_repeatUntil (fun p w => I p.1 p.2 w) (fun p => hstable p.1 p.2) hs
  rintro ⟨s, fields⟩ w hI
  apply Prog.wp_bind hrefl
  apply Prog.wp_mono _ (hbody s fields w hI)
  rintro ⟨s' | a, fields'⟩ w' hr w'' hrely
  · apply hstable s' fields' w' w'' hrely hr
  · intro w₃ hrely'
    apply hr w₃ (htrans _ _ _ hrely hrely')

/-! ### Programs that come to an end -/

/-- Every run of a program that has locked the mutex, with the given members, comes to an end, as `Q`
says. -/
def EndsIn (step : (call : ControllerCall F ⊕ OsCall) → W →
      Sum.elim ControllerCall.Answer OsAnswer call → W → Prop)
    (Q : α → F → W → Prop) (p : Locked F OsCall OsAnswer α) (fields : F) (w : W) : Prop :=
  (p fields).EndsIn step (fun r w => Q r.1 r.2 w) w

theorem EndsIn.mono {p : Locked F OsCall OsAnswer α} {Q' : α → F → W → Prop}
    (hQ : ∀ a fields w, Q a fields w → Q' a fields w) (h : EndsIn step Q p fields w) :
  EndsIn step Q' p fields w
  := Prog.EndsIn.mono (fun r w => hQ r.1 r.2 w) h

theorem endsIn_pure {a : α} (h : Q a fields w) :
  EndsIn step Q (pure a) fields w
  := .ret h

theorem endsIn_set {Q : PUnit → F → W → Prop} {fields' : F} (h : Q () fields' w) :
  EndsIn step Q (set fields') fields w
  := .ret h

theorem endsIn_set_bind {fields' : F} {f : PUnit → Locked F OsCall OsAnswer α}
    (h : EndsIn step Q (f ()) fields' w) :
  EndsIn step Q (set fields' >>= f) fields w
  := h

theorem endsIn_get {f : F → Locked F OsCall OsAnswer α} (h : EndsIn step Q (f fields) fields w) :
  EndsIn step Q (get >>= f) fields w
  := h

theorem endsIn_bind {p : Locked F OsCall OsAnswer β} {f : β → Locked F OsCall OsAnswer α}
    {R : β → F → W → Prop} (hp : EndsIn step R p fields w)
    (hf : ∀ b fields w, R b fields w → EndsIn step Q (f b) fields w) :
  EndsIn step Q (p >>= f) fields w
  := Prog.EndsIn.bind (hp.mono hf)

/-- A call of the system. -/
theorem endsIn_systemCall {call : OsCall} {f : OsAnswer call → Locked F OsCall OsAnswer α}
    (hexists : ∃ a w', step (.inr call) w a w')
    (hf : ∀ a w', step (.inr call) w a w' → EndsIn step Q (f a) fields w') :
  EndsIn step Q (systemCall call >>= f) fields w
  := .call hexists hf

theorem endsIn_loadShutdownRequested {f : Bool → Locked F OsCall OsAnswer α}
    (hexists : ∃ a w', step (.inl .loadShutdownRequested) w a w')
    (hf : ∀ a w', step (.inl .loadShutdownRequested) w a w' → EndsIn step Q (f a) fields w') :
  EndsIn step Q (loadShutdownRequested >>= f) fields w
  := .call hexists hf

/-- A program that is run under the mutex. -/
theorem endsIn_guarded {p : Locked F OsCall OsAnswer α} {Q : α → W → Prop}
    (hlock : ∃ fields w', step (.inl .lock) w fields w')
    (hp : ∀ fields w', step (.inl .lock) w fields w' →
      EndsIn step (fun a fields w => (∃ u w', step (.inl (.unlock fields)) w u w') ∧
        ∀ u w', step (.inl (.unlock fields)) w u w' → Q a w') p fields w') :
  Prog.EndsIn step Q (guarded p) w
  := by
  apply Prog.EndsIn.call hlock
  intro fields w' hstep
  apply Prog.EndsIn.bind (p := p fields)
  apply Prog.EndsIn.mono _ (hp fields w' hstep)
  rintro ⟨a, fields'⟩ w ⟨hunlock, hQ⟩
  apply Prog.EndsIn.call hunlock
  intro u w' hstep
  exact .ret (hQ u w' hstep)

/-- A loop whose iterations decrease a number, and end in the postcondition otherwise. -/
theorem endsIn_repeatUntil {body : σ → Locked F OsCall OsAnswer (σ ⊕ α)} (I : ℕ → σ → F → W → Prop)
    (hbody : ∀ n s fields w, I n s fields w →
      EndsIn step (fun r fields w => r.elim (fun s => ∃ m < n, I m s fields w) fun a => Q a fields w)
        (body s) fields w)
    {n : ℕ} {s : σ} (hs : I n s fields w) :
  EndsIn step Q (Locked.repeatUntil body s) fields w
  := by
  refine Prog.endsIn_repeatUntil (fun n p w => I n p.1 p.2 w) ?_ hs
  rintro n ⟨s, fields⟩ w hI
  apply Prog.EndsIn.bind
  apply Prog.EndsIn.mono _ (hbody n s fields w hI)
  rintro ⟨s' | a, fields'⟩ w' h
  · exact .ret h
  · exact .ret h

end Locked

end OpcuaServer
