import OpcuaServer.Library.Program

/-!
# Programs that come to an end

`EndsIn step Q p w` says that every run of the program `p` from the world `w` comes to an end, as `Q`
says: each of its calls has an answer, and no loop is repeated for ever.
-/

namespace Prog

variable {Op : Type} {Ans : Op → Type} {W α β σ : Type} {step : (op : Op) → W → Ans op → W → Prop}

/-- Every run of the program from the world comes to an end, as `Q` says. -/
inductive EndsIn (step : (op : Op) → W → Ans op → W → Prop) {α : Type} (Q : α → W → Prop) :
    Prog Op Ans α → W → Prop where
  | ret {a : α} {w : W} : Q a w → EndsIn step Q (.ret a) w
  | call {op : Op} {k : Ans op → Prog Op Ans α} {w : W} :
      (∃ a w', step op w a w') → (∀ a w', step op w a w' → EndsIn step Q (k a) w') →
      EndsIn step Q (.call op k) w
  | loop {σ β : Type} {body : σ → Prog Op Ans (σ ⊕ β)} {s : σ} {k : β → Prog Op Ans α} {w : W} :
      EndsIn step Q (body s >>= resume body k) w → EndsIn step Q (.loop body s k) w

variable {Q Q' : α → W → Prop} {w : W}

theorem EndsIn.mono {p : Prog Op Ans α} (hQ : ∀ a w, Q a w → Q' a w) (h : EndsIn step Q p w) :
  EndsIn step Q' p w
  := by
  induction h with
  | ret hret => exact .ret (hQ _ _ hret)
  | call hexists _ ih => exact .call hexists ih
  | loop _ ih => exact .loop ih

/-- The first program ends where the second can start. -/
theorem EndsIn.bind {p : Prog Op Ans α} {f : α → Prog Op Ans β} {R : β → W → Prop}
    (h : EndsIn step (fun a w => EndsIn step R (f a) w) p w) :
  EndsIn step R (p >>= f) w
  := by
  induction h with
  | ret hret => apply hret
  | call hexists _ ih => exact .call hexists ih
  | @loop σ γ body s k w _ ih =>
    apply EndsIn.loop
    have hresume : (fun r => resume body k r >>= f) = resume body fun b => k b >>= f := by
      funext r
      cases r <;> rfl
    rw [bind_assoc, hresume] at ih
    apply ih

/-- What the calls of the program keep holds at its end too. -/
theorem EndsIn.frame {p : Prog Op Ans α} {J : W → Prop}
    (hstep : ∀ op w a w', step op w a w' → J w → J w') (h : EndsIn step Q p w) (hJ : J w) :
  EndsIn step (fun a w => Q a w ∧ J w) p w
  := by
  induction h with
  | ret hret => exact .ret ⟨hret, hJ⟩
  | call hexists _ ih => exact .call hexists fun a w' hcall => ih a w' hcall (hstep _ _ a w' hcall hJ)
  | loop _ ih => exact .loop (ih hJ)

/-- A single call. -/
theorem endsIn_perform {op : Op} {Q : Ans op → W → Prop} (hexists : ∃ a w', step op w a w')
    (h : ∀ a w', step op w a w' → Q a w') :
  EndsIn step Q (perform op) w
  := .call hexists fun a w' hstep => .ret (h a w' hstep)

/-- A loop whose iterations decrease a number, and end in the postcondition otherwise. -/
theorem endsIn_repeatUntil {body : σ → Prog Op Ans (σ ⊕ α)} (I : ℕ → σ → W → Prop)
    (hbody : ∀ n s w, I n s w →
      EndsIn step (fun r w => r.elim (fun s => ∃ m < n, I m s w) fun a => Q a w) (body s) w)
    {n : ℕ} {s : σ} (hs : I n s w) :
  EndsIn step Q (repeatUntil body s) w
  := by
  induction n using Nat.strongRecOn generalizing s w with
  | _ n ih =>
    apply EndsIn.loop
    apply EndsIn.bind
    apply (hbody n s w hs).mono
    rintro (s' | a) w' h
    · obtain ⟨m, hm, hI⟩ := h
      apply ih m hm hI
    · exact .ret h

/-- A run ends as every run does. -/
theorem EndsIn.runs {p : Prog Op Ans α} (h : EndsIn step Q p w) {a : α} {w' : W}
    (hrun : Runs step p w a w') :
  Q a w'
  := by
  induction h with
  | ret hret =>
    cases hrun
    apply hret
  | call _ _ ih =>
    cases hrun with
    | call hstep hrest => apply ih _ _ hstep hrest
  | loop _ ih =>
    cases hrun with
    | loop hbody hrest => apply ih (hbody.bind hrest)

/-- There is a run. -/
theorem EndsIn.exists_runs {p : Prog Op Ans α} (h : EndsIn step Q p w) :
  ∃ a w', Runs step p w a w' ∧ Q a w'
  := by
  induction h with
  | ret hret => exact ⟨_, _, .ret, hret⟩
  | call hexists _ ih =>
    obtain ⟨a, w', hstep⟩ := hexists
    obtain ⟨b, w₂, hrun, hQ⟩ := ih a w' hstep
    exact ⟨b, w₂, .call hstep hrun, hQ⟩
  | loop _ ih =>
    obtain ⟨b, w₂, hrun, hQ⟩ := ih
    obtain ⟨r, w₁, hbody, hrest⟩ := hrun.of_bind
    exact ⟨b, w₂, .loop hbody hrest, hQ⟩

/-! ### Further calls -/

theorem EndsIn.lift {Op' : Type} {Ans' : Op' → Type}
    {step : (op : Op ⊕ Op') → W → Sum.elim Ans Ans' op → W → Prop} {p : Prog Op Ans α}
    (h : EndsIn (fun op => step (.inl op)) Q p w) :
  EndsIn step Q (p.lift : Prog (Op ⊕ Op') (Sum.elim Ans Ans') α) w
  := by
  induction h with
  | ret hret => exact .ret hret
  | call hexists _ ih => exact .call hexists ih
  | loop _ ih =>
    apply EndsIn.loop
    simp only [lift_bind, lift_resume] at ih
    apply ih

end Prog
