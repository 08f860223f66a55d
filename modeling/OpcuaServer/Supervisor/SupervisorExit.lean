import OpcuaServer.Supervisor.LockedRules
import OpcuaServer.Supervisor.PosixController
import OpcuaServer.Supervisor.SupervisorMain
import OpcuaServer.Supervisor.WindowsController

/-!
# How the supervisor ends

The task of the API server completes and signals arrive at any time between the calls of the
supervisor, which samples both one after the other. Whatever the order of the samples, a task that
completes before the first signal ends the supervision with `kApiExit`, and the supervisor returns 1.
-/

namespace OpcuaServer

/-- What happens while the supervisor runs. -/
inductive Occurrence where
  /-- The task of the API server completes. -/
  | completed (outcome : ApiOutcome)
  /-- A signal arrives. -/
  | arrived (signal : { signal : Int32 // signal ≠ 0 })

namespace Occurrence

/-- How the task has completed. -/
def outcome : Occurrence → Option ApiOutcome
  | .completed outcome => some outcome
  | .arrived _ => none

/-- The signal that has arrived. -/
def signal : Occurrence → Option { signal : Int32 // signal ≠ 0 }
  | .completed _ => none
  | .arrived signal => some signal

end Occurrence

/-- What has happened while the supervisor ran. -/
structure Supervision where
  /-- How many calls it has made. -/
  calls : ℕ := 0
  /-- The oldest first. -/
  occurred : List Occurrence := []
  /-- What it has last been told about the task of the API server. -/
  apiReady : Option Bool := none
  /-- What the last `Stop` of the controller has returned. -/
  stopStatus : Option Status := none

namespace Supervision

/-- How the task of the API server has completed. -/
def api (w : Supervision) : Option ApiOutcome :=
  w.occurred.findSome? Occurrence.outcome

/-- `shutdown_signal`: the last signal that has arrived. -/
def shutdownSignal (w : Supervision) : Int32 :=
  (w.occurred.reverse.findSome? Occurrence.signal).elim 0 Subtype.val

/-- The task of the API server has completed before the first signal arrived. -/
def ApiFirst (w : Supervision) : Prop :=
  ∃ outcome, w.occurred.head? = some (.completed outcome)

/-- A signal has arrived before the task of the API server completed. -/
def SignalFirst (w : Supervision) : Prop :=
  ∃ signal, w.occurred.head? = some (.arrived signal)

/-- A call has been made. -/
def next (w : Supervision) : Supervision :=
  { w with calls := w.calls + 1 }

/-- What happens between two calls. The task completes once. -/
inductive Moves : Supervision → Supervision → Prop where
  | completes {w : Supervision} {outcome : ApiOutcome} :
      w.api = none → Moves w { w with occurred := w.occurred ++ [.completed outcome] }
  | arrives {w : Supervision} {signal : { signal : Int32 // signal ≠ 0 }} :
      Moves w { w with occurred := w.occurred ++ [.arrived signal] }

/-- The calls of the supervisor whose answers do not depend on what has happened. -/
def unobserving : SupervisorCall → Bool
  | .waitForApi _ | .shutdownSignal | .joinApi | .apiResult | .returned (.stop _) _ => false
  | _ => true

/-- What the calls of the supervisor itself do. -/
inductive Answers : (call : SupervisorCall) → Supervision → call.Answer → Supervision → Prop where
  | waitForApi {w : Supervision} {timeout : ℤ} :
      Answers (.waitForApi timeout) w w.api.isSome { w.next with apiReady := some w.api.isSome }
  | shutdownSignal {w : Supervision} : Answers .shutdownSignal w w.shutdownSignal w.next
  | joinApi {w : Supervision} : w.api.isSome = true → Answers .joinApi w () w.next
  | apiResult {w : Supervision} {outcome : ApiOutcome} :
      w.api = some outcome → Answers .apiResult w outcome w.next
  | stopped {w : Supervision} {timeout : ℤ} {status : Status} :
      Answers (.returned (.stop timeout) status) w () { w.next with stopStatus := some status }
  | unobserving {w : Supervision} {call : SupervisorCall} {a : call.Answer} :
      unobserving call = true → Answers call w a w.next

section

variable {F OsCall : Type} {OsAnswer : OsCall → Type}

/-- What the calls of the supervisor and of its controller do. The controller is answered anything. -/
def Step : (call : (ControllerCall F ⊕ OsCall) ⊕ SupervisorCall) → Supervision →
    Sum.elim (Sum.elim ControllerCall.Answer OsAnswer) SupervisorCall.Answer call →
    Supervision → Prop
  | .inl _, w, _, w' => w' = w.next
  | .inr call, w, a, w' => Answers call w a w'

/-- What a call does after anything has happened. -/
abbrev Calls : (call : (ControllerCall F ⊕ OsCall) ⊕ SupervisorCall) → Supervision →
    Sum.elim (Sum.elim ControllerCall.Answer OsAnswer) SupervisorCall.Answer call →
    Supervision → Prop :=
  Prog.After (Relation.ReflTransGen Moves) Step

/-- What a call does, where something has happened after `k` calls at the latest. -/
def CallsBy (k : ℕ) (call : (ControllerCall F ⊕ OsCall) ⊕ SupervisorCall) (w : Supervision)
    (a : Sum.elim (Sum.elim ControllerCall.Answer OsAnswer) SupervisorCall.Answer call)
    (w' : Supervision) : Prop :=
  ∃ w₁, Relation.ReflTransGen Moves w w₁ ∧ (k ≤ w₁.calls → w₁.occurred ≠ []) ∧ Step call w₁ a w'

end

/-! ### What has happened stays so -/

variable {w w' : Supervision}

/-- What has happened is what had happened before and more. -/
theorem moves_occurred (h : Relation.ReflTransGen Moves w w') :
  ∃ more, w' = { w with occurred := w.occurred ++ more }
  := by
  induction h with
  | refl => exact ⟨[], by rw [List.append_nil]⟩
  | tail _ hmove ih =>
    obtain ⟨more, rfl⟩ := ih
    cases hmove with
    | completes => exact ⟨_, by rw [List.append_assoc]⟩
    | arrives => exact ⟨_, by rw [List.append_assoc]⟩

theorem extends_of_moves (h : Relation.ReflTransGen Moves w w') :
  w.occurred <+: w'.occurred
  := by
  obtain ⟨more, rfl⟩ := moves_occurred h
  exact ⟨more, rfl⟩

theorem api_of_extends (h : w.occurred <+: w'.occurred) {outcome : ApiOutcome}
    (hapi : w.api = some outcome) :
  w'.api = some outcome
  := by
  obtain ⟨more, hmore⟩ := h
  rw [api, ← hmore, List.findSome?_append]
  rw [api] at hapi
  rw [hapi]
  rfl

theorem head?_of_extends {o : Occurrence} (h : w.occurred <+: w'.occurred)
    (hhead : w.occurred.head? = some o) :
  w'.occurred.head? = some o
  := by
  obtain ⟨more, hmore⟩ := h
  rw [← hmore, List.head?_append, hhead]
  rfl

theorem SignalFirst.of_extends (h : w.occurred <+: w'.occurred) (hfirst : w.SignalFirst) :
  w'.SignalFirst
  := by
  obtain ⟨signal, hhead⟩ := hfirst
  exact ⟨signal, head?_of_extends h hhead⟩

theorem SignalFirst.not_apiFirst (h : w.SignalFirst) :
  ¬ w.ApiFirst
  := by
  rintro ⟨outcome, houtcome⟩
  obtain ⟨signal, hsignal⟩ := h
  cases houtcome.symm.trans hsignal

theorem shutdownSignal_ne_zero_iff :
  w.shutdownSignal ≠ 0 ↔ ∃ signal, .arrived signal ∈ w.occurred
  := by
  rw [shutdownSignal]
  cases hfind : w.occurred.reverse.findSome? Occurrence.signal with
  | none =>
    rw [List.findSome?_eq_none_iff] at hfind
    refine iff_of_false (by simp) ?_
    rintro ⟨signal, hmem⟩
    cases hfind _ (List.mem_reverse.mpr hmem)
  | some signal =>
    obtain ⟨o, hmem, ho⟩ := List.exists_of_findSome?_eq_some hfind
    cases o with
    | completed => cases ho
    | arrived signal' => exact iff_of_true signal.property ⟨signal', List.mem_reverse.mp hmem⟩

theorem shutdownSignal_of_extends (h : w.occurred <+: w'.occurred) (hsignal : w.shutdownSignal ≠ 0) :
  w'.shutdownSignal ≠ 0
  := by
  obtain ⟨signal, hmem⟩ := shutdownSignal_ne_zero_iff.mp hsignal
  exact shutdownSignal_ne_zero_iff.mpr ⟨signal, h.subset hmem⟩

theorem SignalFirst.shutdownSignal (h : w.SignalFirst) :
  w.shutdownSignal ≠ 0
  := by
  obtain ⟨signal, hhead⟩ := h
  exact shutdownSignal_ne_zero_iff.mpr ⟨signal, List.mem_of_mem_head? hhead⟩

/-- Where the task has not completed, what has happened first is a signal. -/
theorem occurred_of_api_eq_none (hapi : w.api = none) :
  w.occurred = [] ∨ w.SignalFirst
  := by
  cases hoccurred : w.occurred with
  | nil => exact .inl rfl
  | cons o more =>
    right
    cases o with
    | completed outcome =>
      rw [api, hoccurred] at hapi
      cases hapi
    | arrived signal => exact ⟨signal, by rw [hoccurred]; rfl⟩

/-- Where the task has not completed after a signal has arrived, the signal was first. -/
theorem signalFirst_of_api_eq_none (hapi : w.api = none) (hsignal : w.shutdownSignal ≠ 0) :
  w.SignalFirst
  := by
  rcases occurred_of_api_eq_none hapi with hnil | hfirst
  · obtain ⟨signal, hmem⟩ := shutdownSignal_ne_zero_iff.mp hsignal
    rw [hnil] at hmem
    cases hmem
  · apply hfirst

/-! ### What the calls answer -/

theorem answers_waitForApi {timeout : ℤ} {ready : Bool}
    (h : Answers (.waitForApi timeout) w ready w') :
  ready = w.api.isSome ∧ w' = { w.next with apiReady := some w.api.isSome }
  := by
  cases h with
  | waitForApi => exact ⟨rfl, rfl⟩
  | unobserving hcall => cases hcall

theorem answers_shutdownSignal {signal : Int32} (h : Answers .shutdownSignal w signal w') :
  signal = w.shutdownSignal ∧ w' = w.next
  := by
  cases h with
  | shutdownSignal => exact ⟨rfl, rfl⟩
  | unobserving hcall => cases hcall

theorem answers_apiResult {outcome : ApiOutcome} (h : Answers .apiResult w outcome w') :
  w.api = some outcome ∧ w' = w.next
  := by
  cases h with
  | apiResult houtcome => exact ⟨houtcome, rfl⟩
  | unobserving hcall => cases hcall

theorem answers_stopped {timeout : ℤ} {status : Status} {u : Unit}
    (h : Answers (.returned (.stop timeout) status) w u w') :
  w' = { w.next with stopStatus := some status }
  := by
  cases h with
  | stopped => rfl
  | unobserving hcall => cases hcall

/-! ### Programs of the supervisor -/

section

variable {F OsCall : Type} {OsAnswer : OsCall → Type} {α β : Type}

/-- A program of the supervisor ends as `Q` says, whatever happens meanwhile. -/
def Ends (p : Supervisor F OsCall OsAnswer α) (Q : α → Supervision → Prop) (w : Supervision) : Prop :=
  p.wp Step (Relation.ReflTransGen Moves) (fun _ _ => True) Q w

variable {Q : α → Supervision → Prop}

theorem ends_mono {p : Supervisor F OsCall OsAnswer α} {Q' : α → Supervision → Prop}
    (hQ : ∀ a w, Q a w → Q' a w) (h : Ends p Q w) :
  Ends p Q' w
  := Prog.wp_mono hQ h

theorem ends_bind {p : Supervisor F OsCall OsAnswer β} {f : β → Supervisor F OsCall OsAnswer α}
    {R : β → Supervision → Prop} (hp : Ends p R w) (hf : ∀ b w, R b w → Ends (f b) Q w) :
  Ends (p >>= f) Q w
  := Prog.wp_bind (fun _ => .refl) (Prog.wp_mono hf hp)

theorem ends_pure {a : α} (h : ∀ w', Relation.ReflTransGen Moves w w' → Q a w') :
  Ends (pure a : Supervisor F OsCall OsAnswer α) Q w
  := h

theorem ends_perform {call : SupervisorCall} {f : call.Answer → Supervisor F OsCall OsAnswer α}
    (h : ∀ w₁ a w₂, Relation.ReflTransGen Moves w w₁ →
      Answers call w₁ a w₂ → Ends (f a) Q w₂) :
  Ends (Supervisor.perform call >>= f) Q w
  := by
  intro w₁ hmoves
  use trivial
  intro a w₂ hstep
  apply h w₁ a w₂ hmoves hstep

/-- What every move and every call of the controller keeps, an operation keeps until it returns. -/
theorem ends_invoke (platform : Platform F OsCall OsAnswer) {operation : Operation}
    {J : Supervision → Prop} {Q : operation.Reply → Supervision → Prop}
    (hmoves : ∀ w w', Relation.ReflTransGen Moves w w' → J w → J w') (hnext : ∀ w, J w → J w.next)
    (hreturned : ∀ reply w a w', J w → Answers (.returned operation reply) w a w' →
      ∀ w'', Relation.ReflTransGen Moves w' w'' → Q reply w'') (hJ : J w) :
  Ends (Supervisor.invoke platform operation) Q w
  := by
  apply ends_perform
  intro w₁ _ w₂ hmoves₁ hcalled
  have hJ₂ : J w₂ := by
    cases hcalled with
    | unobserving => apply hnext w₁ (hmoves w w₁ hmoves₁ hJ)
  apply ends_bind (R := fun _ w => J w)
  · apply Prog.wp_lift
    apply Prog.wp_keeps hmoves _ _ hJ₂
    rintro call w a _ rfl hJ
    apply hnext w hJ
  · intro reply w₃ hJ₃
    apply ends_perform
    intro w₄ a w₅ hmoves₄ hstep
    apply ends_pure
    apply hreturned reply w₄ a w₅ (hmoves w₃ w₄ hmoves₄ hJ₃) hstep

/-- An operation that nothing depends on. -/
theorem ends_invoke_true (platform : Platform F OsCall OsAnswer) (operation : Operation) :
  Ends (Supervisor.invoke platform operation) (fun _ _ => True) w
  := by
  apply ends_invoke platform (J := fun _ => True)
  · exact fun _ _ _ => id
  · exact fun _ => id
  · exact fun _ _ _ _ _ _ _ _ => trivial
  · trivial

/-! ### The loop -/

/-- If the loop has ended because of a signal, a signal was first, and the task of the API server had
not completed when it was last asked about. -/
def Observed (reason : SupervisorExitReason) (w : Supervision) : Prop :=
  reason = .signal → w.SignalFirst ∧ w.apiReady = some false

theorem Observed.moves {reason : SupervisorExitReason} (h : Observed reason w)
    (hmoves : Relation.ReflTransGen Moves w w') :
  Observed reason w'
  := by
  intro hreason
  obtain ⟨hfirst, hready⟩ := h hreason
  refine ⟨hfirst.of_extends (extends_of_moves hmoves), ?_⟩
  obtain ⟨more, rfl⟩ := moves_occurred hmoves
  exact hready

/-- An iteration of the loop. -/
theorem ends_supervise (platform : Platform F OsCall OsAnswer) :
  Ends (Supervisor.supervise platform ()) (fun r => r.elim (fun _ _ => True) fun reason w =>
    ∀ w', Relation.ReflTransGen Moves w w' → Observed reason w') w
  := by
  have hdecided : ∀ w (reason : SupervisorExitReason), Observed reason w →
      Ends (return .inr reason : Supervisor F OsCall OsAnswer (Unit ⊕ SupervisorExitReason))
        (fun r => r.elim (fun _ _ => True) fun reason w =>
          ∀ w', Relation.ReflTransGen Moves w w' → Observed reason w') w := by
    intro w reason h
    apply ends_pure
    exact fun w₁ hmoves₁ w₂ hmoves₂ => h.moves (hmoves₁.trans hmoves₂)
  apply ends_bind (ends_invoke_true platform .reapExited)
  intro _ w _
  apply ends_perform
  intro w₁ _ _ _ hready
  obtain ⟨rfl, rfl⟩ := answers_waitForApi hready
  apply ends_perform
  intro w₂ _ _ _ hsignal
  obtain ⟨rfl, rfl⟩ := answers_shutdownSignal hsignal
  unfold Supervisor.apiReadyAfter
  cases w₁.api.isSome with
  | true =>
    apply hdecided
    rintro ⟨⟩
  | false =>
    by_cases hsignal : w₂.shutdownSignal = 0
    · simp only [hsignal, ne_eq, not_true, decide_false, Bool.and_false, Bool.false_eq_true, if_false]
      apply ends_perform
      intro _ _ _ _ _
      apply ends_pure
      exact fun _ _ => trivial
    · simp only [hsignal, ne_eq, not_false_eq_true, decide_true, Bool.not_false, Bool.and_true,
        if_true]
      apply ends_perform
      intro w₃ _ _ hmoves hready
      obtain ⟨rfl, rfl⟩ := answers_waitForApi hready
      cases hapi : w₃.api with
      | some =>
        apply hdecided
        rintro ⟨⟩
      | none =>
        apply hdecided
        intro _
        refine ⟨signalFirst_of_api_eq_none hapi ?_, rfl⟩
        apply shutdownSignal_of_extends (extends_of_moves hmoves) hsignal

/-- However long the loop has run, it has observed what has happened. -/
theorem ends_loop (platform : Platform F OsCall OsAnswer) :
  Ends (Prog.repeatUntil (Supervisor.supervise platform) ()) Observed w
  := by
  apply Prog.wp_repeatUntil (fun _ _ => True) (fun _ _ _ _ => id) trivial
  intro _ w _
  apply ends_supervise platform

/-! ### The main program -/

/-- What the exit code says: it is 0 only after a signal, where the task of the API server and `Stop`
have returned ok. -/
def Concluded (reason : SupervisorExitReason) (code : Int32) (w : Supervision) : Prop :=
  (code = 0 ∨ code = 1) ∧ (code = 0 → reason = .signal ∧ w.api = some (.returned (.ok ())) ∧
    w.stopStatus = some (.ok ()))

/-- Only a task that returned ok leaves no error after a signal. -/
theorem classifyApiExit_eq_ok_iff {reason : SupervisorExitReason} {outcome : ApiOutcome} :
  classifyApiExit reason (getApiResult outcome) = .ok () ↔
    reason = .signal ∧ outcome = .returned (.ok ())
  := by
  rcases outcome with (_ | _) | _ | _ <;> cases reason <;> simp [classifyApiExit, getApiResult]

theorem api_of_moves (h : Relation.ReflTransGen Moves w w') {outcome : ApiOutcome}
    (hapi : w.api = some outcome) :
  w'.api = some outcome
  := api_of_extends (extends_of_moves h) hapi

theorem stopStatus_of_moves (h : Relation.ReflTransGen Moves w w') :
  w'.stopStatus = w.stopStatus
  := by
  obtain ⟨more, rfl⟩ := moves_occurred h
  rfl

/-- Nothing depends on what is printed. -/
theorem ends_printFailure {context : String} {status : Status} {J : Supervision → Prop}
    (hmoves : ∀ w w', Relation.ReflTransGen Moves w w' → J w → J w') (hnext : ∀ w, J w → J w.next)
    (hJ : J w) :
  Ends (Supervisor.printFailure context status : Supervisor F OsCall OsAnswer Unit)
    (fun _ w => J w) w
  := by
  cases status with
  | ok => exact fun w' hmoves' => hmoves w w' hmoves' hJ
  | error message =>
    intro w₁ hmoves₁
    use trivial
    intro _ w₂ hstep w₃ hmoves₃
    cases hstep with
    | unobserving =>
      apply hmoves _ w₃ hmoves₃
      apply hnext
      apply hmoves w w₁ hmoves₁ hJ

theorem ends_conclude (platform : Platform F OsCall OsAnswer) (reason : SupervisorExitReason)
    {stopStatus : Status} (hstop : w.stopStatus = some stopStatus) :
  Ends (Supervisor.conclude platform reason stopStatus) (Concluded reason) w
  := by
  apply ends_bind (R := fun _ w => w.stopStatus = some stopStatus)
  · apply ends_invoke platform (J := fun w => w.stopStatus = some stopStatus)
    · exact fun w w' hmoves h => (stopStatus_of_moves hmoves).trans h
    · exact fun w h => h
    · intro _ w _ w₁ h hstep w₂ hmoves
      cases hstep with
      | unobserving => exact (stopStatus_of_moves hmoves).trans h
    · apply hstop
  · intro _ w hstop
    apply ends_perform
    intro w₁ _ w₂ hmoves₁ hjoin
    have hstop₂ : w₂.stopStatus = some stopStatus := by
      cases hjoin <;> exact (stopStatus_of_moves hmoves₁).trans hstop
    apply ends_perform
    intro w₃ outcome _ hmoves₃ hresult
    obtain ⟨hapi, rfl⟩ := answers_apiResult hresult
    have hstable : ∀ w w', Relation.ReflTransGen Moves w w' →
        w.api = some outcome ∧ w.stopStatus = some stopStatus →
        w'.api = some outcome ∧ w'.stopStatus = some stopStatus := by
      rintro w w' hmoves ⟨hapi, hstop⟩
      exact ⟨api_of_moves hmoves hapi, (stopStatus_of_moves hmoves).trans hstop⟩
    have h₃ : w₃.next.api = some outcome ∧ w₃.next.stopStatus = some stopStatus :=
      ⟨hapi, (stopStatus_of_moves hmoves₃).trans hstop₂⟩
    apply ends_bind (ends_printFailure hstable (fun _ h => h) h₃)
    intro _ w h
    apply ends_bind (ends_printFailure hstable (fun _ h => h) h)
    intro _ w h
    have hfails : Ends (return 1 : Supervisor F OsCall OsAnswer Int32) (Concluded reason) w := by
      apply ends_pure
      intro _ _
      refine ⟨.inr rfl, ?_⟩
      rintro ⟨⟩
    cases hok : classifyApiExit reason (getApiResult outcome) with
    | error => apply hfails
    | ok =>
      cases stopStatus with
      | error => apply hfails
      | ok =>
        apply ends_pure
        intro w' hmoves
        obtain ⟨rfl, rfl⟩ := classifyApiExit_eq_ok_iff.mp hok
        obtain ⟨hapi, hstop⟩ := hstable w w' hmoves h
        exact ⟨.inl rfl, fun _ => ⟨rfl, hapi, hstop⟩⟩

theorem ends_shutDown (platform : Platform F OsCall OsAnswer) (reason : SupervisorExitReason) :
  Ends (Supervisor.shutDown platform reason) (Concluded reason) w
  := by
  apply ends_bind (ends_invoke_true platform .requestShutdown)
  intro _ w _
  apply ends_perform
  intro _ _ w _ _
  apply ends_bind (R := fun status w => w.stopStatus = some status)
  · apply ends_invoke platform (J := fun _ => True)
    · exact fun _ _ _ => id
    · exact fun _ => id
    · intro status w _ w₁ _ hstep w₂ hmoves
      obtain rfl := answers_stopped hstep
      exact stopStatus_of_moves hmoves
    · trivial
  · intro stopStatus w hstop
    apply ends_conclude platform reason hstop

/-- What the exit code of the main program says: it is 0 only where a signal was first, and the task
of the API server and `Stop` have returned ok. -/
def Exits (code : Int32) (w : Supervision) : Prop :=
  (code = 0 ∨ code = 1) ∧ (code = 0 → w.SignalFirst ∧ w.api = some (.returned (.ok ())) ∧
    w.stopStatus = some (.ok ()))

theorem Exits.moves {code : Int32} (h : Exits code w) (hmoves : Relation.ReflTransGen Moves w w') :
  Exits code w'
  := by
  refine ⟨h.1, fun hcode => ?_⟩
  obtain ⟨hfirst, hapi, hstop⟩ := h.2 hcode
  exact ⟨hfirst.of_extends (extends_of_moves hmoves), api_of_moves hmoves hapi,
    (stopStatus_of_moves hmoves).trans hstop⟩

/-- A call changes nothing about what has happened. -/
theorem step_occurred {call : (ControllerCall F ⊕ OsCall) ⊕ SupervisorCall}
    {a : Sum.elim (Sum.elim ControllerCall.Answer OsAnswer) SupervisorCall.Answer call}
    (h : Step call w a w') :
  w'.occurred = w.occurred
  := by
  cases call with
  | inl call =>
    obtain rfl : w' = w.next := h
    rfl
  | inr call =>
    have hanswers : Answers call w a w' := h
    cases hanswers <;> rfl

/-- If a signal was first, it stays so. -/
theorem ends_frame {p : Supervisor F OsCall OsAnswer α} {P : Prop} (h : Ends p Q w)
    (hfirst : P → w.SignalFirst) :
  Ends p (fun a w => Q a w ∧ (P → w.SignalFirst)) w
  := by
  refine Prog.wp_frame ?_ ?_ h hfirst
  · exact fun w w' hmoves hfirst hP => (hfirst hP).of_extends (extends_of_moves hmoves)
  · intro call w a w' _ hstep hfirst hP
    apply (hfirst hP).of_extends
    rw [step_occurred hstep]

theorem ends_runSupervisor (platform : Platform F OsCall OsAnswer) (apiPort : Int32) :
  Ends (Supervisor.runSupervisor platform apiPort) Exits w
  := by
  apply ends_bind (ends_invoke_true platform .start)
  intro startStatus w _
  apply ends_bind (R := fun _ _ => True)
  · apply ends_printFailure (J := fun _ => True) (fun _ _ _ => id) (fun _ => id) trivial
  · intro _ w _
    apply ends_perform
    intro _ _ w _ _
    apply ends_bind (ends_loop platform)
    intro reason w hobserved
    apply ends_bind (ends_frame (P := reason = .signal) (ends_shutDown platform reason)
      fun hreason => (hobserved hreason).1)
    rintro code w ⟨hconcluded, hfirst⟩
    have hexits : Exits code w := by
      refine ⟨hconcluded.1, fun hcode => ?_⟩
      obtain ⟨hreason, hapi, hstop⟩ := hconcluded.2 hcode
      exact ⟨hfirst hreason, hapi, hstop⟩
    apply ends_bind (R := fun _ w => Exits code w)
    · apply ends_invoke platform (J := fun w => Exits code w)
      · exact fun _ _ hmoves h => h.moves hmoves
      · exact fun _ h => h
      · intro _ _ _ _ h hstep _ hmoves
        cases hstep with
        | unobserving => exact Exits.moves (w := next _) h hmoves
      · apply hexits
    · intro _ w h
      apply ends_pure
      exact fun _ hmoves => h.moves hmoves

theorem ends_giveUp (text : Bytes) :
  Ends (Supervisor.giveUp text : Supervisor F OsCall OsAnswer Int32) Exits w
  := by
  apply ends_perform
  intro _ _ w _ _
  apply ends_pure
  intro _ _
  refine ⟨.inr rfl, ?_⟩
  rintro ⟨⟩

/-- The main program ends as its exit code says. -/
theorem ends_main (controller : Bytes → List Bytes → Platform F OsCall OsAnswer)
    (argv : List Bytes) :
  Ends (Supervisor.main controller argv) Exits w
  := by
  apply ends_perform
  intro _ installed w _ _
  split
  · apply ends_giveUp
  · split
    · apply ends_giveUp
    · apply ends_perform
      rintro _ (message | _) w _ _
      · apply ends_giveUp
      · apply ends_perform
        rintro _ (message | _) w _ _
        · apply ends_giveUp
        · apply ends_runSupervisor

/-! ### The end of the loop -/

/-- More has happened and more calls have been made. -/
structure Later (w w' : Supervision) : Prop where
  calls : w.calls ≤ w'.calls
  occurred : w.occurred <+: w'.occurred

theorem Later.refl (w : Supervision) :
  Later w w
  := ⟨le_rfl, List.prefix_rfl⟩

theorem Later.trans {w₁ w₂ w₃ : Supervision} (h : Later w₁ w₂) (h' : Later w₂ w₃) :
  Later w₁ w₃
  := ⟨h.calls.trans h'.calls, h.occurred.trans h'.occurred⟩

theorem later_of_moves (h : Relation.ReflTransGen Moves w w') :
  Later w w'
  := by
  refine ⟨?_, extends_of_moves h⟩
  obtain ⟨more, rfl⟩ := moves_occurred h
  exact le_rfl

/-- Every call is counted. -/
theorem step_calls {call : (ControllerCall F ⊕ OsCall) ⊕ SupervisorCall}
    {a : Sum.elim (Sum.elim ControllerCall.Answer OsAnswer) SupervisorCall.Answer call}
    (h : Step call w a w') :
  w'.calls = w.calls + 1
  := by
  cases call with
  | inl call =>
    obtain rfl : w' = w.next := h
    rfl
  | inr call =>
    have hanswers : Answers call w a w' := h
    cases hanswers <;> rfl

theorem later_of_callsBy {k : ℕ} {call : (ControllerCall F ⊕ OsCall) ⊕ SupervisorCall}
    {a : Sum.elim (Sum.elim ControllerCall.Answer OsAnswer) SupervisorCall.Answer call}
    (h : CallsBy k call w a w') :
  Later w w' ∧ w.calls < w'.calls
  := by
  obtain ⟨w₁, hmoves, -, hstep⟩ := h
  have hlater := later_of_moves hmoves
  have hcalls := step_calls hstep
  refine ⟨⟨by have := hlater.calls; omega, ?_⟩, by have := hlater.calls; omega⟩
  rw [step_occurred hstep]
  apply hlater.occurred

/-- A call that is answered in any case is answered after a signal has arrived, at the latest. -/
theorem exists_callsBy (k : ℕ) {call : (ControllerCall F ⊕ OsCall) ⊕ SupervisorCall}
    (hanswer : ∀ w, ∃ (a : Sum.elim (Sum.elim ControllerCall.Answer OsAnswer) SupervisorCall.Answer
      call) (w' : Supervision), Step call w a w') (w : Supervision) :
  ∃ (a : Sum.elim (Sum.elim ControllerCall.Answer OsAnswer) SupervisorCall.Answer call)
    (w' : Supervision), CallsBy k call w a w'
  := by
  let signal : { signal : Int32 // signal ≠ 0 } := ⟨15, by decide⟩
  let w₁ : Supervision := { w with occurred := w.occurred ++ [.arrived signal] }
  obtain ⟨a, w', hstep⟩ := hanswer w₁
  refine ⟨a, w', w₁, .single .arrives, fun _ => ?_, hstep⟩
  exact List.append_ne_nil_of_right_ne_nil _ (List.cons_ne_nil _ _)

/-- What a call of the controller does, where something has happened after `k` calls at the latest. -/
abbrev ControllerCallsBy (k : ℕ) (call : ControllerCall F ⊕ OsCall) (w : Supervision)
    (a : Sum.elim ControllerCall.Answer OsAnswer call) (w' : Supervision) : Prop :=
  CallsBy k (.inl call : (ControllerCall F ⊕ OsCall) ⊕ SupervisorCall) w a w'

/-- A call of the controller can be answered anything. -/
theorem exists_controllerCallsBy (k : ℕ) (call : ControllerCall F ⊕ OsCall)
    (a : Sum.elim ControllerCall.Answer OsAnswer call) (w : Supervision) :
  ∃ (a : Sum.elim ControllerCall.Answer OsAnswer call) (w' : Supervision),
    ControllerCallsBy k call w a w'
  := by
  have hanswer : ∀ w : Supervision, ∃ (a : Sum.elim (Sum.elim ControllerCall.Answer OsAnswer)
      SupervisorCall.Answer (.inl call)) (w' : Supervision), Step (.inl call) w a w' :=
    fun w => ⟨a, w.next, rfl⟩
  apply exists_callsBy k hanswer w

/-- Every `ReapExited` of the platform comes to an end. -/
def Reaps (platform : Platform F OsCall OsAnswer) : Prop :=
  ∀ k w, Prog.EndsIn (ControllerCallsBy k) (fun _ _ => True) platform.reapExited w

theorem endsIn_perform {k : ℕ} {call : SupervisorCall}
    {f : call.Answer → Supervisor F OsCall OsAnswer α}
    (hanswer : ∀ w, ∃ (a : call.Answer) (w' : Supervision), Answers call w a w')
    (hf : ∀ w₁ a w₂, Later w w₁ → (k ≤ w₁.calls → w₁.occurred ≠ []) → Answers call w₁ a w₂ →
      Later w₁ w₂ → w₁.calls < w₂.calls → Prog.EndsIn (CallsBy k) Q (f a) w₂) :
  Prog.EndsIn (CallsBy k) Q (Supervisor.perform call >>= f) w
  := by
  have hanswer' : ∀ w : Supervision, ∃ (a : Sum.elim (Sum.elim ControllerCall.Answer OsAnswer)
      SupervisorCall.Answer (.inr call)) (w' : Supervision),
      Step (F := F) (.inr call : (ControllerCall F ⊕ OsCall) ⊕ SupervisorCall) w a w' := hanswer
  apply Prog.EndsIn.call (exists_callsBy k hanswer' w)
  rintro a w₂ ⟨w₁, hmoves, hby, hstep⟩
  have hself : CallsBy k (.inr call : (ControllerCall F ⊕ OsCall) ⊕ SupervisorCall) w₁ a w₂ :=
    ⟨w₁, .refl, hby, hstep⟩
  obtain ⟨hlater, hcalls⟩ := later_of_callsBy hself
  apply hf w₁ a w₂ (later_of_moves hmoves) hby hstep hlater hcalls

/-- The reap of an iteration comes to an end. -/
theorem endsIn_invoke_reapExited {platform : Platform F OsCall OsAnswer} (hreaps : Reaps platform)
    (k : ℕ) (w : Supervision) :
  Prog.EndsIn (CallsBy k) (fun _ w' => Later w w') (Supervisor.invoke platform .reapExited) w
  := by
  have hends : Prog.EndsIn (CallsBy k) (fun _ _ => True)
      (Supervisor.invoke platform .reapExited) w := by
    apply endsIn_perform
    · exact fun w => ⟨(), _, .unobserving rfl⟩
    · intro _ _ w _ _ _ _ _
      apply Prog.EndsIn.bind
      apply (hreaps k w).lift.mono
      intro _ w _
      apply endsIn_perform
      · exact fun w => ⟨(), _, .unobserving rfl⟩
      · intro _ _ w _ _ _ _ _
        exact .ret trivial
  apply (hends.frame _ (Later.refl w)).mono fun _ _ h => h.2
  exact fun _ _ _ _ hstep h => h.trans (later_of_callsBy hstep).1

/-- Where the task has not completed and no signal arrives after that, nothing has happened. -/
theorem occurred_of_samples {w₁ w₂ : Supervision} (hapi : w₁.api = none) (hlater : Later w₁ w₂)
    (hsignal : w₂.shutdownSignal = 0) :
  w₁.occurred = []
  := by
  rcases occurred_of_api_eq_none hapi with hnil | hfirst
  · apply hnil
  · cases (hfirst.of_extends hlater.occurred).shutdownSignal hsignal

/-- An iteration of the loop ends it, unless nothing had happened when it began. -/
theorem endsIn_supervise {platform : Platform F OsCall OsAnswer} (hreaps : Reaps platform) (k : ℕ)
    (w : Supervision) :
  Prog.EndsIn (CallsBy k) (fun r w' =>
      r.elim (fun _ => w.occurred = [] ∧ w.calls < k ∧ w.calls < w'.calls) fun reason =>
        w'.ApiFirst → reason = .apiExit)
    (Supervisor.supervise platform ()) w
  := by
  have hwait : ∀ timeout w, ∃ ready w', Answers (.waitForApi timeout) w ready w' :=
    fun timeout w => ⟨_, _, .waitForApi⟩
  apply Prog.EndsIn.bind
  apply (endsIn_invoke_reapExited hreaps k w).mono
  intro _ w' hlater
  apply endsIn_perform (hwait 0)
  intro w₁ _ w₁' hlater₁ hby hready hnext₁ hcalls₁
  obtain ⟨rfl, -⟩ := answers_waitForApi hready
  apply endsIn_perform fun w => ⟨_, _, .shutdownSignal⟩
  intro w₂ _ w₂' hlater₂ _ hsignal hnext₂ hcalls₂
  obtain ⟨rfl, -⟩ := answers_shutdownSignal hsignal
  unfold Supervisor.apiReadyAfter
  cases hapi : w₁.api with
  | some outcome => exact .ret fun _ => rfl
  | none =>
    by_cases hsignal : w₂.shutdownSignal = 0
    · have hnil := occurred_of_samples hapi (hnext₁.trans hlater₂) hsignal
      have hfirst := hlater.trans hlater₁
      have hlt : w₁.calls < k := by
        by_contra hle
        apply hby (not_lt.mp hle) hnil
      simp only [hsignal, ne_eq, not_true, decide_false, Bool.and_false, Bool.false_eq_true, if_false]
      apply endsIn_perform (hwait 50)
      intro w₃ _ w₃' hlater₃ _ _ hnext₃ hcalls₃
      refine .ret ⟨?_, hfirst.calls.trans_lt hlt, ?_⟩
      · apply List.prefix_nil.mp
        rw [← hnil]
        apply hfirst.occurred
      · calc
          w.calls ≤ w₁.calls := hfirst.calls
          _ < w₁'.calls := hcalls₁
          _ ≤ w₃'.calls := (hlater₂.trans (hnext₂.trans (hlater₃.trans hnext₃))).calls
    · simp only [hsignal, ne_eq, not_false_eq_true, decide_true, Bool.and_true]
      apply endsIn_perform (hwait 0)
      intro w₃ _ w₃' hlater₃ _ hready _ _
      obtain ⟨rfl, rfl⟩ := answers_waitForApi hready
      cases hapi : w₃.api with
      | some outcome => exact .ret fun _ => rfl
      | none =>
        have hsignal₃ := shutdownSignal_of_extends (hnext₂.trans hlater₃).occurred hsignal
        exact .ret fun hfirst =>
          absurd hfirst (signalFirst_of_api_eq_none hapi hsignal₃).not_apiFirst

/-- Once something has happened, the loop ends after at most one more iteration. -/
theorem endsIn_loop {platform : Platform F OsCall OsAnswer} (hreaps : Reaps platform) (k : ℕ)
    (w : Supervision) :
  Prog.EndsIn (CallsBy k) (fun reason w' => w'.ApiFirst → reason = .apiExit)
    (Prog.repeatUntil (Supervisor.supervise platform) ()) w
  := by
  refine Prog.endsIn_repeatUntil (n := k + 1)
    (fun n _ w => w.occurred = [] → k - w.calls < n) ?_ (fun _ => by omega)
  intro n _ w hn
  apply (endsIn_supervise hreaps k w).mono
  rintro (_ | reason) w' h
  · obtain ⟨hnil, hlt, hcalls⟩ := h
    exact ⟨k - w.calls, hn hnil, fun _ => by omega⟩
  · apply h

end

/-! ### The two platforms -/

section

variable {F OsCall : Type} {OsAnswer : OsCall → Type} {α : Type} {k : ℕ}

/-- A program under the mutex comes to an end. -/
abbrev EndsUnlocked (k : ℕ) (p : Locked F OsCall OsAnswer α) (fields : F) (w : Supervision) : Prop :=
  Locked.EndsIn (ControllerCallsBy k) (fun _ _ _ => True) p fields w

theorem endsUnlocked_systemCall {call : OsCall} {f : OsAnswer call → Locked F OsCall OsAnswer α}
    {fields : F} (a : OsAnswer call) (hf : ∀ a w, EndsUnlocked k (f a) fields w) (w : Supervision) :
  EndsUnlocked k (systemCall call >>= f) fields w
  := by
  apply Locked.endsIn_systemCall (exists_controllerCallsBy k (.inr call) a w)
  exact fun a w' _ => hf a w'

theorem endsUnlocked_pure {a : α} {fields : F} {w : Supervision} :
  EndsUnlocked k (pure a : Locked F OsCall OsAnswer α) fields w
  := Locked.endsIn_pure trivial

theorem endsUnlocked_set {fields fields' : F} {w : Supervision} :
  EndsUnlocked k (set fields' : Locked F OsCall OsAnswer PUnit) fields w
  := Locked.endsIn_set trivial

/-- A `ReapExited` comes to an end if the program under the mutex does. -/
theorem reaps_of_endsUnlocked {platform : Platform F OsCall OsAnswer} (fields : F)
    (h : ∀ k fields w, EndsUnlocked k platform.reapExitedUnlocked fields w) :
  Reaps platform
  := by
  intro k w
  apply Locked.endsIn_guarded (exists_controllerCallsBy k (.inl .lock) fields w)
  intro fields w _
  apply (h k fields w).mono
  intro _ fields w _
  exact ⟨exists_controllerCallsBy k (.inl (.unlock fields)) () w, fun _ _ _ => trivial⟩

end

theorem reaps_posix (executablePath : Bytes) (args : List Bytes) :
  Reaps (Controller.processController executablePath args)
  := by
  apply reaps_of_endsUnlocked {}
  intro k ctl w
  apply Locked.endsIn_get
  split
  · apply endsUnlocked_pure
  · split
    · apply endsUnlocked_pure
    · apply endsUnlocked_systemCall Waited.notYet
      rintro (error | _ | ⟨pid, waitStatus⟩) w
      · dsimp only
        split
        · apply endsUnlocked_set
        · apply endsUnlocked_pure
      · apply endsUnlocked_pure
      · dsimp only
        split
        · apply endsUnlocked_set
        · apply endsUnlocked_pure

theorem reaps_windows (multiByteToWideChar : Bytes → Option CommandLine.Wide)
    (executablePath : Bytes) (args : List Bytes) :
  Reaps (WindowsController.processController multiByteToWideChar executablePath args)
  := by
  apply reaps_of_endsUnlocked {}
  intro k ctl w
  have hgiveUp : ∀ diagnostic w,
      EndsUnlocked k (WindowsController.giveUpReaping diagnostic) ctl w := by
    intro diagnostic w
    apply endsUnlocked_systemCall (0 : UInt32)
    intro error w
    apply Locked.endsIn_get
    apply endsUnlocked_systemCall true
    intro closed w
    apply endsUnlocked_set
  apply Locked.endsIn_get
  split
  · apply endsUnlocked_pure
  · split
    · apply endsUnlocked_pure
    · apply endsUnlocked_systemCall WaitResult.timeout
      rintro (_ | _ | _) w
      · apply endsUnlocked_systemCall (none : Option UInt32)
        rintro (_ | exitCode) w
        · apply hgiveUp
        · apply endsUnlocked_systemCall true
          intro closed w
          apply endsUnlocked_set
      · apply endsUnlocked_pure
      · apply hgiveUp

/-! ### Runs of the main program -/

/-- A call before which nothing has happened. -/
theorem calls_of_step {F OsCall : Type} {OsAnswer : OsCall → Type}
    {call : (ControllerCall F ⊕ OsCall) ⊕ SupervisorCall}
    {a : Sum.elim (Sum.elim ControllerCall.Answer OsAnswer) SupervisorCall.Answer call}
    (h : Step call w a w') :
  Calls call w a w'
  := ⟨w, .refl, h⟩

/-- The controller of the daemon on POSIX. -/
abbrev posixDaemon : Platform Controller PosixCall PosixCall.Answer :=
  Supervisor.daemonController Controller.processController []

/-- The members of the controller where the daemon runs. -/
def daemonRunning : Controller where
  status := Controller.runningStatus "process running"
  childPid := 7

/-- The members of the controller where the daemon has been stopped. -/
def daemonStopped : Controller where
  status := Controller.decodeExitedStatus (.signaled 15) true

/-- An operation runs where its calls are answered. -/
theorem runs_invoke {operation : Operation} {reply : operation.Reply} {w'' : Supervision}
    (hrun : (posixDaemon.run operation).Runs (fun call => Step (.inl call)) w.next reply w')
    (hreturned : Answers (.returned operation reply) w' () w'') :
  (Supervisor.invoke posixDaemon operation).Runs Calls w reply w''
  := by
  have hstep : @Step Controller PosixCall PosixCall.Answer (.inr (.returned operation reply)) w' ()
      w'' := hreturned
  refine .call (a := ()) (calls_of_step (.unobserving rfl)) ?_
  apply (hrun.mono fun _ _ _ _ => calls_of_step).lift.bind
  exact .call (calls_of_step hstep) .ret

/-- The daemon is started. -/
theorem runs_start (w : Supervision) :
  (Supervisor.invoke posixDaemon .start).Runs Calls w (.ok ()) { w with calls := w.calls + 12 }
  := by
  let ok : Except OsError Unit := .ok ()
  let mask : Except OsError SignalSet := .ok ∅
  have hrun : (posixDaemon.run .start).Runs (fun call => Step (.inl call)) w.next (.ok ())
      { w with calls := w.calls + 11 } := by
    refine .call (a := ({} : Controller)) rfl ?_
    refine .call (a := false) rfl ?_
    refine .call (a := ok) rfl ?_
    refine .call (a := ok) rfl ?_
    refine .call (a := ok) rfl ?_
    refine .call (a := ok) rfl ?_
    refine .call (a := mask) rfl ?_
    refine .call (a := Forked.parent 7) rfl ?_
    refine .call (a := mask) rfl ?_
    exact .call (a := ()) rfl .ret
  exact runs_invoke hrun (.unobserving rfl)

/-- The daemon has not ended yet. -/
theorem runs_reapExited (w : Supervision) :
  (Supervisor.invoke posixDaemon .reapExited).Runs Calls w () { w with calls := w.calls + 5 }
  := by
  have hrun : (posixDaemon.run .reapExited).Runs (fun call => Step (.inl call)) w.next ()
      { w with calls := w.calls + 4 } := by
    refine .call (a := daemonRunning) rfl ?_
    refine .call (a := Waited.notYet) rfl ?_
    exact .call (a := ()) rfl .ret
  exact runs_invoke hrun (.unobserving rfl)

/-- The daemon ends by the signal that it is stopped with. -/
theorem runs_stop (w : Supervision) :
  (Supervisor.invoke posixDaemon (.stop 5000)).Runs Calls w (.ok ())
    { w with calls := w.calls + 9, stopStatus := some (.ok ()) }
  := by
  let ok : Except OsError Unit := .ok ()
  let poll : ControllerProg Controller PosixCall PosixCall.Answer _ := do
    return Locked.resume (← Controller.pollChild (0 + 5000 * 1000000) () daemonRunning)
  have hpoll : poll.Runs (fun call => Step (.inl call)) { w with calls := w.calls + 5 }
      (.inr (some (.ok ()), daemonStopped)) { w with calls := w.calls + 7 } := by
    refine .call (a := (0 : ℤ)) rfl ?_
    exact .call (a := Waited.child 7 (.signaled 15)) rfl .ret
  have hrun : (posixDaemon.run (.stop 5000)).Runs (fun call => Step (.inl call)) w.next (.ok ())
      { w with calls := w.calls + 8 } := by
    refine .call (a := daemonRunning) rfl ?_
    refine .call (a := Waited.notYet) rfl ?_
    refine .call (a := ok) rfl ?_
    refine .call (a := (0 : ℤ)) rfl ?_
    exact .loop hpoll (.call (a := ()) rfl .ret)
  exact runs_invoke hrun .stopped

/-- The daemon has been stopped. -/
theorem runs_reapExited_stopped (w : Supervision) :
  (Supervisor.invoke posixDaemon .reapExited).Runs Calls w () { w with calls := w.calls + 4 }
  := by
  have hrun : (posixDaemon.run .reapExited).Runs (fun call => Step (.inl call)) w.next ()
      { w with calls := w.calls + 3 } := by
    refine .call (a := daemonStopped) rfl ?_
    exact .call (a := ()) rfl .ret
  exact runs_invoke hrun (.unobserving rfl)

theorem runs_destroy (w : Supervision) :
  (Supervisor.invoke posixDaemon .destroy).Runs Calls w () { w with calls := w.calls + 4 }
  := by
  have hrun : (posixDaemon.run .destroy).Runs (fun call => Step (.inl call)) w.next ()
      { w with calls := w.calls + 3 } := by
    refine .call (a := daemonStopped) rfl ?_
    exact .call (a := ()) rfl .ret
  exact runs_invoke hrun (.unobserving rfl)

theorem runs_requestShutdown (w : Supervision) :
  (Supervisor.invoke posixDaemon .requestShutdown).Runs Calls w ()
    { w with calls := w.calls + 3 }
  := by
  have hrun : (posixDaemon.run .requestShutdown).Runs (fun call => Step (.inl call)) w.next ()
      { w with calls := w.calls + 2 } := .call (a := ()) rfl .ret
  exact runs_invoke hrun (.unobserving rfl)

/-- The task of the API server completes. -/
abbrev completes : Occurrence :=
  .completed (.returned (.ok ()))

/-- A signal arrives. -/
abbrev arrives : Occurrence :=
  .arrived ⟨15, by decide⟩

/-- The first iteration, in which nothing happens. -/
theorem runs_supervise_idle (n : ℕ) :
  (Supervisor.supervise posixDaemon ()).Runs Calls { calls := n } (.inl ())
    { calls := n + 8, apiReady := some false }
  := by
  apply (runs_reapExited _).bind
  refine .call (calls_of_step .waitForApi) ?_
  refine .call (calls_of_step .shutdownSignal) ?_
  exact .call (calls_of_step .waitForApi) .ret

/-- The task completes and a signal arrives after an iteration has asked about the task: the loop
ends with `kApiExit`. -/
theorem runs_loop_apiExit (n : ℕ) :
  (Prog.repeatUntil (Supervisor.supervise posixDaemon) ()).Runs Calls { calls := n } .apiExit
    { calls := n + 16, apiReady := some true, occurred := [completes, arrives] }
  := by
  have hmoves : Relation.ReflTransGen Moves { calls := n + 14, apiReady := some false }
      { calls := n + 14, apiReady := some false, occurred := [completes, arrives] } := by
    apply Relation.ReflTransGen.head (.completes rfl)
    apply Relation.ReflTransGen.single .arrives
  have hlast : (Supervisor.supervise posixDaemon ()).Runs Calls
      { calls := n + 8, apiReady := some false } (.inr .apiExit)
      { calls := n + 16, apiReady := some true, occurred := [completes, arrives] } := by
    apply (runs_reapExited _).bind
    refine .call (calls_of_step .waitForApi) ?_
    refine .call ⟨_, hmoves, .shutdownSignal⟩ ?_
    exact .call (calls_of_step .waitForApi) .ret
  exact .loop (runs_supervise_idle n) (.loop hlast .ret)

/-- A signal arrives after an iteration has asked about the task: the loop ends with `kSignal`. -/
theorem runs_loop_signal (n : ℕ) :
  (Prog.repeatUntil (Supervisor.supervise posixDaemon) ()).Runs Calls { calls := n } .signal
    { calls := n + 16, apiReady := some false, occurred := [arrives] }
  := by
  have hmoves : Relation.ReflTransGen Moves { calls := n + 14, apiReady := some false }
      { calls := n + 14, apiReady := some false, occurred := [arrives] } := .single .arrives
  have hlast : (Supervisor.supervise posixDaemon ()).Runs Calls
      { calls := n + 8, apiReady := some false } (.inr .signal)
      { calls := n + 16, apiReady := some false, occurred := [arrives] } := by
    apply (runs_reapExited _).bind
    refine .call (calls_of_step .waitForApi) ?_
    refine .call ⟨_, hmoves, .shutdownSignal⟩ ?_
    exact .call (calls_of_step .waitForApi) .ret
  exact .loop (runs_supervise_idle n) (.loop hlast .ret)

/-- The shutdown after the task has completed. -/
theorem runs_shutDown_apiExit (n : ℕ) :
  (Supervisor.shutDown posixDaemon .apiExit).Runs Calls
    { calls := n, apiReady := some true, occurred := [completes, arrives] } 1
    { calls := n + 20, apiReady := some true, occurred := [completes, arrives],
      stopStatus := some (.ok ()) }
  := by
  apply (runs_requestShutdown _).bind
  refine .call (a := ()) (calls_of_step (.unobserving rfl)) ?_
  apply (runs_stop _).bind
  apply (runs_reapExited_stopped _).bind
  refine .call (calls_of_step (.joinApi rfl)) ?_
  refine .call (calls_of_step (.apiResult rfl)) ?_
  exact .call (a := ()) (calls_of_step (.unobserving rfl)) .ret

/-- The shutdown because of a signal, before whose end the task completes. -/
theorem runs_shutDown_signal (n : ℕ) :
  (Supervisor.shutDown posixDaemon .signal).Runs Calls
    { calls := n, apiReady := some false, occurred := [arrives] } 0
    { calls := n + 19, apiReady := some false, occurred := [arrives, completes],
      stopStatus := some (.ok ()) }
  := by
  have hmoves : Relation.ReflTransGen Moves
      { calls := n + 17, apiReady := some false, occurred := [arrives], stopStatus := some (.ok ()) }
      { calls := n + 17, apiReady := some false, occurred := [arrives, completes],
        stopStatus := some (.ok ()) } := .single (.completes rfl)
  apply (runs_requestShutdown _).bind
  refine .call (a := ()) (calls_of_step (.unobserving rfl)) ?_
  apply (runs_stop _).bind
  apply (runs_reapExited_stopped _).bind
  refine .call ⟨_, hmoves, .joinApi rfl⟩ ?_
  exact .call (calls_of_step (.apiResult rfl)) .ret

/-- The main program reaches its loop, and returns what its shutdown does. -/
theorem runs_main {reason : SupervisorExitReason} {code : Int32}
    (hloop : (Prog.repeatUntil (Supervisor.supervise posixDaemon) ()).Runs Calls { calls := 16 }
      reason w)
    (hshutDown : (Supervisor.shutDown posixDaemon reason).Runs Calls w code w') :
  (Supervisor.main Controller.processController []).Runs Calls {} code
    { w' with calls := w'.calls + 4 }
  := by
  let opened : Status := .ok ()
  refine .call (a := true) (calls_of_step (.unobserving rfl)) ?_
  refine .call (a := opened) (calls_of_step (.unobserving rfl)) ?_
  refine .call (a := opened) (calls_of_step (.unobserving rfl)) ?_
  apply (runs_start _).bind
  refine .call (a := ()) (calls_of_step (.unobserving rfl)) ?_
  apply hloop.bind
  apply hshutDown.bind
  apply (runs_destroy _).bind
  exact .ret

/-! ### The exit -/

/-- Whatever happens between the calls of the supervisor: if the task of the API server completes
before the first signal arrives, the loop ends with `kApiExit`, and it ends with `kSignal` only if a
signal has arrived and the task had not completed when it was last asked about. The loop does end,
where something happens after any number of calls. Where the supervisor shuts down after the loop, it
returns 0 only if the reason is `kSignal` and the task and `Stop` have returned ok. If the task
completes before the first signal, the main program returns 1. -/
theorem supervisor_exit :
  (∀ {F OsCall : Type} {OsAnswer : OsCall → Type} (platform : Platform F OsCall OsAnswer)
    (reason : SupervisorExitReason) (w w' : Supervision),
    (Prog.repeatUntil (Supervisor.supervise platform) ()).Runs Calls w reason w' →
    (w'.ApiFirst → reason = .apiExit) ∧
      (reason = .signal → w'.shutdownSignal ≠ 0 ∧ w'.apiReady = some false)) ∧
  (∀ (k : ℕ) (w : Supervision) (executablePath : Bytes) (args : List Bytes),
    Prog.EndsIn (CallsBy k) (fun reason w' => w'.ApiFirst → reason = .apiExit)
      (Prog.repeatUntil (Supervisor.supervise
        (Controller.processController executablePath args)) ()) w ∧
    ∀ multiByteToWideChar, Prog.EndsIn (CallsBy k) (fun reason w' => w'.ApiFirst → reason = .apiExit)
      (Prog.repeatUntil (Supervisor.supervise
        (WindowsController.processController multiByteToWideChar executablePath args)) ()) w) ∧
  (∀ {F OsCall : Type} {OsAnswer : OsCall → Type} (platform : Platform F OsCall OsAnswer)
    (reason : SupervisorExitReason) (code : Int32) (w w' : Supervision),
    (Supervisor.shutDown platform reason).Runs Calls w code w' → (code = 0 ∨ code = 1) ∧
      (code = 0 → reason = .signal ∧ w'.api = some (.returned (.ok ())) ∧
        w'.stopStatus = some (.ok ()))) ∧
  ∀ {F OsCall : Type} {OsAnswer : OsCall → Type}
    (controller : Bytes → List Bytes → Platform F OsCall OsAnswer) (argv : List Bytes)
    (code : Int32) (w w' : Supervision),
    (Supervisor.main controller argv).Runs Calls w code w' → (w'.ApiFirst → code = 1) ∧
      (code = 0 → w'.SignalFirst ∧ w'.api = some (.returned (.ok ())) ∧
        w'.stopStatus = some (.ok ()))
  := by
  refine ⟨?_, ?_, ?_, ?_⟩
  · intro F OsCall OsAnswer platform reason w w' hrun
    have hobserved := Prog.wp_runs_after (fun _ => .refl) hrun (ends_loop platform) w' .refl
    cases reason with
    | apiExit => exact ⟨fun _ => rfl, by rintro ⟨⟩⟩
    | signal =>
      obtain ⟨hfirst, hready⟩ := hobserved rfl
      exact ⟨fun hapi => absurd hapi hfirst.not_apiFirst, fun _ => ⟨hfirst.shutdownSignal, hready⟩⟩
  · intro k w executablePath args
    use endsIn_loop (reaps_posix executablePath args) k w
    exact fun multiByteToWideChar =>
      endsIn_loop (reaps_windows multiByteToWideChar executablePath args) k w
  · intro F OsCall OsAnswer platform reason code w w' hrun
    apply Prog.wp_runs_after (fun _ => .refl) hrun (ends_shutDown platform reason) w' .refl
  · intro F OsCall OsAnswer controller argv code w w' hrun
    obtain ⟨hcode, hzero⟩ :=
      Prog.wp_runs_after (fun _ => .refl) hrun (ends_main controller argv) w' .refl
    refine ⟨?_, hzero⟩
    intro hapi
    rcases hcode with rfl | rfl
    · exact absurd hapi (hzero rfl).1.not_apiFirst
    · rfl

/-- The task completes and a signal arrives while an iteration asks about the task and reads the
signal: the loop ends with `kApiExit`, and the main program returns 1. Where a signal arrives first,
the shutdown and the main program can return 0. -/
theorem supervisor_exit_samples :
  (∃ (reason : SupervisorExitReason) (w : Supervision),
    (Prog.repeatUntil (Supervisor.supervise posixDaemon) ()).Runs Calls {} reason w ∧
      w.shutdownSignal ≠ 0 ∧ reason = .apiExit) ∧
  (∃ w w' : Supervision, (Supervisor.shutDown posixDaemon .signal).Runs Calls w 0 w' ∧
    w.api = none ∧ w'.api = some (.returned (.ok ())) ∧ w'.stopStatus = some (.ok ())) ∧
  (∃ (code : Int32) (w : Supervision),
    (Supervisor.main Controller.processController []).Runs Calls {} code w ∧
      w.shutdownSignal ≠ 0 ∧ code = 1) ∧
  ∃ w : Supervision, (Supervisor.main Controller.processController []).Runs Calls {} 0 w ∧
    w.SignalFirst ∧ w.api = some (.returned (.ok ())) ∧ w.stopStatus = some (.ok ())
  := by
  have hapi := runs_main (runs_loop_apiExit 16) (runs_shutDown_apiExit 32)
  have hsignal := runs_main (runs_loop_signal 16) (runs_shutDown_signal 32)
  refine ⟨?_, ?_, ?_, ?_⟩
  · refine ⟨_, _, runs_loop_apiExit 0, by decide, ?_⟩
    exact (supervisor_exit.1 posixDaemon _ _ _ (runs_loop_apiExit 0)).1 ⟨_, rfl⟩
  · refine ⟨_, _, runs_shutDown_signal 0, rfl, ?_⟩
    exact ((supervisor_exit.2.2.1 posixDaemon _ _ _ _ (runs_shutDown_signal 0)).2 rfl).2
  · refine ⟨_, _, hapi, by decide, ?_⟩
    exact (supervisor_exit.2.2.2 Controller.processController _ _ _ _ hapi).1 ⟨_, rfl⟩
  · exact ⟨_, hsignal, (supervisor_exit.2.2.2 Controller.processController _ _ _ _ hsignal).2 rfl⟩

end Supervision

end OpcuaServer
