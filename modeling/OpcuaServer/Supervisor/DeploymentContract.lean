import OpcuaServer.Config.Snapshots
import OpcuaServer.Supervisor.ConnectionUse

/-!
# What the threads of a deployment rely on

A worker uses the connection of the supervisor while it has locked `operations_mutex_`, and no other
thread saves a configuration. So what the object of the requests holds is the current configuration
whenever the mutex is free, and the connection then reads what has been committed
(`Deployment.Inv`).
-/

namespace OpcuaServer

namespace Deployment

variable {Worker Process : Type} [DecidableEq Worker] [DecidableEq Process] {assume : Assumptions}
  {w w' : Deployment Worker Process}

/-- What holds of a deployment between any two calls. -/
structure Inv (assume : Assumptions) (w : Deployment Worker Process) : Prop where
  store : w.store.Inv
  ready : w.apiStarted = true → w.store.ready none
  locked : w.operations.isSome → w.apiStarted = true
  current : w.operations = none → w.object.value = w.store.current
  reads : w.apiStarted = true → w.operations = none → World.Reads assume none w.store

/-- What a thread relies on while the others move. -/
structure Rely (assume : Assumptions) (t : HostThread Worker Process)
    (w w' : Deployment Worker Process) : Prop where
  inv : w.Inv assume → w'.Inv assume
  started : w.apiStarted = true → w'.apiStarted = true
  supervisor : t = .supervisor → w'.apiStarted = w.apiStarted ∧
    (w.apiStarted = false → World.Rely none w.store w'.store)
  worker : ∀ u, t = .worker u → w'.object.phase u = w.object.phase u ∧
    (w'.operations = some u ↔ w.operations = some u) ∧
    (w.operations = some u → w'.object.value = w.object.value ∧ w'.store.saved = w.store.saved ∧
      World.Rely none w.store w'.store)
  daemon : ∀ p, t = .daemon p → World.Rely (some p) w.store w'.store

/-- The configuration with which a daemon runs its server: it is valid, it is the one that had been
saved when the daemon read the rows, and its port is not cut off. -/
def Configures (p : Process) (portNumber : UInt16) (w : Deployment Worker Process) : Prop :=
  ∃ config, w.store.Saw (some p) config ∧ config.validate = .ok () ∧
    (portNumber.toNat : ℤ) = config.serverPort.toInt

/-- The request is one for the repository. -/
def UsesRepository (request : ApiRequest) : Prop :=
  request.route = .getConfig ∨ request.route = .putConfig

/-- A handler returns: its response and the current configuration are those of the request, it
reports a failure of the repository only where a call has failed, and it leaves the connection such
that it reads what has been committed. -/
structure Returns (assume : Assumptions) (u : Worker) (response : Response)
    (w : Deployment Worker Process) : Prop where
  locked : w.operations = some u
  reads : World.Reads assume none w.store
  returns : ∃ request, w.object.phase u = .asked request ∧
    ConfigApi request w.object.value response w.store.current ∧
    (UsesRepository request → response.status ≠ 200 → w.store.failed none)

/-- A request is answered: it has taken effect, or it has none. -/
def Answers (u : Worker) (response : Response) (w : Deployment Worker Process) : Prop :=
  w.operations ≠ some u ∧ ∃ request, w.object.phase u = .effected request response ∨
    w.object.phase u = .asked request ∧ ∀ config, ConfigApi request config response config

/-- Where a worker makes its calls. -/
def WorkerGuard (assume : Assumptions) (u : Worker) : ApiCall → Deployment Worker Process → Prop
  | .startApi, _ => False
  | .nextRequest, w => w.operations ≠ some u ∧ w.object.phase u = .idle
  | .lockOperations, w => w.operations ≠ some u ∧ w.apiStarted = true
  | .unlockOperations response, w => w.Returns assume u response
  | .processStatus, w | .start, w | .stop _, w | .restart _, w => w.operations = some u
  | .respond response, w => w.Answers u response

/-- Where the threads make their calls. -/
def Guard (assume : Assumptions) :
    HostThread Worker Process → HostCall → Deployment Worker Process → Prop
  | t, .inl (.inl call), w => Uses t w ∧ World.Guard t.connection (.inl call) w.store ∧
      (call = .exec .commit → ∃ u, t = .worker u)
  | t, .inl (.inr (.called request)), w => Uses t w ∧
      ∀ config, request = .save config → ∀ f, ServerConfig.NulFree (config.text f)
  | t, .inl (.inr (.returned reply)), w => Uses t w ∧
      World.Guard t.connection (.inr (.report reply)) w.store
  | .daemon p, .inl (.inr (.uaServerConfigSetMinimal _ portNumber)), w => Configures p portNumber w
  | .daemon _, .inl (.inr _), _ => True
  | .supervisor, .inr .startApi, w => w.apiStarted = false ∧ w.store.ready none ∧
      World.Reads assume none w.store
  | .worker u, .inr call, w => WorkerGuard assume u call w
  | _, _, _ => False

/-- The contract of the threads of a deployment. -/
def contract (assume : Assumptions) :
    Threads.Contract (HostThread Worker Process) HostCall (Deployment Worker Process) where
  rely := Rely assume
  guard t call w := w.Inv assume ∧ Guard assume t call w

/-! ### The contract is respected -/

omit [DecidableEq Worker] in
theorem Rely.refl (assume : Assumptions) (t : HostThread Worker Process)
    (w : Deployment Worker Process) :
  Rely assume t w w
  where
  inv := id
  started := id
  supervisor _ := ⟨rfl, fun _ => World.Rely.refl none w.store⟩
  worker _ _ := ⟨rfl, Iff.rfl, fun _ => ⟨rfl, rfl, World.Rely.refl none w.store⟩⟩
  daemon p _ := World.Rely.refl (some p) w.store

omit [DecidableEq Worker] in
theorem Rely.trans {t : HostThread Worker Process} {w₁ w₂ w₃ : Deployment Worker Process}
    (h : Rely assume t w₁ w₂) (h' : Rely assume t w₂ w₃) :
  Rely assume t w₁ w₃
  where
  inv := h'.inv ∘ h.inv
  started := h'.started ∘ h.started
  supervisor ht := by
    obtain ⟨hstarted, hrely⟩ := h.supervisor ht
    obtain ⟨hstarted', hrely'⟩ := h'.supervisor ht
    use hstarted'.trans hstarted
    exact fun hfalse => (hrely hfalse).trans (hrely' (hstarted.trans hfalse))
  worker u ht := by
    obtain ⟨hphase, hoperations, hlocked⟩ := h.worker u ht
    obtain ⟨hphase', hoperations', hlocked'⟩ := h'.worker u ht
    refine ⟨hphase'.trans hphase, hoperations'.trans hoperations, fun hheld => ?_⟩
    obtain ⟨hvalue, hsaved, hrely⟩ := hlocked hheld
    obtain ⟨hvalue', hsaved', hrely'⟩ := hlocked' (hoperations.mpr hheld)
    exact ⟨hvalue'.trans hvalue, hsaved'.trans hsaved, hrely.trans hrely'⟩
  daemon p ht := (h.daemon p ht).trans (h'.daemon p ht)

omit [DecidableEq Worker] in
/-- A thread other than a worker saves nothing through its connection. -/
theorem saved_of_uses {t : HostThread Worker Process} {call : SqliteCall ⊕ ClientCall}
    {a : Sum.elim SqliteCall.Answer ClientCall.Answer call} {store : World (Option Process)}
    (hcommit : call = .inl (.exec .commit) → ∃ u, t = .worker u)
    (h : World.Step assume t.connection call w.store a store) (hnot : ∀ u, t ≠ .worker u) :
  store.saved = w.store.saved
  := by
  apply World.saved_of_step h
  intro hcall
  obtain ⟨u, hu⟩ := hcommit hcall
  apply hnot u hu

omit [DecidableEq Worker] in
/-- What a thread does through its connection keeps the invariant. -/
theorem inv_store {t : HostThread Worker Process} {call : SqliteCall ⊕ ClientCall}
    {a : Sum.elim SqliteCall.Answer ClientCall.Answer call} {store : World (Option Process)}
    (hinv : w.Inv assume) (huses : Uses t w) (hguard : World.Guard t.connection call w.store)
    (hcommit : call = .inl (.exec .commit) → ∃ u, t = .worker u)
    (h : World.Step assume t.connection call w.store a store) :
  ({ w with store } : Deployment Worker Process).Inv assume
  := by
  refine ⟨(hinv.store.step hguard h).1, fun hstarted => World.ready_of_step h (hinv.ready hstarted),
    hinv.locked, fun hnone => ?_, fun hstarted hnone => ?_⟩
  · have hsaved : store.saved = w.store.saved := by
      apply saved_of_uses hcommit h
      rintro u rfl
      cases hnone.symm.trans huses
    change w.object.value = store.current
    rw [hinv.current hnone, World.current, World.current, hsaved]
  · have hrely : World.Rely none w.store store := by
      cases t with
      | supervisor => cases hstarted.symm.trans huses
      | worker u => cases hnone.symm.trans huses
      | daemon p => exact h.rely (by rintro ⟨⟩) hinv.store hguard
    exact (hinv.reads hstarted hnone).rely hrely

omit [DecidableEq Worker] in
/-- What a thread does through its connection respects what the others rely on. -/
theorem rely_store {t t' : HostThread Worker Process} {call : SqliteCall ⊕ ClientCall}
    {a : Sum.elim SqliteCall.Answer ClientCall.Answer call} {store : World (Option Process)}
    (hne : t' ≠ t) (hinv : w.Inv assume) (huses : Uses t w)
    (hguard : World.Guard t.connection call w.store)
    (hcommit : call = .inl (.exec .commit) → ∃ u, t = .worker u)
    (h : World.Step assume t.connection call w.store a store) :
  Rely assume t' w { w with store }
  := by
  have hrely : ∀ {other : Option Process}, other ≠ t.connection →
      World.Rely other w.store store := fun hother => h.rely hother hinv.store hguard
  have hstarted : ∀ {u : Worker}, w.operations = some u → w.apiStarted = true :=
    fun hheld => hinv.locked (Option.isSome_iff_exists.mpr ⟨_, hheld⟩)
  constructor
  · exact fun _ => inv_store hinv huses hguard hcommit h
  · exact id
  · rintro rfl
    refine ⟨rfl, fun hfalse => ?_⟩
    cases t with
    | supervisor => cases hne rfl
    | worker u => cases hfalse.symm.trans (hstarted huses)
    | daemon p => exact hrely nofun
  · rintro u rfl
    refine ⟨rfl, Iff.rfl, fun hheld => ⟨rfl, ?_⟩⟩
    cases t with
    | supervisor => cases huses.symm.trans (hstarted hheld)
    | worker u' =>
      cases huses.symm.trans hheld
      cases hne rfl
    | daemon p => exact ⟨saved_of_uses hcommit h nofun, hrely nofun⟩
  · rintro p rfl
    cases t with
    | supervisor => exact hrely nofun
    | worker => exact hrely nofun
    | daemon p' =>
      apply hrely
      rintro ⟨⟩
      apply hne rfl

omit [DecidableEq Worker] in
/-- What a thread does to the requests respects what the others rely on. -/
theorem rely_object {u : Worker} {t' : HostThread Worker Process}
    {object : AtomicObject.State Worker ServerConfig ApiRequest Response}
    {operations : Option Worker} (hne : t' ≠ .worker u)
    (hphase : ∀ u', u' ≠ u → object.phase u' = w.object.phase u')
    (hoperations : ∀ u', u' ≠ u → (operations = some u' ↔ w.operations = some u'))
    (hvalue : w.operations ≠ some u → object.value = w.object.value)
    (hinv : ({ w with object, operations } : Deployment Worker Process).Inv assume) :
  Rely assume t' w { w with object, operations }
  := by
  refine ⟨fun _ => hinv, id, ?_, ?_, ?_⟩
  · exact fun _ => ⟨rfl, fun _ => World.Rely.refl none w.store⟩
  · rintro u' rfl
    have hu : u' ≠ u := by
      rintro rfl
      apply hne rfl
    refine ⟨hphase u' hu, hoperations u' hu, fun hheld => ⟨?_, rfl, World.Rely.refl none w.store⟩⟩
    apply hvalue
    rw [hheld]
    rintro ⟨⟩
    apply hu rfl
  · exact fun p _ => World.Rely.refl (some p) w.store

omit [DecidableEq Process] in
theorem finish_phase {u u' : Worker} (hne : u' ≠ u) (response : Response) (config : ServerConfig) :
  (w.finish u response config).phase u' = w.object.phase u'
  := by
  rw [finish]
  split
  · apply Function.update_of_ne hne
  · rfl

omit [DecidableEq Process] in
theorem finish_value {u : Worker} {request : ApiRequest} {response : Response}
    {config : ServerConfig} (hphase : w.object.phase u = .asked request) :
  w.finish u response config = w.object.effect u request response config
  := by rw [finish, hphase]

omit [DecidableEq Process] in
/-- Finishing with the value of the object leaves it. -/
theorem finish_value_self (u : Worker) (response : Response) :
  (w.finish u response w.object.value).value = w.object.value
  := by
  rw [finish]
  split
  · rfl
  · rfl

omit [DecidableEq Worker] in
/-- What a repository is asked for is what a client asks for. -/
theorem step_called {t : HostThread Worker Process} {request : Request}
    (hnul : ∀ config, request = .save config → ∀ f, ServerConfig.NulFree (config.text f)) :
  World.Step assume t.connection (.inr .nextRequest) w.store (some request)
    (w.store.ask t.connection (some request))
  := by
  apply World.Step.nextRequest
  rintro config ⟨⟩
  apply hnul config rfl

/-- A call that is made where its guard holds keeps the invariant. -/
theorem inv_step {t : HostThread Worker Process} {call : HostCall} {a : HostAnswer call}
    (hinv : w.Inv assume) (hguard : Guard assume t call w) (h : Step assume t call w a w') :
  w'.Inv assume
  := by
  cases h with
  | @repository _ call _ a store hstep =>
    obtain ⟨huses, hguard, hcommit⟩ := hguard
    apply inv_store hinv huses hguard _ hstep
    rintro ⟨⟩
    apply hcommit rfl
  | called =>
    apply inv_store hinv hguard.1 _ _ (@step_called _ _ _ assume w t _ hguard.2)
    · exact trivial
    · exact nofun
  | returned =>
    obtain ⟨huses, hguard⟩ := hguard
    exact inv_store hinv huses hguard nofun (@World.Step.report _ _ assume _ _ _)
  | daemon | processStatus | start | stop | restart | noRequest => exact hinv
  | startApi =>
    obtain ⟨-, hready, hreads⟩ := hguard
    exact ⟨hinv.store, fun _ => hready, fun _ => rfl, hinv.current, fun _ _ => hreads⟩
  | nextRequest => exact ⟨hinv.store, hinv.ready, hinv.locked, hinv.current, hinv.reads⟩
  | lockOperations => exact ⟨hinv.store, hinv.ready, fun _ => hguard.2, nofun, nofun⟩
  | unlockOperations =>
    obtain ⟨-, hreads, request, hphase, -⟩ := hguard
    refine ⟨hinv.store, hinv.ready, nofun, fun _ => ?_, fun _ _ => hreads⟩
    change (finish ..).value = _
    rw [finish_value hphase]
    rfl
  | respond =>
    refine ⟨hinv.store, hinv.ready, hinv.locked, fun hfree => ?_, hinv.reads⟩
    exact (finish_value_self ..).trans (hinv.current hfree)

/-- Other threads can rely on a call that is made where its guard holds. -/
theorem rely_step {t t' : HostThread Worker Process} {call : HostCall} {a : HostAnswer call}
    (hne : t' ≠ t) (hinv : w.Inv assume) (hguard : Guard assume t call w)
    (h : Step assume t call w a w') :
  Rely assume t' w w'
  := by
  have hinv' := inv_step hinv hguard h
  cases h with
  | @repository _ call _ a store hstep =>
    obtain ⟨huses, hguard, hcommit⟩ := hguard
    apply rely_store hne hinv huses hguard _ hstep
    rintro ⟨⟩
    apply hcommit rfl
  | called =>
    apply rely_store hne hinv hguard.1 _ _ (@step_called _ _ _ assume w t _ hguard.2)
    · exact trivial
    · exact nofun
  | returned =>
    obtain ⟨huses, hguard⟩ := hguard
    exact rely_store hne hinv huses hguard nofun (@World.Step.report _ _ assume _ _ _)
  | daemon | processStatus | start | stop | restart | noRequest => apply Rely.refl
  | startApi =>
    refine ⟨fun _ => hinv', fun _ => rfl, ?_, ?_, ?_⟩
    · rintro rfl
      cases hne rfl
    · exact fun u _ => ⟨rfl, Iff.rfl, fun _ => ⟨rfl, rfl, World.Rely.refl none _⟩⟩
    · exact fun p _ => World.Rely.refl (some p) _
  | nextRequest =>
    apply rely_object hne _ _ _ hinv'
    · exact fun u' hu => Function.update_of_ne hu ..
    · exact fun _ _ => Iff.rfl
    · exact fun _ => rfl
  | lockOperations hfree =>
    apply rely_object hne _ _ _ hinv'
    · exact fun _ _ => rfl
    · intro u' hu
      rw [hfree]
      constructor
      · rintro ⟨⟩
        cases hu rfl
      · rintro ⟨⟩
    · exact fun _ => rfl
  | unlockOperations =>
    have hheld := hguard.locked
    apply rely_object hne _ _ _ hinv'
    · exact fun u' hu => finish_phase hu ..
    · intro u' hu
      rw [hheld]
      constructor
      · rintro ⟨⟩
      · rintro ⟨⟩
        cases hu rfl
    · exact fun hnot => absurd hheld hnot
  | respond =>
    apply rely_object hne _ _ _ hinv'
    · exact fun u' hu => (Function.update_of_ne hu ..).trans (finish_phase hu ..)
    · exact fun _ _ => Iff.rfl
    · exact fun _ => finish_value_self ..

theorem respects (assume : Assumptions) :
  Threads.Respects (deployment assume)
    (contract assume : Threads.Contract (HostThread Worker Process) _ _)
  where
  refl := Rely.refl assume
  trans _ _ _ _ := Rely.trans
  step hne hguard := rely_step hne hguard.1 hguard.2
  env := by rintro _ _ _ ⟨⟩
  halt := by
    rintro _ t' w _ hne ⟨⟩
    next p =>
    have hlose : ∀ {other : Option Process}, other ≠ some p →
        World.Rely other w.store (w.store.lose (some p)) :=
      fun hother => (World.respects assume).halt hother rfl
    refine ⟨fun hinv => ?_, id, ?_, ?_, ?_⟩
    · have hnone : World.Rely none w.store (w.store.lose (some p)) := hlose nofun
      exact ⟨hnone.inv hinv.store, hinv.ready, hinv.locked, hinv.current,
        fun hstarted hfree => (hinv.reads hstarted hfree).rely hnone⟩
    · exact fun _ => ⟨rfl, fun _ => hlose nofun⟩
    · exact fun u _ => ⟨rfl, Iff.rfl, fun _ => ⟨rfl, rfl, hlose nofun⟩⟩
    · rintro p' rfl
      apply hlose
      rintro ⟨⟩
      apply hne rfl

end Deployment

end OpcuaServer
