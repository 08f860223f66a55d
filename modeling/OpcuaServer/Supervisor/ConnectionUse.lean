import OpcuaServer.Supervisor.DeploymentRuns

/-!
# Who uses a connection

The supervisor uses its connection until it runs the API server, and a worker uses the same
connection while it has locked `operations_mutex_`. So no two threads are about to make calls on one
connection, whatever the database is and whatever the calls answer
(`Deployment.unique_of_reaches`).
-/

namespace OpcuaServer

open ConfigRepository ApiServer

namespace Deployment

variable {Worker Process : Type} [DecidableEq Worker] [DecidableEq Process] {assume : Assumptions}
  {w w' : Deployment Worker Process} {α β : Type}

/-- The thread can use its connection. -/
def Uses : HostThread Worker Process → Deployment Worker Process → Prop
  | .supervisor, w => w.apiStarted = false
  | .worker u, w => w.operations = some u
  | .daemon _, _ => True

/-- The mutex is only locked where the API server is run. -/
def Excludes (w : Deployment Worker Process) : Prop :=
  w.operations.isSome → w.apiStarted = true

omit [DecidableEq Worker] [DecidableEq Process] in
/-- Where two threads can use one connection they are the same. -/
theorem Excludes.eq_of_uses (h : w.Excludes) {t t' : HostThread Worker Process} (huses : Uses t w)
    (huses' : Uses t' w) (hconnection : t.connection = t'.connection) :
  t = t'
  := by
  have hstarted : ∀ {u : Worker}, w.operations = some u → w.apiStarted = true :=
    fun hheld => h (Option.isSome_iff_exists.mpr ⟨_, hheld⟩)
  cases t with
  | supervisor =>
    cases t' with
    | supervisor => rfl
    | worker => cases huses.symm.trans (hstarted huses')
    | daemon => cases hconnection
  | worker =>
    cases t' with
    | supervisor => cases huses'.symm.trans (hstarted huses)
    | worker =>
      cases huses.symm.trans huses'
      rfl
    | daemon => cases hconnection
  | daemon =>
    cases t' with
    | supervisor | worker => cases hconnection
    | daemon =>
      cases hconnection
      rfl

/-! ### The contract -/

/-- What a thread relies on while the others move, so that it can use its connection. -/
structure Undisturbed (t : HostThread Worker Process) (w w' : Deployment Worker Process) : Prop where
  excludes : w.Excludes → w'.Excludes
  started : w.apiStarted = true → w'.apiStarted = true
  supervisor : t = .supervisor → w'.apiStarted = w.apiStarted
  worker : ∀ u, t = .worker u → (w'.operations = some u ↔ w.operations = some u)

/-- Where the threads use their connections and the mutex. -/
def UseGuard : HostThread Worker Process → HostCall → Deployment Worker Process → Prop
  | t, .inl (.inl _), w => Uses t w
  | .worker u, .inr .lockOperations, w => w.operations ≠ some u ∧ w.apiStarted = true
  | .worker u, .inr (.unlockOperations _), w => w.operations = some u
  | _, _, _ => True

/-- The contract of the threads for the use of their connections. -/
def useContract : Threads.Contract (HostThread Worker Process) HostCall (Deployment Worker Process)
    where
  rely := Undisturbed
  guard t call w := w.Excludes ∧ UseGuard t call w

omit [DecidableEq Worker] [DecidableEq Process] in
theorem Undisturbed.of_eq {t : HostThread Worker Process} (hstarted : w'.apiStarted = w.apiStarted)
    (hoperations : w'.operations = w.operations) :
  Undisturbed t w w'
  := by
  refine ⟨?_, ?_, fun _ => hstarted, fun u _ => by rw [hoperations]⟩
  · rw [Excludes, Excludes, hstarted, hoperations]
    exact id
  · rw [hstarted]
    exact id

omit [DecidableEq Worker] [DecidableEq Process] in
theorem Undisturbed.trans {t : HostThread Worker Process} {w₁ w₂ w₃ : Deployment Worker Process}
    (h : Undisturbed t w₁ w₂) (h' : Undisturbed t w₂ w₃) :
  Undisturbed t w₁ w₃
  where
  excludes := h'.excludes ∘ h.excludes
  started := h'.started ∘ h.started
  supervisor ht := (h'.supervisor ht).trans (h.supervisor ht)
  worker u ht := (h'.worker u ht).trans (h.worker u ht)

/-- A call that does not run the API server and does not concern the mutex. -/
def Neutral : HostCall → Prop
  | .inr .startApi | .inr .lockOperations | .inr (.unlockOperations _) => False
  | _ => True

theorem Step.neutral {t : HostThread Worker Process} {call : HostCall} {a : HostAnswer call}
    (hcall : Neutral call) (h : Step assume t call w a w') :
  w'.apiStarted = w.apiStarted ∧ w'.operations = w.operations
  := by
  cases h with
  | startApi | lockOperations | unlockOperations => cases hcall
  | _ => exact ⟨rfl, rfl⟩

/-- The others are undisturbed by a call that is made where its guard holds. -/
theorem undisturbed_step {t t' : HostThread Worker Process} (hne : t' ≠ t) {call : HostCall}
    {a : HostAnswer call} (hguard : UseGuard t call w) (h : Step assume t call w a w') :
  Undisturbed t' w w'
  := by
  by_cases hcall : Neutral call
  · obtain ⟨hstarted, hoperations⟩ := h.neutral hcall
    apply Undisturbed.of_eq hstarted hoperations
  · cases h with
    | startApi =>
      refine ⟨fun _ _ => rfl, fun _ => rfl, ?_, fun u _ => Iff.rfl⟩
      rintro rfl
      cases hne rfl
    | @lockOperations u _ hfree =>
      refine ⟨fun _ _ => hguard.2, id, fun _ => rfl, ?_⟩
      rintro u' rfl
      rw [hfree]
      constructor
      · rintro ⟨⟩
        cases hne rfl
      · rintro ⟨⟩
    | @unlockOperations u _ response =>
      refine ⟨fun _ => nofun, id, fun _ => rfl, ?_⟩
      rintro u' rfl
      have hheld : w.operations = some u := hguard
      rw [hheld]
      constructor
      · rintro ⟨⟩
      · rintro ⟨⟩
        cases hne rfl
    | _ => cases hcall trivial

theorem respects_use (assume : Assumptions) :
  Threads.Respects (deployment assume)
    (useContract : Threads.Contract (HostThread Worker Process) HostCall _)
  where
  refl _ _ := .of_eq rfl rfl
  trans _ _ _ _ := Undisturbed.trans
  step hne hguard := undisturbed_step hne hguard.2
  env := by rintro _ _ _ ⟨⟩
  halt := by
    rintro _ _ _ _ _ ⟨⟩
    exact .of_eq rfl rfl

/-! ### The threads -/

/-- A program of a thread keeps to the contract and ends as `Q` says. -/
abbrev UsesWell (assume : Assumptions) (t : HostThread Worker Process) (p : HostProg α)
    (Q : α → Deployment Worker Process → Prop) (w : Deployment Worker Process) : Prop :=
  p.wp (Step assume t) (Undisturbed t) (useContract.guard t) Q w

/-- A thread whose calls are neutral keeps what the others do. -/
theorem usesWell_neutral {t : HostThread Worker Process} {J : Deployment Worker Process → Prop}
    {p : HostProg α} {P : HostCall → Prop} (hp : p.Only P) (hneutral : ∀ call, P call → Neutral call)
    (hstable : ∀ w w', Undisturbed t w w' → J w → J w')
    (hguard : ∀ call w, P call → J w → w.Excludes ∧ UseGuard t call w) (h : J w) :
  UsesWell assume t p (fun _ => J) w
  := by
  apply hp.wp hstable hguard _ h
  intro call w a w' hcall hstep hJ
  obtain ⟨hstarted, hoperations⟩ := hstep.neutral (hneutral call hcall)
  exact hstable _ _ (.of_eq hstarted hoperations) hJ

theorem usesWell_daemon {p : Process} (prog : DaemonProg α) (h : w.Excludes) :
  UsesWell assume (.daemon p) prog.lift (fun _ => Excludes) w
  := by
  apply usesWell_neutral prog.only_lift _ (fun _ _ hrely => hrely.excludes) _ h
  · rintro _ ⟨call, rfl⟩
    trivial
  · rintro _ w ⟨call, rfl⟩ h
    use h
    rcases call with call | call
    · trivial
    · trivial

/-- The supervisor does not use its connection once it runs the API server. -/
theorem usesWell_openApi (h : w.Excludes) (hclosed : w.apiStarted = false) :
  UsesWell assume .supervisor openApi (fun _ _ => True) w
  := by
  apply Prog.wp_bind fun _ => .of_eq rfl rfl
  apply Prog.wp_mono _ (usesWell_neutral Daemon.callInitialize.only_lift
    (J := fun w => w.Excludes ∧ w.apiStarted = false) _ _ _ ⟨h, hclosed⟩)
  · rintro (message | ⟨⟩) w ⟨h, -⟩
    · exact fun _ _ => trivial
    · exact fun w' hrely => ⟨⟨hrely.excludes h, trivial⟩, fun _ _ _ _ _ => trivial⟩
  · rintro _ ⟨call, rfl⟩
    trivial
  · exact fun w w' hrely h => ⟨hrely.excludes h.1, (hrely.supervisor rfl).trans h.2⟩
  · rintro _ w ⟨call, rfl⟩ ⟨h, hclosed⟩
    use h
    rcases call with call | call
    · exact hclosed
    · trivial

/-! ### The workers -/

variable {u : Worker}

/-- A worker that has not locked the mutex. -/
structure Outside (u : Worker) (w : Deployment Worker Process) : Prop where
  excludes : w.Excludes
  unlocked : w.operations ≠ some u

/-- A worker that has been asked for something. -/
structure Called (u : Worker) (w : Deployment Worker Process) : Prop extends Outside u w where
  started : w.apiStarted = true

/-- A worker that has locked the mutex. -/
structure Inside (u : Worker) (w : Deployment Worker Process) : Prop where
  excludes : w.Excludes
  locked : w.operations = some u

omit [DecidableEq Worker] [DecidableEq Process] in
theorem Outside.undisturbed (hrely : Undisturbed (.worker u) w w') (h : Outside u w) :
  Outside u w'
  := ⟨hrely.excludes h.excludes, fun hheld => h.unlocked ((hrely.worker u rfl).mp hheld)⟩

omit [DecidableEq Worker] [DecidableEq Process] in
theorem Called.undisturbed (hrely : Undisturbed (.worker u) w w') (h : Called u w) :
  Called u w'
  := ⟨h.toOutside.undisturbed hrely, hrely.started h.started⟩

omit [DecidableEq Worker] [DecidableEq Process] in
theorem Inside.undisturbed (hrely : Undisturbed (.worker u) w w') (h : Inside u w) :
  Inside u w'
  := ⟨hrely.excludes h.excludes, (hrely.worker u rfl).mpr h.locked⟩

/-- The calls of a handler that has locked the mutex. -/
def HandlerCall : HostCall → Prop
  | .inl _ | .inr .processStatus | .inr .start | .inr (.stop _) | .inr (.restart _) => True
  | _ => False

/-- A handler of a route makes its calls while it has locked the mutex. -/
theorem usesWell_guardOperations {handler : HostProg Response} (hhandler : handler.Only HandlerCall)
    (h : Called u w) :
  UsesWell assume (.worker u) (guardOperations handler) (fun _ => Outside u) w
  := by
  intro w₁ hrely
  have h₁ := h.undisturbed hrely
  refine ⟨⟨h₁.excludes, h₁.unlocked, h₁.started⟩, fun _ w₂ hstep => ?_⟩
  cases hstep with
  | lockOperations =>
    apply Prog.wp_bind (p := handler) fun _ => .of_eq rfl rfl
    have h₂ : Inside u { w₁ with operations := some u } := ⟨fun _ => h₁.started, rfl⟩
    apply Prog.wp_mono _ (usesWell_neutral hhandler _ (fun _ _ => Inside.undisturbed) _ h₂)
    · intro response w₃ h₃ w₄ hrely
      have h₄ := h₃.undisturbed hrely
      refine ⟨⟨h₄.excludes, h₄.locked⟩, fun _ w₅ hstep => ?_⟩
      cases hstep with
      | unlockOperations => exact fun w₆ hrely => Outside.undisturbed hrely ⟨nofun, nofun⟩
    · rintro (call | call) hcall
      · trivial
      · cases call with
        | processStatus | start | stop | restart => trivial
        | _ => cases hcall
    · rintro (call | call) w hcall h
      · use h.excludes
        rcases call with call | call
        · exact h.locked
        · trivial
      · cases call with
        | processStatus | start | stop | restart => exact ⟨h.excludes, trivial⟩
        | _ => cases hcall

theorem usesWell_return {response : Response} (h : Called u w) :
  UsesWell assume (.worker u) (return response) (fun _ => Outside u) w
  := fun _ hrely => h.toOutside.undisturbed hrely

/-- A handler uses the repository only while it has locked the mutex. -/
theorem usesWell_handler (route : ApiRoute) (body : Bytes) (h : Called u w) :
  UsesWell assume (.worker u) (handler route body) (fun _ => Outside u) w
  := by
  have hrepository : ∀ prog : DaemonProg Response, UsesWell assume (.worker u)
      (guardOperations prog.lift) (fun _ => Outside u) w := by
    intro prog
    apply usesWell_guardOperations (Prog.Only.mono _ prog.only_lift) h
    rintro _ ⟨call, rfl⟩
    trivial
  cases route with
  | health => exact usesWell_return h
  | getConfig => exact hrepository _
  | putConfig =>
    rw [handler, handlePutConfigWith]
    split
    · exact usesWell_return h
    · split
      · exact usesWell_return h
      · exact hrepository _
  | status | start | stop | restart =>
    exact usesWell_guardOperations ⟨trivial, fun _ => trivial⟩ h

theorem usesWell_handle (request : ApiRequest) (h : Called u w) :
  UsesWell assume (.worker u) (handle request) (fun _ => Outside u) w
  := by
  rw [handle]
  split
  · exact usesWell_return h
  · apply Prog.wp_bind fun _ => .of_eq rfl rfl
    apply Prog.wp_mono _ (usesWell_handler _ _ h)
    exact fun _ _ h _ hrely => h.undisturbed hrely

theorem usesWell_worker (h : Outside u w) :
  UsesWell assume (.worker u) worker (fun _ _ => True) w
  := by
  apply Prog.wp_repeatUntil (fun _ => Outside u) (fun _ _ _ => Outside.undisturbed) h
  intro _ w h w₁ hrely
  have h₁ := h.undisturbed hrely
  refine ⟨⟨h₁.excludes, trivial⟩, fun request w₂ hstep => ?_⟩
  cases hstep with
  | noRequest => exact fun _ _ _ _ => trivial
  | @nextRequest _ _ request hstarted =>
    have h₂ : Called u { w₁ with object := w₁.object.ask u request } :=
      ⟨⟨h₁.excludes, h₁.unlocked⟩, hstarted⟩
    apply Prog.wp_bind (p := handle request) fun _ => .of_eq rfl rfl
    apply Prog.wp_mono _ (usesWell_handle request h₂)
    intro response w₃ h₃ w₄ hrely
    have h₄ := h₃.undisturbed hrely
    refine ⟨⟨h₄.excludes, trivial⟩, fun _ w₅ hstep => ?_⟩
    cases hstep with
    | respond => exact fun _ hrely => Outside.undisturbed hrely ⟨h₄.excludes, h₄.unlocked⟩

/-! ### Results -/

variable {argv : Process → List Bytes} {store : World (Option Process)}
  {c : DeploymentConfig Worker Process}

/-- Every thread keeps to the contract for the use of its connection. -/
theorem safe_use (assume : Assumptions) (argv : Process → List Bytes)
    (store : World (Option Process)) :
  Threads.Safe (deployment assume) useContract
    (deploymentStart argv store : DeploymentConfig Worker Process)
  := by
  intro t
  cases t with
  | supervisor => exact usesWell_openApi nofun rfl
  | worker u => exact usesWell_worker ⟨nofun, nofun⟩
  | daemon p => exact Prog.wp_mono (fun _ _ _ => trivial) (usesWell_daemon (Daemon.process _) nofun)

/-- The connection of the supervisor is used by one thread at a time: by the supervisor before the
API server is run, and then by the worker that has locked the mutex. -/
theorem unique_of_reaches
    (hreach : Threads.Reaches (deployment assume) (deploymentStart argv store) c)
    {t t' : HostThread Worker Process} {call call' : SqliteCall}
    {k : call.Answer → HostProg Unit} {k' : call'.Answer → HostProg Unit}
    (hprog : c.progs t = .call (.inl (.inl call)) k)
    (hprog' : c.progs t' = .call (.inl (.inl call')) k')
    (hconnection : t.connection = t'.connection) :
  t = t' ∧ Uses t c.world
  := by
  obtain ⟨hexcludes, huses⟩ := Threads.guard_of_reaches (respects_use assume)
    (safe_use assume argv store) hreach hprog
  have huses' := Threads.guard_of_reaches (respects_use assume) (safe_use assume argv store)
    hreach hprog'
  exact ⟨hexcludes.eq_of_uses huses huses'.2 hconnection, huses⟩

/-- A worker loads the configuration while another one waits for the mutex. -/
theorem unique_of_waiting :
  ∃ (c : DeploymentConfig Bool Unit) (k : Status → HostProg Unit) (k' : Unit → HostProg Unit),
    Threads.Reaches (deployment ⟨true, false⟩) (deploymentStart (fun _ => []) World.start) c ∧
    c.progs (.worker false) = .call (.inl (.inl (.prepare .select))) k ∧
    c.progs (.worker true) = .call (.inr .lockOperations) k' ∧
    c.world.operations = some false ∧
    ∀ (t : HostThread Bool Unit) (k'' : Status → HostProg Unit),
      c.progs t = .call (.inl (.inl (.prepare .select))) k'' → t.connection = none →
      t = .worker false
  := by
  obtain ⟨progs, w, h₀, hworker, -, hstarted, hfree, -⟩ :=
    @reaches_started Bool Unit _ _ ⟨true, false⟩ fun _ => []
  have h₁ := reaches_asked true { route := .getConfig } h₀ (hworker true) hstarted rfl
  have hne : HostThread.worker false ≠ (.worker true : HostThread Bool Unit) := by decide
  have h₂ := reaches_locked false { route := .getConfig } h₁
    ((Function.update_of_ne hne ..).trans (hworker false)) hstarted hfree rfl rfl
  have h₃ := h₂.call (t := HostThread.worker false) (Function.update_self ..) Step.called
  refine ⟨_, _, _, h₃, rfl, rfl, rfl, fun t k'' hprog hconnection => ?_⟩
  have hunique : t = .worker false ∧ Uses t _ := unique_of_reaches h₃ hprog rfl hconnection
  exact hunique.1

end Deployment

end OpcuaServer
