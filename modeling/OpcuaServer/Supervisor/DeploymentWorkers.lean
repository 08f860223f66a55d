import OpcuaServer.Supervisor.DeploymentContract

/-!
# The workers of a deployment

A worker keeps to the contract of the threads of a deployment: what its handlers do while they have
locked `operations_mutex_` is what the request is for.
-/

namespace OpcuaServer

open ConfigRepository ApiServer

namespace Deployment

variable {Worker Process : Type} [DecidableEq Worker] [DecidableEq Process] {assume : Assumptions}
  {w w' : Deployment Worker Process} {α β : Type}

/-- A program of a thread keeps to the contract and ends as `Q` says. -/
def Keeps (assume : Assumptions) (t : HostThread Worker Process) (p : HostProg α)
    (Q : α → Deployment Worker Process → Prop) (w : Deployment Worker Process) : Prop :=
  p.wp (Step assume t) (Rely assume t) ((contract assume).guard t) Q w

variable {t : HostThread Worker Process} {Q : α → Deployment Worker Process → Prop}

theorem keeps_bind {p : HostProg β} {f : β → HostProg α}
    (h : Keeps assume t p (fun b => Keeps assume t (f b) Q) w) :
  Keeps assume t (p >>= f) Q w
  := Prog.wp_bind (Rely.refl assume t) h

/-- A call is made where the invariant holds and `A` does, which the thread can rely on. -/
theorem keeps_call {call : HostCall} {k : HostAnswer call → HostProg α}
    {A : Deployment Worker Process → Prop} (hstable : ∀ w w', Rely assume t w w' → A w → A w')
    (hguard : ∀ w, w.Inv assume → A w → Guard assume t call w)
    (hk : ∀ w a w', A w → w.Inv assume → Step assume t call w a w' → w'.Inv assume →
      Keeps assume t (k a) Q w')
    (hinv : w.Inv assume) (hA : A w) :
  Keeps assume t (.call call k) Q w
  := by
  intro w₁ hrely
  have hinv₁ := hrely.inv hinv
  have hA₁ := hstable w w₁ hrely hA
  have hguard₁ := hguard w₁ hinv₁ hA₁
  use ⟨hinv₁, hguard₁⟩
  intro a w₂ hstep
  apply hk w₁ a w₂ hA₁ hinv₁ hstep (inv_step hinv₁ hguard₁ hstep)

theorem keeps_ret {a : α} (hstable : ∀ w w', Rely assume t w w' → Q a w → Q a w') (h : Q a w) :
  Keeps assume t (.ret a) Q w
  := fun w' hrely => hstable w w' hrely h

/-! ### A worker -/

variable {u : Worker} {request : ApiRequest} {response : Response} {config : ServerConfig}

/-- A worker has been asked for something, and has not locked the mutex. -/
structure Asked (assume : Assumptions) (u : Worker) (request : ApiRequest)
    (w : Deployment Worker Process) : Prop where
  inv : w.Inv assume
  started : w.apiStarted = true
  phase : w.object.phase u = .asked request
  unlocked : w.operations ≠ some u

/-- A worker has locked the mutex to do what it has been asked for, and the configuration was
`config` then. -/
structure Locked (assume : Assumptions) (u : Worker) (request : ApiRequest) (config : ServerConfig)
    (w : Deployment Worker Process) : Prop where
  inv : w.Inv assume
  started : w.apiStarted = true
  phase : w.object.phase u = .asked request
  locked : w.operations = some u
  value : w.object.value = config

/-- A worker has locked the mutex, and has not used the connection. -/
structure Holds (assume : Assumptions) (u : Worker) (request : ApiRequest) (config : ServerConfig)
    (w : Deployment Worker Process) : Prop extends Locked assume u request config w where
  current : w.store.current = config
  reads : World.Reads assume none w.store

/-- A handler of a worker that has locked the mutex returns. -/
structure Returning (assume : Assumptions) (u : Worker) (response : Response)
    (w : Deployment Worker Process) : Prop where
  inv : w.Inv assume
  started : w.apiStarted = true
  returns : w.Returns assume u response

/-- What a worker has been asked for has taken effect, or has none, and the response is not one for
the error handler. -/
structure Effected (assume : Assumptions) (u : Worker) (response : Response)
    (w : Deployment Worker Process) : Prop where
  inv : w.Inv assume
  started : w.apiStarted = true
  answers : w.Answers u response
  written : writeResponse response = response

omit [DecidableEq Worker] in
theorem Asked.rely (hrely : Rely assume (.worker u) w w') (h : Asked assume u request w) :
  Asked assume u request w'
  := by
  obtain ⟨hphase, hoperations, -⟩ := hrely.worker u rfl
  exact ⟨hrely.inv h.inv, hrely.started h.started, hphase.trans h.phase,
    fun hheld => h.unlocked (hoperations.mp hheld)⟩

omit [DecidableEq Worker] in
theorem Locked.rely (hrely : Rely assume (.worker u) w w') (h : Locked assume u request config w) :
  Locked assume u request config w' ∧ World.Rely none w.store w'.store ∧
    w'.store.saved = w.store.saved
  := by
  obtain ⟨hphase, hoperations, hlocked⟩ := hrely.worker u rfl
  obtain ⟨hvalue, hsaved, hstore⟩ := hlocked h.locked
  exact ⟨⟨hrely.inv h.inv, hrely.started h.started, hphase.trans h.phase,
    hoperations.mpr h.locked, hvalue.trans h.value⟩, hstore, hsaved⟩

omit [DecidableEq Worker] in
theorem Holds.rely (hrely : Rely assume (.worker u) w w') (h : Holds assume u request config w) :
  Holds assume u request config w'
  := by
  obtain ⟨hlocked, hstore, hsaved⟩ := h.toLocked.rely hrely
  refine ⟨hlocked, ?_, h.reads.rely hstore⟩
  rw [World.current, hsaved]
  exact h.current

omit [DecidableEq Worker] in
theorem Returning.rely (hrely : Rely assume (.worker u) w w') (h : Returning assume u response w) :
  Returning assume u response w' ∧ World.Rely none w.store w'.store
  := by
  obtain ⟨hheld, hreads, request, hphase, hspec, hfailed⟩ := h.returns
  obtain ⟨hphase', hoperations, hlocked⟩ := hrely.worker u rfl
  obtain ⟨hvalue, hsaved, hstore⟩ := hlocked hheld
  have hcurrent : w'.store.current = w.store.current := by
    rw [World.current, World.current, hsaved]
  refine ⟨⟨hrely.inv h.inv, hrely.started h.started, hoperations.mpr hheld, hreads.rely hstore,
    request, hphase'.trans hphase, ?_, ?_⟩, hstore⟩
  · rw [hvalue, hcurrent]
    exact hspec
  · rw [hstore.failed]
    exact hfailed

omit [DecidableEq Worker] in
theorem Effected.rely (hrely : Rely assume (.worker u) w w') (h : Effected assume u response w) :
  Effected assume u response w'
  := by
  obtain ⟨hphase, hoperations, -⟩ := hrely.worker u rfl
  obtain ⟨hunlocked, request, hanswer⟩ := h.answers
  refine ⟨hrely.inv h.inv, hrely.started h.started,
    ⟨fun hheld => hunlocked (hoperations.mp hheld), request, ?_⟩, h.written⟩
  rw [hphase]
  exact hanswer

/-- A worker that has locked the mutex calls the repository. -/
theorem keeps_repository {p : Repository β} {R R' : β → World (Option Process) → Prop}
    (hp : World.Keeps assume none p R w.store) (hsaves : World.Saves assume none p R' w.store)
    (h : Locked assume u request config w) :
  Keeps assume (.worker u) p.lift.lift
    (fun b w => (R b w.store ∧ R' b w.store) ∧ Locked assume u request config w) w
  := by
  apply Prog.wp_lift
  apply Prog.wp_lift
  apply Prog.wp_focus Deployment.store _ _ _ (Prog.wp_and hp hsaves) h
  · intro w w' hrely h
    obtain ⟨h', hstore, hsaved⟩ := h.rely hrely
    exact ⟨⟨hstore, hsaved, hstore.request, hstore.snapshot, hstore.failed⟩, h'⟩
  · rintro call w h ⟨⟨-, hguard⟩, -⟩
    exact ⟨h.inv, h.locked, hguard, fun _ => ⟨u, rfl⟩⟩
  · rintro call w a w' h ⟨⟨-, hguard⟩, -⟩ hstep
    have hguard' : Guard assume (.worker u) (.inl (.inl call)) w :=
      ⟨h.locked, hguard, fun _ => ⟨u, rfl⟩⟩
    have hinv := inv_step h.inv hguard' hstep
    cases hstep with
    | repository hstep => exact ⟨hstep, hinv, h.started, h.phase, h.locked, h.value⟩

/-- A handler calls a function of the repository. -/
theorem keeps_callRepository {asked : Request} {handler : Repository Response}
    (hnul : ∀ config, asked = .save config → ∀ f, ServerConfig.NulFree (config.text f))
    (hhandler : ∀ w : Deployment Worker Process, Holds assume u request config w →
      w.store.request none = some asked →
      Keeps assume (.worker u) handler.lift.lift (Returning assume u) w)
    (h : Holds assume u request config w) :
  Keeps assume (.worker u) (callRepository asked handler).lift (Returning assume u) w
  := by
  apply keeps_call (fun _ _ => Holds.rely) _ _ h.inv h
  · exact fun w _ h => ⟨h.locked, hnul⟩
  · intro w a w' h _ hstep hinv
    cases hstep with
    | called =>
      apply hhandler
      · exact ⟨⟨hinv, h.started, h.phase, h.locked, h.value⟩, h.current, h.reads⟩
      · exact Function.update_self none (some asked) w.store.request

theorem keeps_returning (h : Returning assume u response w) :
  Keeps assume (.worker u) (return response) (Returning assume u) w
  := keeps_ret (fun _ _ hrely h => (h.rely hrely).1) h

/-- The calls of the controller. -/
def Controls : ApiCall → Prop
  | .processStatus | .start | .stop _ | .restart _ => True
  | _ => False

/-- A handler that asks the controller for something. -/
theorem keeps_controller {call : ApiCall} {f : call.Answer → Response} (hcall : Controls call)
    (hsmall : ¬ request.TooLarge)
    (hspec : ∀ a config, RouteApi request.route request.body config (f a) config)
    (hrequest : ¬ UsesRepository request) (h : Holds assume u request config w) :
  Keeps assume (.worker u) (perform call >>= fun a => return f a) (Returning assume u) w
  := by
  apply keeps_call (fun _ _ => Holds.rely) _ _ h.inv h
  · intro w _ h
    cases call with
    | processStatus | start | stop | restart => exact h.locked
    | _ => cases hcall
  · intro w a w' h _ hstep hinv
    have hw' : w' = w := by
      cases hstep with
      | processStatus | start | stop | restart => rfl
      | _ => cases hcall
    subst hw'
    have hreturns : w'.Returns assume u (f a) := by
      refine ⟨h.locked, h.reads, request, h.phase, .handled hsmall ?_,
        fun huses => absurd huses hrequest⟩
      rw [h.value, h.current]
      apply hspec
    exact keeps_returning ⟨hinv, h.started, hreturns⟩

/-- A handler that holds the mutex. -/
theorem keeps_guardOperations {handler : HostProg Response}
    (hhandler : ∀ w : Deployment Worker Process, Holds assume u request w.store.current w →
      Keeps assume (.worker u) handler (Returning assume u) w)
    (h : Asked assume u request w) :
  Keeps assume (.worker u) (guardOperations handler) (Effected assume u) w
  := by
  apply keeps_call (fun _ _ => Asked.rely) _ _ h.inv h
  · exact fun w _ h => ⟨h.unlocked, h.started⟩
  intro w a w' h hinv hstep hinv'
  cases hstep with
  | lockOperations hfree =>
    apply keeps_bind (p := handler)
    have hholds : Holds assume u request w.store.current { w with operations := some u } :=
      ⟨⟨hinv', h.started, h.phase, rfl, hinv.current hfree⟩, rfl, hinv.reads h.started hfree⟩
    apply Prog.wp_mono _ (hhandler _ hholds)
    intro response w h
    apply keeps_call (fun _ _ hrely h => (h.rely hrely).1) _ _ h.inv h
    · exact fun w _ h => h.returns
    · intro w a w' h hinv hstep hinv'
      cases hstep with
      | unlockOperations =>
        apply keeps_ret fun _ _ => Effected.rely
        obtain ⟨-, -, request, hphase, hspec, -⟩ := h.returns
        refine ⟨hinv', h.started, ⟨nofun, request, .inl ?_⟩, writeResponse_of_ne hspec.status_ne⟩
        change (finish ..).phase u = _
        rw [finish_value hphase]
        apply Function.update_self

/-- A handler with the result of `Load` returns. -/
theorem keeps_getConfig (hsmall : ¬ request.TooLarge) (hroute : request.route = .getConfig)
    (h : Holds assume u request config w) :
  Keeps assume (.worker u) (callRepository .load handleGetConfig).lift (Returning assume u) w
  := by
  apply keeps_callRepository (by rintro _ ⟨⟩) _ h
  intro w h _
  rw [handleGetConfig, Prog.lift_bind, Prog.lift_bind]
  apply keeps_bind
  apply Prog.wp_mono _ (keeps_repository (World.keeps_load h.inv.store h.reads)
    (World.saves_load rfl) h.toLocked)
  rintro result w ⟨⟨⟨-, hreads, hloaded⟩, hsaved, hsnapshot⟩, hlocked⟩
  have hcurrent : w.store.current = config := by
    rw [World.current, hsaved]
    exact h.current
  obtain ⟨hresult, hconfig⟩ := hloaded (hlocked.inv.ready hlocked.started)
  have hreturning : ∀ response, RouteApi .getConfig request.body config response config →
      (response.status ≠ 200 → w.store.failed none) → Returning assume u response w := by
    intro response hspec hfailed
    refine ⟨hlocked.inv, hlocked.started, hlocked.locked, hreads, request, hlocked.phase,
      .handled hsmall ?_, fun _ => hfailed⟩
    rw [hroute, hlocked.value, hcurrent]
    exact hspec
  rcases result with message | loaded
  · apply keeps_returning (hreturning _ .readFails _)
    rintro -
    by_contra hfailed
    obtain ⟨_, -, hok⟩ := hresult hfailed
    cases hok
  · obtain ⟨saved, hsaw, rfl⟩ := hconfig loaded rfl
    cases hsaw.symm.trans (hsnapshot _ rfl)
    obtain rfl : _ = config := h.current
    exact keeps_returning (hreturning _ .read fun hstatus => absurd rfl hstatus)

/-- A handler with the status of `Save` returns. -/
theorem keeps_saveConfig {new : ServerConfig} (hassume : assume.rollbackEnds ∨
    assume.selectsCommitted) (hsmall : ¬ request.TooLarge) (hroute : request.route = .putConfig)
    (hbody : ConfigJsonParser.run request.body = .ok new) (hvalid : new.validate = .ok ())
    (h : Holds assume u request config w) :
  Keeps assume (.worker u) (callRepository (.save new) (saveConfig new)).lift (Returning assume u) w
  := by
  have hnul : ∀ f, ServerConfig.NulFree (new.text f) := fun f => (isUtf8_nulFree_of_run hbody f).2
  apply keeps_callRepository _ _ h
  · rintro _ ⟨⟩
    exact hnul
  intro w h hrequest
  rw [saveConfig, Prog.lift_bind, Prog.lift_bind]
  apply keeps_bind
  apply Prog.wp_mono _ (keeps_repository
    (World.keeps_save hassume hnul h.inv.store hrequest h.reads)
    (World.saves_save hvalid ⟨hrequest, rfl⟩) h.toLocked)
  rintro status w ⟨⟨⟨-, hreads⟩, hsaved⟩, hlocked⟩
  have hreturning : ∀ response, RouteApi .putConfig request.body config response w.store.current →
      (response.status ≠ 200 → w.store.failed none) → Returning assume u response w := by
    intro response hspec hfailed
    refine ⟨hlocked.inv, hlocked.started, hlocked.locked, hreads, request, hlocked.phase,
      .handled hsmall ?_, fun _ => hfailed⟩
    rw [hroute, hlocked.value]
    exact hspec
  rcases status with message | ⟨⟩
  · have hcurrent : w.store.current = config := by
      rw [World.current, hsaved.saved]
      exact h.current
    apply keeps_returning (hreturning _ _ fun _ => hsaved.failed)
    rw [hcurrent]
    exact .writeFails hbody hvalid
  · have hcurrent : w.store.current = new := by
      rw [World.current, hsaved]
      rfl
    apply keeps_returning (hreturning _ _ fun hstatus => absurd rfl hstatus)
    rw [hcurrent]
    exact .write hbody hvalid

/-- A request is answered that has no effect. -/
theorem keeps_answer (hspec : ∀ config, ConfigApi request config response config)
    (h : Asked assume u request w) :
  Keeps assume (.worker u) (return response) (Effected assume u) w
  := by
  apply keeps_ret fun _ _ => Effected.rely
  exact ⟨h.inv, h.started, ⟨h.unlocked, request, .inr ⟨h.phase, hspec⟩⟩,
    writeResponse_of_ne (hspec .default).status_ne⟩

/-- `HandlePutConfig` -/
theorem keeps_putConfig (hassume : assume.rollbackEnds ∨ assume.selectsCommitted)
    (hsmall : ¬ request.TooLarge) (hroute : request.route = .putConfig)
    (h : Asked assume u request w) :
  Keeps assume (.worker u) (handler .putConfig request.body) (Effected assume u) w
  := by
  have hanswer : ∀ {message : Bytes}, (∀ config, RouteApi .putConfig request.body config
      (setError 400 message) config) →
      Keeps assume (.worker u) (return setError 400 message) (Effected assume u) w :=
    fun hspec => keeps_answer (fun config => .handled hsmall (hroute ▸ hspec config)) h
  rw [handler, handlePutConfigWith]
  split
  · next hbody => exact hanswer fun _ => .malformed hbody
  · next hbody =>
    split
    · next hvalid => exact hanswer fun _ => .invalid hbody hvalid
    · next hvalid =>
      exact keeps_guardOperations (fun _ => keeps_saveConfig hassume hsmall hroute hbody hvalid) h

/-- A handler locks the mutex where it needs it, and unlocks it when it returns. -/
theorem keeps_handler (hassume : assume.rollbackEnds ∨ assume.selectsCommitted)
    (hsmall : ¬ request.TooLarge) (h : Asked assume u request w) :
  Keeps assume (.worker u) (handler request.route request.body) (Effected assume u) w
  := by
  obtain ⟨route, body, form⟩ := request
  cases route with
  | health => exact keeps_answer (fun _ => .handled hsmall .health) h
  | getConfig => exact keeps_guardOperations (fun _ => keeps_getConfig hsmall rfl) h
  | putConfig => exact keeps_putConfig hassume hsmall rfl h
  | status =>
    exact keeps_guardOperations (fun _ => keeps_controller trivial hsmall (fun _ _ => .status)
      (Or.rec nofun nofun)) h
  | start =>
    exact keeps_guardOperations (fun _ => keeps_controller trivial hsmall (fun _ _ => .start)
      (Or.rec nofun nofun)) h
  | stop =>
    exact keeps_guardOperations (fun _ => keeps_controller trivial hsmall (fun _ _ => .stop)
      (Or.rec nofun nofun)) h
  | restart =>
    exact keeps_guardOperations (fun _ => keeps_controller trivial hsmall (fun _ _ => .restart)
      (Or.rec nofun nofun)) h

/-- A request whose body is too large does not come to its handler, and the responses of the handlers
are written as they are. -/
theorem keeps_handle (hassume : assume.rollbackEnds ∨ assume.selectsCommitted)
    (h : Asked assume u request w) :
  Keeps assume (.worker u) (handle request) (Effected assume u) w
  := by
  rw [handle]
  split
  · next status hread =>
    obtain ⟨hlarge, hresponse⟩ := writeResponse_readContent hread
    rw [hresponse]
    exact keeps_answer (fun _ => .tooLarge hlarge) h
  · next body hread =>
    obtain ⟨hsmall, rfl⟩ := readContent_eq_ok_iff.mp hread
    apply keeps_bind
    apply Prog.wp_mono _ (keeps_handler hassume hsmall h)
    intro response w h
    apply keeps_ret fun _ _ => Effected.rely
    rw [h.written]
    exact h

/-- A worker waits for a request. -/
structure Waiting (assume : Assumptions) (u : Worker) (w : Deployment Worker Process) : Prop where
  inv : w.Inv assume
  phase : w.object.phase u = .idle
  unlocked : w.operations ≠ some u

omit [DecidableEq Worker] in
theorem Waiting.rely (hrely : Rely assume (.worker u) w w') (h : Waiting assume u w) :
  Waiting assume u w'
  := by
  obtain ⟨hphase, hoperations, -⟩ := hrely.worker u rfl
  exact ⟨hrely.inv h.inv, hphase.trans h.phase, fun hheld => h.unlocked (hoperations.mp hheld)⟩

theorem keeps_serveRequest (hassume : assume.rollbackEnds ∨ assume.selectsCommitted)
    (h : Waiting assume u w) :
  Keeps assume (.worker u) (serveRequest ()) (fun _ => Waiting assume u) w
  := by
  apply keeps_call (fun _ _ => Waiting.rely) _ _ h.inv h
  · exact fun w _ h => ⟨h.unlocked, h.phase⟩
  intro w a w' h _ hstep hinv
  cases hstep with
  | noRequest => exact keeps_ret (fun _ _ => Waiting.rely) h
  | @nextRequest _ _ request hstarted =>
    have hasked : Asked assume u request { w with object := w.object.ask u request } :=
      ⟨hinv, hstarted, Function.update_self .., h.unlocked⟩
    apply keeps_bind (p := handle request)
    apply Prog.wp_mono _ (keeps_handle hassume hasked)
    intro response w h
    apply keeps_call (fun _ _ => Effected.rely) _ _ h.inv h
    · exact fun w _ h => h.answers
    · intro w a w' h _ hstep hinv
      cases hstep with
      | respond =>
        have hwaiting : Waiting assume u
            { w with object := (w.finish u response w.object.value).answer u response } :=
          ⟨hinv, Function.update_self .., h.answers.1⟩
        exact keeps_ret (fun _ _ => Waiting.rely) hwaiting

theorem keeps_worker (hassume : assume.rollbackEnds ∨ assume.selectsCommitted)
    (h : Waiting assume u w) :
  Keeps assume (.worker u) worker (fun _ _ => True) w
  := by
  apply Prog.wp_repeatUntil (fun _ => Waiting assume u) (fun _ _ _ => Waiting.rely) h
  intro _ w h
  apply Prog.wp_mono _ (keeps_serveRequest hassume h)
  rintro (_ | _) w h
  · exact h
  · exact fun _ _ => trivial

end Deployment

end OpcuaServer
