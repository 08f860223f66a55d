import OpcuaServer.Daemon.DaemonSystem

/-!
# Rules for the threads of the daemon

The contract of the threads of the daemon, and the rules by which their programs keep to it: a
server is used as its stage allows and deleted, and the flag is cleared only after a signal has
arrived, unless the main thread has come back from the server.
-/

namespace OpcuaServer

open Forking

namespace DaemonHost

/-- The flag has been cleared because a signal has arrived, or by the main thread. -/
def Accounted (w : DaemonHost) : Prop :=
  w.running = false → w.shutdownRequested = true ∨ w.stopped = true

/-- What the threads of the daemon rely on. -/
structure Rely (t : DaemonThread) (w w' : DaemonHost) : Prop where
  accounted : w.Accounted → w'.Accounted
  requested : w.shutdownRequested = true → w'.shutdownRequested = true
  cleared : w.running = false → w'.running = false
  ended : w.ended.isSome → w'.ended.isSome
  main : t = .main →
    w'.servers = w.servers ∧ w'.stopped = w.stopped ∧ w'.handles = w.handles

/-- What the calls of the main thread make sure of, beside the servers. It starts the monitor when the
handlers have been installed, and exits with 0 only after a signal has arrived. -/
def MainGuard : DaemonCall → DaemonHost → Prop
  | .storeRunning value, _ => value = false
  | .startMonitor, w => ∀ signal, w.handles signal = true
  | .exited code, w => code = 0 ∧ w.shutdownRequested = true ∨ code = 1
  | .endMonitor, _ => False
  | _, _ => True

/-- Where the thread that monitors the signals makes its calls. -/
def MonitorGuard : DaemonCall → DaemonHost → Prop
  | .loadRunning, _ | .shutdownRequested, _ | .sleepFor _, _ => True
  | .endMonitor, w => w.running = false
  | .storeRunning value, w =>
      value = false ∧ (w.shutdownRequested = true ∨ w.running = false)
  | _, _ => False

/-- Where the threads of the daemon make their calls. -/
def Guard : DaemonThread → SqliteCall ⊕ DaemonCall → DaemonHost → Prop
  | .main, .inl _, w => w.Accounted
  | .main, .inr call, w => w.Accounted ∧ w.Permits call ∧ MainGuard call w
  | .monitor, .inl _, _ => False
  | .monitor, .inr call, w => w.Accounted ∧ MonitorGuard call w

/-- The contract of the threads of the daemon. -/
def contract : Contract DaemonThread (SqliteCall ⊕ DaemonCall) DaemonHost Unit where
  rely := Rely
  guard := Guard
  post t _ w := t = .main ∧ w.ended.isSome

/-! ### The contract is respected -/

theorem Rely.refl (t : DaemonThread) (w : DaemonHost) :
  Rely t w w
  where
  accounted := id
  requested := id
  cleared := id
  ended := id
  main _ := ⟨rfl, rfl, rfl⟩

theorem Rely.trans {t : DaemonThread} {w₁ w₂ w₃ : DaemonHost} (h : Rely t w₁ w₂)
    (h' : Rely t w₂ w₃) :
  Rely t w₁ w₃
  where
  accounted := h'.accounted ∘ h.accounted
  requested := h'.requested ∘ h.requested
  cleared := h'.cleared ∘ h.cleared
  ended := h'.ended ∘ h.ended
  main ht := by
    obtain ⟨hservers, hstopped, hhandles⟩ := h.main ht
    rw [← hservers, ← hstopped, ← hhandles]
    apply h'.main ht

/-- Both threads clear the flag as they should. -/
theorem accounted_storeRunning {t : DaemonThread} {w : DaemonHost} {value : Bool}
    (hguard : Guard t (.inr (.storeRunning value)) w) :
  (w.storeRunning t value).Accounted ∧ (w.storeRunning t value).running = false
  := by
  cases t with
  | main =>
    obtain ⟨-, -, rfl : value = false⟩ := hguard
    refine ⟨fun _ => .inr ?_, rfl⟩
    simp [storeRunning]
  | monitor =>
    obtain ⟨haccounted, rfl, hcleared⟩ := hguard
    refine ⟨fun _ => ?_, rfl⟩
    rcases hcleared with hrequested | hcleared
    · exact .inl hrequested
    · simpa [storeRunning] using haccounted hcleared

theorem rely_step {t u : DaemonThread} {call : SqliteCall ⊕ DaemonCall} {w w' : DaemonHost}
    {a : Sum.elim SqliteCall.Answer DaemonCall.Answer call} (hne : u ≠ t)
    (hguard : Guard t call w) (h : Step t call w a w') :
  Rely u w w'
  := by
  cases t with
  | main =>
    cases u with
    | main => cases hne rfl
    | monitor =>
      cases h with
      | storeRunning =>
        obtain ⟨haccounted, hcleared⟩ := accounted_storeRunning hguard
        exact ⟨fun _ => haccounted, id, fun _ => hcleared, id, nofun⟩
      | exited => exact ⟨id, id, id, fun _ => rfl, nofun⟩
      | _ => exact ⟨id, id, id, id, nofun⟩
  | monitor =>
    cases u with
    | monitor => cases hne rfl
    | main =>
      cases h with
      | storeRunning =>
        obtain ⟨haccounted, hcleared⟩ := accounted_storeRunning hguard
        refine ⟨fun _ => haccounted, id, fun _ => hcleared, id, fun _ => ⟨rfl, ?_, rfl⟩⟩
        simp [DaemonHost.storeRunning]
      | sqlite => cases hguard
      | quiet | loadRunning | shutdownRequested => apply Rely.refl
      | _ => cases hguard.2

theorem rely_env {l : Option DaemonThread} {u : DaemonThread} {w w' : DaemonHost}
    (h : Env l w w') :
  Rely u w w'
  := by
  cases h with
  | arrives => exact ⟨fun _ _ => .inl rfl, fun _ => rfl, id, id, fun _ => ⟨rfl, rfl, rfl⟩⟩
  | ends => exact ⟨id, id, id, fun _ => rfl, fun _ => ⟨rfl, rfl, rfl⟩⟩

theorem respects :
  Respects daemonThreads contract
  where
  refl := Rely.refl
  trans _ _ _ _ := Rely.trans
  step hne hguard h := rely_step hne hguard h.2
  fork {_ _ u _ _ _ _ _} hne _ _ h := by
    cases h.2 with
    | startMonitor =>
      cases u with
      | main => cases hne rfl
      | monitor => exact ⟨id, id, id, id, nofun⟩
  leave {_ u _ _ _} hne _ h := by
    cases h.2 with
    | startMonitor =>
      cases u with
      | main => cases hne rfl
      | monitor => exact ⟨id, id, id, fun _ => rfl, nofun⟩
    | endMonitor =>
      cases u with
      | main => exact ⟨id, id, id, id, fun _ => ⟨rfl, rfl, rfl⟩⟩
      | monitor => cases hne rfl
  env h := rely_env h.2

/-! ### Assertions -/

/-- The main thread has installed the handlers, `P` holds of the servers and of whether it has cleared
the flag, and a signal has arrived if `requested` holds. -/
structure InMain (P : List ServerStage → Bool → Prop) (requested : Prop)
    (x : DaemonThread × DaemonHost) : Prop where
  main : x.1 = .main
  accounted : x.2.Accounted
  handles : ∀ signal, x.2.handles signal = true
  holds : P x.2.servers x.2.stopped
  arrived : requested → x.2.shutdownRequested = true

/-- No server has been left. -/
def Unserved (servers : List ServerStage) (stopped : Bool) : Prop :=
  (∀ stage ∈ servers, stage = .deleted) ∧ stopped = false

/-- The only server that has not been deleted is at the stage. -/
def Serving (server : UaServer) (stage : ServerStage) (servers : List ServerStage)
    (stopped : Bool) : Prop :=
  ∃ old : List ServerStage, (∀ stage ∈ old, stage = .deleted) ∧ old.length = server ∧
    servers = old ++ [stage] ∧ stopped = false

theorem Unserved.create {servers : List ServerStage} {stopped : Bool}
    (h : Unserved servers stopped) :
  Serving servers.length .created (servers ++ [.created]) stopped
  := ⟨servers, h.1, rfl, rfl, h.2⟩

theorem Serving.getElem? {server : UaServer} {stage : ServerStage} {servers : List ServerStage}
    {stopped : Bool} (h : Serving server stage servers stopped) :
  servers[server]? = some stage
  := by
  obtain ⟨old, -, rfl, rfl, -⟩ := h
  simp

theorem Serving.enter {server : UaServer} {stage : ServerStage} {servers : List ServerStage}
    {stopped : Bool} (h : Serving server stage servers stopped) (stage' : ServerStage) :
  Serving server stage' (servers.set server stage') stopped
  := by
  obtain ⟨old, hold, rfl, rfl, hstopped⟩ := h
  use old, hold, rfl
  simp [hstopped]

theorem Serving.unserved {server : UaServer} {servers : List ServerStage} {stopped : Bool}
    (h : Serving server .deleted servers stopped) :
  Unserved servers stopped
  := by
  obtain ⟨old, hold, -, rfl, hstopped⟩ := h
  refine ⟨fun stage hstage => ?_, hstopped⟩
  rcases List.mem_append.mp hstage with hstage | hstage
  · apply hold stage hstage
  · apply List.mem_singleton.mp hstage

variable {P : List ServerStage → Bool → Prop} {requested : Prop} {x : DaemonThread × DaemonHost}

theorem InMain.view {y : DaemonThread × DaemonHost} (hview : contract.View x y)
    (h : InMain P requested x) :
  InMain P requested y
  := by
  obtain ⟨ht, hrely⟩ := hview
  obtain ⟨hservers, hstopped, hhandles⟩ := hrely.main h.main
  refine ⟨ht.trans h.main, hrely.accounted h.accounted, hhandles ▸ h.handles, ?_,
    fun hr => hrely.requested (h.arrived hr)⟩
  rw [hservers, hstopped]
  apply h.holds

/-! ### Calls -/

/-- A program of a thread of the daemon keeps to its contract and ends as `Q` says. -/
def KeepsTo {α : Type} (p : DaemonProg α) (Q : α → DaemonThread × DaemonHost → Prop)
    (x : DaemonThread × DaemonHost) : Prop :=
  p.wp (Follow daemonThreads) contract.View contract.Guard Q x

variable {α β : Type} {Q : α → DaemonThread × DaemonHost → Prop}

theorem keeps_ret {a : α} (h : InMain P requested x) (hQ : ∀ y, InMain P requested y → Q a y) :
  KeepsTo (.ret a) Q x
  := fun y hview => hQ y (h.view hview)

theorem keeps_bind {p : DaemonProg β} {f : β → DaemonProg α}
    (h : KeepsTo p (fun b => KeepsTo (f b) Q) x) :
  KeepsTo (p >>= f) Q x
  := Prog.wp_bind (view_refl respects) h

/-- A call of the main thread that starts no thread. -/
theorem keeps_perform {call : DaemonCall} {k : call.Answer → DaemonProg α}
    (hcall : call ≠ .startMonitor) (h : InMain P requested x)
    (hguard : ∀ w, InMain P requested (.main, w) → w.Permits call ∧ MainGuard call w)
    (hk : ∀ a w w', InMain P requested (.main, w) → Step .main (.inr call) w a w' →
      KeepsTo (k a) Q (.main, w')) :
  KeepsTo (Daemon.perform call >>= k) Q x
  := by
  rintro ⟨_, w⟩ hview
  obtain rfl : _ = DaemonThread.main := (h.view hview).main
  have hw := h.view hview
  use ⟨hw.accounted, hguard w hw⟩
  intro a y hfollow
  cases hfollow with
  | step hstep => apply hk a w _ hw hstep.2
  | parent hfork | child hfork =>
    cases hfork.2
    apply absurd rfl hcall

/-- A call of the main thread that affects nothing. -/
theorem keeps_quiet {call : DaemonCall} {k : call.Answer → DaemonProg α}
    (hquiet : quiet call = true) (h : InMain P requested x)
    (hguard : ∀ w, InMain P requested (.main, w) → w.Permits call ∧ MainGuard call w)
    (hk : ∀ a y, InMain P requested y → KeepsTo (k a) Q y) :
  KeepsTo (Daemon.perform call >>= k) Q x
  := by
  apply keeps_perform _ h hguard
  · intro a w w' hw hstep
    cases hstep with
    | quiet => apply hk a _ hw
    | _ => cases hquiet
  · rintro rfl
    cases hquiet

/-- A call of SQLite affects nothing. -/
theorem follow_sqlite {call : SqliteCall} {y : DaemonThread × DaemonHost}
    {a : Sum.elim SqliteCall.Answer DaemonCall.Answer (.inl call)}
    (h : Follow daemonThreads (.inl call) x a y) :
  y = x
  := by
  cases h with
  | step hstep =>
    cases hstep.2
    rfl
  | parent hfork | child hfork => cases hfork.2

/-- A program of the repository. -/
theorem keeps_repository {p : Repository β} {f : β → DaemonProg α} (h : InMain P requested x)
    (hf : ∀ b y, InMain P requested y → KeepsTo (f b) Q y) :
  KeepsTo (p.lift >>= f) Q x
  := by
  apply keeps_bind
  apply Prog.wp_mono hf
  apply Prog.wp_lift
  apply Prog.wp_invariant _ _ _ p h
  · exact fun _ _ => InMain.view
  · rintro call ⟨_, w⟩ hw
    obtain rfl : _ = DaemonThread.main := hw.main
    apply hw.accounted
  · intro call x a y hfollow hx
    obtain rfl := follow_sqlite hfollow
    apply hx

end DaemonHost

end OpcuaServer
