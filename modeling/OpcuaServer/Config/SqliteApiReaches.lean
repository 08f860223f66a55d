import OpcuaServer.Config.Snapshots
import OpcuaServer.Config.SqliteApiRefinement

/-!
# What can be done through the C interface

A run of the repository in which every call succeeds can be made through the C interface, with the
same result and the same database (`can_initializeRepository`, `can_load`, `can_save`), and so clients
can open the repository, save and load a configuration, and close it.
-/

namespace OpcuaServer

namespace SqliteWorld

open SqliteDb Statement SqliteHeap World Database ServerConfig

variable {Conn : Type} [DecidableEq Conn] {assume : Assumptions} {conn : Conn} {α β : Type}
  {db : Sqlite3} {stmt : Sqlite3Stmt} {sql : Sql}

/-! ### Runs of a process -/

/-- The program can run, from the objects and the world, so that it ends in `Q`. -/
def Can (assume : Assumptions) (conn : Conn) (p : Sqlite3Prog α) (heap : SqliteHeap)
    (world : World Conn) (Q : α → SqliteHeap → World Conn → Prop) : Prop :=
  ∀ w : SqliteWorld Conn, w.heap conn = heap → w.world = world →
    ∃ a w', p.Runs (fun call => (sqliteClients assume).step conn (.inl call)) w a w' ∧
      Q a (w'.heap conn) w'.world

variable {heap heap' : SqliteHeap} {world world' : World Conn}
  {Q : α → SqliteHeap → World Conn → Prop}

theorem can_ret {a : α} (h : Q a heap world) :
  Can assume conn (.ret a) heap world Q
  := by
  rintro w rfl rfl
  exact ⟨a, w, .ret, h⟩

theorem can_heap {call : Sqlite3Call} {k : call.Answer → Sqlite3Prog α} {a : call.Answer}
    (hstep : heap.Step call a heap') (hk : Can assume conn (k a) heap' world Q) :
  Can assume conn (.call call k) heap world Q
  := by
  rintro w rfl rfl
  obtain ⟨b, w', hrun, hQ⟩ := hk (w.setHeap conn heap') (setHeap_self ..) rfl
  exact ⟨b, w', .call (.heap hstep) hrun, hQ⟩

/-- A call that makes the database do something. -/
theorem can_database {call : Sqlite3Call} {k : call.Answer → Sqlite3Prog α} {a : call.Answer}
    {op : SqliteCall} {a' : op.Answer} (hdoes : heap.Does call a op a' heap')
    (hcall : Succeeded assume conn op world a' world')
    (hk : Can assume conn (k a) heap' world' Q) :
  Can assume conn (.call call k) heap world Q
  := by
  rintro w rfl rfl
  obtain ⟨db, hsucceeds, rfl⟩ := hcall
  obtain ⟨b, w', hrun, hQ⟩ := hk
    { w.setHeap conn heap' with world := w.world.succeed conn op db } (setHeap_self ..) rfl
  exact ⟨b, w', .call (.database hdoes (.succeeds hsucceeds)) hrun, hQ⟩

theorem can_bind {B : β → SqliteHeap → World Conn → Prop} {p : Sqlite3Prog β}
    {f : β → Sqlite3Prog α} (hp : Can assume conn p heap world B)
    (hf : ∀ b heap' world', B b heap' world' → Can assume conn (f b) heap' world' Q) :
  Can assume conn (p >>= f) heap world Q
  := by
  intro w hheap hworld
  obtain ⟨b, w₁, hrun, hB⟩ := hp w hheap hworld
  obtain ⟨a, w₂, hrest, hQ⟩ := hf b _ _ hB w₁ rfl rfl
  exact ⟨a, w₂, hrun.bind hrest, hQ⟩

theorem can_loop {σ : Type} {body : σ → Sqlite3Prog (σ ⊕ β)} {s : σ} {k : β → Sqlite3Prog α}
    (h : Can assume conn (body s >>= Prog.resume body k) heap world Q) :
  Can assume conn (.loop body s k) heap world Q
  := by
  intro w hheap hworld
  obtain ⟨a, w', hrun, hQ⟩ := h w hheap hworld
  obtain ⟨r, w₁, hbody, hrest⟩ := hrun.of_bind
  exact ⟨a, w', .loop hbody hrest, hQ⟩

/-! ### The repository -/

theorem can_openDb (path : Bytes) (h : heap.objects.AllClosed) :
  Can assume conn (openDb path) heap world fun result heap world' =>
    ∃ db, result = .ok db ∧ Held db heap ∧ world' = world
  := by
  apply can_heap (.opens (h.not_isOpen : ¬ heap.objects.IsOpen 0))
  apply can_heap .busyTimeout
  apply can_heap (.pragma (by rintro _ ⟨⟩))
  apply can_heap (.pragma (by rintro _ ⟨⟩))
  apply can_ret
  exact ⟨0, rfl, h.obtain 0 .connection, rfl⟩

/-- A program can do what a run of the repository does, and ends with objects that satisfy `P`. -/
abbrev CanDo (assume : Assumptions) (conn : Conn) (p : Sqlite3Prog α) (heap : SqliteHeap)
    (world : World Conn) (P : SqliteHeap → Prop) (a : α) (world' : World Conn) : Prop :=
  Can assume conn p heap world fun a' heap' world'' => a' = a ∧ P heap' ∧ world'' = world'

theorem can_execute {status : Status} (hheld : Held db heap)
    (hrun : (ConfigRepository.execute sql).Runs (Succeeded assume conn) world status world') :
  CanDo assume conn (execute db (.repository sql)) heap world (Held db) status world'
  := by
  obtain ⟨a, world₁, ⟨db', hcall, rfl⟩, hrest⟩ := Prog.runs_call.mp hrun
  obtain rfl := succeeds_exec hcall
  obtain ⟨rfl, rfl⟩ := Prog.runs_ret.mp hrest
  apply can_database .exec ⟨db', hcall, rfl⟩
  exact can_ret ⟨rfl, hheld, rfl⟩

/-- A statement is prepared where the repository can prepare one. -/
theorem can_prepare {status : Status} (hheld : Held db heap)
    (hcall : Succeeded assume conn (.prepare sql) world status world') :
  status = .ok () ∧ Can assume conn (prepare db sql) heap world fun result heap world'' =>
    ∃ stmt, result = .ok stmt ∧ Bound db stmt sql (fun _ => none) heap ∧ world'' = world'
  := by
  obtain ⟨db', hsucceeds, rfl⟩ := hcall
  obtain ⟨rfl, -⟩ := succeeds_prepare hsucceeds
  use rfl
  have hopen : ¬ heap.objects.IsOpen (db + 1) := by
    rintro ⟨o, ho⟩
    obtain ⟨hvalue, -⟩ := hheld.unique ho
    cases Nat.succ_ne_self db hvalue
  apply can_database (.prepare hopen) ⟨db', hsucceeds, rfl⟩
  apply can_ret
  exact ⟨_, rfl, hheld.prepare hopen, rfl⟩

/-- A text is bound where the repository can bind it. -/
theorem can_bindText {parameter : ℕ → Option Bytes} {index : ℕ} {value : Bytes}
    {result : Result Bytes} (hbound : Bound db stmt sql parameter heap)
    (hcall : Succeeded assume conn (.bindText index value) world result world') :
  result = .ok (cString value) ∧ CanDo assume conn (bindText db stmt index value) heap world
    (Bound db stmt sql (Function.update parameter index (some (cString value)))) (.ok ()) world'
  := by
  obtain ⟨db', hsucceeds, rfl⟩ := hcall
  obtain ⟨rfl, -⟩ := succeeds_bindText hsucceeds
  use rfl
  apply can_database .bindText ⟨db', hsucceeds, rfl⟩
  exact can_ret ⟨rfl, hbound.bind, rfl⟩

theorem can_writeRows (hsql : sql ≠ .select) {status : Status} (entries : List ConfigEntry)
    (hscoped : Scoped db stmt sql heap)
    (hrun : (ConfigRepository.writeRows sql entries).Runs (Succeeded assume conn) world status
      world') :
  CanDo assume conn (writeRows db stmt entries) heap world (Scoped db stmt sql) status world'
  := by
  induction entries generalizing heap world with
  | nil =>
    obtain ⟨rfl, rfl⟩ := Prog.runs_ret.mp hrun
    exact can_ret ⟨rfl, hscoped, rfl⟩
  | cons entry entries ih =>
    apply can_heap .reset
    apply can_heap .clearBindings
    obtain ⟨_, world₁, hcall, hrun⟩ := Prog.runs_call.mp hrun
    obtain ⟨rfl, hkey⟩ := can_bindText (hscoped.setStage.clear setStage_stage) hcall
    apply can_bind hkey
    rintro _ heap _ ⟨rfl, hbound, rfl⟩
    obtain ⟨_, world₂, hcall, hrun⟩ := Prog.runs_call.mp hrun
    obtain ⟨rfl, hvalue⟩ := can_bindText hbound hcall
    apply can_bind hvalue
    rintro _ heap _ ⟨rfl, hbound, rfl⟩
    obtain ⟨_, world₃, ⟨db', hcall, rfl⟩, hrun⟩ := Prog.runs_call.mp hrun
    obtain ⟨rfl, -⟩ := succeeds_stepWrite hcall
    obtain rfl := hbound.sql
    apply can_database (.write hsql hbound.stage _ _) ⟨db', hcall, rfl⟩
    · exact ih hbound.toScoped.setStage hrun
    · rw [hbound.parameter]
      rfl
    · rw [hbound.parameter]
      rfl

theorem can_writeEntries (hsql : sql ≠ .select) {status : Status} (entries : List ConfigEntry)
    (hheld : Held db heap)
    (hrun : (ConfigRepository.writeEntries entries sql).Runs (Succeeded assume conn) world status
      world') :
  CanDo assume conn (writeEntries db entries sql) heap world (Held db) status world'
  := by
  obtain ⟨_, world₁, hcall, hrun⟩ := Prog.runs_call.mp hrun
  obtain ⟨rfl, hprepare⟩ := can_prepare hheld hcall
  apply can_bind hprepare
  rintro _ heap _ ⟨stmt, rfl, hbound, rfl⟩
  apply can_bind (can_writeRows hsql entries hbound.toScoped hrun)
  rintro _ heap _ ⟨rfl, hscoped, rfl⟩
  apply can_heap .finalize
  exact can_ret ⟨rfl, hscoped.release, rfl⟩

theorem can_initializeRepository {status : Status} (hheld : Held db heap)
    (hrun : ConfigRepository.initializeRepository.Runs (Succeeded assume conn) world status world') :
  CanDo assume conn (SqliteRepository.initializeRepository db) heap world (Held db) status world'
  := by
  obtain ⟨_, world₁, hcreate, hrun⟩ := Prog.Runs.of_bind hrun
  apply can_bind (can_execute hheld hcreate)
  rintro status heap _ ⟨rfl, hheld, rfl⟩
  rcases status with message | ⟨⟩
  · obtain ⟨rfl, rfl⟩ := Prog.runs_ret.mp hrun
    exact can_ret ⟨rfl, hheld, rfl⟩
  · exact can_writeEntries (by rintro ⟨⟩) _ hheld hrun

/-- A row of texts is read. -/
theorem can_readColumns {row : Bytes × Bytes} {rest : List Row} {status : Status}
    (h : Standing db stmt (Row.ofTexts row) rest status heap) (values : ConfigValues) :
  Can assume conn (readColumns stmt values) heap world fun r heap' world' =>
    r = .inl (ConfigRepository.emplace values (cString row.1) (cString row.2)) ∧ heap' = heap ∧
      world' = world
  := by
  apply can_heap (.columnText h.stage)
  apply can_heap (.columnText h.stage)
  exact can_ret ⟨rfl, rfl, rfl⟩

/-- The rows that are left are read. -/
theorem can_readRows {row : Row} (rows : List (Bytes × Bytes)) (values : ConfigValues)
    (hrow : Standing db stmt row (rows.map Row.ofTexts) (.ok ()) heap) :
  CanDo assume conn (Prog.repeatUntil (readRow db stmt) values) heap world
    (Scoped db stmt .select) (outcome (rows.map Row.ofTexts) (.ok ()) values) world
  := by
  induction rows generalizing row heap values with
  | nil =>
    apply can_loop
    apply can_heap (.done hrow.stage)
    exact can_ret ⟨rfl, hrow.toScoped.setStage, rfl⟩
  | cons next rows ih =>
    apply can_loop
    have hstanding : Standing db stmt (Row.ofTexts next) (rows.map Row.ofTexts) (.ok ()) _ :=
      standing_setStage hrow.toScoped
    apply can_heap (.row hrow.stage)
    apply can_bind (can_readColumns hstanding values)
    rintro _ _ _ ⟨rfl, rfl, rfl⟩
    apply ih _ hstanding

/-- The rows of a `SELECT` are read. -/
theorem can_scan {rows : List Row} {status : Status}
    (hbound : Bound db stmt .select (fun _ => none) heap)
    (hcall : Succeeded assume conn .stepRows world (rows, status) world') :
  CanDo assume conn (Prog.repeatUntil (readRow db stmt) []) heap world (Scoped db stmt .select)
    (outcome rows status []) world'
  := by
  obtain ⟨db', hsucceeds, rfl⟩ := hcall
  obtain ⟨rfl, -, table, texts, -, -, rfl⟩ := succeeds_stepRows.mp hsucceeds
  apply can_loop
  cases texts with
  | nil =>
    apply can_database (.scanNothing hbound.sql hbound.stage) ⟨db', hsucceeds, rfl⟩
    exact can_ret ⟨rfl, hbound.toScoped.setStage, rfl⟩
  | cons row texts =>
    have hstanding : Standing db stmt (Row.ofTexts row) (texts.map Row.ofTexts) (.ok ()) _ :=
      standing_setStage hbound.toScoped
    apply can_database (.scan hbound.sql hbound.stage) ⟨db', hsucceeds, rfl⟩
    apply can_bind (can_readColumns hstanding [])
    rintro _ _ _ ⟨rfl, rfl, rfl⟩
    apply can_readRows texts _ hstanding

/-- What is read is made a configuration. -/
theorem runs_finishLoad {rows : List Row} {status : Status} {result : Result ServerConfig}
    (hrun : (Repository.finishLoad rows status).Runs (Succeeded assume conn) world result world') :
  result = (outcome rows status [] >>= ConfigRepository.configFrom) ∧ world' = world
  := by
  revert hrun
  rw [Repository.finishLoad, outcome]
  cases ConfigRepository.collect rows [] with
  | error message => apply Prog.runs_ret.mp
  | ok values =>
    cases status with
    | error message => apply Prog.runs_ret.mp
    | ok => apply Prog.runs_ret.mp

theorem can_load {result : Result ServerConfig} (hheld : Held db heap)
    (hrun : ConfigRepository.load.Runs (Succeeded assume conn) world result world') :
  CanDo assume conn (SqliteRepository.load db) heap world (Held db) result world'
  := by
  obtain ⟨_, world₁, hcall, hrun⟩ := Prog.runs_call.mp hrun
  obtain ⟨rfl, hprepare⟩ := can_prepare hheld hcall
  apply can_bind hprepare
  rintro _ heap _ ⟨stmt, rfl, hbound, rfl⟩
  obtain ⟨⟨rows, status⟩, world₂, hcall, hrun⟩ := Prog.runs_call.mp hrun
  obtain ⟨rfl, rfl⟩ := runs_finishLoad hrun
  apply can_bind (can_scan hbound hcall)
  rintro _ heap _ ⟨rfl, hscoped, rfl⟩
  apply can_heap .finalize
  exact can_ret ⟨rfl, hscoped.release, rfl⟩

/-- A `ROLLBACK` after an error. -/
theorem can_rollback {message : Bytes} {status : Status} (hheld : Held db heap)
    (hrun : (ConfigRepository.execute .rollback >>= fun _ => .ret (.error message)).Runs
      (Succeeded assume conn) world status world') :
  CanDo assume conn (execute db (.repository .rollback) >>= fun _ => .ret (.error message)) heap
    world (Held db) status world'
  := by
  obtain ⟨_, world₁, hrollback, hrun⟩ := Prog.Runs.of_bind hrun
  obtain ⟨rfl, rfl⟩ := Prog.runs_ret.mp hrun
  apply can_bind (can_execute hheld hrollback)
  rintro _ heap _ ⟨rfl, hheld, rfl⟩
  exact can_ret ⟨rfl, hheld, rfl⟩

theorem can_save {config : ServerConfig} {status : Status} (hheld : Held db heap)
    (hrun : (ConfigRepository.save config).Runs (Succeeded assume conn) world status world') :
  CanDo assume conn (SqliteRepository.save db config) heap world (Held db) status world'
  := by
  revert hrun
  rw [ConfigRepository.save, SqliteRepository.save]
  cases config.validate with
  | error message =>
    intro hrun
    obtain ⟨rfl, rfl⟩ := Prog.runs_ret.mp hrun
    exact can_ret ⟨rfl, hheld, rfl⟩
  | ok =>
    intro hrun
    obtain ⟨_, world₁, hbegin, hrun⟩ := Prog.Runs.of_bind hrun
    apply can_bind (can_execute hheld hbegin)
    rintro status heap _ ⟨rfl, hheld, rfl⟩
    rcases status with message | ⟨⟩
    · obtain ⟨rfl, rfl⟩ := Prog.runs_ret.mp hrun
      exact can_ret ⟨rfl, hheld, rfl⟩
    obtain ⟨_, world₂, hwrite, hrun⟩ := Prog.Runs.of_bind hrun
    apply can_bind (can_writeEntries (by rintro ⟨⟩) _ hheld hwrite)
    rintro status heap _ ⟨rfl, hheld, rfl⟩
    rcases status with message | ⟨⟩
    · apply can_rollback hheld hrun
    obtain ⟨_, world₃, hcommit, hrun⟩ := Prog.Runs.of_bind hrun
    apply can_bind (can_execute hheld hcommit)
    rintro status heap _ ⟨rfl, hheld, rfl⟩
    rcases status with message | ⟨⟩
    · apply can_rollback hheld hrun
    · obtain ⟨rfl, rfl⟩ := Prog.runs_ret.mp hrun
      exact can_ret ⟨rfl, hheld, rfl⟩

/-! ### Clients -/

/-- A call leaves the objects of other processes as they are. -/
theorem Step.heap_other {call : Sqlite3Call ⊕ ClientCall} {w w' : SqliteWorld Conn}
    {a : Sum.elim Sqlite3Call.Answer ClientCall.Answer call} (h : Step assume conn call w a w')
    {other : Conn} (hother : other ≠ conn) :
  w'.heap other = w.heap other
  := by
  cases call with
  | inl call =>
    obtain ⟨heap, -, rfl⟩ | ⟨_, _, heap, _, -, -, rfl⟩ | ⟨db, -, -, rfl⟩ := h.cases
    · apply setHeap_other hother
    · apply setHeap_other hother
    · apply setHeap_other hother
  | inr call =>
    obtain ⟨_, -, rfl⟩ := h.client_cases
    rfl

theorem heap_other_of_runs {p : Sqlite3Prog α} {a : α} {w w' : SqliteWorld Conn}
    (hrun : p.Runs (fun call => (sqliteClients assume).step conn (.inl call)) w a w') {other : Conn}
    (hother : other ≠ conn) :
  w'.heap other = w.heap other
  := by
  induction hrun with
  | ret => rfl
  | call hstep _ ih => exact ih.trans (Step.heap_other hstep hother)
  | loop _ _ ihbody ih => exact ih.trans ihbody

variable {c₀ c : Threads.Config Conn (Sqlite3Call ⊕ ClientCall)
  (Sum.elim Sqlite3Call.Answer ClientCall.Answer) (SqliteWorld Conn)}

/-- The clients come to a configuration in which the other processes are where they were. -/
def Goes (assume : Assumptions) (conn : Conn) (c₀ c c' : Threads.Config Conn
    (Sqlite3Call ⊕ ClientCall) (Sum.elim Sqlite3Call.Answer ClientCall.Answer) (SqliteWorld Conn)) :
    Prop :=
  Threads.Reaches (sqliteClients assume) c₀ c' ∧ ∀ other, other ≠ conn →
    c'.progs other = c.progs other ∧ c'.world.heap other = c.world.heap other

theorem Goes.trans {c₁ c₂ : Threads.Config Conn (Sqlite3Call ⊕ ClientCall)
    (Sum.elim Sqlite3Call.Answer ClientCall.Answer) (SqliteWorld Conn)}
    (h : Goes assume conn c₀ c c₁) (h' : Goes assume conn c₀ c₁ c₂) :
  Goes assume conn c₀ c c₂
  := by
  use h'.1
  intro other hother
  obtain ⟨hprogs, hheap⟩ := h.2 other hother
  obtain ⟨hprogs', hheap'⟩ := h'.2 other hother
  exact ⟨hprogs'.trans hprogs, hheap'.trans hheap⟩

/-- A client goes on with what it can do. -/
theorem goes_can {p : Sqlite3Prog α} {f : α → SqliteRepository.Sqlite3Client Unit}
    (h : Threads.Reaches (sqliteClients assume) c₀ c) (hprog : c.progs conn = (p.lift >>= f))
    (hp : Can assume conn p (c.world.heap conn) c.world.world Q) :
  ∃ a c', Goes assume conn c₀ c c' ∧ c'.progs conn = f a ∧ Q a (c'.world.heap conn) c'.world.world
  := by
  obtain ⟨progs, w⟩ := c
  obtain ⟨a, w', hrun, hQ⟩ := hp w rfl rfl
  refine ⟨a, _, ⟨h.runs hprog hrun.lift, ?_⟩, Function.update_self .., hQ⟩
  intro other hother
  exact ⟨Function.update_of_ne hother .., heap_other_of_runs hrun hother⟩

/-- A client goes on with a call of its own. -/
theorem goes_client {call : ClientCall} {a : call.Answer} {world : World Conn}
    {k : call.Answer → SqliteRepository.Sqlite3Client Unit}
    (h : Threads.Reaches (sqliteClients assume) c₀ c) (hprog : c.progs conn = .call (.inr call) k)
    (hstep : World.Step assume conn (.inr call) c.world.world a world) :
  ∃ c', Goes assume conn c₀ c c' ∧ c'.progs conn = k a ∧
    c'.world.heap conn = c.world.heap conn ∧ c'.world.world = world
  := by
  obtain ⟨progs, w⟩ := c
  refine ⟨_, ⟨h.call hprog (Step.client hstep), ?_⟩, Function.update_self .., rfl, rfl⟩
  exact fun other hother => ⟨Function.update_of_ne hother .., rfl⟩

/-- A client that has opened the repository is about to take a request. -/
def Serving (conn : Conn) (db : Sqlite3) (c : Threads.Config Conn (Sqlite3Call ⊕ ClientCall)
    (Sum.elim Sqlite3Call.Answer ClientCall.Answer) (SqliteWorld Conn)) : Prop :=
  c.progs conn = (Prog.repeatUntil (SqliteRepository.serve db) () >>= fun _ => (destroy db).lift) ∧
    Held db (c.world.heap conn)

/-- A client opens the repository, and initializes it. -/
theorem goes_opened (conn : Conn) {path : Bytes}
    (h : Threads.Reaches (sqliteClients assume) c₀ c)
    (hprog : c.progs conn = SqliteRepository.client path)
    (hheap : (c.world.heap conn).objects.AllClosed) {committed : Option Table}
    (hdb : c.world.world.db = { committed, transaction := none }) :
  ∃ c' db, Goes assume conn c₀ c c' ∧ Serving conn db c' ∧
    c'.world.world.db =
      { committed := some ((committed.getD .empty).insertAll
          (boundEntries ServerConfig.default))
        transaction := none } ∧
    c'.world.world.saved = c.world.world.saved ∧ c'.world.world.ready conn
  := by
  obtain ⟨_, c₁, hgoes₁, hprog₁, db, rfl, hheld₁, hworld₁⟩ :=
    goes_can h hprog (can_openDb path hheap)
  obtain ⟨world, hrun, hdb', hsaved⟩ := exists_initialized assume conn (hworld₁ ▸ hdb)
  obtain ⟨_, c₂, hgoes₂, hprog₂, rfl, hheld₂, rfl⟩ :=
    goes_can hgoes₁.1 hprog₁ (can_initializeRepository hheld₁ hrun)
  obtain ⟨c₃, hgoes₃, hprog₃, hheap₃, hworld₃⟩ := goes_client hgoes₂.1 hprog₂ .report
  refine ⟨c₃, db, (hgoes₁.trans hgoes₂).trans hgoes₃, ⟨hprog₃, hheap₃ ▸ hheld₂⟩, ?_⟩
  rw [hworld₃]
  refine ⟨hdb', ?_, ?_⟩
  · rw [← hworld₁]
    exact hsaved
  · simp [World.tell]

/-- A client takes a request. -/
theorem goes_asked (h : Threads.Reaches (sqliteClients assume) c₀ c) (hserving : Serving conn db c)
    (request : Option Request)
    (hnul : ∀ config, request = some (.save config) → ∀ f, NulFree (config.text f)) :
  ∃ c', Goes assume conn c₀ c c' ∧
    (∀ k, (SqliteRepository.serve db () >>= Prog.resume (SqliteRepository.serve db)
      fun _ => (destroy db).lift) = .call (.inr .nextRequest) k → c'.progs conn = k request) ∧
    Held db (c'.world.heap conn) ∧ c'.world.world = c.world.world.ask conn request
  := by
  obtain ⟨hprog, hheld⟩ := hserving
  obtain ⟨progs, w⟩ := c
  obtain ⟨c', hgoes, hprog', hheap, hworld⟩ := goes_client (h.loop hprog) (Function.update_self ..)
    (World.Step.nextRequest hnul)
  refine ⟨c', ⟨hgoes.1, ?_⟩, ?_, hheap ▸ hheld, hworld⟩
  · intro other hother
    obtain ⟨hprogs, hheap⟩ := hgoes.2 other hother
    exact ⟨hprogs.trans (Function.update_of_ne hother ..), hheap⟩
  · rintro k ⟨⟩
    exact hprog'

/-- A client saves a configuration. -/
theorem goes_saved (h : Threads.Reaches (sqliteClients assume) c₀ c) (hserving : Serving conn db c)
    {config : ServerConfig} (hvalid : config.validate = .ok ())
    (hnul : ∀ f, NulFree (config.text f)) {table : Table}
    (hdb : c.world.world.db = { committed := some table, transaction := none }) :
  ∃ c', Goes assume conn c₀ c c' ∧ Serving conn db c' ∧
    c'.world.world.db =
      { committed := some (table.upsertAll (boundEntries config)), transaction := none } ∧
    c'.world.world.saved = some config
  := by
  obtain ⟨c₁, hgoes₁, hprog₁, hheld₁, hworld₁⟩ :=
    goes_asked h hserving (some (.save config)) (by rintro _ ⟨⟩; exact hnul)
  obtain ⟨world, hrun, hdb', hsaved⟩ := exists_saved assume conn hvalid hdb
  rw [← hworld₁] at hrun
  obtain ⟨_, c₂, hgoes₂, hprog₂, rfl, hheld₂, rfl⟩ := goes_can hgoes₁.1
    ((hprog₁ _ rfl).trans (Prog.bind_assoc (SqliteRepository.save db config).lift _ _))
    (can_save hheld₁ hrun)
  obtain ⟨c₃, hgoes₃, hprog₃, hheap₃, hworld₃⟩ := goes_client hgoes₂.1 hprog₂ .report
  refine ⟨c₃, (hgoes₁.trans hgoes₂).trans hgoes₃, ⟨hprog₃, hheap₃ ▸ hheld₂⟩, ?_⟩
  rw [hworld₃]
  exact ⟨hdb', hsaved⟩

/-- A client asks for the configuration, and has loaded it. -/
theorem goes_loaded (h : Threads.Reaches (sqliteClients assume) c₀ c) (hserving : Serving conn db c)
    {table : Table} (hdb : c.world.world.db = { committed := some table, transaction := none }) :
  ∃ result c' k, Goes assume conn c₀ c c' ∧
    c'.progs conn = .call (.inr (.report (.loaded result))) k ∧
    c'.world.world.ready = c.world.world.ready ∧ ¬ c'.world.world.failed conn ∧
    ∀ config, result = .ok config → c'.world.world.snapshot conn = some c.world.world.saved
  := by
  obtain ⟨c₁, hgoes₁, hprog₁, hheld₁, hworld₁⟩ :=
    goes_asked h hserving (some .load) (by rintro _ ⟨⟩)
  obtain ⟨result, world, hrun, hready, hfailed, hsnapshot⟩ := exists_loaded assume conn hdb
  rw [← hworld₁] at hrun
  obtain ⟨_, c₂, hgoes₂, hprog₂, rfl, -, rfl⟩ := goes_can hgoes₁.1
    ((hprog₁ _ rfl).trans (Prog.bind_assoc (SqliteRepository.load db).lift _ _))
    (can_load hheld₁ hrun)
  exact ⟨_, c₂, _, hgoes₁.trans hgoes₂, hprog₂, hready, hfailed, hsnapshot⟩

/-- A client asks for the configuration, and has prepared the statement that reads it. -/
theorem goes_prepared (h : Threads.Reaches (sqliteClients assume) c₀ c)
    (hserving : Serving conn db c) {table : Table}
    (hdb : c.world.world.db = { committed := some table, transaction := none }) :
  ∃ c' stmt k, Goes assume conn c₀ c c' ∧ c'.progs conn = .call (.inl (.step stmt)) k
  := by
  obtain ⟨c₁, hgoes₁, hprog₁, hheld₁, hworld₁⟩ :=
    goes_asked h hserving (some .load) (by rintro _ ⟨⟩)
  have hcall : Succeeded assume conn (.prepare .select) c₁.world.world (.ok ())
      (c₁.world.world.succeed conn (.prepare .select) c₁.world.world.db) := by
    refine ⟨_, .answer ?_, rfl⟩
    rw [hworld₁, World.ask, hdb]
    rfl
  obtain ⟨-, hcan⟩ := can_prepare hheld₁ hcall
  have hprog : c₁.progs conn = ((prepare db .select).lift >>= _) :=
    (hprog₁ _ rfl).trans ((Prog.bind_assoc (SqliteRepository.load db).lift _ _).trans (by
      rw [SqliteRepository.load, Prog.lift_bind, Prog.bind_assoc]))
  obtain ⟨_, c₂, hgoes₂, hprog₂, stmt, rfl, -, -⟩ := goes_can hgoes₁.1 hprog hcan
  obtain ⟨progs, w⟩ := c₂
  refine ⟨_, stmt, _, (hgoes₁.trans hgoes₂).trans ⟨hgoes₂.1.loop hprog₂, ?_⟩, Function.update_self ..⟩
  exact fun other hother => ⟨Function.update_of_ne hother .., rfl⟩

/-- A client has no more requests, and closes its connection. -/
theorem goes_closed (h : Threads.Reaches (sqliteClients assume) c₀ c) (hserving : Serving conn db c) :
  ∃ c', Goes assume conn c₀ c c' ∧ c'.progs conn = .ret ()
  := by
  obtain ⟨c₁, hgoes₁, hprog₁, hheld₁, hworld₁⟩ :=
    goes_asked h hserving none (by rintro _ ⟨⟩)
  have hprog := hprog₁ _ rfl
  obtain ⟨progs, w⟩ := c₁
  have hclose : (sqliteClients assume).step conn (.inl (.close db)) w () _ :=
    .close hheld₁.not_busy
  refine ⟨_, hgoes₁.trans ⟨hgoes₁.1.call hprog hclose, ?_⟩, Function.update_self ..⟩
  exact fun other hother => ⟨Function.update_of_ne hother .., Step.heap_other hclose hother⟩

end SqliteWorld

end OpcuaServer
