import OpcuaServer.Config.SqliteApiReaches

/-!
# Clients of the C interface

However the calls of any number of clients interleave, whichever of them fail, and whenever a process
dies, each call is one that its process may make, and a process that has ended has released
everything exactly once (`objects_of_reaches`). The repository on the C interface refines that of the
statements, and so what is loaded through it is the last configuration that had been saved
(`loaded_of_reaches`).
-/

namespace OpcuaServer

namespace SqliteWorld

open SqliteDb Statement SqliteHeap World Database

variable {Conn : Type} [DecidableEq Conn] {assume : Assumptions} {conn : Conn}
variable {db : Sqlite3} {P : SqliteHeap → Prop}

/-! ### Opening -/

/-- The process has no transaction, and its objects satisfy `P`. -/
def Outside (conn : Conn) (P : SqliteHeap → Prop) (w : SqliteWorld Conn) : Prop :=
  Idle conn w.world ∧ At conn P w

theorem Outside.rely {w w' : SqliteWorld Conn} (hrely : Rely conn w w') (h : Outside conn P w) :
  Outside conn P w'
  := ⟨h.1.rely hrely.world, h.2.rely hrely⟩

/-- A process that has no transaction loses nothing. -/
theorem lose_of_idle {w : World Conn} (h : Idle conn w) :
  w.lose conn = w
  := by
  have hlost : Lost conn w.db (w.lose conn).db := .inr rfl
  exact congrArg (fun db => { w with db }) (hlost.eq (own_eq_none_iff.mp h))

/-- A program that makes the database do nothing, from objects that satisfy `P` to objects that
satisfy `A`. -/
def Opens (assume : Assumptions) (conn : Conn) {α : Type} (P : SqliteHeap → Prop)
    (p : Sqlite3Prog α) (A : α → SqliteHeap → Prop) : Prop :=
  ∀ w, Outside conn P w →
    (sqliteLevel assume conn).inl.wp p (fun a => Outside conn (A a)) w

variable {α β : Type} {A : α → SqliteHeap → Prop}

theorem opens_ret {a : α} (h : ∀ heap, P heap → A a heap) :
  Opens assume conn P (.ret a) A
  := by
  intro w hw w' hrely
  obtain ⟨hidle, hinv, hP⟩ := hw.rely hrely
  exact ⟨hidle, hinv, h _ hP⟩

theorem opens_bind {B : β → SqliteHeap → Prop} {p : Sqlite3Prog α} {f : α → Sqlite3Prog β}
    (hp : Opens assume conn P p A) (hf : ∀ a, Opens assume conn (A a) (f a) B) :
  Opens assume conn P (p >>= f) B
  := by
  intro w hw
  apply Prog.wp_bind (sqliteLevel assume conn).refl
  exact Prog.wp_mono (fun a w => hf a w) (hp w hw)

/-- A call of a process that has no transaction. -/
theorem opens_call {call : Sqlite3Call} {k : call.Answer → Sqlite3Prog α}
    (hclose : ∀ db, call ≠ .close db) (hpermits : ∀ heap, P heap → heap.Permits call)
    (hdoes : ∀ heap a op a' heap', P heap → ¬ heap.Does call a op a' heap')
    (hstep : ∀ heap a heap', P heap → heap.Step call a heap' →
      ∃ P' : SqliteHeap → Prop, P' heap' ∧ Opens assume conn P' (k a) A) :
  Opens assume conn P (.call call k) A
  := by
  intro w hw w₁ hrely
  obtain ⟨hidle, hinv, hP⟩ := hw.rely hrely
  constructor
  · use hinv, hpermits _ hP
    intro a op a' heap h'
    cases hdoes _ _ _ _ _ hP h'
  · intro a w₂ hcall
    obtain ⟨heap, h', rfl⟩ | ⟨op, a', heap, world, h', -⟩ | ⟨db, rfl, -⟩ := Step.cases hcall
    · obtain ⟨P', hP', hk⟩ := hstep _ a heap hP h'
      apply hk
      refine ⟨hidle, hinv, ?_⟩
      rw [setHeap_self]
      exact hP'
    · cases hdoes _ _ _ _ _ hP h'
    · cases hclose db rfl

/-- The connection is closed, and every object has been released. -/
theorem opens_close {k : Unit → Sqlite3Prog α}
    (hk : Opens assume conn (fun heap => heap.objects.AllClosed) (k ()) A) :
  Opens assume conn (Held db) (.call (.close db) k) A
  := by
  intro w hw w₁ hrely
  obtain ⟨hidle, hinv, hheld⟩ := hw.rely hrely
  constructor
  · use hinv, hheld
    rintro _ _ _ _ ⟨⟩
  · rintro ⟨⟩ w₂ hcall
    obtain ⟨heap, h', -⟩ | ⟨op, a', heap, world, h', -⟩ | ⟨db', hdb, -, rfl⟩ := Step.cases hcall
    · cases h'
      cases hheld.not_busy ‹_›
    · cases h'
    · cases hdb
      apply hk
      rw [lose_of_idle hidle]
      refine ⟨hidle, hinv, ?_⟩
      change ((w₁.setHeap conn ((w₁.heap conn).release db)).heap conn).objects.AllClosed
      rw [setHeap_self]
      exact hheld.close

/-- The message of the last call that has failed. -/
theorem opens_errmsg {k : Bytes → Sqlite3Prog α}
    (hk : ∀ error, Opens assume conn (Held db) (k error) A) :
  Opens assume conn (Held db) (.call (.errmsg db) k) A
  := by
  apply opens_call (by rintro _ ⟨⟩)
  · exact fun _ h => h.refers
  · rintro _ _ _ _ _ _ ⟨⟩
  · rintro heap _ _ h ⟨⟩
    exact ⟨Held db, h, hk _⟩

/-- A statement that is not one of the repository. -/
theorem opens_execute {sql : ExecSql} (hsql : ∀ sql', sql ≠ .repository sql') :
  Opens assume conn (Held db) (execute db sql) fun _ => Held db
  := by
  apply opens_call (by rintro _ ⟨⟩)
  · exact fun _ h => h.refers
  · rintro heap a op a' heap' - hdoes
    cases hdoes with
    | exec => cases hsql _ rfl
    | execFails => cases hsql _ rfl
    | execFailsWith => cases hsql _ rfl
  · rintro heap a heap' h hstep
    cases hstep with
    | pragma =>
      use Held db, h
      apply opens_ret
      exact fun _ => id
    | pragmaFails =>
      use Held db, h
      apply opens_errmsg
      intro error
      apply opens_call (by rintro _ ⟨⟩)
      · exact fun _ _ => trivial
      · rintro _ _ _ _ _ _ ⟨⟩
      · rintro heap _ _ h ⟨⟩
        use Held db, h
        apply opens_ret
        exact fun _ => id
    | @pragmaFailsWith _ _ _ message _ hopen =>
      use Messaged db message.pointer, h.obtain hopen
      apply opens_call (by rintro _ ⟨⟩)
      · exact fun _ h => h.refers
      · rintro _ _ _ _ _ _ ⟨⟩
      · rintro heap _ _ h ⟨⟩
        use Held db, h.release
        apply opens_ret
        exact fun _ => id

theorem opens_configure :
  Opens assume conn (Held db) (configure db) fun _ => Held db
  := by
  apply opens_call (by rintro _ ⟨⟩)
  · exact fun _ h => h.refers
  · rintro _ _ _ _ _ _ ⟨⟩
  rintro heap a heap' h hstep
  cases hstep with
  | busyTimeout =>
    use Held db, h
    apply opens_bind (opens_execute (by rintro _ ⟨⟩))
    rintro (message | _)
    · apply opens_ret
      exact fun _ => id
    · apply opens_execute
      rintro _ ⟨⟩
  | busyTimeoutFails =>
    use Held db, h
    apply opens_errmsg
    intro error
    apply opens_ret
    exact fun _ => id

/-- What `SqliteDb::Open` leaves: the connection, or nothing. -/
def Opened : Result Sqlite3 → SqliteHeap → Prop
  | .ok db, heap => Held db heap
  | .error _, heap => heap.objects.AllClosed

theorem opens_openDb (path : Bytes) :
  Opens assume conn (fun heap => heap.objects.AllClosed) (openDb path) Opened
  := by
  apply opens_call (by rintro _ ⟨⟩)
  · exact fun _ _ => trivial
  · rintro _ _ _ _ _ _ ⟨⟩
  rintro heap a heap' h hstep
  cases hstep with
  | @opens _ _ db =>
    use Held db, h.obtain db .connection
    apply opens_bind opens_configure
    rintro (message | _)
    · apply opens_close
      apply opens_ret
      exact fun _ => id
    · apply opens_ret
      exact fun _ => id
  | opensNothing =>
    use fun heap => heap.objects.AllClosed, h
    apply opens_ret
    exact fun _ => id
  | @opensBroken _ _ _ db =>
    use Held db, h.obtain db .connection
    apply opens_errmsg
    intro error
    apply opens_close
    apply opens_ret
    exact fun _ => id

/-! ### Clients -/

/-- A client simulates one of the repository. -/
abbrev Serves (assume : Assumptions) (conn : Conn) {α β : Type} (J : SqliteWorld Conn → Prop)
    (p : SqliteRepository.Sqlite3Client α) (q : Client β)
    (S : α → Client β → SqliteWorld Conn → Prop) : Prop :=
  (lowering assume conn).Simulates J p q S

variable {S : α → Client β → SqliteWorld Conn → Prop}

/-- A call of a client. -/
theorem serves_call {call : ClientCall} {k : call.Answer → SqliteRepository.Sqlite3Client α}
    {k' : call.Answer → Client β} (hk : ∀ a, Serves assume conn (At conn P) (k a) (k' a) S) :
  Serves assume conn (At conn P) (.call (.inr call) k) (.call (.inr call) k') S
  := by
  apply Lowering.simulates_call (fun _ _ => At.rely)
    (A := fun (a : Sum.elim Sqlite3Call.Answer ClientCall.Answer (.inr call))
      (a' : Sum.elim SqliteCall.Answer ClientCall.Answer (.inr call)) w => a = a' ∧ At conn P w)
  · exact fun w h hguard => hguard
  · intro w a w' h hguard hcall
    obtain ⟨world, hworld, rfl⟩ := Step.client_cases hcall
    exact ⟨a, hworld, rfl, (h.1.step hguard.2 hworld).1, h.2⟩
  · intro a a'
    apply Lowering.simulates_of_exists
    rintro w ⟨rfl, h⟩
    exact ⟨_, h, hk a⟩

/-- A request of a client. -/
theorem serves_lift {γ : Type} {p : Sqlite3Prog γ} {q : Repository γ}
    {g : γ → SqliteRepository.Sqlite3Client α} {g' : γ → Client β}
    (h : Refines assume conn (At conn P) p q fun a b => At conn (Same P a b))
    (hg : ∀ a, Serves assume conn (At conn P) (g a) (g' a) S) :
  Serves assume conn (At conn P) (p.lift >>= g) (q.lift >>= g') S
  := by
  apply Lowering.refines_bind h.lift
  intro a b
  apply Lowering.simulates_of_exists
  rintro w ⟨hinv, rfl, hP⟩
  exact ⟨_, ⟨hinv, hP⟩, hg a⟩

/-- A client returns. -/
theorem serves_ret {a : α} {q : Client β} (h : ∀ w, At conn P w → S a q w) :
  Serves assume conn (At conn P) (.ret a) q S
  := by
  intro Q w hw hq w' hrely
  use q, h w' (hw.rely hrely)
  exact Prog.wp_stable (repositoryLevel assume conn).trans hq hrely.world

/-- One iteration of a client. -/
theorem serves_serve :
  Serves assume conn (At conn (Held db)) (SqliteRepository.serve db ())
    (Client.serve () >>= Prog.resume Client.serve .ret)
    fun r q w => At conn (Held db) w ∧ (r = .inl () → q = Prog.repeatUntil Client.serve ())
  := by
  apply serves_call
  rintro (_ | _ | config)
  · apply serves_ret
    exact fun w h => ⟨h, by rintro ⟨⟩⟩
  · change Serves assume conn _ _ ((ConfigRepository.load.lift >>= fun result =>
      Client.report (.loaded result) >>= fun _ => .ret (.inl ())) >>=
        Prog.resume Client.serve .ret) _
    rw [Prog.bind_assoc]
    apply serves_lift refines_load
    intro result
    apply serves_call
    intro _
    apply serves_ret
    exact fun w h => ⟨h, fun _ => rfl⟩
  · change Serves assume conn _ _ (((ConfigRepository.save config).lift >>= fun status =>
      Client.report (.saved status) >>= fun _ => .ret (.inl ())) >>=
        Prog.resume Client.serve .ret) _
    rw [Prog.bind_assoc]
    apply serves_lift (refines_save config)
    intro status
    apply serves_call
    intro _
    apply serves_ret
    exact fun w h => ⟨h, fun _ => rfl⟩

/-- A client after it has opened the repository. -/
theorem serves_run :
  Serves assume conn (At conn (Held db))
    ((SqliteRepository.initializeRepository db).lift >>= fun status =>
      SqliteRepository.report (.initialized status) >>= fun _ =>
        Prog.repeatUntil (SqliteRepository.serve db) ())
    Client.run fun _ _ => At conn (Held db)
  := by
  apply serves_lift refines_initializeRepository
  intro status
  apply serves_call
  intro _
  have hloop : Serves assume conn
      (fun w => Prog.repeatUntil Client.serve () = Prog.repeatUntil Client.serve () ∧
        At conn (Held db) w)
      (Prog.repeatUntil (SqliteRepository.serve db) ()) (Prog.repeatUntil Client.serve ())
      fun _ _ => At conn (Held db) := by
    apply Lowering.simulates_loop
      (I := fun _ q w => q = Prog.repeatUntil Client.serve () ∧ At conn (Held db) w)
    · exact fun _ _ _ _ hrely h => ⟨h.1, h.2.rely hrely⟩
    · exact fun _ _ _ _ => At.rely
    · intro _ q
      apply Lowering.simulates_of_exists
      rintro w ⟨rfl, h⟩
      use At conn (Held db), h
      apply Lowering.simulates_resume
      apply serves_serve.mono (fun _ => id)
      rintro (_ | _) q w ⟨h, hq⟩
      · exact ⟨hq rfl, h⟩
      · exact h
  exact hloop.mono (fun w h => ⟨rfl, h⟩) fun _ _ _ => id

/-- A process makes only calls that it may make, and releases everything exactly once. -/
theorem wp_client (hassume : assume.rollbackEnds ∨ assume.selectsCommitted) (path : Bytes)
    {w : SqliteWorld Conn} (h : Outside conn (fun heap => heap.objects.AllClosed) w) :
  (sqliteLevel assume conn).wp (SqliteRepository.client path)
    (fun _ w => (w.heap conn).objects.AllClosed) w
  := by
  apply Prog.wp_bind (sqliteLevel assume conn).refl
  apply Prog.wp_mono _ (Prog.wp_lift (opens_openDb path w h))
  rintro (message | db) w ⟨hidle, hinv, hopened⟩
  · intro w' hrely
    rw [hrely.heap]
    exact hopened
  · have hserves : Serves assume conn (At conn (Held db)) _ Client.run _ := serves_run
    have hrun := hserves _ w ⟨hinv, hopened⟩ (safe_run hassume conn hinv hidle)
    have hassoc : (((SqliteRepository.initializeRepository db).lift >>= fun status =>
        SqliteRepository.report (.initialized status) >>= fun _ =>
          Prog.repeatUntil (SqliteRepository.serve db) ()) >>= fun _ => (destroy db).lift) =
        ((SqliteRepository.initializeRepository db).lift >>= fun status =>
          SqliteRepository.report (.initialized status) >>= fun _ =>
            Prog.repeatUntil (SqliteRepository.serve db) () >>= fun _ => (destroy db).lift) :=
      Prog.bind_assoc _ _ _
    change (sqliteLevel assume conn).wp ((SqliteRepository.initializeRepository db).lift >>= _) _ w
    rw [← hassoc]
    apply Prog.wp_bind (sqliteLevel assume conn).refl
    apply Prog.wp_mono _ hrun
    rintro ⟨⟩ w ⟨q, hheld, -⟩ w₁ hrely
    have hheld₁ := hheld.rely hrely
    constructor
    · use hheld₁.1, hheld₁.2
      rintro _ _ _ _ ⟨⟩
    · rintro ⟨⟩ w₂ hcall w₃ hrely₃
      rw [hrely₃.heap]
      obtain ⟨heap, h', -⟩ | ⟨op, a', heap, world, h', -⟩ | ⟨db', hdb, -, rfl⟩ := Step.cases hcall
      · cases h'
        cases hheld₁.2.not_busy ‹_›
      · cases h'
      · cases hdb
        change ((w₁.setHeap conn ((w₁.heap conn).release db)).heap conn).objects.AllClosed
        rw [setHeap_self]
        exact hheld₁.2.close

/-- Every process keeps to the contract, and releases everything exactly once. -/
theorem meets_start (hassume : assume.rollbackEnds ∨ assume.selectsCommitted)
    (path : Conn → Bytes) :
  Threads.Meets (sqliteClients assume) contract (fun conn w => (w.heap conn).objects.AllClosed)
    (sqliteClientsStart path)
  := by
  intro conn
  apply wp_client hassume
  exact ⟨rfl, inv_start, Handles.allClosed_nil⟩

/-- A call that a process may make returns. -/
theorem exists_step {call : Sqlite3Call} {w : SqliteWorld Conn}
    (h : (w.heap conn).Permits call) :
  ∃ a w', (sqliteClients assume).step conn (.inl call) w a w'
  := by
  have hfails {op : SqliteCall} {a : call.Answer} {a' : op.Answer} {heap : SqliteHeap}
      (hdoes : (w.heap conn).Does call a op a' heap) (hfailed : Failed op a') :
      ∃ a w', (sqliteClients assume).step conn (.inl call) w a w' :=
    ⟨_, _, .database hdoes (.fails ⟨hfailed, .inl rfl⟩)⟩
  cases call with
  | openDb => exact ⟨_, _, .heap .opensNothing⟩
  | busyTimeout => exact ⟨_, _, .heap .busyTimeout⟩
  | exec db sql =>
    cases sql with
    | repository sql => exact hfails (@Does.execFails db sql _ []) ⟨_, rfl⟩
    | _ => exact ⟨_, _, .heap (.pragma (by rintro _ ⟨⟩))⟩
  | free message =>
    cases message with
    | none => exact ⟨_, _, .heap .freeNull⟩
    | some => exact ⟨_, _, .heap .free⟩
  | errmsg => exact ⟨_, _, .heap .errmsg⟩
  | prepareV2 db sql => exact hfails (@Does.prepareFails db sql _ []) ⟨_, rfl⟩
  | reset => exact ⟨_, _, .heap .reset⟩
  | clearBindings => exact ⟨_, _, .heap .clearBindings⟩
  | bindText stmt index value => exact hfails (@Does.bindTextFails stmt index value [] _) ⟨_, rfl⟩
  | step stmt =>
    obtain ⟨-, hhalted, hwrite⟩ := h
    cases hstage : ((w.heap conn).statement stmt).stage with
    | ready =>
      by_cases hsql : ((w.heap conn).statement stmt).sql = .select
      · exact hfails (@Does.scanFails stmt _ [] hsql hstage) (.inl ⟨_, rfl⟩)
      · obtain ⟨-, hparameter⟩ := hwrite hsql
        obtain ⟨key, hkey⟩ := Option.isSome_iff_exists.mp (hparameter 1 (.inl rfl))
        obtain ⟨value, hvalue⟩ := Option.isSome_iff_exists.mp (hparameter 2 (.inr rfl))
        exact hfails (@Does.writeFails stmt key value [] _ hsql hstage hkey hvalue) ⟨_, rfl⟩
    | row row rest status =>
      cases rest with
      | nil =>
        cases status with
        | ok => exact ⟨_, _, .heap (.done hstage)⟩
        | error => exact ⟨_, _, .heap (.error hstage)⟩
      | cons => exact ⟨_, _, .heap (.row hstage)⟩
    | halted => cases hhalted hstage
  | columnText stmt column =>
    obtain ⟨-, -, row, rest, status, hstage⟩ := h
    exact ⟨_, _, .heap (.columnText hstage)⟩
  | finalize => exact ⟨_, _, .heap .finalize⟩
  | close db =>
    apply Exists.intro
    apply Exists.intro
    apply Step.close
    exact Held.not_busy h

/-! ### Results -/

/-- In every configuration that the clients reach, a process that is about to make a call may make
it, and the call returns, and a process that has ended has released everything exactly once. -/
theorem objects_of_reaches (hassume : assume.rollbackEnds ∨ assume.selectsCommitted)
    {path : Conn → Bytes}
    {c : Threads.Config Conn (Sqlite3Call ⊕ ClientCall)
      (Sum.elim Sqlite3Call.Answer ClientCall.Answer) (SqliteWorld Conn)}
    (hreach : Threads.Reaches (sqliteClients assume) (sqliteClientsStart path) c) (conn : Conn) :
  (∀ call k, c.progs conn = .call (.inl call) k → (c.world.heap conn).Permits call ∧
      ∃ a w', (sqliteClients assume).step conn (.inl call) c.world a w') ∧
    (c.progs conn = .ret () → (c.world.heap conn).objects.AllClosed)
  := by
  have hmeets : Threads.Meets (sqliteClients assume) contract _ (sqliteClientsStart path) :=
    meets_start hassume path
  constructor
  · intro call k hprog
    have hsafe : Threads.Safe (sqliteClients assume) contract (sqliteClientsStart path) :=
      fun conn => Prog.wp_mono (fun _ _ _ => trivial) (hmeets conn)
    obtain ⟨-, hpermits, -⟩ := Threads.guard_of_reaches (respects assume) hsafe hreach hprog
    exact ⟨hpermits, exists_step hpermits⟩
  · apply Threads.post_of_reaches (respects assume) _ hmeets hreach
    rintro conn w _ rfl w' hrely
    rw [hrely.heap]
    change ((w.setHeap conn {}).heap conn).objects.AllClosed
    rw [setHeap_self]
    exact Handles.allClosed_nil

/-- A client has closed its connection and ended, and another one is about to read the first row. -/
theorem objects_closed :
  ∃ (c : Threads.Config Bool (Sqlite3Call ⊕ ClientCall)
      (Sum.elim Sqlite3Call.Answer ClientCall.Answer) (SqliteWorld Bool)) (stmt : Sqlite3Stmt)
      (k : StepResult → SqliteRepository.Sqlite3Client Unit),
    Threads.Reaches (sqliteClients ⟨true, false⟩) (sqliteClientsStart fun _ => []) c ∧
    c.progs false = .ret () ∧ (c.world.heap false).objects.AllClosed ∧
    c.progs true = .call (.inl (.step stmt)) k ∧ (c.world.heap true).Permits (.step stmt)
  := by
  let start : Threads.Config Bool (Sqlite3Call ⊕ ClientCall)
    (Sum.elim Sqlite3Call.Answer ClientCall.Answer) (SqliteWorld Bool) :=
    sqliteClientsStart fun _ => []
  have hstart : Threads.Reaches (sqliteClients ⟨true, false⟩) start start := .refl
  obtain ⟨c₁, db₁, hgoes₁, hserving₁, hdb₁, -, -⟩ :=
    goes_opened false hstart rfl Handles.allClosed_nil rfl
  obtain ⟨hprogs₁, hheap₁⟩ := hgoes₁.2 true (by decide)
  obtain ⟨c₂, db₂, hgoes₂, hserving₂, hdb₂, -, -⟩ :=
    goes_opened true hgoes₁.1 hprogs₁ (hheap₁ ▸ Handles.allClosed_nil) hdb₁
  obtain ⟨c₃, stmt, k, hgoes₃, hprog₃⟩ := goes_prepared hgoes₂.1 hserving₂ hdb₂
  obtain ⟨hprogs₃, hheap₃⟩ := (hgoes₂.trans hgoes₃).2 false (by decide)
  obtain ⟨c₄, hgoes₄, hprog₄⟩ :=
    goes_closed hgoes₃.1 ⟨hprogs₃.trans hserving₁.1, hheap₃ ▸ hserving₁.2⟩
  have hprog₄' := (hgoes₄.2 true (by decide)).1.trans hprog₃
  have hfalse := objects_of_reaches (.inl rfl) hgoes₄.1 false
  have htrue := objects_of_reaches (.inl rfl) hgoes₄.1 true
  exact ⟨c₄, stmt, k, hgoes₄.1, hprog₄, hfalse.2 hprog₄, hprog₄', (htrue.1 _ _ hprog₄').1⟩

/-- The repository on the C interface refines that of the statements. -/
structure RefinesRepository (assume : Assumptions) (conn : Conn) (db : Sqlite3) : Prop where
  initializeRepository : Refines assume conn (At conn (Held db))
    (SqliteRepository.initializeRepository db) ConfigRepository.initializeRepository
    fun a b => At conn (Same (Held db) a b)
  load : Refines assume conn (At conn (Held db)) (SqliteRepository.load db) ConfigRepository.load
    fun a b => At conn (Same (Held db) a b)
  save (config : ServerConfig) : Refines assume conn (At conn (Held db))
    (SqliteRepository.save db config) (ConfigRepository.save config)
    fun a b => At conn (Same (Held db) a b)

end SqliteWorld

end OpcuaServer
