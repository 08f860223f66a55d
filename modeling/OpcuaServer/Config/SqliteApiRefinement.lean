import OpcuaServer.Config.SqliteApiRules

/-!
# The repository on the C interface

`SqliteDb::Execute`, `WriteEntries`, `Initialize`, `Load` and `Save`, as they call the C interface,
refine what they are as programs of the repository: they return the same, where the database does the
same. They leave the connection as the only object that has not been released.
-/

namespace OpcuaServer

namespace SqliteHeap

variable {db : Sqlite3} {stmt : Sqlite3Stmt} {sql : Sql} {heap : SqliteHeap}

/-- The connection is the only object that has not been released. -/
def Held (db : Sqlite3) (heap : SqliteHeap) : Prop :=
  heap.objects.Sole db .connection

/-- The connection and an error message are the only objects that have not been released. -/
def Messaged (db : Sqlite3) (pointer : ℕ) (heap : SqliteHeap) : Prop :=
  ∃ hs : Handles SqliteObject, heap.objects = ⟨pointer, .message, 0⟩ :: hs ∧
    hs.Sole db .connection ∧ pointer ≠ db

/-- The connection and a prepared statement are the only objects that have not been released. -/
structure Scoped (db : Sqlite3) (stmt : Sqlite3Stmt) (sql : Sql) (heap : SqliteHeap) : Prop where
  objects : ∃ hs : Handles SqliteObject, heap.objects = ⟨stmt, .statement db, 0⟩ :: hs ∧
    hs.Sole db .connection ∧ stmt ≠ db
  sql : (heap.statement stmt).sql = sql

theorem Held.ne {pointer : ℕ} (h : Held db heap) (hopen : ¬ heap.objects.IsOpen pointer) :
  pointer ≠ db
  := by
  rintro rfl
  apply hopen
  use .connection, h.refers

/-- The connection can be closed. -/
theorem Held.not_busy (h : Held db heap) :
  ¬ heap.Busy db
  := by
  rintro ⟨stmt, hstmt⟩
  obtain ⟨-, ⟨⟩⟩ := h.unique hstmt

/-- An error message is obtained. -/
theorem Held.obtain {pointer : ℕ} (h : Held db heap) (hopen : ¬ heap.objects.IsOpen pointer) :
  Messaged db pointer (heap.obtain pointer .message)
  := ⟨heap.objects, rfl, h, h.ne hopen⟩

/-- An error message is released. -/
theorem Messaged.release {pointer : ℕ} (h : Messaged db pointer heap) :
  Held db (heap.release pointer)
  := by
  obtain ⟨hs, hobjects, hsole, hne⟩ := h
  rw [Held, SqliteHeap.release, hobjects]
  apply hsole.closeNewest hne

theorem Messaged.refers {pointer : ℕ} (h : Messaged db pointer heap) :
  heap.objects.Refers pointer .message
  := by
  obtain ⟨hs, hobjects, -⟩ := h
  rw [hobjects]
  apply Handles.refers_newest

/-- A statement is finalized. -/
theorem Scoped.release (h : Scoped db stmt sql heap) :
  Held db (heap.release stmt)
  := by
  obtain ⟨hs, hobjects, hsole, hne⟩ := h.objects
  rw [Held, SqliteHeap.release, hobjects]
  apply hsole.closeNewest hne

theorem Scoped.connection (h : Scoped db stmt sql heap) :
  heap.objects.Refers db .connection
  := by
  obtain ⟨hs, hobjects, hsole, hne⟩ := h.objects
  rw [hobjects]
  apply hsole.refers.cons hne

theorem Scoped.prepared (h : Scoped db stmt sql heap) :
  heap.Prepared stmt
  := by
  use db
  constructor
  · obtain ⟨hs, hobjects, -⟩ := h.objects
    rw [hobjects]
    apply Handles.refers_newest
  · apply h.connection

/-- The statement changes, but not its text. -/
theorem Scoped.setStatement {statement : PreparedStatement} (h : Scoped db stmt sql heap)
    (hsql : statement.sql = sql) :
  Scoped db stmt sql (heap.setStatement stmt statement)
  where
  objects := h.objects
  sql := by simp [SqliteHeap.setStatement, hsql]

theorem Scoped.setStage {stage : StatementStage} (h : Scoped db stmt sql heap) :
  Scoped db stmt sql (heap.setStage stmt stage)
  := h.setStatement h.sql

theorem Scoped.setError {error : Bytes} (h : Scoped db stmt sql heap) :
  Scoped db stmt sql (heap.setError error)
  where
  objects := h.objects
  sql := h.sql

/-- A prepared statement that has been reset, and what has been bound to its parameters. -/
structure Bound (db : Sqlite3) (stmt : Sqlite3Stmt) (sql : Sql) (parameter : ℕ → Option Bytes)
    (heap : SqliteHeap) : Prop extends Scoped db stmt sql heap where
  stage : (heap.statement stmt).stage = .ready
  parameter : (heap.statement stmt).parameter = parameter

/-- The stage of the statement changes. -/
theorem setStage_stage {stage : StatementStage} :
  ((heap.setStage stmt stage).statement stmt).stage = stage
  := by simp [setStage, setStatement]

/-- What has been bound to a statement that has been reset is cleared. -/
theorem Scoped.clear (h : Scoped db stmt sql heap) (hready : (heap.statement stmt).stage = .ready) :
  Bound db stmt sql (fun _ => none)
    (heap.setStatement stmt { heap.statement stmt with parameter := fun _ => none })
  where
  toScoped := h.setStatement h.sql
  stage := by simp [SqliteHeap.setStatement, hready]
  parameter := by simp [SqliteHeap.setStatement]

/-- A statement is obtained. -/
theorem Held.prepare (h : Held db heap) (hopen : ¬ heap.objects.IsOpen stmt) :
  Bound db stmt sql (fun _ => none)
    ((heap.obtain stmt (.statement db)).setStatement stmt { sql })
  where
  objects := ⟨heap.objects, rfl, h, h.ne hopen⟩
  sql := by simp [setStatement]
  stage := by simp [setStatement]
  parameter := by simp [setStatement]

theorem Bound.setError {parameter : ℕ → Option Bytes} {error : Bytes}
    (h : Bound db stmt sql parameter heap) :
  Bound db stmt sql parameter (heap.setError error)
  where
  toScoped := h.toScoped.setError
  stage := h.stage
  parameter := h.parameter

/-- A text is bound. -/
theorem Bound.bind {parameter : ℕ → Option Bytes} {index : ℕ} {bound : Bytes}
    (h : Bound db stmt sql parameter heap) :
  Bound db stmt sql (Function.update parameter index (some bound)) (heap.setStatement stmt
    { heap.statement stmt with
      parameter := Function.update (heap.statement stmt).parameter index (some bound) })
  where
  toScoped := h.toScoped.setStatement h.sql
  stage := by simp [SqliteHeap.setStatement, h.stage]
  parameter := by simp [SqliteHeap.setStatement, h.parameter]

end SqliteHeap

namespace SqliteWorld

open SqliteDb Statement SqliteHeap

variable {Conn : Type} [DecidableEq Conn] {assume : Assumptions} {conn : Conn}
variable {db : Sqlite3} {stmt : Sqlite3Stmt} {sql : Sql}

/-- Both programs return the same, and the objects satisfy `P`. -/
def Same (P : SqliteHeap → Prop) {α : Type} (a b : α) (heap : SqliteHeap) : Prop :=
  a = b ∧ P heap

theorem refines_same {P : SqliteHeap → Prop} {α : Type} {a : α} :
  Refines assume conn (At conn P) (.ret a) (.ret a) fun a b => At conn (Same P a b)
  := by
  apply refines_return
  exact fun _ h => ⟨rfl, h⟩

/-! ### Statements that are executed -/

/-- An error message is released. -/
theorem refines_free {message : ErrorMessage} {α β : Type} {k : Unit → Sqlite3Prog α}
    {q : Repository β} {R : α → β → SqliteWorld Conn → Prop}
    (hk : Refines assume conn (At conn (Held db)) (k ()) q R) :
  Refines assume conn (At conn (Messaged db message.pointer)) (.call (.free (some message)) k) q R
  := by
  apply simulates_heap (by rintro _ ⟨⟩)
  · exact fun _ h => h.refers
  · rintro _ _ _ _ _ _ ⟨⟩
  · rintro heap ⟨⟩ _ h ⟨⟩
    exact ⟨Held db, h.release, hk⟩

theorem refines_execute :
  Refines assume conn (At conn (Held db)) (execute db (.repository sql))
    (ConfigRepository.execute sql) fun a b => At conn (Same (Held db) a b)
  := by
  apply simulates_database (by rintro _ ⟨⟩)
  · exact fun _ h => h.refers
  · rintro heap a heap' - hstep
    cases hstep with
    | pragma hsql => cases hsql sql rfl
    | pragmaFails hsql => cases hsql sql rfl
    | pragmaFailsWith hsql => cases hsql sql rfl
  · intro heap a op a' heap' h hdoes
    cases hdoes with
    | exec =>
      use rfl, Held db, h
      apply refines_same
    | @execFails _ _ _ error =>
      use rfl, fun heap => Held db heap ∧ heap.error = error, ⟨h, rfl⟩
      apply simulates_errmsg
      · exact fun _ h => ⟨h.1.refers, h.2⟩
      apply simulates_heap (by rintro _ ⟨⟩)
      · exact fun _ _ => trivial
      · rintro _ _ _ _ _ _ ⟨⟩
      · rintro heap ⟨⟩ _ h ⟨⟩
        use Held db, h.1
        apply refines_same
    | @execFailsWith _ _ _ message hopen =>
      use rfl, Messaged db message.pointer, h.obtain hopen
      apply refines_free
      apply refines_same

/-! ### Statements that are prepared -/

/-- A statement has been prepared, or both programs return the same error. -/
inductive Prepares (db : Sqlite3) (sql : Sql) :
    Result Sqlite3Stmt → Status → SqliteHeap → Prop where
  | ok {stmt : Sqlite3Stmt} {heap : SqliteHeap} :
      Bound db stmt sql (fun _ => none) heap → Prepares db sql (.ok stmt) (.ok ()) heap
  | error {message : Bytes} {heap : SqliteHeap} :
      Held db heap → Prepares db sql (.error message) (.error message) heap

theorem refines_prepare :
  Refines assume conn (At conn (Held db)) (prepare db sql) (ConfigRepository.prepare sql)
    fun a b => At conn (Prepares db sql a b)
  := by
  apply simulates_database (by rintro _ ⟨⟩)
  · exact fun _ h => h.refers
  · rintro _ _ _ _ ⟨⟩
  · intro heap a op a' heap' h hdoes
    cases hdoes with
    | @prepare _ _ _ stmt hopen =>
      use rfl, Bound db stmt sql fun _ => none, h.prepare hopen
      apply refines_return
      exact fun _ => .ok
    | @prepareFails _ _ _ error =>
      use rfl, fun heap => Held db heap ∧ heap.error = error, ⟨h, rfl⟩
      apply simulates_errmsg
      · exact fun _ h => ⟨h.1.refers, h.2⟩
      apply refines_return
      exact fun _ h => .error h.1

/-- A text has been bound, or both programs return the same error. -/
inductive Binds (db : Sqlite3) (stmt : Sqlite3Stmt) (sql : Sql) (parameter : ℕ → Option Bytes)
    (index : ℕ) : Status → Result Bytes → SqliteHeap → Prop where
  | ok {bound : Bytes} {heap : SqliteHeap} :
      Bound db stmt sql (Function.update parameter index (some bound)) heap →
      Binds db stmt sql parameter index (.ok ()) (.ok bound) heap
  | error {message : Bytes} {heap : SqliteHeap} :
      Scoped db stmt sql heap →
      Binds db stmt sql parameter index (.error message) (.error message) heap

theorem refines_bindText {parameter : ℕ → Option Bytes} {index : ℕ} {value : Bytes}
    (hsql : sql ≠ .select) (hindex : index = 1 ∨ index = 2) :
  Refines assume conn (At conn (Bound db stmt sql parameter)) (bindText db stmt index value)
    (ConfigRepository.bindText index value)
    fun a b => At conn (Binds db stmt sql parameter index a b)
  := by
  apply simulates_database (by rintro _ ⟨⟩)
  · exact fun _ h => ⟨h.prepared, h.stage, h.sql ▸ hsql, hindex⟩
  · rintro _ _ _ _ ⟨⟩
  · intro heap a op a' heap' h hdoes
    cases hdoes with
    | bindText =>
      refine ⟨rfl, _, h.bind, ?_⟩
      apply refines_return
      exact fun _ => .ok
    | @bindTextFails _ _ _ error =>
      use rfl, fun heap => Bound db stmt sql parameter heap ∧ heap.error = error,
        ⟨h.setError, rfl⟩
      apply simulates_errmsg
      · exact fun _ h => ⟨h.1.connection, h.2⟩
      apply refines_return
      exact fun _ h => .error h.1.toScoped

/-- A write is executed with what has been bound. -/
theorem refines_stepWrite {key value : Bytes} {α β : Type} {k : StepResult → Sqlite3Prog α}
    {k' : Status → Repository β} {R : α → β → SqliteWorld Conn → Prop} (hsql : sql ≠ .select)
    (hdone : Refines assume conn (At conn (Scoped db stmt sql)) (k .done) (k' (.ok ())) R)
    (herror : ∀ error, Refines assume conn
      (At conn fun heap => Scoped db stmt sql heap ∧ heap.error = error)
      (k .error) (k' (.error error)) R) :
  Refines assume conn
    (At conn (Bound db stmt sql
      (Function.update (Function.update (fun _ => none) 1 (some key)) 2 (some value))))
    (.call (.step stmt) k) (.call (.stepWrite sql key value) k') R
  := by
  have hparameter {heap key' value'} (h : Bound db stmt sql
      (Function.update (Function.update (fun _ => none) 1 (some key)) 2 (some value)) heap)
      (hkey : (heap.statement stmt).parameter 1 = some key')
      (hvalue : (heap.statement stmt).parameter 2 = some value') : key' = key ∧ value' = value := by
    rw [h.parameter] at hkey hvalue
    simp [Function.update] at hkey hvalue
    exact ⟨hkey.symm, hvalue.symm⟩
  apply simulates_database (by rintro _ ⟨⟩)
  · intro heap h
    refine ⟨h.prepared, by rw [h.stage]; rintro ⟨⟩, fun _ => ⟨h.stage, ?_⟩⟩
    rw [h.parameter]
    rintro _ (rfl | rfl) <;> rfl
  · intro heap a heap' h hstep
    cases hstep with
    | row hstage => cases h.stage.symm.trans hstage
    | done hstage => cases h.stage.symm.trans hstage
    | error hstage => cases h.stage.symm.trans hstage
  · intro heap a op a' heap' h hdoes
    have hselect := h.sql.trans_ne hsql
    cases hdoes with
    | write _ _ hkey hvalue =>
      obtain ⟨rfl, rfl⟩ := hparameter h hkey hvalue
      obtain rfl := h.sql
      exact ⟨rfl, _, h.toScoped.setStage, hdone⟩
    | @writeFails _ _ _ error _ _ _ hkey hvalue =>
      obtain ⟨rfl, rfl⟩ := hparameter h hkey hvalue
      obtain rfl := h.sql
      exact ⟨rfl, _, ⟨h.toScoped.setStage.setError, rfl⟩, herror error⟩
    | scan hsql' => cases hselect hsql'
    | scanNothing hsql' => cases hselect hsql'
    | scanFails hsql' => cases hselect hsql'

theorem refines_writeRows (hsql : sql ≠ .select) (entries : List ConfigEntry) :
  Refines assume conn (At conn (Scoped db stmt sql)) (writeRows db stmt entries)
    (ConfigRepository.writeRows sql entries) fun a b => At conn (Same (Scoped db stmt sql) a b)
  := by
  induction entries with
  | nil =>
    apply refines_same
  | cons entry entries ih =>
    -- the statement is reset
    apply simulates_heap (by rintro _ ⟨⟩)
    · exact fun _ h => h.prepared
    · rintro _ _ _ _ _ _ ⟨⟩
    rintro heap ⟨⟩ _ h ⟨⟩
    use fun heap => Scoped db stmt sql heap ∧ (heap.statement stmt).stage = .ready
    use ⟨h.setStage, setStage_stage⟩
    apply simulates_heap (by rintro _ ⟨⟩)
    · exact fun _ h => h.1.prepared
    · rintro _ _ _ _ _ _ ⟨⟩
    rintro heap ⟨⟩ _ h ⟨⟩
    use Bound db stmt sql fun _ => none, h.1.clear h.2
    -- its parameters are bound
    apply refines_bind (refines_bindText hsql (.inl rfl))
    rintro _ _ heap (hkey | herror)
    · refine ⟨_, hkey, ?_⟩
      apply refines_bind (refines_bindText hsql (.inr rfl))
      rintro _ _ heap (hvalue | herror)
      · refine ⟨_, hvalue, ?_⟩
        apply refines_stepWrite hsql ih
        intro error
        apply simulates_errmsg
        · exact fun _ h => ⟨h.1.connection, h.2⟩
        apply refines_return
        exact fun _ h => ⟨rfl, h.1⟩
      · refine ⟨_, herror, ?_⟩
        apply refines_same
    · refine ⟨_, herror, ?_⟩
      apply refines_same

/-- A statement is finalized. -/
theorem refines_finalize {α β : Type} {k : Unit → Sqlite3Prog α} {q : Repository β}
    {R : α → β → SqliteWorld Conn → Prop}
    (hk : Refines assume conn (At conn (Held db)) (k ()) q R) :
  Refines assume conn (At conn (Scoped db stmt sql)) (finalize stmt >>= k) q R
  := by
  apply simulates_heap (by rintro _ ⟨⟩)
  · exact fun _ h => h.prepared
  · rintro _ _ _ _ _ _ ⟨⟩
  · rintro heap ⟨⟩ _ h ⟨⟩
    exact ⟨Held db, h.release, hk⟩

theorem refines_writeEntries (hsql : sql ≠ .select) (entries : List ConfigEntry) :
  Refines assume conn (At conn (Held db)) (writeEntries db entries sql)
    (ConfigRepository.writeEntries entries sql) fun a b => At conn (Same (Held db) a b)
  := by
  apply refines_bind refines_prepare
  rintro _ _ heap (@⟨stmt, _, hbound⟩ | herror)
  · refine ⟨_, hbound.toScoped, ?_⟩
    have hrows : Refines assume conn (At conn (Scoped db stmt sql))
        (writeRows db stmt entries >>= fun status => finalize stmt >>= fun _ => .ret status)
        (ConfigRepository.writeRows sql entries >>= .ret)
        fun a b => At conn (Same (Held db) a b) := by
      apply refines_bind (refines_writeRows hsql entries)
      rintro status _ heap ⟨rfl, h⟩
      refine ⟨_, h, ?_⟩
      apply refines_finalize
      apply refines_same
    rw [Prog.bind_ret] at hrows
    exact hrows
  · refine ⟨_, herror, ?_⟩
    apply refines_same

theorem refines_initializeRepository :
  Refines assume conn (At conn (Held db)) (SqliteRepository.initializeRepository db)
    ConfigRepository.initializeRepository fun a b => At conn (Same (Held db) a b)
  := by
  apply refines_bind refines_execute
  rintro status _ heap ⟨rfl, h⟩
  refine ⟨_, h, ?_⟩
  rcases status with message | _
  · apply refines_same
  · apply refines_writeEntries (by rintro ⟨⟩)

/-! ### Reading -/

/-- A `SELECT` stands at a row. -/
structure Standing (db : Sqlite3) (stmt : Sqlite3Stmt) (row : Row) (rest : List Row)
    (status : Status) (heap : SqliteHeap) : Prop extends Scoped db stmt .select heap where
  stage : (heap.statement stmt).stage = .row row rest status

theorem standing_setStage {row : Row} {rest : List Row} {status : Status} {heap : SqliteHeap}
    (h : Scoped db stmt .select heap) :
  Standing db stmt row rest status (heap.setStage stmt (.row row rest status))
  where
  toScoped := h.setStage
  stage := setStage_stage

/-- What the rows that are left and the end of a `SELECT` come to, with the values read so far. -/
def outcome (rows : List Row) (status : Status) (values : ConfigValues) : Result ConfigValues :=
  match ConfigRepository.collect rows values with
  | .error message => .error message
  | .ok values =>
      match status with
      | .error message => .error (ascii "sqlite3_step select failed: " ++ message)
      | .ok () => .ok values

/-- Where the loop of `Load` is between two iterations, with the values read so far: before the rows
are read, or at a row that has been read. -/
inductive Reading (db : Sqlite3) (stmt : Sqlite3Stmt) :
    ConfigValues → Repository (List Row × Status) → SqliteHeap → Prop where
  | start {heap : SqliteHeap} :
      Bound db stmt .select (fun _ => none) heap →
      Reading db stmt [] ConfigRepository.sqliteStepRows heap
  | row {values : ConfigValues} {row : Row} {rows rest : List Row} {status : Status}
      {heap : SqliteHeap} :
      Standing db stmt row rest status heap →
      outcome rows status [] = outcome rest status values →
      Reading db stmt values (.ret (rows, status)) heap

/-- The loop of `Load` has ended. -/
def HasRead (db : Sqlite3) (stmt : Sqlite3Stmt) (result : Result ConfigValues)
    (answer : List Row × Status) (heap : SqliteHeap) : Prop :=
  result = outcome answer.1 answer.2 [] ∧ Scoped db stmt .select heap

/-- Where an iteration of the loop of `Load` ends. -/
abbrev Iterated (conn : Conn) (db : Sqlite3) (stmt : Sqlite3Stmt)
    (r : ConfigValues ⊕ Result ConfigValues) (q : Repository (List Row × Status))
    (w : SqliteWorld Conn) : Prop :=
  r.elim (fun values => At conn (Reading db stmt values q) w) fun result =>
    ∃ answer, q = .ret answer ∧ At conn (HasRead db stmt result answer) w

variable {row : Row} {rows rest : List Row} {status : Status} {values : ConfigValues}

/-- A column of a row. -/
theorem simulates_columnText {column : ℕ} {α β : Type} {k : Option Bytes → Sqlite3Prog α}
    {q : Repository β} {S : α → Repository β → SqliteWorld Conn → Prop}
    (hcolumn : column = 0 ∨ column = 1)
    (hk : Simulates assume conn (At conn (Standing db stmt row rest status))
      (k (if column = 0 then row.key else row.value)) q S) :
  Simulates assume conn (At conn (Standing db stmt row rest status))
    (.call (.columnText stmt column) k) q S
  := by
  apply simulates_heap (by rintro _ ⟨⟩)
  · exact fun heap h => ⟨h.prepared, hcolumn, row, rest, status, h.stage⟩
  · rintro _ _ _ _ _ _ ⟨⟩
  · rintro heap a heap' h hstep
    cases hstep with
    | columnText hstage =>
      cases h.stage.symm.trans hstage
      exact ⟨_, h, hk⟩

theorem simulates_readColumns
    (hrows : outcome rows status [] = outcome (row :: rest) status values) :
  Simulates assume conn (At conn (Standing db stmt row rest status)) (readColumns stmt values)
    (.ret (rows, status)) (Iterated conn db stmt)
  := by
  apply simulates_columnText (.inl rfl)
  apply simulates_columnText (.inr rfl)
  rcases row with ⟨_ | key, _ | value⟩
  · apply simulates_return
    exact fun w h => ⟨_, rfl, h.1, hrows.symm, h.2.toScoped⟩
  · apply simulates_return
    exact fun w h => ⟨_, rfl, h.1, hrows.symm, h.2.toScoped⟩
  · apply simulates_return
    exact fun w h => ⟨_, rfl, h.1, hrows.symm, h.2.toScoped⟩
  · apply simulates_return
    exact fun w h => ⟨h.1, .row h.2 hrows⟩

/-- The last row has been read. -/
theorem simulates_readRow_error {error : Bytes}
    (hrows : outcome rows status [] = .error (ascii "sqlite3_step select failed: " ++ error)) :
  Simulates assume conn (At conn fun heap => Scoped db stmt .select heap ∧ heap.error = error)
    (perform (.errmsg db) >>= fun message =>
      .ret (.inr (.error (ascii "sqlite3_step select failed: " ++ message))))
    (.ret (rows, status)) (Iterated conn db stmt)
  := by
  apply simulates_errmsg
  · exact fun heap h => ⟨h.1.connection, h.2⟩
  apply simulates_return
  exact fun w h => ⟨_, rfl, h.1, hrows.symm, h.2.1⟩

/-- One iteration of the loop of `Load`. -/
theorem simulates_readRow (values : ConfigValues) (q : Repository (List Row × Status)) :
  Simulates assume conn (At conn (Reading db stmt values q)) (readRow db stmt values) q
    (Iterated conn db stmt)
  := by
  apply Lowering.simulates_of_exists
  rintro w ⟨hinv, hreading⟩
  cases hreading with
  | start h =>
    use At conn (Bound db stmt .select fun _ => none), ⟨hinv, h⟩
    apply simulates_database (by rintro _ ⟨⟩)
    · intro heap h
      exact ⟨h.prepared, by rw [h.stage]; rintro ⟨⟩, fun hsql => absurd h.sql hsql⟩
    · intro heap a heap' h hstep
      cases hstep with
      | row hstage => cases h.stage.symm.trans hstage
      | done hstage => cases h.stage.symm.trans hstage
      | error hstage => cases h.stage.symm.trans hstage
    · intro heap a op a' heap' h hdoes
      cases hdoes with
      | write hsql => cases hsql h.sql
      | writeFails hsql => cases hsql h.sql
      | scan =>
        refine ⟨rfl, _, standing_setStage h.toScoped, ?_⟩
        apply simulates_readColumns rfl
      | scanNothing =>
        refine ⟨rfl, _, h.toScoped.setStage, ?_⟩
        apply simulates_return
        exact fun w h => ⟨_, rfl, h.1, rfl, h.2⟩
      | @scanFails _ _ error =>
        use rfl, fun heap => Scoped db stmt .select heap ∧ heap.error = error
        use ⟨h.toScoped.setStage.setError, rfl⟩
        apply simulates_readRow_error rfl
  | @row _ row rows rest status _ h hrows =>
    use At conn (Standing db stmt row rest status), ⟨hinv, h⟩
    apply simulates_heap (by rintro _ ⟨⟩)
    · intro heap h
      exact ⟨h.prepared, by rw [h.stage]; rintro ⟨⟩, fun hsql => absurd h.sql hsql⟩
    · intro heap a op a' heap' h hdoes
      cases hdoes with
      | write _ hready => cases h.stage.symm.trans hready
      | writeFails _ hready => cases h.stage.symm.trans hready
      | scan _ hready => cases h.stage.symm.trans hready
      | scanNothing _ hready => cases h.stage.symm.trans hready
      | scanFails _ hready => cases h.stage.symm.trans hready
    · intro heap a heap' h hstep
      cases hstep with
      | row hstage =>
        cases h.stage.symm.trans hstage
        refine ⟨_, standing_setStage h.toScoped, ?_⟩
        apply simulates_readColumns hrows
      | done hstage =>
        cases h.stage.symm.trans hstage
        refine ⟨_, h.toScoped.setStage, ?_⟩
        apply simulates_return
        exact fun w h => ⟨_, rfl, h.1, hrows.symm, h.2⟩
      | @error _ _ _ error hstage =>
        cases h.stage.symm.trans hstage
        use fun heap => Scoped db stmt .select heap ∧ heap.error = error
        use ⟨h.toScoped.setStage.setError, rfl⟩
        apply simulates_readRow_error hrows

/-- The loop of `Load`. -/
theorem refines_readRows :
  Refines assume conn (At conn (Bound db stmt .select fun _ => none))
    (Prog.repeatUntil (readRow db stmt) []) ConfigRepository.sqliteStepRows
    fun result answer => At conn (HasRead db stmt result answer)
  := by
  have hloop : Simulates assume conn (At conn (Reading db stmt [] ConfigRepository.sqliteStepRows))
      (Prog.repeatUntil (readRow db stmt) []) ConfigRepository.sqliteStepRows
      fun result q w => ∃ answer, q = .ret answer ∧ At conn (HasRead db stmt result answer) w := by
    apply Lowering.simulates_loop (I := fun values q => At conn (Reading db stmt values q))
    · exact fun _ _ _ _ => At.rely
    · rintro _ _ _ _ hrely ⟨answer, rfl, h⟩
      exact ⟨answer, rfl, h.rely hrely⟩
    · exact simulates_readRow
  exact hloop.mono (fun w h => ⟨h.1, .start h.2⟩) fun _ _ _ => id

theorem refines_load :
  Refines assume conn (At conn (Held db)) (SqliteRepository.load db) ConfigRepository.load
    fun a b => At conn (Same (Held db) a b)
  := by
  apply refines_bind refines_prepare
  rintro _ _ heap (@⟨stmt, _, hbound⟩ | herror)
  · refine ⟨_, hbound, ?_⟩
    apply refines_bind refines_readRows
    rintro _ ⟨rows, status⟩ heap ⟨rfl, h⟩
    refine ⟨_, h, ?_⟩
    apply refines_finalize
    unfold outcome
    dsimp only
    rcases ConfigRepository.collect rows [] with message | values
    · apply refines_same
    · rcases status with message | _
      · apply refines_same
      · apply refines_same
  · refine ⟨_, herror, ?_⟩
    apply refines_same

/-- A statement whose failure is ignored, before an error is returned. -/
theorem refines_rollback {message : Bytes} :
  Refines assume conn (At conn (Held db))
    (execute db (.repository .rollback) >>= fun _ => .ret (.error message))
    (ConfigRepository.execute .rollback >>= fun _ => .ret (.error message))
    fun a b => At conn (Same (Held db) (a : Status) b)
  := by
  apply refines_bind refines_execute
  rintro _ _ heap ⟨-, h⟩
  refine ⟨_, h, ?_⟩
  apply refines_same

theorem refines_save (config : ServerConfig) :
  Refines assume conn (At conn (Held db)) (SqliteRepository.save db config)
    (ConfigRepository.save config) fun a b => At conn (Same (Held db) a b)
  := by
  rw [SqliteRepository.save, ConfigRepository.save]
  rcases config.validate with message | _
  · apply refines_same
  apply refines_bind refines_execute
  rintro status _ heap ⟨rfl, h⟩
  refine ⟨_, h, ?_⟩
  rcases status with message | _
  · apply refines_same
  apply refines_bind (refines_writeEntries (by rintro ⟨⟩) _)
  rintro status _ heap ⟨rfl, h⟩
  refine ⟨_, h, ?_⟩
  rcases status with message | _
  · exact refines_rollback
  apply refines_bind refines_execute
  rintro status _ heap ⟨rfl, h⟩
  refine ⟨_, h, ?_⟩
  rcases status with message | _
  · exact refines_rollback
  · apply refines_same

end SqliteWorld

end OpcuaServer
