import OpcuaServer.Config.SnapshotContract
import OpcuaServer.Config.SqliteApi

/-!
# Objects of the C interface

What the calls of the C interface do to the objects of a process and to the database, and which
calls a process may make: it uses objects that it has not released, executes a statement once after
it has been reset and bound, reads a column where there is a row, and closes a connection when
everything else has been released.
-/

namespace OpcuaServer

/-- The objects that a process obtains. -/
inductive SqliteObject where
  | connection
  | statement (db : Sqlite3)
  | message

/-- Where the execution of a prepared statement is. -/
inductive StatementStage where
  /-- It has not been stepped since it was reset. -/
  | ready
  /-- It stands at a row; these rows are left, and then it ends so. -/
  | row (row : Row) (rest : List Row) (status : Status)
  /-- It has ended. -/
  | halted

/-- A prepared statement. -/
structure PreparedStatement where
  sql : Sql
  /-- What has been bound to the parameters. -/
  parameter : ℕ → Option Bytes := fun _ => none
  stage : StatementStage := .ready

/-- The objects of a process. -/
structure SqliteHeap where
  objects : Handles SqliteObject := []
  /-- The prepared statement of a pointer. -/
  statement : Sqlite3Stmt → PreparedStatement := fun _ => { sql := .select }
  /-- The message of the last call that has failed. -/
  error : Bytes := []

namespace SqliteHeap

/-- An object is obtained. -/
def obtain (heap : SqliteHeap) (pointer : ℕ) (object : SqliteObject) : SqliteHeap :=
  { heap with objects := ⟨pointer, object, 0⟩ :: heap.objects }

/-- The object of a pointer is released. -/
def release (heap : SqliteHeap) (pointer : ℕ) : SqliteHeap :=
  { heap with objects := heap.objects.close pointer }

/-- A prepared statement changes. -/
def setStatement (heap : SqliteHeap) (stmt : Sqlite3Stmt) (statement : PreparedStatement) :
    SqliteHeap :=
  { heap with statement := Function.update heap.statement stmt statement }

/-- The stage of a prepared statement changes. -/
def setStage (heap : SqliteHeap) (stmt : Sqlite3Stmt) (stage : StatementStage) : SqliteHeap :=
  heap.setStatement stmt { heap.statement stmt with stage }

/-- A call has failed. -/
def setError (heap : SqliteHeap) (error : Bytes) : SqliteHeap :=
  { heap with error }

/-- The connection has a statement that has not been finalized. -/
def Busy (heap : SqliteHeap) (db : Sqlite3) : Prop :=
  ∃ stmt, heap.objects.Refers stmt (.statement db)

/-- What a call does that does not concern the database. -/
inductive Step : (call : Sqlite3Call) → SqliteHeap → call.Answer → SqliteHeap → Prop where
  | opens {path : Bytes} {heap : SqliteHeap} {db : Sqlite3} :
      ¬ heap.objects.IsOpen db → Step (.openDb path) heap (.ok db) (heap.obtain db .connection)
  | opensNothing {path : Bytes} {heap : SqliteHeap} :
      Step (.openDb path) heap (.error none) heap
  /-- The connection cannot be used, but it has to be closed. -/
  | opensBroken {path error : Bytes} {heap : SqliteHeap} {db : Sqlite3} :
      ¬ heap.objects.IsOpen db →
      Step (.openDb path) heap (.error (some db)) ((heap.obtain db .connection).setError error)
  | busyTimeout {db : Sqlite3} {milliseconds : ℕ} {heap : SqliteHeap} :
      Step (.busyTimeout db milliseconds) heap true heap
  | busyTimeoutFails {db : Sqlite3} {milliseconds : ℕ} {heap : SqliteHeap} {error : Bytes} :
      Step (.busyTimeout db milliseconds) heap false (heap.setError error)
  | pragma {db : Sqlite3} {sql : ExecSql} {heap : SqliteHeap} :
      (∀ sql', sql ≠ .repository sql') → Step (.exec db sql) heap (.ok ()) heap
  | pragmaFails {db : Sqlite3} {sql : ExecSql} {heap : SqliteHeap} {error : Bytes} :
      (∀ sql', sql ≠ .repository sql') → Step (.exec db sql) heap (.error none) (heap.setError error)
  | pragmaFailsWith {db : Sqlite3} {sql : ExecSql} {heap : SqliteHeap} {message : ErrorMessage} :
      (∀ sql', sql ≠ .repository sql') → ¬ heap.objects.IsOpen message.pointer →
      Step (.exec db sql) heap (.error (some message))
        ((heap.obtain message.pointer .message).setError message.text)
  | freeNull {heap : SqliteHeap} : Step (.free none) heap () heap
  | free {heap : SqliteHeap} {message : ErrorMessage} :
      Step (.free (some message)) heap () (heap.release message.pointer)
  | errmsg {db : Sqlite3} {heap : SqliteHeap} : Step (.errmsg db) heap heap.error heap
  | reset {stmt : Sqlite3Stmt} {heap : SqliteHeap} :
      Step (.reset stmt) heap () (heap.setStage stmt .ready)
  | clearBindings {stmt : Sqlite3Stmt} {heap : SqliteHeap} :
      Step (.clearBindings stmt) heap ()
        (heap.setStatement stmt { heap.statement stmt with parameter := fun _ => none })
  /-- The next row. -/
  | row {stmt : Sqlite3Stmt} {heap : SqliteHeap} {row next : Row} {rest : List Row}
      {status : Status} :
      (heap.statement stmt).stage = .row row (next :: rest) status →
      Step (.step stmt) heap .row (heap.setStage stmt (.row next rest status))
  | done {stmt : Sqlite3Stmt} {heap : SqliteHeap} {row : Row} :
      (heap.statement stmt).stage = .row row [] (.ok ()) →
      Step (.step stmt) heap .done (heap.setStage stmt .halted)
  | error {stmt : Sqlite3Stmt} {heap : SqliteHeap} {row : Row} {error : Bytes} :
      (heap.statement stmt).stage = .row row [] (.error error) →
      Step (.step stmt) heap .error ((heap.setStage stmt .halted).setError error)
  | columnText {stmt : Sqlite3Stmt} {column : ℕ} {heap : SqliteHeap} {row : Row} {rest : List Row}
      {status : Status} :
      (heap.statement stmt).stage = .row row rest status →
      Step (.columnText stmt column) heap (if column = 0 then row.key else row.value) heap
  | finalize {stmt : Sqlite3Stmt} {heap : SqliteHeap} :
      Step (.finalize stmt) heap () (heap.release stmt)
  /-- The connection stays open. -/
  | closeBusy {db : Sqlite3} {heap : SqliteHeap} : heap.Busy db → Step (.close db) heap () heap

/-- What a call does that makes the database do something, and be answered so. -/
inductive Does : (call : Sqlite3Call) → SqliteHeap → call.Answer → (op : SqliteCall) → op.Answer →
    SqliteHeap → Prop where
  | exec {db : Sqlite3} {sql : Sql} {heap : SqliteHeap} :
      Does (.exec db (.repository sql)) heap (.ok ()) (.exec sql) (.ok ()) heap
  | execFails {db : Sqlite3} {sql : Sql} {heap : SqliteHeap} {error : Bytes} :
      Does (.exec db (.repository sql)) heap (.error none) (.exec sql) (.error error)
        (heap.setError error)
  | execFailsWith {db : Sqlite3} {sql : Sql} {heap : SqliteHeap} {message : ErrorMessage} :
      ¬ heap.objects.IsOpen message.pointer →
      Does (.exec db (.repository sql)) heap (.error (some message)) (.exec sql)
        (.error message.text) ((heap.obtain message.pointer .message).setError message.text)
  | prepare {db : Sqlite3} {sql : Sql} {heap : SqliteHeap} {stmt : Sqlite3Stmt} :
      ¬ heap.objects.IsOpen stmt →
      Does (.prepareV2 db sql) heap (some stmt) (.prepare sql) (.ok ())
        ((heap.obtain stmt (.statement db)).setStatement stmt { sql })
  | prepareFails {db : Sqlite3} {sql : Sql} {heap : SqliteHeap} {error : Bytes} :
      Does (.prepareV2 db sql) heap none (.prepare sql) (.error error) (heap.setError error)
  | bindText {stmt : Sqlite3Stmt} {index : ℕ} {value bound : Bytes} {heap : SqliteHeap} :
      Does (.bindText stmt index value) heap true (.bindText index value) (.ok bound)
        (heap.setStatement stmt { heap.statement stmt with
          parameter := Function.update (heap.statement stmt).parameter index (some bound) })
  | bindTextFails {stmt : Sqlite3Stmt} {index : ℕ} {value error : Bytes} {heap : SqliteHeap} :
      Does (.bindText stmt index value) heap false (.bindText index value) (.error error)
        (heap.setError error)
  /-- A write is executed with its parameters. -/
  | write {stmt : Sqlite3Stmt} {key value : Bytes} {heap : SqliteHeap} :
      (heap.statement stmt).sql ≠ .select → (heap.statement stmt).stage = .ready →
      (heap.statement stmt).parameter 1 = some key →
      (heap.statement stmt).parameter 2 = some value →
      Does (.step stmt) heap .done (.stepWrite (heap.statement stmt).sql key value) (.ok ())
        (heap.setStage stmt .halted)
  | writeFails {stmt : Sqlite3Stmt} {key value error : Bytes} {heap : SqliteHeap} :
      (heap.statement stmt).sql ≠ .select → (heap.statement stmt).stage = .ready →
      (heap.statement stmt).parameter 1 = some key →
      (heap.statement stmt).parameter 2 = some value →
      Does (.step stmt) heap .error (.stepWrite (heap.statement stmt).sql key value) (.error error)
        ((heap.setStage stmt .halted).setError error)
  /-- The rows of a `SELECT` are those that it has when it is first stepped. -/
  | scan {stmt : Sqlite3Stmt} {heap : SqliteHeap} {row : Row} {rest : List Row} {status : Status} :
      (heap.statement stmt).sql = .select → (heap.statement stmt).stage = .ready →
      Does (.step stmt) heap .row .stepRows (row :: rest, status)
        (heap.setStage stmt (.row row rest status))
  | scanNothing {stmt : Sqlite3Stmt} {heap : SqliteHeap} :
      (heap.statement stmt).sql = .select → (heap.statement stmt).stage = .ready →
      Does (.step stmt) heap .done .stepRows ([], .ok ()) (heap.setStage stmt .halted)
  | scanFails {stmt : Sqlite3Stmt} {heap : SqliteHeap} {error : Bytes} :
      (heap.statement stmt).sql = .select → (heap.statement stmt).stage = .ready →
      Does (.step stmt) heap .error .stepRows ([], .error error)
        ((heap.setStage stmt .halted).setError error)

/-- The pointer is that of a statement that has not been finalized, of a connection that has not been
closed. -/
def Prepared (heap : SqliteHeap) (stmt : Sqlite3Stmt) : Prop :=
  ∃ db, heap.objects.Refers stmt (.statement db) ∧ heap.objects.Refers db .connection

/-- What the calls may be made for. -/
def Permits (heap : SqliteHeap) : Sqlite3Call → Prop
  | .openDb _ | .free none => True
  | .busyTimeout db _ | .exec db _ | .errmsg db | .prepareV2 db _ =>
      heap.objects.Refers db .connection
  | .free (some message) => heap.objects.Refers message.pointer .message
  | .reset stmt | .clearBindings stmt | .finalize stmt => heap.Prepared stmt
  | .bindText stmt index _ => heap.Prepared stmt ∧ (heap.statement stmt).stage = .ready ∧
      (heap.statement stmt).sql ≠ .select ∧ (index = 1 ∨ index = 2)
  | .step stmt => heap.Prepared stmt ∧ (heap.statement stmt).stage ≠ .halted ∧
      ((heap.statement stmt).sql ≠ .select → (heap.statement stmt).stage = .ready ∧
        ∀ index, index = 1 ∨ index = 2 → ((heap.statement stmt).parameter index).isSome)
  | .columnText stmt column => heap.Prepared stmt ∧ (column = 0 ∨ column = 1) ∧
      ∃ row rest status, (heap.statement stmt).stage = .row row rest status
  | .close db => heap.objects.Sole db .connection

end SqliteHeap

/-! ### The system -/

/-- The database and what has happened to it, and the objects of the processes. -/
structure SqliteWorld (Conn : Type) where
  world : World Conn
  heap : Conn → SqliteHeap

namespace SqliteWorld

variable {Conn : Type} [DecidableEq Conn]

/-- The objects of a process change. -/
def setHeap (w : SqliteWorld Conn) (conn : Conn) (heap : SqliteHeap) : SqliteWorld Conn :=
  { w with heap := Function.update w.heap conn heap }

/-- What the calls of the process of a connection do. -/
inductive Step (assume : Assumptions) (conn : Conn) :
    (call : Sqlite3Call ⊕ ClientCall) → SqliteWorld Conn →
      Sum.elim Sqlite3Call.Answer ClientCall.Answer call → SqliteWorld Conn → Prop where
  | heap {call : Sqlite3Call} {w : SqliteWorld Conn} {a : call.Answer} {heap : SqliteHeap} :
      (w.heap conn).Step call a heap → Step assume conn (.inl call) w a (w.setHeap conn heap)
  | database {call : Sqlite3Call} {w : SqliteWorld Conn} {a : call.Answer} {op : SqliteCall}
      {a' : op.Answer} {heap : SqliteHeap} {world : World Conn} :
      (w.heap conn).Does call a op a' heap → World.Step assume conn (.inl op) w.world a' world →
      Step assume conn (.inl call) w a { w.setHeap conn heap with world }
  /-- A connection is closed, and its transaction is lost. -/
  | close {db : Sqlite3} {w : SqliteWorld Conn} :
      ¬ (w.heap conn).Busy db →
      Step assume conn (.inl (.close db)) w ()
        { w.setHeap conn ((w.heap conn).release db) with world := w.world.lose conn }
  | client {call : ClientCall} {w : SqliteWorld Conn} {a : call.Answer} {world : World Conn} :
      World.Step assume conn (.inr call) w.world a world →
      Step assume conn (.inr call) w a { w with world }

end SqliteWorld

variable {Conn : Type} [DecidableEq Conn]

/-- The processes of clients, which can die. -/
def sqliteClients (assume : Assumptions) :
    Threads.System Conn (Sqlite3Call ⊕ ClientCall) (Sum.elim Sqlite3Call.Answer ClientCall.Answer)
      (SqliteWorld Conn) where
  step conn := SqliteWorld.Step assume conn
  env _ _ := False
  halt conn w w' := w' = { w.setHeap conn {} with world := w.world.lose conn }

/-- The clients before they have started. -/
def sqliteClientsStart (path : Conn → Bytes) :
    Threads.Config Conn (Sqlite3Call ⊕ ClientCall) (Sum.elim Sqlite3Call.Answer ClientCall.Answer)
      (SqliteWorld Conn) where
  progs conn := SqliteRepository.client (path conn)
  world := { world := .start, heap := fun _ => {} }

end OpcuaServer
