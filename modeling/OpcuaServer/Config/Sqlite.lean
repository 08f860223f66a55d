import OpcuaServer.Common.Result
import OpcuaServer.Library.KeyedTable
import OpcuaServer.Library.Program

/-!
# SQLite as the repository uses it

The calls that the repository makes, and what they do to a database with a table `config` and at
most one open write transaction. A call either succeeds, as a function of the database, or it
fails, and then the transaction of its connection is rolled back or left as it is.
-/

namespace OpcuaServer

/-- The statements of the repository. -/
inductive Sql where
  /-- `CREATE TABLE IF NOT EXISTS config(key TEXT PRIMARY KEY, value TEXT NOT NULL);` -/
  | createTable
  /-- `INSERT OR IGNORE INTO config(key, value) VALUES(?, ?);` -/
  | insertOrIgnore
  /-- `INSERT INTO config(key, value) VALUES(?, ?) ON CONFLICT(key) DO UPDATE SET
  value=excluded.value;` -/
  | upsert
  /-- `SELECT key, value FROM config;` -/
  | select
  /-- `BEGIN IMMEDIATE;` -/
  | beginImmediate
  /-- `COMMIT;` -/
  | commit
  /-- `ROLLBACK;` -/
  | rollback
  deriving DecidableEq

/-- The columns of a row as `sqlite3_column_text` gives them, `none` for a null pointer. -/
structure Row where
  key : Option Bytes
  value : Option Bytes

/-- A row of texts. -/
def Row.ofTexts (row : Bytes × Bytes) : Row :=
  ⟨some row.1, some row.2⟩

/-- The calls of the repository. A failed call answers with the message of `sqlite3_errmsg`. -/
inductive SqliteCall where
  /-- `sqlite3_exec` -/
  | exec (sql : Sql)
  /-- `sqlite3_prepare_v2` -/
  | prepare (sql : Sql)
  /-- `sqlite3_bind_text` of a C string, with length `-1`; it answers with what is bound. -/
  | bindText (index : ℕ) (value : Bytes)
  /-- `sqlite3_step` of a prepared write with its two parameters. -/
  | stepWrite (sql : Sql) (key value : Bytes)
  /-- `sqlite3_step` of the prepared `SELECT` until it gives no row; it answers with the rows and
  with how it ended. -/
  | stepRows

/-- The answer of a call. -/
@[reducible]
def SqliteCall.Answer : SqliteCall → Type
  | .exec _ => Status
  | .prepare _ => Status
  | .bindText _ _ => Result Bytes
  | .stepWrite _ _ _ => Status
  | .stepRows => List Row × Status

/-- The rows of the table `config`, with `key` as the primary key. -/
abbrev Table := KeyedTable Bytes Bytes

/-- What a prepared write does to the table. -/
def Sql.write (sql : Sql) (table : Table) (key value : Bytes) : Table :=
  match sql with
  | .insertOrIgnore => table.insertIfAbsent key value
  | .upsert => table.upsert key value
  | _ => table

/-- A database with the connections `Conn`: the committed rows of the table, where it has been
created, and the open write transaction, with its connection and the rows as it has written them. -/
structure Database (Conn : Type) where
  committed : Option Table
  transaction : Option (Conn × Option Table)

/-- What is assumed of SQLite where its users differ. -/
structure Assumptions where
  /-- `ROLLBACK` of an open transaction ends it even where it fails. -/
  rollbackEnds : Bool
  /-- `SELECT` reads committed rows even inside of an open transaction. -/
  selectsCommitted : Bool

namespace Database

variable {Conn : Type} [DecidableEq Conn]

/-- The rows that a connection sees. -/
def view (db : Database Conn) (conn : Conn) : Option Table :=
  match db.transaction with
  | none => db.committed
  | some (writer, table) => if writer = conn then table else db.committed

/-- Write to the table, in the open transaction of the connection or on its own. While another
connection has a transaction the database is busy. -/
def write (db : Database Conn) (conn : Conn) (f : Option Table → Option Table) :
    Option (Database Conn) :=
  match db.transaction with
  | none => some { db with committed := f db.committed }
  | some (writer, table) =>
      if writer = conn then some { db with transaction := some (conn, f table) } else none

/-- Discard the open transaction of a connection, if it has one. -/
def rollback (db : Database Conn) (conn : Conn) : Database Conn :=
  match db.transaction with
  | none => db
  | some (writer, _) => if writer = conn then { db with transaction := none } else db

/-- What a call that succeeds answers and what it does, where it can succeed. -/
def answer (assume : Assumptions) (conn : Conn) (db : Database Conn) :
    (call : SqliteCall) → Option (call.Answer × Database Conn)
  | .exec .createTable =>
      if (db.view conn).isSome then some (.ok (), db)
      else (db.write conn fun _ => some .empty).map fun db => (.ok (), db)
  | .exec .beginImmediate =>
      match db.transaction with
      | none => some (.ok (), { db with transaction := some (conn, db.committed) })
      | some _ => none
  | .exec .commit =>
      match db.transaction with
      | none => none
      | some (writer, table) =>
          if writer = conn then some (.ok (), { committed := table, transaction := none }) else none
  | .exec .rollback =>
      match db.transaction with
      | none => none
      | some (writer, _) =>
          if writer = conn then some (.ok (), { db with transaction := none }) else none
  | .exec _ => none
  | .prepare _ => if (db.view conn).isSome then some (.ok (), db) else none
  | .bindText _ value => some (.ok (cString value), db)
  | .stepWrite sql key value =>
      match db.view conn with
      | none => none
      | some _ =>
          (db.write conn (Option.map fun table => sql.write table key value)).map
            fun db => (.ok (), db)
  | .stepRows =>
      (if assume.selectsCommitted then db.committed else db.view conn).map fun table =>
        ((table.rows.map Row.ofTexts, .ok ()), db)

/-- A call that succeeds. The rows of a `SELECT` come in any order. -/
inductive Succeeds (assume : Assumptions) (conn : Conn) :
    (call : SqliteCall) → Database Conn → call.Answer → Database Conn → Prop where
  | answer {call : SqliteCall} {db db' : Database Conn} {a : call.Answer} :
      db.answer assume conn call = some (a, db') → Succeeds assume conn call db a db'
  | scan {db db' : Database Conn} {rows rows' : List Row} :
      db.answer assume conn .stepRows = some ((rows, .ok ()), db') → rows'.Perm rows →
      Succeeds assume conn .stepRows db (rows', .ok ()) db'

/-- The answer of a call that has failed: an error, or a null pointer for a column. -/
def Failed : (call : SqliteCall) → call.Answer → Prop
  | .exec _, status => ∃ message, status = .error message
  | .prepare _, status => ∃ message, status = .error message
  | .bindText _ _, result => ∃ message, result = .error message
  | .stepWrite _ _ _, status => ∃ message, status = .error message
  | .stepRows, (rows, status) =>
      (∃ message, status = .error message) ∨ ∃ row ∈ rows, row.key = none ∨ row.value = none

/-- A call that fails. It has no effect, or SQLite rolls back the transaction of the connection. -/
def Fails (assume : Assumptions) (conn : Conn) (call : SqliteCall) (db : Database Conn)
    (a : call.Answer) (db' : Database Conn) : Prop :=
  Failed call a ∧
    (db' = db.rollback conn ∨ db' = db ∧ (assume.rollbackEnds → call ≠ .exec .rollback))

/-- A call that succeeds or fails. -/
def Calls (assume : Assumptions) (conn : Conn) (call : SqliteCall) (db : Database Conn)
    (a : call.Answer) (db' : Database Conn) : Prop :=
  Succeeds assume conn call db a db' ∨ Fails assume conn call db a db'

end Database

end OpcuaServer
