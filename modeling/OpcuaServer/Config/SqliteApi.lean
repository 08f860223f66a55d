import OpcuaServer.Config.ConfigSystem
import OpcuaServer.Library.Handles

/-!
# The C interface of SQLite

`SqliteDb`, `Statement` and `ConfigRepository` with the calls of the C interface that they make. The
objects that these obtain are connections, prepared statements and error messages, which are
released when they go out of scope.
-/

namespace OpcuaServer

/-- The statements that are executed. -/
inductive ExecSql where
  /-- `PRAGMA journal_mode=WAL;` -/
  | journalModeWal
  /-- `PRAGMA foreign_keys=ON;` -/
  | foreignKeysOn
  /-- A statement of the repository. -/
  | repository (sql : Sql)

/-- A `sqlite3*` that is not null. -/
abbrev Sqlite3 := ℕ

/-- A `sqlite3_stmt*` that is not null. -/
abbrev Sqlite3Stmt := ℕ

/-- A `char*` with an error message, and the message. -/
structure ErrorMessage where
  pointer : ℕ
  text : Bytes

/-- What `sqlite3_step` returns. -/
inductive StepResult where
  /-- `SQLITE_ROW` -/
  | row
  /-- `SQLITE_DONE` -/
  | done
  /-- Any other code. -/
  | error

/-- The calls of the C interface. -/
inductive Sqlite3Call where
  /-- `sqlite3_open` -/
  | openDb (path : Bytes)
  /-- `sqlite3_busy_timeout` -/
  | busyTimeout (db : Sqlite3) (milliseconds : ℕ)
  /-- `sqlite3_exec` without a callback. -/
  | exec (db : Sqlite3) (sql : ExecSql)
  /-- `sqlite3_free` of an error message. -/
  | free (message : Option ErrorMessage)
  /-- `sqlite3_errmsg` -/
  | errmsg (db : Sqlite3)
  /-- `sqlite3_prepare_v2` -/
  | prepareV2 (db : Sqlite3) (sql : Sql)
  /-- `sqlite3_reset` -/
  | reset (stmt : Sqlite3Stmt)
  /-- `sqlite3_clear_bindings` -/
  | clearBindings (stmt : Sqlite3Stmt)
  /-- `sqlite3_bind_text` of a C string, with length `-1`, which is copied. -/
  | bindText (stmt : Sqlite3Stmt) (index : ℕ) (value : Bytes)
  /-- `sqlite3_step` -/
  | step (stmt : Sqlite3Stmt)
  /-- `sqlite3_column_text` -/
  | columnText (stmt : Sqlite3Stmt) (column : ℕ)
  /-- `sqlite3_finalize` -/
  | finalize (stmt : Sqlite3Stmt)
  /-- `sqlite3_close` -/
  | close (db : Sqlite3)

/-- The answer of a call, where a `Bool` is whether a call has returned `SQLITE_OK`. A connection that
cannot be opened can be an object that has to be closed, and a statement that cannot be executed can
have an error message. -/
@[reducible]
def Sqlite3Call.Answer : Sqlite3Call → Type
  | .openDb _ => Except (Option Sqlite3) Sqlite3
  | .busyTimeout _ _ => Bool
  | .exec _ _ => Except (Option ErrorMessage) Unit
  | .free _ => Unit
  | .errmsg _ => Bytes
  | .prepareV2 _ _ => Option Sqlite3Stmt
  | .reset _ | .clearBindings _ => Unit
  | .bindText _ _ _ => Bool
  | .step _ => StepResult
  | .columnText _ _ => Option Bytes
  | .finalize _ | .close _ => Unit

/-- A program that makes calls of the C interface. -/
abbrev Sqlite3Prog := Prog Sqlite3Call Sqlite3Call.Answer

namespace SqliteDb

/-- Make a call. -/
def perform (call : Sqlite3Call) : Sqlite3Prog call.Answer :=
  Prog.perform call

/-- `SqliteError` -/
def sqliteError (db : Sqlite3) (action : Bytes) : Sqlite3Prog Bytes := do
  return action ++ ascii ": " ++ (← perform (.errmsg db))

/-- `SqliteDb::Execute` -/
def execute (db : Sqlite3) (sql : ExecSql) : Sqlite3Prog Status := do
  match ← perform (.exec db sql) with
  | .ok () => return Status.okStatus
  | .error errorMessage =>
      let message ← match errorMessage with
        | none => perform (.errmsg db)
        | some message => pure message.text
      perform (.free errorMessage)
      return .error (ascii "sqlite3_exec failed: " ++ message)

/-- The destructor of a `SqliteDb` that has not been moved from. -/
def destroy (db : Sqlite3) : Sqlite3Prog Unit :=
  perform (.close db)

/-- The part of `Open` after the `SqliteDb` has been constructed. -/
def configure (db : Sqlite3) : Sqlite3Prog Status := do
  if !(← perform (.busyTimeout db 5000)) then
    return .error (← sqliteError db (ascii "sqlite3_busy_timeout failed"))
  match ← execute db .journalModeWal with
  | .error message => return .error message
  | .ok () => execute db .foreignKeysOn

/-- `SqliteDb::Open`, with the connection that is moved out of it. -/
def openDb (path : Bytes) : Sqlite3Prog (Result Sqlite3) := do
  match ← perform (.openDb (cString path)) with
  | .error none => return .error (ascii "sqlite3_open failed")
  | .error (some db) =>
      let message ← sqliteError db (ascii "sqlite3_open failed")
      perform (.close db)
      return .error message
  | .ok db =>
      match ← configure db with
      | .error message =>
          destroy db
          return .error message
      | .ok () => return .ok db

end SqliteDb

namespace Statement

open SqliteDb

/-- `Statement::Prepare` -/
def prepare (db : Sqlite3) (sql : Sql) : Sqlite3Prog (Result Sqlite3Stmt) := do
  match ← perform (.prepareV2 db sql) with
  | none => return .error (ascii "sqlite3_prepare_v2 failed: " ++ (← perform (.errmsg db)))
  | some stmt => return .ok stmt

/-- `Statement::Finalize`, which the destructor calls. -/
def finalize (stmt : Sqlite3Stmt) : Sqlite3Prog Unit :=
  perform (.finalize stmt)

/-- `BindText` -/
def bindText (db : Sqlite3) (stmt : Sqlite3Stmt) (index : ℕ) (value : Bytes) :
    Sqlite3Prog Status := do
  if !(← perform (.bindText stmt index value)) then
    return .error (ascii "sqlite3_bind_text failed: " ++ (← perform (.errmsg db)))
  return Status.okStatus

/-- The loop of `WriteEntries` over the entries that are left. -/
def writeRows (db : Sqlite3) (stmt : Sqlite3Stmt) : List ConfigEntry → Sqlite3Prog Status
  | [] => return Status.okStatus
  | entry :: entries => do
      perform (.reset stmt)
      perform (.clearBindings stmt)
      match ← bindText db stmt 1 entry.1 with
      | .error message => return .error message
      | .ok () =>
          match ← bindText db stmt 2 entry.2 with
          | .error message => return .error message
          | .ok () =>
              match ← perform (.step stmt) with
              | .done => writeRows db stmt entries
              | .row | .error =>
                  return .error (ascii "sqlite3_step write failed: " ++ (← perform (.errmsg db)))

/-- `WriteEntries` -/
def writeEntries (db : Sqlite3) (entries : List ConfigEntry) (sql : Sql) : Sqlite3Prog Status := do
  match ← prepare db sql with
  | .error message => return .error message
  | .ok stmt =>
      let status ← writeRows db stmt entries
      finalize stmt
      return status

/-- The part of an iteration of the loop of `Load` where there is a row, with the values read so
far. -/
def readColumns (stmt : Sqlite3Stmt) (values : ConfigValues) :
    Sqlite3Prog (ConfigValues ⊕ Result ConfigValues) := do
  let keyText ← perform (.columnText stmt 0)
  let valueText ← perform (.columnText stmt 1)
  match keyText, valueText with
  | some key, some value =>
      return .inl (ConfigRepository.emplace values (cString key) (cString value))
  | _, _ => return .inr (.error (ascii "config row contained null key or value"))

/-- One iteration of the loop of `Load`. -/
def readRow (db : Sqlite3) (stmt : Sqlite3Stmt) (values : ConfigValues) :
    Sqlite3Prog (ConfigValues ⊕ Result ConfigValues) := do
  match ← perform (.step stmt) with
  | .done => return .inr (.ok values)
  | .error =>
      return .inr (.error (ascii "sqlite3_step select failed: " ++ (← perform (.errmsg db))))
  | .row => readColumns stmt values

end Statement

namespace SqliteRepository

open SqliteDb Statement ConfigRepository

/-- `ConfigRepository::Initialize` -/
def initializeRepository (db : Sqlite3) : Sqlite3Prog Status := do
  match ← execute db (.repository .createTable) with
  | .error message => return .error message
  | .ok () => writeEntries db (configEntriesFrom ServerConfig.default) .insertOrIgnore

/-- `ConfigRepository::Load` -/
def load (db : Sqlite3) : Sqlite3Prog (Result ServerConfig) := do
  match ← prepare db .select with
  | .error message => return .error message
  | .ok stmt =>
      let values ← Prog.repeatUntil (readRow db stmt) []
      finalize stmt
      return values >>= configFrom

/-- `ConfigRepository::Save` -/
def save (db : Sqlite3) (config : ServerConfig) : Sqlite3Prog Status := do
  match config.validate with
  | .error message => return .error message
  | .ok () =>
      match ← execute db (.repository .beginImmediate) with
      | .error message => return .error message
      | .ok () =>
          match ← writeEntries db (configEntriesFrom config) .upsert with
          | .error message =>
              let _ ← execute db (.repository .rollback)
              return .error message
          | .ok () =>
              match ← execute db (.repository .commit) with
              | .error message =>
                  let _ ← execute db (.repository .rollback)
                  return .error message
              | .ok () => return Status.okStatus

/-! ### Clients -/

/-- A client that makes calls of the C interface. -/
abbrev Sqlite3Client :=
  Prog (Sqlite3Call ⊕ ClientCall) (Sum.elim Sqlite3Call.Answer ClientCall.Answer)

/-- A request returns. -/
def report (reply : Reply) : Sqlite3Client Unit :=
  Prog.perform (Sum.inr (ClientCall.report reply))

/-- One iteration of a client: a request. -/
def serve (db : Sqlite3) (_ : Unit) : Sqlite3Client (Unit ⊕ Unit) := do
  match ← (Prog.perform (Sum.inr ClientCall.nextRequest) : Sqlite3Client (Option Request)) with
  | none => return .inr ()
  | some .load =>
      report (.loaded (← (load db).lift))
      return .inl ()
  | some (.save config) =>
      report (.saved (← (save db config).lift))
      return .inl ()

/-- A client that opens the repository, and closes it when it has no more requests. -/
def client (path : Bytes) : Sqlite3Client Unit := do
  match ← (openDb path).lift with
  | .error _ => return ()
  | .ok db =>
      report (.initialized (← (initializeRepository db).lift))
      Prog.repeatUntil (serve db) ()
      (destroy db).lift

end SqliteRepository

end OpcuaServer
