import OpcuaServer.Config.ServerConfig
import OpcuaServer.Config.Sqlite

/-!
# The configuration repository

`initializeRepository`, `load` and `save` are programs that issue SQLite calls. They read and write the
thirteen entries of a configuration, a key and a text for each field.
-/

namespace OpcuaServer

/-- A program of the repository. -/
abbrev Repository := Prog SqliteCall SqliteCall.Answer

/-- `struct ConfigEntry`. -/
abbrev ConfigEntry := Bytes × Bytes

/-- The rows read, the first one for each key: `std::unordered_map<std::string, std::string>`. -/
abbrev ConfigValues := List (Bytes × Bytes)

namespace ConfigRepository

open ServerConfig

/-- `ConfigEntriesFrom`. -/
def configEntriesFrom (config : ServerConfig) : List ConfigEntry :=
  [(ascii "server.application_name", config.serverApplicationName),
    (ascii "server.product_uri", config.serverProductUri),
    (ascii "server.bind_address", config.serverBindAddress),
    (ascii "server.port", stdToString config.serverPort),
    (ascii "server.endpoint_path", config.serverEndpointPath),
    (ascii "security.mode", config.securityMode),
    (ascii "security.policy", config.securityPolicy),
    (ascii "limits.max_sessions", stdToString config.maxSessions),
    (ascii "limits.max_subscriptions", stdToString config.maxSubscriptions),
    (ascii "logging.level", config.loggingLevel),
    (ascii "logging.target", config.loggingTarget),
    (ascii "address_space.mode", config.addressSpaceMode),
    (ascii "address_space.path", config.addressSpacePath)]

/-! ### Writing -/

/-- `sqlite3_exec(db, sql)`. -/
def sqliteExec (sql : Sql) : Repository Status :=
  Prog.perform (SqliteCall.exec sql)

/-- `sqlite3_prepare_v2(db, sql)`. -/
def sqlitePrepare (sql : Sql) : Repository Status :=
  Prog.perform (SqliteCall.prepare sql)

/-- `sqlite3_bind_text(stmt, index, value.c_str(), -1)`. -/
def sqliteBindText (index : ℕ) (value : Bytes) : Repository (Result Bytes) :=
  Prog.perform (SqliteCall.bindText index value)

/-- `sqlite3_step(stmt)` of a write whose parameters are bound. -/
def sqliteStepWrite (sql : Sql) (key value : Bytes) : Repository Status :=
  Prog.perform (SqliteCall.stepWrite sql key value)

/-- `sqlite3_step(stmt)` of the `SELECT` until it gives no row. -/
def sqliteStepRows : Repository (List Row × Status) :=
  Prog.perform SqliteCall.stepRows

/-- `SqliteDb::Execute`. -/
def execute (sql : Sql) : Repository Status := do
  match ← sqliteExec sql with
  | .ok () => return Status.okStatus
  | .error message => return .error (ascii "sqlite3_exec failed: " ++ message)

/-- `Statement::Prepare`. -/
def prepare (sql : Sql) : Repository Status := do
  match ← sqlitePrepare sql with
  | .ok () => return Status.okStatus
  | .error message => return .error (ascii "sqlite3_prepare_v2 failed: " ++ message)

/-- `BindText`, with what is bound. -/
def bindText (index : ℕ) (value : Bytes) : Repository (Result Bytes) := do
  match ← sqliteBindText index value with
  | .ok bound => return .ok bound
  | .error message => return .error (ascii "sqlite3_bind_text failed: " ++ message)

/-- The loop of `writeEntries` over the entries that are left. -/
def writeRows (sql : Sql) : List ConfigEntry → Repository Status
  | [] => return Status.okStatus
  | entry :: entries => do
      match ← bindText 1 entry.1 with
      | .error message => return .error message
      | .ok key =>
          match ← bindText 2 entry.2 with
          | .error message => return .error message
          | .ok value =>
              match ← sqliteStepWrite sql key value with
              | .error message => return .error (ascii "sqlite3_step write failed: " ++ message)
              | .ok () => writeRows sql entries

/-- `WriteEntries`. -/
def writeEntries (entries : List ConfigEntry) (sql : Sql) : Repository Status := do
  match ← prepare sql with
  | .error message => return .error message
  | .ok () => writeRows sql entries

/-- `InsertDefaults`. -/
def insertDefaults (entries : List ConfigEntry) : Repository Status :=
  writeEntries entries .insertOrIgnore

/-- `UpsertEntries`. -/
def upsertEntries (entries : List ConfigEntry) : Repository Status :=
  writeEntries entries .upsert

/-! ### Reading -/

/-- `ParseIntValue`. -/
def parseIntValue (values : ConfigValues) (key : Bytes) : Result Int32 :=
  match values.lookup key with
  | none => .error (ascii "missing config key: " ++ key)
  | some text =>
      if text = [] then .error (ascii "invalid integer config value for " ++ key ++ ascii ": empty")
      else
        match stdFromChars text with
        | some (value, []) => .ok value
        | _ => .error (ascii "invalid integer config value for " ++ key ++ ascii ": " ++ text)

/-- `StringValue`. -/
def stringValue (values : ConfigValues) (key : Bytes) : Result Bytes :=
  match values.lookup key with
  | none => .error (ascii "missing config key: " ++ key)
  | some text => .ok text

/-- `PopulateConfig`, with the configuration it fills in. -/
def populateConfig (values : ConfigValues) : Result ServerConfig := do
  let serverApplicationName ← stringValue values (ascii "server.application_name")
  let serverProductUri ← stringValue values (ascii "server.product_uri")
  let serverBindAddress ← stringValue values (ascii "server.bind_address")
  let serverPort ← parseIntValue values (ascii "server.port")
  let serverEndpointPath ← stringValue values (ascii "server.endpoint_path")
  let securityMode ← stringValue values (ascii "security.mode")
  let securityPolicy ← stringValue values (ascii "security.policy")
  let maxSessions ← parseIntValue values (ascii "limits.max_sessions")
  let maxSubscriptions ← parseIntValue values (ascii "limits.max_subscriptions")
  let loggingLevel ← stringValue values (ascii "logging.level")
  let loggingTarget ← stringValue values (ascii "logging.target")
  let addressSpaceMode ← stringValue values (ascii "address_space.mode")
  let addressSpacePath ← stringValue values (ascii "address_space.path")
  return { serverApplicationName, serverProductUri, serverBindAddress, serverPort,
           serverEndpointPath, securityMode, securityPolicy, maxSessions, maxSubscriptions,
           loggingLevel, loggingTarget, addressSpaceMode, addressSpacePath }

/-- `values.emplace(key, value)`. -/
def emplace (values : ConfigValues) (key value : Bytes) : ConfigValues :=
  if (values.lookup key).isSome then values else values ++ [(key, value)]

/-- The loop of `load` over the rows. -/
def collect : List Row → ConfigValues → Result ConfigValues
  | [], values => .ok values
  | row :: rows, values =>
      match row.key, row.value with
      | some key, some value => collect rows (emplace values (cString key) (cString value))
      | _, _ => .error (ascii "config row contained null key or value")

/-- `load` after the rows have been read: `populateConfig` and `validate`. -/
def configFrom (values : ConfigValues) : Result ServerConfig := do
  let config ← populateConfig values
  config.validate
  return config

/-! ### The repository -/

/-- `ConfigRepository::Initialize`. -/
def initializeRepository : Repository Status := do
  match ← execute .createTable with
  | .error message => return .error message
  | .ok () => insertDefaults (configEntriesFrom ServerConfig.default)

/-- `ConfigRepository::Load`. -/
def load : Repository (Result ServerConfig) := do
  match ← prepare .select with
  | .error message => return .error message
  | .ok () =>
      let (rows, status) ← sqliteStepRows
      match collect rows [] with
      | .error message => return .error message
      | .ok values =>
          match status with
          | .error message => return .error (ascii "sqlite3_step select failed: " ++ message)
          | .ok () => return configFrom values

/-- `ConfigRepository::Save`. -/
def save (config : ServerConfig) : Repository Status := do
  match config.validate with
  | .error message => return .error message
  | .ok () =>
      match ← execute .beginImmediate with
      | .error message => return .error message
      | .ok () =>
          match ← upsertEntries (configEntriesFrom config) with
          | .error message =>
              let _ ← execute .rollback
              return .error message
          | .ok () =>
              match ← execute .commit with
              | .error message =>
                  let _ ← execute .rollback
                  return .error message
              | .ok () => return Status.okStatus

end ConfigRepository

end OpcuaServer
