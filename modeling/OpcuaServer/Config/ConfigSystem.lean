import OpcuaServer.Config.RepositoryRuns
import OpcuaServer.Library.Threads

/-!
# Connections to one database

Any number of connections, each with a client that initializes the repository and then loads and
saves, in any interleaving of their SQLite calls. A call can fail, and a process can die between
two calls.
-/

namespace OpcuaServer

open ServerConfig ConfigRepository

/-- What a client asks for after it has initialized the repository. -/
inductive Request where
  | load
  | save (config : ServerConfig)

/-- What a client is answered. -/
inductive Reply where
  | initialized (status : Status)
  | loaded (result : Result ServerConfig)
  | saved (status : Status)

/-- The calls of a client beside those of the repository. -/
inductive ClientCall where
  /-- The next request, `none` when the client closes its connection. -/
  | nextRequest
  /-- A request returns. -/
  | report (reply : Reply)

/-- The answer of a call of a client. -/
@[reducible]
def ClientCall.Answer : ClientCall → Type
  | .nextRequest => Option Request
  | .report _ => Unit

/-- A program that makes calls of the repository and of a client. -/
abbrev Client := Prog (SqliteCall ⊕ ClientCall) (Sum.elim SqliteCall.Answer ClientCall.Answer)

namespace Client

/-- A request returns. -/
def report (reply : Reply) : Client Unit :=
  Prog.perform (Sum.inr (ClientCall.report reply))

/-- The next request. -/
def nextRequest : Client (Option Request) :=
  Prog.perform (Sum.inr ClientCall.nextRequest)

/-- One iteration of a client: a request. -/
def serve (_ : Unit) : Client (Unit ⊕ Unit) := do
  match ← nextRequest with
  | none => return .inr ()
  | some .load =>
      report (.loaded (← load.lift))
      return .inl ()
  | some (.save config) =>
      report (.saved (← (save config).lift))
      return .inl ()

/-- A client. -/
def run : Client Unit := do
  report (.initialized (← initializeRepository.lift))
  Prog.repeatUntil serve ()

end Client

/-! ### The system -/

/-- The database, and what has happened to it. -/
structure World (Conn : Type) where
  db : Database Conn
  /-- The argument of the last `save` that has been committed. -/
  saved : Option ServerConfig
  /-- The last request of each connection. -/
  request : Conn → Option Request
  /-- The argument of the last `save` that had been committed when the connection last read the
  rows, if it has read them since its last request. -/
  snapshot : Conn → Option (Option ServerConfig)
  /-- Initializing has returned ok on the connection. -/
  ready : Conn → Prop
  /-- A call has failed in the last request of the connection. -/
  failed : Conn → Prop

namespace World

variable {Conn : Type} [DecidableEq Conn]

/-- The world before anything has happened: a database without a table. -/
def start : World Conn where
  db := { committed := none, transaction := none }
  saved := none
  request := fun _ => none
  snapshot := fun _ => none
  ready := fun _ => False
  failed := fun _ => False

/-- The configuration that the connection is saving. -/
def saving (w : World Conn) (conn : Conn) : Option ServerConfig :=
  match w.request conn with
  | some (.save config) => some config
  | _ => none

/-- A call of the repository that has succeeded. -/
def succeed (w : World Conn) (conn : Conn) (call : SqliteCall) (db : Database Conn) : World Conn :=
  match call with
  | .exec .commit => { w with db, saved := (w.saving conn).or w.saved }
  | .stepRows => { w with db, snapshot := Function.update w.snapshot conn (some w.saved) }
  | _ => { w with db }

@[simp]
theorem succeed_db (w : World Conn) (conn : Conn) (call : SqliteCall) (db : Database Conn) :
  (w.succeed conn call db).db = db
  := by
  unfold succeed
  split <;> rfl

@[simp]
theorem succeed_request (w : World Conn) (conn : Conn) (call : SqliteCall) (db : Database Conn) :
  (w.succeed conn call db).request = w.request
  := by
  unfold succeed
  split <;> rfl

@[simp]
theorem succeed_ready (w : World Conn) (conn : Conn) (call : SqliteCall) (db : Database Conn) :
  (w.succeed conn call db).ready = w.ready
  := by
  unfold succeed
  split <;> rfl

@[simp]
theorem succeed_failed (w : World Conn) (conn : Conn) (call : SqliteCall) (db : Database Conn) :
  (w.succeed conn call db).failed = w.failed
  := by
  unfold succeed
  split <;> rfl

/-- Only a `COMMIT` changes what has been saved. -/
theorem succeed_saved {w : World Conn} {conn : Conn} {call : SqliteCall} {db : Database Conn}
    (hcall : call ≠ .exec .commit) :
  (w.succeed conn call db).saved = w.saved
  := by
  unfold succeed
  split
  · cases hcall rfl
  · rfl
  · rfl

/-- A call of the repository that has failed. -/
def fail (w : World Conn) (conn : Conn) (db : Database Conn) : World Conn :=
  { w with db, failed := Function.update w.failed conn True }

/-- A client has asked for something. -/
def ask (w : World Conn) (conn : Conn) (request : Option Request) : World Conn :=
  { w with
    request := Function.update w.request conn request
    snapshot := Function.update w.snapshot conn none
    failed := Function.update w.failed conn False }

/-- A client has been told the outcome of what it has asked for. -/
def tell (w : World Conn) (conn : Conn) (reply : Reply) : World Conn :=
  { w with ready := Function.update w.ready conn (w.ready conn ∨ reply = .initialized (.ok ())) }

/-- The process of a connection has died, and its transaction is lost. -/
def lose (w : World Conn) (conn : Conn) : World Conn :=
  { w with db := w.db.rollback conn }

/-- What the calls of a connection do. The texts of a configuration to be saved are free of NUL. -/
inductive Step (assume : Assumptions) (conn : Conn) :
    (call : SqliteCall ⊕ ClientCall) → World Conn →
      Sum.elim SqliteCall.Answer ClientCall.Answer call → World Conn → Prop where
  | succeeds {call : SqliteCall} {w : World Conn} {a : call.Answer} {db : Database Conn} :
      w.db.Succeeds assume conn call a db →
      Step assume conn (.inl call) w a (w.succeed conn call db)
  | fails {call : SqliteCall} {w : World Conn} {a : call.Answer} {db : Database Conn} :
      Database.Fails assume conn call w.db a db → Step assume conn (.inl call) w a (w.fail conn db)
  | nextRequest {w : World Conn} {request : Option Request} :
      (∀ config, request = some (.save config) → ∀ f, NulFree (config.text f)) →
      Step assume conn (.inr .nextRequest) w request (w.ask conn request)
  | report {w : World Conn} {reply : Reply} :
      Step assume conn (.inr (.report reply)) w () (w.tell conn reply)

end World

/-- The connections to a database, whose processes can die. -/
def connections {Conn : Type} [DecidableEq Conn] (assume : Assumptions) :
    Threads.System Conn (SqliteCall ⊕ ClientCall) (Sum.elim SqliteCall.Answer ClientCall.Answer)
      (World Conn) where
  step conn := World.Step assume conn
  env _ _ := False
  halt conn w w' := w' = w.lose conn

/-- The clients before they have started. -/
def connectionsStart {Conn : Type} :
    Threads.Config Conn (SqliteCall ⊕ ClientCall) (Sum.elim SqliteCall.Answer ClientCall.Answer)
      (World Conn) where
  progs := fun _ => Client.run
  world := .start

end OpcuaServer
