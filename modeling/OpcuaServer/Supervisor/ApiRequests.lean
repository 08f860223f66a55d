import OpcuaServer.Daemon.DaemonMain
import OpcuaServer.Library.AtomicObject
import OpcuaServer.Supervisor.ApiHandlers

/-!
# The requests of the API

The routes of the API server, whose handlers lock `operations_mutex_` while they use the repository
or the controller. A request whose body is too large does not come to its handler. `ConfigApi` says
what the requests are for: they read and write one configuration.
-/

namespace OpcuaServer

/-- The routes that the API server has handlers for. -/
inductive ApiRoute where
  /-- `GET /health` -/
  | health
  /-- `GET /api/v1/status` -/
  | status
  /-- `GET /api/v1/config` -/
  | getConfig
  /-- `PUT /api/v1/config` -/
  | putConfig
  /-- `POST /api/v1/daemon/start` -/
  | start
  /-- `POST /api/v1/daemon/stop` -/
  | stop
  /-- `POST /api/v1/daemon/restart` -/
  | restart

/-- `httplib::Request`, where there is a handler for it. -/
structure ApiRequest where
  route : ApiRoute
  /-- The body that the client sends. -/
  body : Bytes := []
  /-- The media type of the body is `application/x-www-form-urlencoded`. -/
  formUrlEncoded : Bool := false

/-! ### Calls -/

/-- The calls of the threads of the supervisor beside those of the repository. -/
inductive ApiCall where
  /-- The API server is run. -/
  | startApi
  /-- The next request, `none` when the server stops. -/
  | nextRequest
  | lockOperations
  /-- The handler returns, and unlocks `operations_mutex_` with the response that it has set. -/
  | unlockOperations (response : Response)
  /-- `ProcessController::status` -/
  | processStatus
  /-- `ProcessController::Start` -/
  | start
  /-- `ProcessController::Stop` -/
  | stop (timeout : ℤ)
  /-- `ProcessController::Restart` -/
  | restart (timeout : ℤ)
  /-- The response is written. -/
  | respond (response : Response)

/-- The answer of a call of the API server. -/
@[reducible]
def ApiCall.Answer : ApiCall → Type
  | .startApi => Unit
  | .nextRequest => Option ApiRequest
  | .lockOperations | .unlockOperations _ => Unit
  | .processStatus => ProcessStatus
  | .start | .stop _ | .restart _ => Status
  | .respond _ => Unit

/-- The calls of the supervisor and of the daemons that it starts. -/
abbrev HostCall := (SqliteCall ⊕ DaemonCall) ⊕ ApiCall

/-- The answer of a call. -/
abbrev HostAnswer : HostCall → Type :=
  Sum.elim (Sum.elim SqliteCall.Answer DaemonCall.Answer) ApiCall.Answer

/-- A program of a thread of the supervisor. -/
abbrev HostProg := Prog HostCall HostAnswer

namespace ApiServer

open ConfigRepository

/-- Make a call. -/
def perform (call : ApiCall) : HostProg call.Answer :=
  Prog.perform (Sum.inr call)

/-- A handler calls a function of the repository, and makes a response of what it returns. -/
def callRepository (request : Request) (handler : Repository Response) : DaemonProg Response := do
  Daemon.perform (.called request)
  handler.lift

/-! ### Handlers -/

/-- A handler that holds `operations_mutex_` until it returns. -/
def guardOperations (handler : HostProg Response) : HostProg Response := do
  perform .lockOperations
  let response ← handler
  perform (.unlockOperations response)
  return response

/-- The handlers, as the constructor registers them. -/
def handler : ApiRoute → Bytes → HostProg Response
  | .health, _ => return setJson 200 (ascii "\x7b\"status\":\"ok\"\x7d")
  | .status, _ => guardOperations (handleStatus (perform .processStatus))
  | .getConfig, _ => guardOperations (callRepository .load handleGetConfig).lift
  | .putConfig, body => handlePutConfigWith (fun config =>
      guardOperations (callRepository (.save config) (saveConfig config)).lift) body
  | .start, _ => guardOperations (handleStart (perform .start))
  | .stop, _ => guardOperations (handleStop fun timeout => perform (.stop timeout))
  | .restart, _ => guardOperations (handleRestart fun timeout => perform (.restart timeout))

/-! ### The server -/

/-- `payload_max_length_`, as the constructor sets it. -/
def payloadMaxLength : ℕ := kMaxConfigJsonBytes + 1

/-- `CPPHTTPLIB_FORM_URL_ENCODED_PAYLOAD_MAX_LENGTH` -/
def formUrlEncodedPayloadMaxLength : ℕ := 8192

/-- `httplib::Server::read_content`: the body, or the status where it is not read. -/
def readContent (request : ApiRequest) : Except ℕ Bytes :=
  if request.body.length > payloadMaxLength then .error 413
  else if request.formUrlEncoded ∧ request.body.length > formUrlEncodedPayloadMaxLength then
    .error 413
  else .ok request.body

/-- The error handler that the constructor sets. -/
def errorHandler (response : Response) : Response :=
  if response.status = 413 then
    setError 400 (ascii "configuration request exceeds 65536 bytes")
  else response

/-- `httplib::Server::write_response_core`, with the response that is written. -/
def writeResponse (response : Response) : Response :=
  if 400 ≤ response.status then errorHandler response else response

/-- `httplib::Server::dispatch_request`, and the response that is written after it. -/
def handle (request : ApiRequest) : HostProg Response := do
  match readContent request with
  | .error status => return writeResponse { status, body := [] }
  | .ok body => return writeResponse (← handler request.route body)

/-- One iteration of a thread that handles requests. -/
def serveRequest (_ : Unit) : HostProg (Unit ⊕ Unit) := do
  match ← perform .nextRequest with
  | none => return .inr ()
  | some request =>
      perform (.respond (← handle request))
      return .inl ()

/-- A thread that handles requests. -/
def worker : HostProg Unit :=
  Prog.repeatUntil serveRequest ()

/-- The supervisor runs the API server once it has initialized the repository. -/
def openApi : HostProg Unit := do
  match ← Daemon.callInitialize.lift with
  | .error _ => return ()
  | .ok () => perform .startApi

end ApiServer

/-! ### What the requests are for -/

/-- What a request whose body is not too large can be answered, and what it makes of the
configuration. -/
inductive RouteApi : ApiRoute → Bytes → ServerConfig → Response → ServerConfig → Prop where
  | health {config : ServerConfig} {body : Bytes} :
      RouteApi .health body config (ApiServer.setJson 200 (ascii "\x7b\"status\":\"ok\"\x7d")) config
  | status {config : ServerConfig} {body : Bytes} {status : ProcessStatus} :
      RouteApi .status body config (ApiServer.setJson 200 (ApiServer.statusToJson status)) config
  | read {config : ServerConfig} {body : Bytes} :
      RouteApi .getConfig body config (ApiServer.setJson 200 (configToJson config)) config
  | readFails {config : ServerConfig} {body message : Bytes} :
      RouteApi .getConfig body config (ApiServer.setError 500 message) config
  | malformed {config : ServerConfig} {body message : Bytes} :
      ConfigJsonParser.run body = .error message →
      RouteApi .putConfig body config (ApiServer.setError 400 message) config
  | invalid {config config' : ServerConfig} {body message : Bytes} :
      ConfigJsonParser.run body = .ok config' → config'.validate = .error message →
      RouteApi .putConfig body config (ApiServer.setError 400 message) config
  | write {config config' : ServerConfig} {body : Bytes} :
      ConfigJsonParser.run body = .ok config' → config'.validate = .ok () →
      RouteApi .putConfig body config
        (ApiServer.setJson 200 (ascii "\x7b\"status\":\"ok\"\x7d")) config'
  | writeFails {config config' : ServerConfig} {body message : Bytes} :
      ConfigJsonParser.run body = .ok config' → config'.validate = .ok () →
      RouteApi .putConfig body config (ApiServer.setError 500 message) config
  | start {config : ServerConfig} {body : Bytes} {status : Status} :
      RouteApi .start body config (ApiServer.setLifecycleResult status) config
  | stop {config : ServerConfig} {body : Bytes} {status : Status} :
      RouteApi .stop body config (ApiServer.setLifecycleResult status) config
  | restart {config : ServerConfig} {body : Bytes} {status : Status} :
      RouteApi .restart body config (ApiServer.setLifecycleResult status) config

/-- The body of a request has more bytes than the server reads. -/
def ApiRequest.TooLarge (request : ApiRequest) : Prop :=
  request.body.length > 65537 ∨ request.formUrlEncoded ∧ request.body.length > 8192

/-- What a request can be answered, and what it makes of the configuration. -/
inductive ConfigApi : AtomicObject.Spec ServerConfig ApiRequest Response where
  | tooLarge {config : ServerConfig} {request : ApiRequest} : request.TooLarge →
      ConfigApi request config
        (ApiServer.setError 400 (ascii "configuration request exceeds 65536 bytes")) config
  | handled {config config' : ServerConfig} {request : ApiRequest} {response : Response} :
      ¬ request.TooLarge → RouteApi request.route request.body config response config' →
      ConfigApi request config response config'

/-- No handler sets this status. -/
theorem RouteApi.status_ne {route : ApiRoute} {body : Bytes} {config config' : ServerConfig}
    {response : Response} (h : RouteApi route body config response config') :
  response.status ≠ 413
  := by
  cases h with
  | @start _ _ status | @stop _ _ status | @restart _ _ status => cases status <;> nofun
  | _ => nofun

theorem ConfigApi.status_ne {request : ApiRequest} {config config' : ServerConfig}
    {response : Response} (h : ConfigApi request config response config') :
  response.status ≠ 413
  := by
  cases h with
  | tooLarge => nofun
  | handled _ h => apply h.status_ne

namespace ApiServer

theorem writeResponse_of_ne {response : Response} (h : response.status ≠ 413) :
  writeResponse response = response
  := by
  rw [writeResponse, errorHandler, if_neg h, ite_self]

/-- The body of a request is read unless it is too large. -/
theorem readContent_eq_ok_iff {request : ApiRequest} {body : Bytes} :
  readContent request = .ok body ↔ ¬ request.TooLarge ∧ request.body = body
  := by
  rw [readContent, ApiRequest.TooLarge, not_or]
  split_ifs with hlength hform
  · exact ⟨nofun, fun h => absurd hlength h.1.1⟩
  · exact ⟨nofun, fun h => absurd hform h.1.2⟩
  · rw [Except.ok.injEq]
    exact ⟨fun h => ⟨⟨hlength, hform⟩, h⟩, And.right⟩

/-- A request whose body is not read is answered with the body of the error handler. -/
theorem writeResponse_readContent {request : ApiRequest} {status : ℕ}
    (h : readContent request = .error status) :
  request.TooLarge ∧ writeResponse { status, body := [] }
    = setError 400 (ascii "configuration request exceeds 65536 bytes")
  := by
  rw [readContent] at h
  split_ifs at h with hlength hform
  · cases h
    exact ⟨.inl hlength, rfl⟩
  · cases h
    exact ⟨.inr hform, rfl⟩

end ApiServer

end OpcuaServer
