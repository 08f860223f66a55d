import OpcuaServer.Config.ConfigRepository
import OpcuaServer.Supervisor.ConfigJsonParser
import OpcuaServer.Supervisor.ConfigToJson
import OpcuaServer.Supervisor.ProcessController

/-!
# The handlers of requests

`handleGetConfig` and `handlePutConfig` are programs of the repository that end in a response. The
handlers of the daemon make a response of what a function of the controller returns.
-/

namespace OpcuaServer

/-- `httplib::Response`, as a handler sets it: a JSON body and its status. -/
structure Response where
  status : ℕ
  body : Bytes
  deriving DecidableEq

namespace ApiServer

open ConfigRepository

/-- `SetJson`. -/
def setJson (status : ℕ) (body : Bytes) : Response :=
  ⟨status, body⟩

/-- `SetError`. -/
def setError (status : ℕ) (message : Bytes) : Response :=
  setJson status (ascii "\x7b\"error\":\"" ++ escapeJsonString message ++ ascii "\"\x7d")

/-- `HandleGetConfig`. -/
def handleGetConfig : Repository Response := do
  match ← load with
  | .error message => return setError 500 message
  | .ok config => return setJson 200 (configToJson config)

section

variable {m : Type → Type*} [Monad m]

/-- `HandlePutConfig`, where `saveConfig` is the part that holds `operations_mutex_`. -/
def handlePutConfigWith (saveConfig : ServerConfig → m Response) (body : Bytes) : m Response := do
  match ConfigJsonParser.run body with
  | .error message => return setError 400 message
  | .ok config =>
      match config.validate with
      | .error message => return setError 400 message
      | .ok () => saveConfig config

end

/-- The part of `HandlePutConfig` that saves the configuration. -/
def saveConfig (config : ServerConfig) : Repository Response := do
  match ← save config with
  | .error message => return setError 500 message
  | .ok () => return setJson 200 (ascii "\x7b\"status\":\"ok\"\x7d")

/-- `HandlePutConfig`. -/
def handlePutConfig (body : Bytes) : Repository Response :=
  handlePutConfigWith saveConfig body

/-! ### The daemon -/

/-- `kDaemonStopTimeout`, in milliseconds. -/
def kDaemonStopTimeout : ℤ := 5000

/-- `ProcessStateName` -/
def processStateName : ProcessState → String
  | .stopped => "stopped"
  | .running => "running"
  | .crashed => "crashed"

/-- The body of the answer to a status request. -/
def statusToJson (status : ProcessStatus) : Bytes :=
  ascii "\x7b\"state\":\"" ++ ascii (processStateName status.state) ++
    ascii "\",\"exit_code\":" ++ stdToString status.exitCode ++
    ascii ",\"diagnostic\":\"" ++ escapeJsonString status.diagnostic ++
    ascii "\"\x7d"

/-- `SetLifecycleResult` -/
def setLifecycleResult : Status → Response
  | .error message => setError 500 message
  | .ok () => setJson 200 (ascii "\x7b\"status\":\"ok\"\x7d")

section

variable {m : Type → Type*} [Monad m]

/-- `HandleStatus`, with the `status` of the controller. -/
def handleStatus (processStatus : m ProcessStatus) : m Response := do
  return setJson 200 (statusToJson (← processStatus))

/-- `HandleStart`, with the `Start` of the controller. -/
def handleStart (start : m Status) : m Response := do
  return setLifecycleResult (← start)

/-- `HandleStop`, with the `Stop` of the controller. -/
def handleStop (stop : ℤ → m Status) : m Response := do
  return setLifecycleResult (← stop kDaemonStopTimeout)

/-- `HandleRestart`, with the `Restart` of the controller. -/
def handleRestart (restart : ℤ → m Status) : m Response := do
  return setLifecycleResult (← restart kDaemonStopTimeout)

end

/-! ### Runs -/

variable {W : Type} {step : (call : SqliteCall) → W → call.Answer → W → Prop} {w w' : W}
  {response : Response}

/-- A GET request answers with what it loads. -/
theorem runs_handleGetConfig :
  handleGetConfig.Runs step w response w' ↔ ∃ result, load.Runs step w result w' ∧
    response = match result with
      | .error message => setError 500 message
      | .ok config => setJson 200 (configToJson config)
  := by
  constructor
  · intro h
    obtain ⟨result, w₁, hload, h⟩ := h.of_bind
    rcases result with message | config
    · obtain ⟨rfl, rfl⟩ := Prog.runs_ret.mp h
      exact ⟨_, hload, rfl⟩
    · obtain ⟨rfl, rfl⟩ := Prog.runs_ret.mp h
      exact ⟨_, hload, rfl⟩
  · rintro ⟨result, hload, rfl⟩
    apply hload.bind
    rcases result with message | config
    · exact .ret
    · exact .ret

/-- A PUT request that does not save leaves everything as it is. -/
theorem runs_handlePutConfig_invalid {body : Bytes}
    (hinvalid : ∀ config, ConfigJsonParser.run body = .ok config → config.validate ≠ .ok ())
    (h : (handlePutConfig body).Runs step w response w') :
  w' = w ∧ response.status = 400
  := by
  rw [handlePutConfig, handlePutConfigWith] at h
  split at h
  · obtain ⟨rfl, rfl⟩ := Prog.runs_ret.mp h
    exact ⟨rfl, rfl⟩
  · next config hparse =>
    split at h
    · obtain ⟨rfl, rfl⟩ := Prog.runs_ret.mp h
      exact ⟨rfl, rfl⟩
    · next hvalid => cases hinvalid config hparse hvalid

/-- A PUT request with a valid configuration saves it. -/
theorem runs_handlePutConfig_valid {body : Bytes} {config : ServerConfig}
    (hparse : ConfigJsonParser.run body = .ok config) (hvalid : config.validate = .ok ()) :
  (handlePutConfig body).Runs step w response w' ↔ ∃ status, (save config).Runs step w status w' ∧
    response = match status with
      | .error message => setError 500 message
      | .ok () => setJson 200 (ascii "\x7b\"status\":\"ok\"\x7d")
  := by
  rw [handlePutConfig, handlePutConfigWith, hparse]
  simp only [hvalid]
  constructor
  · intro h
    obtain ⟨status, w₁, hsave, h⟩ := h.of_bind
    rcases status with message | _
    · obtain ⟨rfl, rfl⟩ := Prog.runs_ret.mp h
      exact ⟨_, hsave, rfl⟩
    · obtain ⟨rfl, rfl⟩ := Prog.runs_ret.mp h
      exact ⟨_, hsave, rfl⟩
  · rintro ⟨status, hsave, rfl⟩
    apply hsave.bind
    rcases status with message | _
    · exact .ret
    · exact .ret

end ApiServer

end OpcuaServer
