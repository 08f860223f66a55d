import OpcuaServer.Common.Charconv

/-!
# The server configuration

`ServerConfig` with its default and its validation. `TextField` and `IntField` name the ten text
fields and the three integer fields; a configuration is read field by field
(`readFields_eq_ok_iff`).
-/

namespace OpcuaServer

/-- `struct ServerConfig`. -/
structure ServerConfig where
  serverApplicationName : Bytes
  serverProductUri : Bytes
  serverBindAddress : Bytes
  serverPort : Int32
  serverEndpointPath : Bytes
  securityMode : Bytes
  securityPolicy : Bytes
  maxSessions : Int32
  maxSubscriptions : Int32
  loggingLevel : Bytes
  loggingTarget : Bytes
  addressSpaceMode : Bytes
  addressSpacePath : Bytes
  deriving DecidableEq

namespace ServerConfig

/-- `ServerConfig::Default()`. -/
def default : ServerConfig where
  serverApplicationName := ascii "Open62541 C++ Server"
  serverProductUri := ascii "urn:rakctite:opcua-server-opensource"
  serverBindAddress := ascii "0.0.0.0"
  serverPort := 4840
  serverEndpointPath := ascii "/"
  securityMode := ascii "none"
  securityPolicy := ascii "none"
  maxSessions := 100
  maxSubscriptions := 100
  loggingLevel := ascii "info"
  loggingTarget := ascii "stdout"
  addressSpaceMode := ascii "builtin"
  addressSpacePath := ascii ""

/-- `ServerConfig::Validate()`. -/
def validate (config : ServerConfig) : Status :=
  if config.serverApplicationName = [] then
    .error (ascii "server.application_name must not be empty")
  else if config.serverProductUri = [] then
    .error (ascii "server.product_uri must not be empty")
  else if config.serverBindAddress = [] then
    .error (ascii "server.bind_address must not be empty")
  else if config.serverPort < 1 ∨ config.serverPort > 65535 then
    .error (ascii "server.port must be between 1 and 65535")
  else if config.serverEndpointPath.head? ≠ some 0x2F then
    .error (ascii "server.endpoint_path must start with /")
  else if config.securityMode ≠ ascii "none" then
    .error (ascii "only security.mode=none is supported in v1")
  else if config.securityPolicy ≠ ascii "none" then
    .error (ascii "only security.policy=none is supported in v1")
  else if config.maxSessions ≤ 0 then
    .error (ascii "limits.max_sessions must be positive")
  else if config.maxSubscriptions ≤ 0 then
    .error (ascii "limits.max_subscriptions must be positive")
  else if config.loggingLevel ≠ ascii "trace" ∧ config.loggingLevel ≠ ascii "debug" ∧
      config.loggingLevel ≠ ascii "info" ∧ config.loggingLevel ≠ ascii "warn" ∧
      config.loggingLevel ≠ ascii "error" then
    .error (ascii "logging.level is invalid")
  else if config.loggingTarget ≠ ascii "stdout" ∧
      (¬ ascii "file:" <+: config.loggingTarget ∨
        config.loggingTarget.length = (ascii "file:").length) then
    .error (ascii "logging.target must be stdout or file:<path>")
  else if config.addressSpaceMode ≠ ascii "builtin" then
    .error (ascii "only address_space.mode=builtin is supported in v1")
  else .ok ()

/-- The default configuration is valid. -/
theorem validate_default :
  default.validate = .ok ()
  := by decide

/-- The port of a valid configuration is one of TCP. -/
theorem serverPort_of_validate {config : ServerConfig} (hvalid : config.validate = .ok ()) :
  1 ≤ config.serverPort.toInt ∧ config.serverPort.toInt ≤ 65535
  := by
  have hport : ¬ (config.serverPort < 1 ∨ config.serverPort > 65535) := by
    intro hport
    unfold validate at hvalid
    split_ifs at hvalid
  rw [not_or] at hport
  obtain ⟨hlower, hupper⟩ := hport
  rw [Int32.lt_iff_toInt_lt] at hlower
  rw [gt_iff_lt, Int32.lt_iff_toInt_lt] at hupper
  exact ⟨not_lt.mp hlower, not_lt.mp hupper⟩

/-! ### Fields -/

/-- The fields of type `std::string`. -/
inductive TextField where
  | serverApplicationName
  | serverProductUri
  | serverBindAddress
  | serverEndpointPath
  | securityMode
  | securityPolicy
  | loggingLevel
  | loggingTarget
  | addressSpaceMode
  | addressSpacePath
  deriving DecidableEq

/-- The fields of type `int`. -/
inductive IntField where
  | serverPort
  | maxSessions
  | maxSubscriptions
  deriving DecidableEq

/-- The value of a text field. -/
def text (config : ServerConfig) : TextField → Bytes
  | .serverApplicationName => config.serverApplicationName
  | .serverProductUri => config.serverProductUri
  | .serverBindAddress => config.serverBindAddress
  | .serverEndpointPath => config.serverEndpointPath
  | .securityMode => config.securityMode
  | .securityPolicy => config.securityPolicy
  | .loggingLevel => config.loggingLevel
  | .loggingTarget => config.loggingTarget
  | .addressSpaceMode => config.addressSpaceMode
  | .addressSpacePath => config.addressSpacePath

/-- The value of an integer field. -/
def int (config : ServerConfig) : IntField → Int32
  | .serverPort => config.serverPort
  | .maxSessions => config.maxSessions
  | .maxSubscriptions => config.maxSubscriptions

/-- A field of either type. -/
abbrev Field := TextField ⊕ IntField

/-- The fields in the order of their declarations. -/
def fields : List Field :=
  [.inl .serverApplicationName, .inl .serverProductUri, .inl .serverBindAddress, .inr .serverPort,
    .inl .serverEndpointPath, .inl .securityMode, .inl .securityPolicy, .inr .maxSessions,
    .inr .maxSubscriptions, .inl .loggingLevel, .inl .loggingTarget, .inl .addressSpaceMode,
    .inl .addressSpacePath]

theorem mem_fields (f : Field) :
  f ∈ fields
  := by
  rcases f with f | f <;> cases f <;> simp [fields]

/-- Read the fields in the order of their declarations. -/
def readFields (text : TextField → Result Bytes) (int : IntField → Result Int32) :
    Result ServerConfig := do
  let serverApplicationName ← text .serverApplicationName
  let serverProductUri ← text .serverProductUri
  let serverBindAddress ← text .serverBindAddress
  let serverPort ← int .serverPort
  let serverEndpointPath ← text .serverEndpointPath
  let securityMode ← text .securityMode
  let securityPolicy ← text .securityPolicy
  let maxSessions ← int .maxSessions
  let maxSubscriptions ← int .maxSubscriptions
  let loggingLevel ← text .loggingLevel
  let loggingTarget ← text .loggingTarget
  let addressSpaceMode ← text .addressSpaceMode
  let addressSpacePath ← text .addressSpacePath
  return { serverApplicationName, serverProductUri, serverBindAddress, serverPort,
           serverEndpointPath, securityMode, securityPolicy, maxSessions, maxSubscriptions,
           loggingLevel, loggingTarget, addressSpaceMode, addressSpacePath }

/-- The fields read are those of the configuration. -/
theorem readFields_eq_ok_iff {text : TextField → Result Bytes} {int : IntField → Result Int32}
    {config : ServerConfig} :
  readFields text int = .ok config
    ↔ (∀ f, text f = .ok (config.text f)) ∧ ∀ f, int f = .ok (config.int f)
  := by
  simp only [readFields, Result.bind_eq_ok_iff]
  constructor
  · rintro ⟨a₁, h₁, a₂, h₂, a₃, h₃, a₄, h₄, a₅, h₅, a₆, h₆, a₇, h₇, a₈, h₈, a₉, h₉, a₁₀, h₁₀,
      a₁₁, h₁₁, a₁₂, h₁₂, a₁₃, h₁₃, hconfig⟩
    obtain rfl := Except.ok.inj hconfig
    constructor
    · intro f
      cases f with
      | serverApplicationName => exact h₁
      | serverProductUri => exact h₂
      | serverBindAddress => exact h₃
      | serverEndpointPath => exact h₅
      | securityMode => exact h₆
      | securityPolicy => exact h₇
      | loggingLevel => exact h₁₀
      | loggingTarget => exact h₁₁
      | addressSpaceMode => exact h₁₂
      | addressSpacePath => exact h₁₃
    · intro f
      cases f with
      | serverPort => exact h₄
      | maxSessions => exact h₈
      | maxSubscriptions => exact h₉
  · rintro ⟨htext, hint⟩
    exact ⟨_, htext .serverApplicationName, _, htext .serverProductUri, _,
      htext .serverBindAddress, _, hint .serverPort, _, htext .serverEndpointPath, _,
      htext .securityMode, _, htext .securityPolicy, _, hint .maxSessions, _,
      hint .maxSubscriptions, _, htext .loggingLevel, _, htext .loggingTarget, _,
      htext .addressSpaceMode, _, htext .addressSpacePath, rfl⟩

/-- A text without a NUL byte. -/
def NulFree (text : Bytes) : Prop :=
  0 ∉ text

instance (text : Bytes) : Decidable (NulFree text) :=
  inferInstanceAs (Decidable (_ ∉ _))

theorem nulFree_default (f : TextField) :
  NulFree (ServerConfig.default.text f)
  := by
  cases f <;> decide

/-! ### Another configuration -/

/-- A valid configuration that is not the default one. -/
def otherPort : ServerConfig :=
  { ServerConfig.default with serverPort := 4841 }

theorem validate_otherPort :
  otherPort.validate = .ok ()
  := by decide

theorem text_otherPort (f : TextField) :
  otherPort.text f = ServerConfig.default.text f
  := by cases f <;> rfl

theorem nulFree_otherPort (f : TextField) :
  NulFree (otherPort.text f)
  := by
  rw [text_otherPort]
  apply nulFree_default

end ServerConfig

end OpcuaServer
