import OpcuaServer.Supervisor.ConfigJsonSoundness

/-!
# The serializer of the configuration

`configToJson` writes the compact object of the thirteen fields (`configToJson_eq`), which is a text
that denotes the configuration where the text fields are UTF-8 without NUL.
-/

namespace OpcuaServer

open ServerConfig

/-- `ConfigToJson`. -/
def configToJson (config : ServerConfig) : Bytes :=
  ascii "\x7b\"server_application_name\":\"" ++
    escapeJsonString config.serverApplicationName ++
    ascii "\",\"server_product_uri\":\"" ++
    escapeJsonString config.serverProductUri ++
    ascii "\",\"server_bind_address\":\"" ++
    escapeJsonString config.serverBindAddress ++
    ascii "\",\"server_port\":" ++ stdToString config.serverPort ++
    ascii ",\"server_endpoint_path\":\"" ++
    escapeJsonString config.serverEndpointPath ++
    ascii "\",\"security_mode\":\"" ++ escapeJsonString config.securityMode ++
    ascii "\",\"security_policy\":\"" ++
    escapeJsonString config.securityPolicy ++
    ascii "\",\"max_sessions\":" ++ stdToString config.maxSessions ++
    ascii ",\"max_subscriptions\":" ++
    stdToString config.maxSubscriptions ++
    ascii ",\"logging_level\":\"" ++ escapeJsonString config.loggingLevel ++
    ascii "\",\"logging_target\":\"" ++ escapeJsonString config.loggingTarget ++
    ascii "\",\"address_space_mode\":\"" ++
    escapeJsonString config.addressSpaceMode ++
    ascii "\",\"address_space_path\":\"" ++
    escapeJsonString config.addressSpacePath ++ ascii "\"\x7d"

namespace ServerConfig

/-! ### Fields in the order of the serializer -/

/-- The name of a field in a JSON text. -/
def Field.jsonName : Field → String
  | .inl f => f.jsonName
  | .inr f => f.jsonName

theorem jsonNames_eq :
  jsonNames = fields.map fun f => f.jsonName.toList
  := rfl

/-- The bytes written for the value of a field. -/
def jsonBytes (config : ServerConfig) : Field → Bytes
  | .inl f => [0x22] ++ escapeJsonString (config.text f) ++ [0x22]
  | .inr f => stdToString (config.int f)

/-- The members that are written, each with the bytes of its value. -/
def jsonMembers (config : ServerConfig) : List (List Char × Bytes) :=
  fields.map fun f => (f.jsonName.toList, config.jsonBytes f)

end ServerConfig

/-- The configuration is written as the compact object of its fields. -/
theorem configToJson_eq (config : ServerConfig) :
  configToJson config = Json.compactObject config.jsonMembers
  := by
  have h₁ : ascii "\x7b\"server_application_name\":\""
      = [0x7B] ++ Json.shortString "server_application_name".toList ++ [0x3A, 0x22] := by decide +kernel
  have h₂ : ascii "\",\"server_product_uri\":\""
      = [0x22, 0x2C] ++ Json.shortString "server_product_uri".toList ++ [0x3A, 0x22] := by decide +kernel
  have h₃ : ascii "\",\"server_bind_address\":\""
      = [0x22, 0x2C] ++ Json.shortString "server_bind_address".toList ++ [0x3A, 0x22] := by decide +kernel
  have h₄ : ascii "\",\"server_port\":"
      = [0x22, 0x2C] ++ Json.shortString "server_port".toList ++ [0x3A] := by decide +kernel
  have h₅ : ascii ",\"server_endpoint_path\":\""
      = [0x2C] ++ Json.shortString "server_endpoint_path".toList ++ [0x3A, 0x22] := by decide +kernel
  have h₆ : ascii "\",\"security_mode\":\""
      = [0x22, 0x2C] ++ Json.shortString "security_mode".toList ++ [0x3A, 0x22] := by decide +kernel
  have h₇ : ascii "\",\"security_policy\":\""
      = [0x22, 0x2C] ++ Json.shortString "security_policy".toList ++ [0x3A, 0x22] := by decide +kernel
  have h₈ : ascii "\",\"max_sessions\":"
      = [0x22, 0x2C] ++ Json.shortString "max_sessions".toList ++ [0x3A] := by decide +kernel
  have h₉ : ascii ",\"max_subscriptions\":"
      = [0x2C] ++ Json.shortString "max_subscriptions".toList ++ [0x3A] := by decide +kernel
  have h₁₀ : ascii ",\"logging_level\":\""
      = [0x2C] ++ Json.shortString "logging_level".toList ++ [0x3A, 0x22] := by decide +kernel
  have h₁₁ : ascii "\",\"logging_target\":\""
      = [0x22, 0x2C] ++ Json.shortString "logging_target".toList ++ [0x3A, 0x22] := by decide +kernel
  have h₁₂ : ascii "\",\"address_space_mode\":\""
      = [0x22, 0x2C] ++ Json.shortString "address_space_mode".toList ++ [0x3A, 0x22] := by decide +kernel
  have h₁₃ : ascii "\",\"address_space_path\":\""
      = [0x22, 0x2C] ++ Json.shortString "address_space_path".toList ++ [0x3A, 0x22] := by decide +kernel
  have hend : ascii "\"\x7d" = [0x22, 0x7D] := by decide
  unfold configToJson
  simp only [h₁, h₂, h₃, h₄, h₅, h₆, h₇, h₈, h₉, h₁₀, h₁₁, h₁₂, h₁₃, hend, Json.compactObject,
    jsonMembers, fields, Field.jsonName, TextField.jsonName,
    IntField.jsonName, jsonBytes, text, int, List.map_cons, List.map_nil, Json.compactMembers,
    List.append_assoc, List.cons_append, List.nil_append]

namespace ServerConfig

/-! ### What is written denotes the configuration -/

/-- The number written for an `int`. -/
def jsonNumber (n : Int32) : Json.Number :=
  ⟨decide (n.toInt < 0), Decimal.numeral n.toInt.natAbs, none, none⟩

theorem intValue_jsonNumber (n : Int32) :
  (jsonNumber n).intValue = n.toInt
  := by
  rw [Json.Number.intValue, jsonNumber, Decimal.value_numeral]
  simp only [decide_eq_true_eq]
  split <;> omega

theorem derives_stdToString (n : Int32) :
  Json.Derives (stdToString n) (.number (jsonNumber n))
  := by
  have h := Json.NumberLit.integer (decide (n.toInt < 0)) (Decimal.isInt_numeral n.toInt.natAbs)
  apply Json.Derives.number
  rw [stdToString, Decimal.integer]
  split
  · next hneg =>
    rw [decide_eq_true hneg, if_pos rfl] at h
    rw [jsonNumber, decide_eq_true hneg]
    apply h
  · next hneg =>
    rw [decide_eq_false hneg, if_neg Bool.false_ne_true] at h
    rw [jsonNumber, decide_eq_false hneg]
    apply h

/-- The value written for a field, where `chars` are the characters of the text fields. -/
def jsonValue (config : ServerConfig) (chars : TextField → List Char) : Field → Json.Value
  | .inl f => .string (chars f)
  | .inr f => .number (jsonNumber (config.int f))

/-- The object written. -/
def jsonValues (config : ServerConfig) (chars : TextField → List Char) :
    List (List Char × Json.Value) :=
  fields.map fun f => (f.jsonName.toList, config.jsonValue chars f)

variable {config : ServerConfig} {chars : TextField → List Char}

/-- What is written denotes the repairs of the text fields. -/
theorem isCompactMember (hchars : ∀ f, Utf8.Repairs (config.text f) (chars f)) :
  List.Forall₂ Json.IsCompactMember config.jsonMembers (config.jsonValues chars)
  := by
  rw [jsonMembers, jsonValues, List.forall₂_map_left_iff, List.forall₂_map_right_iff,
    List.forall₂_same]
  rintro (f | f) -
  · use rfl
    apply Json.Derives.string
    apply stringLit_escapeJsonString (hchars f)
  · use rfl
    apply derives_stdToString

theorem mem_jsonValues (f : Field) :
  (f.jsonName.toList, config.jsonValue chars f) ∈ config.jsonValues chars
  := List.mem_map_of_mem (mem_fields f)

/-- The object written denotes the configuration. -/
theorem denotes_jsonValues (hchars : ∀ f, config.text f = Utf8.encode (chars f))
    (hnul : ∀ f, '\x00' ∉ chars f) :
  Denotes (config.jsonValues chars) config
  := by
  constructor
  · rw [jsonValues, List.map_map, jsonNames_eq]
    apply List.Perm.refl
  · intro f
    exact ⟨chars f, mem_jsonValues (.inl f), hnul f, hchars f⟩
  · intro f
    exact ⟨_, mem_jsonValues (.inr f), ⟨rfl, rfl⟩, (intValue_jsonNumber _).symm⟩

/-- The characters of a text field in UTF-8 without NUL. -/
theorem exists_chars (hutf8 : ∀ f, Utf8.IsUtf8 (config.text f))
    (hnul : ∀ f, NulFree (config.text f)) :
  ∃ chars : TextField → List Char, (∀ f, config.text f = Utf8.encode (chars f)) ∧
    ∀ f, '\x00' ∉ chars f
  := by
  choose chars hchars using hutf8
  use chars, hchars
  intro f hmem
  apply hnul f
  rw [hchars]
  apply Utf8.zero_mem_encode.mpr hmem

theorem isUtf8_default (f : TextField) :
  Utf8.IsUtf8 (ServerConfig.default.text f)
  := by
  apply Utf8.isUtf8_of_lt
  cases f <;> decide +kernel

end ServerConfig

/-- What is written for a configuration is a JSON text of its fields. -/
theorem text_configToJson {config : ServerConfig} {chars : TextField → List Char}
    (hchars : ∀ f, Utf8.Repairs (config.text f) (chars f)) :
  Json.Text (configToJson config) (.object (config.jsonValues chars))
  := by
  rw [configToJson_eq]
  apply Json.Text.compactObject (isCompactMember hchars)
  apply List.cons_ne_nil

/-- What is written for a configuration whose text fields are UTF-8 without NUL is a JSON text that
denotes the configuration. -/
theorem exists_text_configToJson {config : ServerConfig}
    (hutf8 : ∀ f, Utf8.IsUtf8 (config.text f)) (hnul : ∀ f, NulFree (config.text f)) :
  ∃ ms, Json.Text (configToJson config) (.object ms) ∧ Denotes ms config
  := by
  obtain ⟨chars, hchars, hnul⟩ := exists_chars hutf8 hnul
  refine ⟨config.jsonValues chars, ?_, denotes_jsonValues hchars hnul⟩
  apply text_configToJson
  intro f
  rw [hchars]
  apply Utf8.Repairs.encode

/-- What is written for a configuration whose text fields are UTF-8 without NUL is read back. -/
theorem run_configToJson {config : ServerConfig} (hutf8 : ∀ f, Utf8.IsUtf8 (config.text f))
    (hnul : ∀ f, NulFree (config.text f))
    (hsize : (configToJson config).length ≤ kMaxConfigJsonBytes) :
  ConfigJsonParser.run (configToJson config) = .ok config
  := by
  obtain ⟨ms, htext, hdenotes⟩ := exists_text_configToJson hutf8 hnul
  apply ConfigJsonParser.run_of_text hsize htext hdenotes

/-- The default configuration is read back. -/
theorem run_configToJson_default :
  ConfigJsonParser.run (configToJson ServerConfig.default) = .ok ServerConfig.default
  := by
  obtain ⟨ms, htext, hdenotes⟩ := exists_text_configToJson ServerConfig.isUtf8_default
    ServerConfig.nulFree_default
  apply ConfigJsonParser.run_of_text _ htext hdenotes
  decide +kernel

theorem run_configToJson_otherPort :
  ConfigJsonParser.run (configToJson otherPort) = .ok otherPort
  := by
  have hutf8 : ∀ f, Utf8.IsUtf8 (otherPort.text f) := by
    intro f
    rw [text_otherPort]
    apply isUtf8_default
  obtain ⟨ms, htext, hdenotes⟩ := exists_text_configToJson hutf8 nulFree_otherPort
  apply ConfigJsonParser.run_of_text _ htext hdenotes
  decide +kernel

/-- A configuration that is not valid, with a name that needs escapes. -/
def oddConfig : ServerConfig :=
  { ServerConfig.default with
    serverApplicationName := ascii "\"A\\B\"\n", serverPort := -2147483648, securityMode := [] }

/-- The text fields of this configuration are UTF-8 without NUL. -/
theorem run_configToJson_oddConfig :
  ConfigJsonParser.run (configToJson oddConfig) = .ok oddConfig
  := by
  apply run_configToJson
  · intro f
    apply Utf8.isUtf8_of_lt
    cases f <;> decide +kernel
  · intro f
    cases f <;> decide +kernel
  · decide +kernel

/-- The text fields of a configuration that is read are UTF-8 without NUL. -/
theorem isUtf8_nulFree_of_run {input : Bytes} {config : ServerConfig}
    (hrun : ConfigJsonParser.run input = .ok config) (f : TextField) :
  Utf8.IsUtf8 (config.text f) ∧ NulFree (config.text f)
  := by
  obtain ⟨-, ms, -, hdenotes⟩ := ConfigJsonParser.text_of_run hrun
  obtain ⟨cs, -, hnul, htext⟩ := hdenotes.text f
  use ⟨cs, htext⟩
  rw [NulFree, htext, Utf8.zero_mem_encode]
  apply hnul

/-! ### The size of what is written -/

/-- The bytes written for a field are as many as its member takes at least. -/
theorem exists_member_of_field {config : ServerConfig} {ms : List (List Char × Json.Value)}
    (h : Denotes ms config) (f : Field) :
  ∃ m ∈ ms, m.1 = f.jsonName.toList ∧ m.2.size = (config.jsonBytes f).length
  := by
  rcases f with f | f
  · obtain ⟨cs, hmem, -, htext⟩ := h.text f
    refine ⟨_, hmem, rfl, ?_⟩
    rw [jsonBytes, htext, escapeJsonString_encode]
    rfl
  · obtain ⟨n, hmem, hn, hint⟩ := h.int f
    refine ⟨_, hmem, rfl, ?_⟩
    rw [jsonBytes, stdToString, hint]
    apply if_pos hn

/-- What is written is exactly as long as the sizes of the members add up to, in any order. -/
theorem length_configToJson {config : ServerConfig} {ms : List (List Char × Json.Value)}
    (h : Denotes ms config) :
  (configToJson config).length = (ms.map Json.memberSize).sum + 1
  := by
  let written := config.jsonMembers.map fun m => (m.1, m.2.length)
  let taken := ms.map fun m => (m.1, m.2.size)
  have hnames : written.map Prod.fst = jsonNames := by
    simp only [written, jsonMembers, List.map_map]
    rfl
  have hnodup : written.Nodup := List.Nodup.of_map Prod.fst (hnames ▸ nodup_jsonNames)
  have hsubset : written ⊆ taken := by
    intro e he
    simp only [written, jsonMembers, List.map_map, List.mem_map] at he
    obtain ⟨f, -, rfl⟩ := he
    obtain ⟨m, hmem, hname, hsize⟩ := exists_member_of_field h f
    apply List.mem_map.mpr
    exact ⟨m, hmem, Prod.ext hname hsize⟩
  have hlength : taken.length ≤ written.length := by
    have hms := h.names.length_eq
    rw [List.length_map] at hms
    rw [List.length_map, hms, ← hnames, List.length_map]
  have hperm : taken.Perm written := ((hnodup.subperm hsubset).perm_of_length_le hlength).symm
  have hsum := (hperm.map fun e => (Json.shortString e.1).length + e.2 + 2).sum_eq
  have hcompact : config.jsonMembers ≠ [] := List.cons_ne_nil _ _
  simp only [taken, written, List.map_map] at hsum
  have hmembers : (ms.map Json.memberSize).sum = (Json.compactMembers config.jsonMembers).length + 1
    := hsum.trans (Json.length_compactMembers hcompact).symm
  rw [configToJson_eq, Json.compactObject, hmembers]
  simp only [List.length_append, List.length_cons, List.length_nil]
  omega

/-- What is written for the configuration of a text is no longer than the text. -/
theorem length_configToJson_le {input : Bytes} {config : ServerConfig}
    (hrun : ConfigJsonParser.run input = .ok config) :
  (configToJson config).length ≤ input.length
  := by
  obtain ⟨-, ms, htext, hdenotes⟩ := ConfigJsonParser.text_of_run hrun
  rw [length_configToJson hdenotes]
  apply htext.size_le

end OpcuaServer
