import OpcuaServer.Config.ServerConfig
import OpcuaServer.Library.Json

/-!
# The language of configurations

What a JSON text of a configuration is, in terms of the grammar of JSON texts: an object whose
members are named by the thirteen field names, each once and in any order, with strings without
NUL for the text fields and integers in the range of `int` for the integer fields.
-/

namespace OpcuaServer

namespace ServerConfig

/-- The name of a text field in a JSON text. -/
def TextField.jsonName : TextField → String
  | .serverApplicationName => "server_application_name"
  | .serverProductUri => "server_product_uri"
  | .serverBindAddress => "server_bind_address"
  | .serverEndpointPath => "server_endpoint_path"
  | .securityMode => "security_mode"
  | .securityPolicy => "security_policy"
  | .loggingLevel => "logging_level"
  | .loggingTarget => "logging_target"
  | .addressSpaceMode => "address_space_mode"
  | .addressSpacePath => "address_space_path"

/-- The name of an integer field in a JSON text. -/
def IntField.jsonName : IntField → String
  | .serverPort => "server_port"
  | .maxSessions => "max_sessions"
  | .maxSubscriptions => "max_subscriptions"

/-- The names of the fields in a JSON text. -/
def jsonNames : List (List Char) :=
  ["server_application_name".toList, "server_product_uri".toList, "server_bind_address".toList,
    "server_port".toList, "server_endpoint_path".toList, "security_mode".toList,
    "security_policy".toList, "max_sessions".toList, "max_subscriptions".toList,
    "logging_level".toList, "logging_target".toList, "address_space_mode".toList,
    "address_space_path".toList]

/-- The members of an object give exactly the fields of a configuration. -/
structure Denotes (ms : List (List Char × Json.Value)) (config : ServerConfig) : Prop where
  /-- The names are the names of the fields, each once. -/
  names : (ms.map Prod.fst).Perm jsonNames
  /-- A text field is the encoding of a string without NUL. -/
  text : ∀ f : TextField, ∃ cs, (f.jsonName.toList, .string cs) ∈ ms ∧ '\x00' ∉ cs ∧
    config.text f = Utf8.encode cs
  /-- An integer field is the value of a number written as an integer. -/
  int : ∀ f : IntField, ∃ n, (f.jsonName.toList, .number n) ∈ ms ∧ n.IsInteger ∧
    (config.int f).toInt = n.intValue

/-- Whether an object denotes a configuration does not depend on the order of its members. -/
theorem Denotes.perm {ms ms' : List (List Char × Json.Value)} {config : ServerConfig}
    (h : Denotes ms config) (hperm : ms.Perm ms') :
  Denotes ms' config
  := by
  constructor
  · apply (hperm.symm.map Prod.fst).trans h.names
  · intro f
    obtain ⟨cs, hmem, h⟩ := h.text f
    use cs, hperm.mem_iff.mp hmem
  · intro f
    obtain ⟨n, hmem, h⟩ := h.int f
    use n, hperm.mem_iff.mp hmem

/-- The names are different. -/
theorem nodup_jsonNames :
  jsonNames.Nodup
  := by decide

theorem TextField.jsonName_mem (f : TextField) :
  f.jsonName.toList ∈ jsonNames
  := by
  cases f <;> decide

theorem IntField.jsonName_mem (f : IntField) :
  f.jsonName.toList ∈ jsonNames
  := by
  cases f <;> decide

/-- Every name is that of a text field or that of an integer field. -/
theorem exists_field_of_mem {name : List Char} (h : name ∈ jsonNames) :
  (∃ f : TextField, f.jsonName.toList = name) ∨ ∃ f : IntField, f.jsonName.toList = name
  := by
  simp only [jsonNames, List.mem_cons, List.not_mem_nil, or_false] at h
  rcases h with rfl | rfl | rfl | rfl | rfl | rfl | rfl | rfl | rfl | rfl | rfl | rfl | rfl
  · exact .inl ⟨.serverApplicationName, rfl⟩
  · exact .inl ⟨.serverProductUri, rfl⟩
  · exact .inl ⟨.serverBindAddress, rfl⟩
  · exact .inr ⟨.serverPort, rfl⟩
  · exact .inl ⟨.serverEndpointPath, rfl⟩
  · exact .inl ⟨.securityMode, rfl⟩
  · exact .inl ⟨.securityPolicy, rfl⟩
  · exact .inr ⟨.maxSessions, rfl⟩
  · exact .inr ⟨.maxSubscriptions, rfl⟩
  · exact .inl ⟨.loggingLevel, rfl⟩
  · exact .inl ⟨.loggingTarget, rfl⟩
  · exact .inl ⟨.addressSpaceMode, rfl⟩
  · exact .inl ⟨.addressSpacePath, rfl⟩

/-- The bytes of the names. -/
theorem encode_jsonNames :
  ∀ name ∈ jsonNames, Utf8.encode name = name.map Char.toUInt8 ∧ '\x00' ∉ name
  := by decide

/-- The encoding of the name of a text field is its ASCII text. -/
theorem TextField.encode_jsonName (f : TextField) :
  Utf8.encode f.jsonName.toList = ascii f.jsonName
  := (encode_jsonNames _ f.jsonName_mem).1

/-- The encoding of the name of an integer field is its ASCII text. -/
theorem IntField.encode_jsonName (f : IntField) :
  Utf8.encode f.jsonName.toList = ascii f.jsonName
  := (encode_jsonNames _ f.jsonName_mem).1

end ServerConfig

end OpcuaServer
