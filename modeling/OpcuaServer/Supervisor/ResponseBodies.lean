import OpcuaServer.Supervisor.ApiHandlers
import OpcuaServer.Supervisor.ConfigJsonCompleteness

/-!
# The bodies of responses

Whatever bytes a message, a diagnostic or a text field has, the body that embeds it is a JSON text,
and denotes the bytes with U+FFFD in place of each byte at which no UTF-8 sequence starts.
-/

namespace OpcuaServer

namespace ApiServer

open ServerConfig

/-! ### Bodies of one object -/

/-- The value of an error body, where `message` are the characters of the message. -/
def errorValue (message : List Char) : Json.Value :=
  .object [("error".toList, .string message)]

/-- The value of a status body, where `diagnostic` are the characters of the diagnostic. -/
def statusValue (status : ProcessStatus) (diagnostic : List Char) : Json.Value :=
  .object [("state".toList, .string (processStateName status.state).toList),
    ("exit_code".toList, .number (jsonNumber status.exitCode)),
    ("diagnostic".toList, .string diagnostic)]

/-- The body of an error response is a text of its message. -/
theorem text_setError (status : ℕ) {message : Bytes} {cs : List Char}
    (h : Utf8.Repairs message cs) :
  Json.Text (setError status message).body (errorValue cs)
  := by
  have hbody : (setError status message).body = Json.compactObject
      [("error".toList, [0x22] ++ escapeJsonString message ++ [0x22])] := by
    have hopen : ascii "\x7b\"error\":\""
        = [0x7B] ++ Json.shortString "error".toList ++ [0x3A, 0x22] := by decide +kernel
    have hclose : ascii "\"\x7d" = [0x22, 0x7D] := by decide
    simp only [setError, setJson, hopen, hclose, Json.compactObject, Json.compactMembers,
      List.append_assoc, List.cons_append, List.nil_append]
  rw [hbody]
  apply Json.Text.compactObject
  · apply List.Forall₂.cons _ .nil
    exact ⟨rfl, .string (stringLit_escapeJsonString h)⟩
  · apply List.cons_ne_nil

/-- The name of a state is written as it is. -/
theorem shortString_processStateName (state : ProcessState) :
  Json.shortString (processStateName state).toList
    = [0x22] ++ ascii (processStateName state) ++ [0x22]
  := by
  cases state <;> decide +kernel

/-- The body of a status response is a text of the status. -/
theorem text_statusToJson {status : ProcessStatus} {cs : List Char}
    (h : Utf8.Repairs status.diagnostic cs) :
  Json.Text (statusToJson status) (statusValue status cs)
  := by
  have hbody : statusToJson status = Json.compactObject
      [("state".toList, Json.shortString (processStateName status.state).toList),
        ("exit_code".toList, stdToString status.exitCode),
        ("diagnostic".toList, [0x22] ++ escapeJsonString status.diagnostic ++ [0x22])] := by
    have h₁ : ascii "\x7b\"state\":\""
        = [0x7B] ++ Json.shortString "state".toList ++ [0x3A, 0x22] := by decide +kernel
    have h₂ : ascii "\",\"exit_code\":"
        = [0x22, 0x2C] ++ Json.shortString "exit_code".toList ++ [0x3A] := by decide +kernel
    have h₃ : ascii ",\"diagnostic\":\""
        = [0x2C] ++ Json.shortString "diagnostic".toList ++ [0x3A, 0x22] := by decide +kernel
    have hclose : ascii "\"\x7d" = [0x22, 0x7D] := by decide
    simp only [statusToJson, h₁, h₂, h₃, hclose, shortString_processStateName, Json.compactObject,
      Json.compactMembers, List.append_assoc, List.cons_append, List.nil_append]
  rw [hbody]
  apply Json.Text.compactObject
  · apply List.Forall₂.cons ⟨rfl, .string (.shortString _)⟩
    apply List.Forall₂.cons ⟨rfl, derives_stdToString _⟩
    apply List.Forall₂.cons ⟨rfl, .string (stringLit_escapeJsonString h)⟩ .nil
  · apply List.cons_ne_nil

/-! ### Any bytes -/

end ApiServer

end OpcuaServer
