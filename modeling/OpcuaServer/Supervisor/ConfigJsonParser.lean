import OpcuaServer.Config.ServerConfig
import OpcuaServer.Supervisor.JsonText

/-!
# The parser of the configuration

`ConfigJsonParser α` is a member function of the class: it reads `input_` and moves
`position_`, and ends in a value, in an error status or in a fault. The faults are what the
C++ code must never do: read `input_` at an index that is not below its size, compute a sum of
`std::size_t` that wraps around, move `position_` beyond the end of `input_`, or repeat a loop
without end. A loop without end is one that is repeated more often than the input has bytes.
-/

namespace OpcuaServer

/-- What the parser must never do. -/
inductive Fault where
  | outOfBounds (index : ℕ)
  | wrap (sum : ℕ)
  | overrun (position : ℕ)
  | endless
  deriving DecidableEq

/-- What a member function ends in: a value or the message of an error, with the position it
leaves behind, or a fault. -/
inductive Outcome (α : Type) where
  | value (a : α) (position : ℕ)
  | error (message : Bytes) (position : ℕ)
  | fault (f : Fault)
  deriving DecidableEq

/-- A member function of the parser, as a function of `input_` and `position_`. -/
def ConfigJsonParser (α : Type) : Type :=
  Bytes → ℕ → Outcome α

/-- A JSON value of the configuration: `struct JsonValue`. -/
inductive JsonValue where
  | string (stringValue : Bytes)
  | integer (integerValue : Int32)
  deriving DecidableEq

/-- The members read so far, with different names: `JsonObject`. -/
abbrev JsonObject := List (Bytes × JsonValue)

namespace JsonObject

/-- `object.find(field)`. -/
def find (object : JsonObject) (field : Bytes) : Option JsonValue :=
  List.lookup field object

/-- `object.emplace(key, value)`, `none` where the key is already there. -/
def emplace (object : JsonObject) (key : Bytes) (value : JsonValue) : Option JsonObject :=
  if (object.find key).isSome then none else some (object ++ [(key, value)])

end JsonObject

/-- `IsKnownField`. -/
def isKnownField (field : Bytes) : Bool :=
  [ascii "server_application_name", ascii "server_product_uri", ascii "server_bind_address",
    ascii "server_port", ascii "server_endpoint_path", ascii "security_mode",
    ascii "security_policy", ascii "max_sessions", ascii "max_subscriptions",
    ascii "logging_level", ascii "logging_target", ascii "address_space_mode",
    ascii "address_space_path"].contains field

namespace ConfigJsonParser

variable {α β σ : Type}

/-- Return a value. -/
protected def pure (a : α) : ConfigJsonParser α :=
  fun _ position => .value a position

/-- Go on with the value of a member function; its errors are returned. -/
protected def bind (p : ConfigJsonParser α) (f : α → ConfigJsonParser β) : ConfigJsonParser β :=
  fun input position =>
    match p input position with
    | .value a position => f a input position
    | .error message position => .error message position
    | .fault f => .fault f

instance : Monad ConfigJsonParser where
  pure := ConfigJsonParser.pure
  bind := ConfigJsonParser.bind

/-- Return an error status. -/
def fail (message : Bytes) : ConfigJsonParser α :=
  fun _ position => .error message position

/-- `position_`. -/
def position : ConfigJsonParser ℕ :=
  fun _ position => .value position position

/-- `position_ = target`. -/
def setPosition (target : ℕ) : ConfigJsonParser Unit :=
  fun input _ => if target ≤ input.length then .value () target else .fault (.overrun target)

/-- `input_.size()`. -/
def size : ConfigJsonParser ℕ :=
  fun input position => .value input.length position

/-- `position_ >= input_.size()`. -/
def atEnd : ConfigJsonParser Bool :=
  fun input position => .value (decide (input.length ≤ position)) position

/-- `input_[index]`. -/
def read (index : ℕ) : ConfigJsonParser UInt8 :=
  fun input position =>
    match input[index]? with
    | some ch => .value ch position
    | none => .fault (.outOfBounds index)

/-- `input_[position_]`. -/
def current : ConfigJsonParser UInt8 :=
  fun input position => read position input position

/-- `++position_`. -/
def advance : ConfigJsonParser Unit :=
  fun input position => setPosition (position + 1) input position

/-- `input_[position_++]`. -/
def next : ConfigJsonParser UInt8 := do
  let ch ← current
  advance
  return ch

/-- `position_ + n` in 64 bits. -/
def positionPlus (n : ℕ) : ConfigJsonParser ℕ :=
  fun _ position =>
    if position + n < 2 ^ 64 then .value (position + n) position else .fault (.wrap (position + n))

/-- `position_ < input_.size() && test(input_[position_])`. -/
def atByte (test : UInt8 → Bool) : ConfigJsonParser Bool := do
  if ← atEnd then return false
  else return test (← current)

/-- Repeat the body of a loop until it gives a result. -/
def iterate (body : σ → ConfigJsonParser (σ ⊕ β)) : ℕ → σ → ConfigJsonParser β
  | 0, _ => fun _ _ => .fault .endless
  | fuel + 1, s => do
      match ← body s with
      | .inl s => iterate body fuel s
      | .inr b => return b

/-- A loop with the state `s` before its first iteration. -/
def loop (body : σ → ConfigJsonParser (σ ⊕ β)) (s : σ) : ConfigJsonParser β :=
  fun input position => iterate body (input.length + 1) s input position

/-- `SkipWhitespace`. -/
def skipWhitespace : ConfigJsonParser Unit :=
  loop (fun _ => do
    if ← atByte isJsonWhitespace then
      advance
      return .inl ()
    else return .inr ()) ()

/-- `Consume`. -/
def consume (expected : UInt8) : ConfigJsonParser Bool := do
  skipWhitespace
  if ← atByte (· == expected) then
    advance
    return true
  else return false

/-- The loop of `parseHexCodeUnit` over the digits that are left. -/
def hexDigits : ℕ → ℕ → ConfigJsonParser ℕ
  | 0, value => return value
  | count + 1, value => do
      let digit := hexDigit (← next)
      if digit < 0 then fail (ascii "invalid Unicode escape")
      else hexDigits count (value <<< 4 ||| digit.toNat)

/-- `ParseHexCodeUnit`. -/
def parseHexCodeUnit : ConfigJsonParser ℕ := do
  if (← positionPlus 4) > (← size) then fail (ascii "incomplete Unicode escape")
  else hexDigits 4 0

/-- The low surrogate after a high surrogate, and the code point of the two. -/
def parseLowSurrogate (codePoint : ℕ) : ConfigJsonParser ℕ := do
  let stop ← positionPlus 2
  if stop > (← size) then fail (ascii "high surrogate missing low surrogate")
  else if (← current) ≠ 0x5C then fail (ascii "high surrogate missing low surrogate")
  else if (← read (← positionPlus 1)) ≠ 0x75 then
    fail (ascii "high surrogate missing low surrogate")
  else
    setPosition stop
    let low ← parseHexCodeUnit
    if low < 0xDC00 ∨ low > 0xDFFF then fail (ascii "invalid low surrogate")
    else return 0x10000 + (codePoint - 0xD800) <<< 10 + (low - 0xDC00)

/-- The code point of a `\u` escape, after the `u`. -/
def parseCodePoint : ConfigJsonParser ℕ := do
  let codePoint ← parseHexCodeUnit
  if codePoint ≥ 0xD800 ∧ codePoint ≤ 0xDBFF then parseLowSurrogate codePoint
  else if codePoint ≥ 0xDC00 ∧ codePoint ≤ 0xDFFF then fail (ascii "unexpected low surrogate")
  else return codePoint

/-- An escape after its backslash: the string read so far with its character appended. -/
def parseEscape (value : Bytes) : ConfigJsonParser Bytes := do
  let escape ← next
  if escape = 0x22 ∨ escape = 0x5C ∨ escape = 0x2F then return value ++ [escape]
  else if escape = 0x62 then return value ++ [0x08]
  else if escape = 0x66 then return value ++ [0x0C]
  else if escape = 0x6E then return value ++ [0x0A]
  else if escape = 0x72 then return value ++ [0x0D]
  else if escape = 0x74 then return value ++ [0x09]
  else if escape = 0x75 then
    let codePoint ← parseCodePoint
    if codePoint = 0 then fail (ascii "NUL is not allowed in configuration strings")
    else return appendCodePoint codePoint value
  else fail (ascii "invalid JSON escape")

/-- `ValidUtf8SequenceLength(input_, position_)`. -/
def sequenceLengthAt : ConfigJsonParser ℕ :=
  fun input position =>
    match validUtf8SequenceLength input position with
    | some length => .value length position
    | none => .fault (.outOfBounds position)

/-- `ValidUtf8SequenceLength(input_, position_)` with its sums of `position_` and of an offset
in the sequence, which are at most `position_ + 4`. -/
def sequenceLength : ConfigJsonParser ℕ := do
  let _ ← positionPlus 4
  sequenceLengthAt

/-- The `length` bytes of `input_` from `position_` on. -/
def bytes (length : ℕ) : ConfigJsonParser Bytes :=
  fun input position => .value ((input.drop position).take length) position

/-- What an iteration of the loop of `parseString` does with a byte it has read at `start`. -/
def stringByte (value : Bytes) (start : ℕ) (ch : UInt8) : ConfigJsonParser (Bytes ⊕ Bytes) := do
  if ch = 0x22 then return .inr value
  else if ch < 0x20 then fail (ascii "unescaped control character in JSON string")
  else if ch ≥ 0x80 then
    setPosition start
    let length ← sequenceLength
    if length = 0 then fail (ascii "invalid UTF-8 in JSON string")
    else
      let sequence ← bytes length
      setPosition (← positionPlus length)
      return .inl (value ++ sequence)
  else if ch ≠ 0x5C then return .inl (value ++ [ch])
  else if ← atEnd then fail (ascii "incomplete JSON escape")
  else return .inl (← parseEscape value)

/-- One iteration of the loop of `parseString`. -/
def stringStep (value : Bytes) : ConfigJsonParser (Bytes ⊕ Bytes) := do
  if ← atEnd then fail (ascii "unterminated JSON string")
  else
    let start ← position
    stringByte value start (← next)

/-- `ParseString`. -/
def parseString : ConfigJsonParser Bytes := do
  skipWhitespace
  if ← atByte (· == 0x22) then
    advance
    loop stringStep []
  else fail (ascii "expected JSON string")

/-- `position_ < input_.size() && input_[position_] >= '0' && input_[position_] <= '9'`. -/
def atDigit : ConfigJsonParser Bool :=
  atByte fun ch => decide (Decimal.IsDigit ch)

/-- The optional minus sign of an integer. -/
def scanMinus : ConfigJsonParser Unit := do
  if ← atByte (· == 0x2D) then advance
  else return ()

/-- The digits of an integer. -/
def scanDigits : ConfigJsonParser Unit := do
  if ← atDigit then
    if (← current) = 0x30 then
      advance
      if ← atDigit then fail (ascii "JSON integer has a leading zero")
      else return ()
    else
      loop (fun _ => do
        if ← atDigit then
          advance
          return .inl ()
        else return .inr ()) ()
  else fail (ascii "expected JSON integer")

/-- `ParseInteger`. -/
def parseInteger : ConfigJsonParser Int32 := do
  skipWhitespace
  let start ← position
  scanMinus
  scanDigits
  let stop ← position
  setPosition start
  let text ← bytes (stop - start)
  setPosition stop
  match stdFromChars text with
  | some (value, []) => return value
  | _ => fail (ascii "JSON integer is out of range")

/-- The value of a member. -/
def parseValue : ConfigJsonParser JsonValue := do
  skipWhitespace
  if ← atByte (· == 0x22) then return .string (← parseString)
  else return .integer (← parseInteger)

/-- One iteration of the loop of `parseObject`. -/
def memberStep (object : JsonObject) : ConfigJsonParser (JsonObject ⊕ JsonObject) := do
  let key ← parseString
  if !isKnownField key then fail (ascii "unknown field: " ++ key)
  else if !(← consume 0x3A) then fail (ascii "expected colon after field name")
  else
    let value ← parseValue
    match object.emplace key value with
    | none => fail (ascii "duplicate field: " ++ key)
    | some object =>
        skipWhitespace
        if ← consume 0x7D then return .inr object
        else if ← consume 0x2C then return .inl object
        else fail (ascii "expected comma between fields")

/-- `ParseObject`. -/
def parseObject : ConfigJsonParser JsonObject := do
  if !(← consume 0x7B) then fail (ascii "expected JSON object")
  else
    skipWhitespace
    if ← consume 0x7D then return []
    else loop memberStep []

/-- `ReadString`. -/
def readString (object : JsonObject) (field : Bytes) : Result Bytes :=
  match object.find field with
  | none => .error (ascii "missing field: " ++ field)
  | some (.integer _) => .error (ascii "field must be a string: " ++ field)
  | some (.string value) => .ok value

/-- `ReadInteger`. -/
def readInteger (object : JsonObject) (field : Bytes) : Result Int32 :=
  match object.find field with
  | none => .error (ascii "missing field: " ++ field)
  | some (.string _) => .error (ascii "field must be an integer: " ++ field)
  | some (.integer value) => .ok value

/-- `BuildConfig`. -/
def buildConfig (object : JsonObject) : Result ServerConfig :=
  if object.length ≠ kConfigFieldCount then .error (ascii "configuration object is incomplete")
  else do
    let serverApplicationName ← readString object (ascii "server_application_name")
    let serverProductUri ← readString object (ascii "server_product_uri")
    let serverBindAddress ← readString object (ascii "server_bind_address")
    let serverPort ← readInteger object (ascii "server_port")
    let serverEndpointPath ← readString object (ascii "server_endpoint_path")
    let securityMode ← readString object (ascii "security_mode")
    let securityPolicy ← readString object (ascii "security_policy")
    let maxSessions ← readInteger object (ascii "max_sessions")
    let maxSubscriptions ← readInteger object (ascii "max_subscriptions")
    let loggingLevel ← readString object (ascii "logging_level")
    let loggingTarget ← readString object (ascii "logging_target")
    let addressSpaceMode ← readString object (ascii "address_space_mode")
    let addressSpacePath ← readString object (ascii "address_space_path")
    return { serverApplicationName, serverProductUri, serverBindAddress, serverPort,
             serverEndpointPath, securityMode, securityPolicy, maxSessions, maxSubscriptions,
             loggingLevel, loggingTarget, addressSpaceMode, addressSpacePath }

/-- Return a result. -/
def ofResult : Result α → ConfigJsonParser α
  | .ok a => return a
  | .error message => fail message

/-- `Parse`. -/
def parse : ConfigJsonParser ServerConfig := do
  if (← size) > kMaxConfigJsonBytes then fail (ascii "configuration JSON exceeds 65536 bytes")
  else
    let object ← parseObject
    skipWhitespace
    if (← position) ≠ (← size) then fail (ascii "trailing data after configuration object")
    else ofResult (buildConfig object)

/-- `ConfigJsonParser(input).Parse()`. A fault has no result in C++; it is given an error here. -/
def run (input : Bytes) : Result ServerConfig :=
  match parse input 0 with
  | .value config _ => .ok config
  | .error message _ => .error message
  | .fault _ => .error (ascii "fault")

end ConfigJsonParser

example : ConfigJsonParser.parseString (ascii " \"\\u0041\",") 0 = .value (ascii "A") 9 := by decide

end OpcuaServer
