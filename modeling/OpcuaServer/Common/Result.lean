/-!
# Byte strings and results

A `std::string` is the list of its bytes. `Result α` is either a value or the message of an
error status, and a `Status` is a result without a value.
-/

namespace OpcuaServer

/-- The bytes of a `std::string`. -/
abbrev Bytes := List UInt8

/-- The bytes of a text of the source. All of them are ASCII. -/
def ascii (text : String) : Bytes :=
  text.toList.map Char.toUInt8

/-- The text up to its first NUL, as a C string is read. -/
def cString (text : Bytes) : Bytes :=
  text.takeWhile (· ≠ 0)

/-- A value, or the message of an error status. -/
abbrev Result (α : Type) := Except Bytes α

/-- The outcome of an operation without a value: `ok`, or an error with its message. -/
abbrev Status := Result Unit

/-- `Status::Ok()`. -/
abbrev Status.okStatus : Status := .ok ()

/-- An operation and what follows it succeed if both do. -/
theorem Result.bind_eq_ok_iff {α β : Type} {x : Result α} {f : α → Result β} {b : β} :
  (x >>= f) = .ok b ↔ ∃ a, x = .ok a ∧ f a = .ok b
  := by
  cases x with
  | error message =>
    constructor
    · rintro ⟨⟩
    · rintro ⟨a, ⟨⟩, -⟩
  | ok a =>
    constructor
    · intro h
      exact ⟨a, rfl, h⟩
    · rintro ⟨a, ⟨⟩, h⟩
      apply h

end OpcuaServer
