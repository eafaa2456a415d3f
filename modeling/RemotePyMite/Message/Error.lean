import RemotePyMite.Message.Kind

/-! # What can go wrong with a message -/
namespace RemotePyMite

/-- Why the bytes of a message have no meaning, or a message has no bytes. -/
inductive MessageError where
  /-- The data does not have the layout of its kind. -/
  | malformed (kind : Kind) (reason : String)
  | notEncodable (kind : Kind)
  /-- There is more to send than the layout can describe. -/
  | tooLong (kind : Kind) (size max : Nat)
  | unknownType (id : UInt8)
  deriving DecidableEq, Repr

def MessageError.message : MessageError → String
  | .malformed kind reason => s!"malformed {kind.name} message: {reason}"
  | .notEncodable kind => s!"{kind.name} message cannot be encoded"
  | .tooLong kind size max => s!"{kind.name} payload too long ({size} bytes, max {max})"
  | .unknownType id => s!"unknown message type {id}"

end RemotePyMite
