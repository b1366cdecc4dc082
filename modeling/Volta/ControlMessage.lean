/-
Control messages between agent and server (`types/transport.proto`), and the
agents that the server lists to the dashboard (`types/agent.proto`).

`MessageType` is an open proto3 enumeration: a number without a name is kept
as it is.
-/
import Mathlib.Data.Nat.Notation

namespace Volta

inductive MessageType where
  | unknown
  | sendData
  | streamData
  | ok
  | error
  | ping
  | pong
  | id
  | unrecognized (n : Int32)
  deriving DecidableEq

/-- The names that `String()` gives. -/
def MessageType.string : MessageType → String
  | .unknown => "MESSAGE_UNKNOWN"
  | .sendData => "MESSAGE_SEND_DATA"
  | .streamData => "MESSAGE_STREAM_DATA"
  | .ok => "MESSAGE_OK"
  | .error => "MESSAGE_ERROR"
  | .ping => "MESSAGE_PING"
  | .pong => "MESSAGE_PONG"
  | .id => "MESSAGE_ID"
  | .unrecognized n => toString n.toInt

/-- The payload is `none` when that field of the oneof is not set. -/
structure ControlMessage where
  type : MessageType := .unknown
  payload : Option String := none
  deriving DecidableEq

/-- `msg.payload()`, empty when the field is not set. -/
def ControlMessage.getPayload (msg : ControlMessage) : String := msg.payload.getD ""

inductive AgentStatus where
  | unknown
  | connected
  | disconnected
  | streaming
  deriving DecidableEq

structure Agent where
  id : String := ""
  status : AgentStatus := .unknown
  deriving DecidableEq

end Volta
