/-
  TraceRelay — the statuses a decode engine answers with.

  * `Status.code` and `Status.ofCode?` number the statuses from 0 to 13;
  * `Status.disposition` says how a session takes a status;
  * `Status.accepted` is the verdict on a request that allows only success.
-/
import TraceRelay.Named

namespace TraceRelay

/-- The engine's statuses. -/
inductive Status where
  | ok
  | fail
  | memory
  /-- A component was used before it was initialised. -/
  | notInitialised
  /-- The trace source's number is not valid. -/
  | invalidId
  /-- A handle given to the engine is not valid. -/
  | badHandle
  /-- A parameter is out of range. -/
  | invalidParam
  /-- A memory image's file cannot be opened. -/
  | fileError
  /-- The decoder does not support a packet's type. -/
  | unsupportedPacket
  /-- Packets arrived in an impossible order. -/
  | badPacketSequence
  /-- A packet's content cannot be decoded. -/
  | badPacket
  /-- The decoder cannot go on. -/
  | dataDecodeFatal
  /-- A memory image overlaps an earlier one. -/
  | imageOverlap
  /-- A flush has drained all that was buffered. -/
  | flushComplete
deriving DecidableEq, Repr, Inhabited

instance : Named Status where
  all := [.ok, .fail, .memory, .notInitialised, .invalidId, .badHandle, .invalidParam,
    .fileError, .unsupportedPacket, .badPacketSequence, .badPacket, .dataDecodeFatal,
    .imageOverlap, .flushComplete]
  name
    | .ok => "Ok"
    | .fail => "Fail"
    | .memory => "Memory"
    | .notInitialised => "NotInitialised"
    | .invalidId => "InvalidId"
    | .badHandle => "BadHandle"
    | .invalidParam => "InvalidParam"
    | .fileError => "FileError"
    | .unsupportedPacket => "UnsupportedDecodePacket"
    | .badPacketSequence => "BadPacketSequence"
    | .badPacket => "BadDecodePacket"
    | .dataDecodeFatal => "DataDecodeFatal"
    | .imageOverlap => "MemoryAccessOverlap"
    | .flushComplete => "FlushComplete"

namespace Status

/-- The number of a status. -/
def code : Status → UInt32
  | ok => 0
  | fail => 1
  | memory => 2
  | notInitialised => 3
  | invalidId => 4
  | badHandle => 5
  | invalidParam => 6
  | fileError => 7
  | unsupportedPacket => 8
  | badPacketSequence => 9
  | badPacket => 10
  | dataDecodeFatal => 11
  | imageOverlap => 12
  | flushComplete => 13

/-- The status with a given number. -/
def ofCode? (n : UInt32) : Option Status :=
  (Named.all : List Status)[n.toNat]?

/-- The text of a status. -/
def message : Status → String
  | ok => "no error"
  | fail => "general failure"
  | memory => "memory allocation failure"
  | notInitialised => "component not initialised"
  | invalidId => "invalid trace source id"
  | badHandle => "invalid handle"
  | invalidParam => "invalid parameter value"
  | fileError => "file access error"
  | unsupportedPacket => "unsupported decode packet"
  | badPacketSequence => "bad packet sequence"
  | badPacket => "bad decode packet"
  | dataDecodeFatal => "fatal data decode error"
  | imageOverlap => "memory accessor range overlap"
  | flushComplete => "flush complete"

end Status

/-- How a session takes a status. -/
inductive Disposition where
  | success
  /-- Not fatal: the count of consumed bytes is still meaningful. -/
  | soft
  /-- The session must latch an error. -/
  | fatal
deriving DecidableEq, Repr

namespace Status

/-- How a session takes a status: all but three are fatal. -/
def disposition : Status → Disposition
  | ok | flushComplete => .success
  | unsupportedPacket => .soft
  | _ => .fatal

/-- The verdict on a request: only success is acceptance. -/
def accepted (s : Status) : Except Status Unit :=
  match s.disposition with
  | .success => .ok ()
  | .soft | .fatal => .error s

end Status

end TraceRelay
