/-
  TraceRelay — the configuration of a session.

  * `Config.ofSelectors` builds one from the numbers that hosts pass;
  * `Config.decoder` is the description of the decoder that a session asks
    the engine for.
-/
import TraceRelay.Arch

namespace TraceRelay

/-- The slots of a session's event queue if nothing else is asked for. -/
def defaultCapacity : UInt64 := 256

/-- The greatest number of a trace source. -/
def maxTraceId : UInt8 := 0x7F

/-- What a session is created from. -/
structure Config where
  /-- Carried, and not interpreted. -/
  protocol : Int32 := 0
  traceId : UInt8 := 0
  arch : Arch := .etmV4
  /-- The slots that the event queue starts with. -/
  capacity : UInt64 := defaultCapacity
  /-- The slots that the event queue may grow to, if there is a bound. -/
  limit : Option UInt64 := none
deriving DecidableEq, Repr, Inhabited

namespace Config

/-- The configuration for the selectors of a host. -/
def ofSelectors (protocol : Int32) (traceId : UInt8) (selector : Int32) : Config :=
  { protocol, traceId, arch := .ofSelector selector }

/-- Whether the trace source's number is one that a source can have.  Other
    numbers are warned about and still passed on. -/
def traceIdValid (c : Config) : Bool :=
  c.traceId ≤ maxTraceId

/-- The description of the decoder. -/
def decoder (c : Config) : DecoderConfig :=
  ⟨c.traceId, c.arch.setup⟩

/-- The bound on the event queue's slots: the greatest 64-bit number if none
    is set. -/
def slotLimit (c : Config) : UInt64 :=
  c.limit.getD (UInt64.ofNat (UInt64.size - 1))

end Config

end TraceRelay
