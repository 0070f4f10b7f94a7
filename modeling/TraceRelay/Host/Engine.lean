/-
  TraceRelay — engines that a host provides.

  The host offers four functions (`DecodeHost`) that speak in codes and values of
  its own; `HostEngine` makes a decode engine of them.  How the values that it
  replies with are read is part of what it offers.

  * `HostEngine.createTree` asks the host for its decode tree.
-/
import TraceRelay.Host.Reply
import TraceRelay.Host.Value

namespace TraceRelay

/-- The functions of a host with state `η`, and the reader of its replies. -/
class DecodeHost (η : Type) where
  /-- The values that the host replies with. -/
  Raw : Type
  /-- Creates a decode tree: for frames or not, and for aligned ones or not. -/
  createTree : Bool → Bool → η → UInt32 × η
  /-- Creates a decoder by its description. -/
  createDecoder : HostValue → η → UInt32 × η
  /-- Registers the file with the given name, from the first to the last address,
      from an offset in the file. -/
  addImage : String → UInt64 → UInt64 → UInt64 → η → UInt32 × η
  /-- Flushes, or decodes the bytes at an index of the stream. -/
  processData : Bool → UInt64 → ByteArray → η → Raw × η
  /-- Reads a value as a reply, or fails with the text of an error. -/
  readReply : Raw → Except String HostReply

/-- An engine that a host provides. -/
structure HostEngine (η : Type) where
  host : η
  traceId : UInt8
  /-- The failure of the conversion of a decoder's description, if it fails. -/
  fault : Option String := none

namespace HostEngine

variable {η : Type} [DecodeHost η]

/-- The two flags by which hosts know a layout: frames, and their alignment. -/
def formatFlags : SourceFormat → Bool × Bool
  | .frameFormatted memAligned => (true, memAligned)
  | .single => (false, false)

/-- Creates the host's decode tree. -/
def createTree (traceId : UInt8) (fault : Option String) (format : SourceFormat) (host : η) :
    Step η (Except Status (HostEngine η)) :=
  let (frames, aligned) := formatFlags format
  let (code, host) := DecodeHost.createTree frames aligned host
  ⟨(Status.ofHostCode code).accepted.map fun _ => { host, traceId, fault }, host, #[]⟩

instance : DecodeEngine (HostEngine η) where
  createDecoder config e :=
    match convert e.fault (DecoderRecord.ofConfig config) with
    | .error _ => ⟨.error .invalidParam, e, #[]⟩
    | .ok description =>
      let (code, host) := DecodeHost.createDecoder description e.host
      ⟨(Status.ofHostCode code).accepted, { e with host, traceId := config.traceId }, #[]⟩
  addImage range _ path fileOffset e :=
    match path.utf8? with
    | none => ⟨.error .fileError, e, #[]⟩
    | some name =>
      let (code, host) := DecodeHost.addImage name range.first range.last fileOffset e.host
      ⟨(Status.ofHostCode code).accepted, { e with host }, #[]⟩
  process op index data e :=
    let (raw, host) := DecodeHost.processData (op = .flush) index data e.host
    let e := { e with host }
    match DecodeHost.readReply raw with
    | .ok reply => (reply.replay index e.traceId).map fun outcome => ⟨outcome, e, #[]⟩
    | .error error => .done ⟨⟨.fail, 0⟩, e, #[.replyUnreadable error]⟩

end HostEngine

end TraceRelay
