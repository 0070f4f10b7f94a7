/-
  TraceRelay — replies of a host engine.

  A host decodes a buffer in one go and replies with a status code, the count of
  consumed bytes and the elements that it found.

  * `HostReply.format` is the JSON format of replies: every field may be left
    out;
  * `HostReply.replay` makes the reports of a reply, one element after the other,
    and stops at the first that is not welcome.
-/
import TraceRelay.Engine.Basic
import TraceRelay.Json.Formats

namespace TraceRelay

/-- What a host replies to one request for decoding. -/
structure HostReply where
  status : UInt32 := 0
  consumed : UInt64 := 0
  elements : List Element := []
deriving DecidableEq, Repr, Inhabited

/-- The format of host replies. -/
def HostReply.format : RecordFormat HostReply where
  fields := [
    .of "status" .word32 HostReply.status fun b a => { a with status := b },
    .of "consumed" .word64 HostReply.consumed fun b a => { a with consumed := b },
    .of "elements" (.list Element.format.codec) HostReply.elements
      fun b a => { a with elements := b }]
  blank := {}
  required := false

/-- The status that a host's code stands for: a general failure if it stands for
    none. -/
def Status.ofHostCode (n : UInt32) : Status :=
  (ofCode? n).getD .fail

/-- Reports the elements in order and yields `outcome`, or, if a report is
    answered by an abort, reports no more and yields a fatal outcome. -/
def replayElements (index : UInt64) (traceId : UInt8) (outcome : Outcome) :
    List Element → Reporting Outcome
  | [] => .done outcome
  | element :: rest =>
    .report ⟨index, traceId, element⟩ fun
      | .proceed => replayElements index traceId outcome rest
      | .abort => .done ⟨.dataDecodeFatal, 0⟩

/-- The reports of a reply. -/
def HostReply.replay (index : UInt64) (traceId : UInt8) (reply : HostReply) : Reporting Outcome :=
  replayElements index traceId ⟨.ofHostCode reply.status, reply.consumed⟩ reply.elements

end TraceRelay
