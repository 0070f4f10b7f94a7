/-
  TraceRelay — the JSON formats of the library's types.

  Types with named values are written as their names.  The other types are
  records, apart from the kind of an event, which is a sum.  Contexts, elements
  and configurations may leave fields out, which then have the type's default.
  Events, flat records and decoder descriptions must be complete.
-/
import TraceRelay.Config
import TraceRelay.Element
import TraceRelay.Json.Variant

namespace TraceRelay

/-! ## Elements -/

/-- The format of contexts. -/
def Context.format : RecordFormat Context where
  fields := [
    .of "ctxt_id" .word32 Context.id fun b a => { a with id := b },
    .of "ctxt_id_valid" .bool Context.idValid fun b a => { a with idValid := b },
    .of "vmid" .word32 Context.vmid fun b a => { a with vmid := b },
    .of "vmid_valid" .bool Context.vmidValid fun b a => { a with vmidValid := b },
    .of "bits64" .bool Context.bits64 fun b a => { a with bits64 := b }]
  blank := {}
  required := false

/-- The format of elements. -/
def Element.format : RecordFormat Element where
  fields := [
    .of "elem_type" .named Element.kind fun b a => { a with kind := b },
    .of "st_addr" .word64 Element.start fun b a => { a with start := b },
    .of "en_addr" .word64 Element.stop fun b a => { a with stop := b },
    .of "last_instr_type" .named Element.lastInstr fun b a => { a with lastInstr := b },
    .of "timestamp" .word64 Element.timestamp fun b a => { a with timestamp := b },
    .of "context" Context.format.codec Element.context fun b a => { a with context := b },
    .of "exception_number" .word32 Element.exception fun b a => { a with exception := b }]
  blank := {}
  required := false

/-! ## Configurations -/

/-- The format of session configurations. -/
def Config.format : RecordFormat Config where
  fields := [
    .of "protocol" .int32 Config.protocol fun b a => { a with protocol := b },
    .of "trace_id" .word8 Config.traceId fun b a => { a with traceId := b },
    .of "arch" .named Config.arch fun b a => { a with arch := b },
    .of "queue_capacity" .word64 Config.capacity fun b a => { a with capacity := b },
    .of "queue_limit" (.optional .word64) Config.limit fun b a => { a with limit := b }]
  blank := {}
  required := false

/-- The format of decoder descriptions. -/
def DecoderRecord.format : RecordFormat DecoderRecord where
  fields := [
    .of "decoder" .text DecoderRecord.decoder fun b a => { a with decoder := b },
    .of "traceId" .word8 DecoderRecord.traceId fun b a => { a with traceId := b },
    .of "arch" .text DecoderRecord.core fun b a => { a with core := b },
    .of "profile" .text DecoderRecord.profile fun b a => { a with profile := b },
    .of "registers" (.list .word32) DecoderRecord.registers fun b a => { a with registers := b }]
  blank := ⟨"", 0, "", "", []⟩
  required := true

/-! ## Events -/

/-- The fields of a block: its start and its exclusive end. -/
def Event.Kind.blockFormat : RecordFormat (UInt64 × UInt64) where
  fields := [
    .of "from" .word64 Prod.fst fun b a => (b, a.2),
    .of "to" .word64 Prod.snd fun b a => (a.1, b)]
  blank := (0, 0)
  required := true

/-- The field of an occurrence at one address. -/
def Event.Kind.pointFormat : RecordFormat UInt64 where
  fields := [.of "from" .word64 id fun b _ => b]
  blank := 0
  required := true

/-- The fields of an exception: its address and its number. -/
def Event.Kind.exceptionFormat : RecordFormat (UInt64 × UInt32) where
  fields := [
    .of "from" .word64 Prod.fst fun b a => (b, a.2),
    .of "number" .word32 Prod.snd fun b a => (a.1, b)]
  blank := (0, 0)
  required := true

/-- The format of event kinds. -/
def Event.Kind.format : SumFormat Event.Kind where
  cases := [
    .of "InstructionRange" blockFormat fun p => .block p.1 p.2,
    .of "Call" blockFormat fun p => .call p.1 p.2,
    .of "Return" blockFormat fun p => .ret p.1 p.2,
    .of "TraceOn" pointFormat .traceOn,
    .of "TraceOff" pointFormat .traceOff,
    .of "Exception" exceptionFormat fun p => .exception p.1 p.2,
    .of "ExceptionReturn" pointFormat .exceptionReturn]
  write
    | .block a b => ("InstructionRange", blockFormat.members (a, b))
    | .call a b => ("Call", blockFormat.members (a, b))
    | .ret a b => ("Return", blockFormat.members (a, b))
    | .traceOn a => ("TraceOn", pointFormat.members a)
    | .traceOff a => ("TraceOff", pointFormat.members a)
    | .exception a n => ("Exception", exceptionFormat.members (a, n))
    | .exceptionReturn a => ("ExceptionReturn", pointFormat.members a)

/-- The format of events. -/
def Event.format : RecordFormat Event where
  fields := [
    .of "kind" Event.Kind.format.codec Event.kind fun b a => { a with kind := b },
    .of "timestamp" .word64 Event.timestamp fun b a => { a with timestamp := b },
    .of "cpu" .int32 Event.cpu fun b a => { a with cpu := b }]
  blank := ⟨.block 0 0, noTimestamp, unknownCpu⟩
  required := true

/-- The format of flat records. -/
def EventRecord.format : RecordFormat EventRecord where
  fields := [
    .of "kind" .word8 EventRecord.code fun b a => { a with code := b },
    .of "timestamp" .word64 EventRecord.timestamp fun b a => { a with timestamp := b },
    .of "from_addr" .word64 EventRecord.start fun b a => { a with start := b },
    .of "to_addr" .word64 EventRecord.stop fun b a => { a with stop := b },
    .of "cpu" .int32 EventRecord.cpu fun b a => { a with cpu := b },
    .of "exception_number" .word32 EventRecord.exception fun b a => { a with exception := b }]
  blank := {}
  required := true

end TraceRelay
