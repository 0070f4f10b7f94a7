/-
  TraceRelay — elements, as the decode engine reports them.

  The engine describes each occurrence in one flat shape with a kind, and a
  kind leaves some of the fields unused.  Five of the twenty kinds have a
  counterpart among the events.

  * `Element.event?` is the event of an element, if it has one.
-/
import TraceRelay.Event
import TraceRelay.Named

namespace TraceRelay

/-! ## Elements -/

/-- The kinds of element. -/
inductive Element.Kind where
  /-- Not classified by the engine. -/
  | unknown
  /-- The decoder waits for synchronisation. -/
  | noSync
  | traceOn
  /-- Tracing stopped at the start address. -/
  | traceOff
  | endOfTrace
  /-- A change of the processing element's context. -/
  | context
  | instrRange
  /-- A block of which the path is not known. -/
  | instrRangeNoPath
  /-- An address outside every memory image. -/
  | addrNotAccessible
  /-- An address that is not known. -/
  | addrUnknown
  | exception
  | exceptionReturn
  | timestamp
  | cycleCount
  /-- An event of the trace hardware. -/
  | event
  | swTrace
  | syncMarker
  | memoryTransaction
  | instrumentation
  | custom
deriving DecidableEq, Repr, Inhabited

instance : Named Element.Kind where
  all := [.unknown, .noSync, .traceOn, .traceOff, .endOfTrace, .context, .instrRange,
    .instrRangeNoPath, .addrNotAccessible, .addrUnknown, .exception, .exceptionReturn,
    .timestamp, .cycleCount, .event, .swTrace, .syncMarker, .memoryTransaction,
    .instrumentation, .custom]
  name
    | .unknown => "Unknown"
    | .noSync => "NoSync"
    | .traceOn => "TraceOn"
    | .traceOff => "TraceOff"
    | .endOfTrace => "EndOfTrace"
    | .context => "PeContext"
    | .instrRange => "InstrRange"
    | .instrRangeNoPath => "InstrRangeNoPath"
    | .addrNotAccessible => "AddrNotAccessible"
    | .addrUnknown => "AddrUnknown"
    | .exception => "Exception"
    | .exceptionReturn => "ExceptionReturn"
    | .timestamp => "Timestamp"
    | .cycleCount => "CycleCount"
    | .event => "Event"
    | .swTrace => "SwTrace"
    | .syncMarker => "SyncMarker"
    | .memoryTransaction => "MemoryTransaction"
    | .instrumentation => "InstrumentationTrace"
    | .custom => "Custom"

/-- The class of the last instruction of a block. -/
inductive LastInstr where
  /-- No branch, or not classified. -/
  | other
  | branch
  | indirectBranch
  | isb
  | dataBarrier
  | wait
  | transactionStart
deriving DecidableEq, Repr, Inhabited

instance : Named LastInstr where
  all := [.other, .branch, .indirectBranch, .isb, .dataBarrier, .wait, .transactionStart]
  name
    | .other => "Other"
    | .branch => "Br"
    | .indirectBranch => "BrIndirect"
    | .isb => "Isb"
    | .dataBarrier => "DsbDmb"
    | .wait => "WfiWfe"
    | .transactionStart => "Tstart"

/-- The context of the processing element. -/
structure Context where
  /-- The context number, meaningful if `idValid`. -/
  id : UInt32 := 0
  /-- Whether `id` carries a value. -/
  idValid : Bool := false
  /-- The virtual machine's number, meaningful if `vmidValid`. -/
  vmid : UInt32 := 0
  /-- Whether `vmid` carries a value. -/
  vmidValid : Bool := false
  /-- Whether the core ran in its 64-bit state. -/
  bits64 : Bool := false
deriving DecidableEq, Repr, Inhabited

/-- One element. -/
structure Element where
  kind : Element.Kind := .unknown
  start : UInt64 := 0
  /-- The exclusive end address of a block. -/
  stop : UInt64 := 0
  /-- The class of the last instruction of a block. -/
  lastInstr : LastInstr := .other
  /-- Nanoseconds, 0 if not known. -/
  timestamp : UInt64 := 0
  context : Context := {}
  exception : UInt32 := 0
deriving DecidableEq, Repr, Inhabited

/-! ## The event of an element -/

/-- The core that an element's context names: context numbers from 2^31 on
    name none. -/
def Context.cpu (c : Context) : Int32 :=
  if c.idValid ∧ c.id.toNat < 0x80000000 then Int32.ofNat c.id.toNat else unknownCpu

/-- The kind of event that a block is, by the branch that ended it. -/
def LastInstr.blockKind (start stop : UInt64) : LastInstr → Event.Kind
  | .indirectBranch => .ret start stop
  | .branch => .call start stop
  | _ => .block start stop

/-- The kind of event that an element stands for, if any. -/
def Element.eventKind? (x : Element) : Option Event.Kind :=
  match x.kind with
  | .instrRange => some (x.lastInstr.blockKind x.start x.stop)
  | .traceOn => some (.traceOn x.start)
  | .traceOff => some (.traceOff x.start)
  | .exception => some (.exception x.start x.exception)
  | .exceptionReturn => some (.exceptionReturn x.start)
  | _ => none

/-- The event of an element, if it has one.  Only blocks have a core. -/
def Element.event? (x : Element) : Option Event :=
  x.eventKind?.map fun kind =>
    ⟨kind, x.timestamp, if kind.isBlock then x.context.cpu else unknownCpu⟩

end TraceRelay
