/-
  TraceRelay — decoded events.

  An event is one occurrence in a program's execution: what happened and
  where (`Event.Kind`), when, and on which core.  Hosts that cannot hold a sum
  type get a flat record instead (`EventRecord`), in which the kind is a code
  and the fields that a kind does not have are zero.

  * `Event.toRecord` flattens an event;
  * `EventRecord.event?` reads a flat record back, or names the code that no
    kind has.
-/

namespace TraceRelay

/-! ## Events -/

/-- What happened, with its addresses.  A `stop` is exclusive. -/
inductive Event.Kind where
  /-- A contiguous block of executed instructions. -/
  | block (start stop : UInt64)
  /-- A block that ended in a direct branch. -/
  | call (start stop : UInt64)
  /-- A block that ended in an indirect branch. -/
  | ret (start stop : UInt64)
  /-- Tracing resumed at `start`. -/
  | traceOn (start : UInt64)
  /-- Tracing ceased at `start`. -/
  | traceOff (start : UInt64)
  /-- An exception was taken; `start` is the preferred return address. -/
  | exception (start : UInt64) (number : UInt32)
  | exceptionReturn (start : UInt64)
deriving DecidableEq, Repr, Inhabited

/-- The timestamp of an event whose time is not known. -/
def noTimestamp : UInt64 := 0

/-- The core of an event whose core is not known. -/
def unknownCpu : Int32 := -1

/-- One decoded occurrence. -/
structure Event where
  kind : Event.Kind
  /-- Nanoseconds, or `noTimestamp`. -/
  timestamp : UInt64
  /-- The core, or `unknownCpu`. -/
  cpu : Int32
deriving DecidableEq, Repr, Inhabited

namespace Event.Kind

/-- The code of a kind in flat records. -/
def code : Kind → UInt8
  | block .. => 0
  | call .. => 1
  | ret .. => 2
  | traceOn .. => 3
  | traceOff .. => 4
  | exception .. => 5
  | exceptionReturn .. => 6

/-- The start address, which every kind has. -/
def start : Kind → UInt64
  | block a _ | call a _ | ret a _ => a
  | traceOn a | traceOff a | exception a _ | exceptionReturn a => a

/-- The exclusive end address of a block. -/
def stop? : Kind → Option UInt64
  | block _ b | call _ b | ret _ b => some b
  | traceOn _ | traceOff _ | exception .. | exceptionReturn _ => none

/-- The number of an exception. -/
def exception? : Kind → Option UInt32
  | exception _ n => some n
  | _ => none

/-- Blocks, however they ended. -/
def isBlock : Kind → Bool
  | block .. | call .. | ret .. => true
  | _ => false

end Event.Kind

/-! ## Flat records -/

/-- An event in one fixed layout. -/
structure EventRecord where
  code : UInt8 := 0
  /-- Nanoseconds, 0 if not known. -/
  timestamp : UInt64 := 0
  start : UInt64 := 0
  /-- The exclusive end address, 0 for all but blocks. -/
  stop : UInt64 := 0
  /-- The core, -1 if not known. -/
  cpu : Int32 := 0
  /-- The number of an exception, 0 for all other kinds. -/
  exception : UInt32 := 0
deriving DecidableEq, Repr, Inhabited

/-- The record of an event. -/
def Event.toRecord (e : Event) : EventRecord where
  code := e.kind.code
  timestamp := e.timestamp
  start := e.kind.start
  stop := e.kind.stop?.getD 0
  cpu := e.cpu
  exception := e.kind.exception?.getD 0

/-- A record's code that no kind of event has. -/
structure UnknownCode where
  code : UInt8
deriving DecidableEq, Repr

/-- The text of an unknown code. -/
def UnknownCode.message (u : UnknownCode) : String :=
  s!"unknown event kind code {u.code}"

/-- The kind that a record's code stands for, with the fields of that kind. -/
def EventRecord.kind? (r : EventRecord) : Except UnknownCode Event.Kind :=
  match r.code with
  | 0 => .ok (.block r.start r.stop)
  | 1 => .ok (.call r.start r.stop)
  | 2 => .ok (.ret r.start r.stop)
  | 3 => .ok (.traceOn r.start)
  | 4 => .ok (.traceOff r.start)
  | 5 => .ok (.exception r.start r.exception)
  | 6 => .ok (.exceptionReturn r.start)
  | code => .error ⟨code⟩

/-- The event of a record.  Fields that its kind does not have are ignored. -/
def EventRecord.event? (r : EventRecord) : Except UnknownCode Event :=
  r.kind?.map fun kind => ⟨kind, r.timestamp, r.cpu⟩

end TraceRelay
